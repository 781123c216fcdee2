import Pivox.ImageEditor.CropRect
import Pivox.Timeline

/-!
The editor over several images: an image is loaded while gestures on the last one may be under way,
and the undo history keeps to the image it belongs to as long as no such gesture is committed.
-/

namespace Pivox.ImageEditor
open Transition

variable {K : Type} [Field K] [LinearOrder K]

inductive ImageStatus where
  | idle | loading | loaded | error
  deriving DecidableEq, Repr

/- The present edit state among those of the history. -/
def State.timeline (st : State K) : Timeline (EditState K) :=
  ⟨st.history.past, st.edit, st.history.future⟩

/- Before the first image is loaded its size is zero; what the arithmetic makes of that is left open,
and any image stands in. -/
structure Editor (K : Type) [Field K] [LinearOrder K] where
  state : State K
  image : Image K
  imageStatus : ImageStatus
  canUndo : Bool
  canRedo : Bool
  loads : ℕ

section editor
variable [IsStrictOrderedRing K]

namespace Editor

def new (cropWidth cropHeight : K) (defaultTemplate : CropTemplate K) (maxHistory : ℕ)
    (image : Image K) : Editor K where
  state := .new cropWidth cropHeight defaultTemplate maxHistory
  image := image
  imageStatus := .idle
  canUndo := false
  canRedo := false
  loads := 0

/- The load of an image begins; an earlier one is not called off. -/
def loadImage (ed : Editor K) : Editor K :=
  { ed with imageStatus := .loading, loads := ed.loads + 1 }

def onload (ed : Editor K) (img : Image K) : Editor K where
  state := ed.state.loadImage img
  image := img
  imageStatus := .loaded
  canUndo := false
  canRedo := false
  loads := ed.loads - 1

def onerror (ed : Editor K) : Editor K :=
  { ed with imageStatus := .error, loads := ed.loads - 1 }

/- The flags that an action leaves. -/
def flags (ed : Editor K) : Action K → Bool × Bool
  | .rotateClockwise | .rotateCounterClockwise | .setResizeMode _ | .toggleFlipHorizontal
  | .toggleFlipVertical | .applyTemplate _ | .reset => (true, false)
  | .commitStraighten =>
    if ed.state.preStraightenEditState.isNone then (ed.canUndo, ed.canRedo) else (true, false)
  | .undo =>
    if ed.state.history.past.length = 0 then (ed.canUndo, ed.canRedo)
    else (decide (0 < ed.state.history.past.dropLast.length), true)
  | .redo =>
    if ed.state.history.future.length = 0 then (ed.canUndo, ed.canRedo)
    else (true, decide (0 < ed.state.history.future.tail.length))
  | .pointerUp =>
    if ed.state.isPanning || ed.state.dragOrigin.isNone then (ed.canUndo, ed.canRedo)
    else (true, false)
  | _ => (ed.canUndo, ed.canRedo)

def act (ed : Editor K) (a : Action K) : Editor K :=
  { ed with
    state := step ed.image ed.state a
    canUndo := (ed.flags a).1
    canRedo := (ed.flags a).2 }

end Editor

inductive EditorEvent (K : Type) [Field K] [LinearOrder K] where
  | act (a : Action K)
  | loadImage
  | onload (img : Image K)
  | onerror

/- Where no image is shown nothing is rendered, and a press of the pointer does nothing. -/
def Editor.ignores (ed : Editor K) : Action K → Bool
  | .pointerDown _ _ | .render _ => ed.imageStatus != .loaded
  | _ => false

def Editor.step (ed : Editor K) : EditorEvent K → Option (Editor K)
  | .act a => some (if ed.ignores a then ed else ed.act a)
  | .loadImage => some ed.loadImage
  | .onload img => if ed.loads = 0 then none else some (ed.onload img)
  | .onerror => if ed.loads = 0 then none else some ed.onerror

end editor

/-! What the history is to hold -/

/- A drag or a straighten: not under way, begun on an image that was loaded before the present one,
or begun at an edit state of the present one. -/
inductive Gesture (K : Type) [Field K] [LinearOrder K] where
  | idle
  | outdated
  | since (e : EditState K)

def Gesture.began : Gesture K → List (EditState K)
  | idle | outdated => []
  | since e => [e]

def Gesture.loaded : Gesture K → Gesture K
  | idle => idle
  | _ => outdated

/- The edit states of the present image, and the one that preceded each edit committed and not
undone, the last one last. -/
structure Log (K : Type) [Field K] [LinearOrder K] where
  seen : List (EditState K)
  preceding : List (EditState K)
  drag : Gesture K
  straighten : Gesture K

namespace State

def startsDrag (st : State K) (rect : Point K) (e : PointerEvent K) : Bool :=
  decide (st.mode = .crop) && !decide (st.startsPan e) &&
    (hitTestHandles (st.screenToCropSpace rect e).x (st.screenToCropSpace rect e).y
      st.edit.cropWidth st.edit.cropHeight (16 / st.viewport.scale)).isSome

end State

namespace Log

def precedingAfter (log : Log K) (st : State K) : Action K → List (EditState K)
  | .rotateClockwise | .rotateCounterClockwise | .setResizeMode _ | .toggleFlipHorizontal
  | .toggleFlipVertical | .applyTemplate _ | .reset => log.preceding ++ [st.edit]
  | .commitStraighten => log.preceding ++ log.straighten.began
  | .pointerUp => if st.isPanning then log.preceding else log.preceding ++ log.drag.began
  | .undo => if st.history.past = [] then log.preceding else log.preceding.dropLast
  | .redo => if st.history.future = [] then log.preceding else log.preceding ++ [st.edit]
  | _ => log.preceding

def dragAfter (log : Log K) (st : State K) : Action K → Gesture K
  | .pointerDown rect e => if st.startsDrag rect e then .since st.edit else log.drag
  | .pointerUp => if st.isPanning then log.drag else .idle
  | _ => log.drag

def straightenAfter (log : Log K) (st : State K) : Action K → Gesture K
  | .setStraighten _ =>
    match log.straighten with
    | .idle => .since st.edit
    | gesture => gesture
  | .commitStraighten => .idle
  | _ => log.straighten

def act (log : Log K) (st st' : State K) (a : Action K) : Log K where
  seen := st'.edit :: log.seen
  preceding := log.precedingAfter st a
  drag := log.dragAfter st a
  straighten := log.straightenAfter st a

def onload (log : Log K) (edit : EditState K) : Log K where
  seen := [edit]
  preceding := []
  drag := log.drag.loaded
  straighten := log.straighten.loaded

end Log

structure Session (K : Type) [Field K] [LinearOrder K] where
  editor : Editor K
  log : Log K

namespace Session

def new (editor : Editor K) : Session K :=
  ⟨editor, ⟨[editor.state.edit], [], .idle, .idle⟩⟩

def logAfter (s : Session K) (ed : Editor K) : EditorEvent K → Log K
  | .act a => if s.editor.ignores a then s.log else s.log.act s.editor.state ed.state a
  | .onload _ => s.log.onload ed.state.edit
  | _ => s.log

def step [IsStrictOrderedRing K] (s : Session K) (ev : EditorEvent K) : Option (Session K) :=
  (s.editor.step ev).map fun ed => ⟨ed, s.logAfter ed ev⟩

/-- No gesture that was begun on an image loaded before the present one is committed. -/
def InTime (s : Session K) : EditorEvent K → Prop
  | .act .commitStraighten => s.log.straighten ≠ .outdated
  | .act .pointerUp => s.editor.state.isPanning = false → s.log.drag ≠ .outdated
  | _ => True

end Session

/-- The laws of the undo history. -/
structure HistoryLaws (s : Session K) : Prop where
  canUndo : s.editor.canUndo = true ↔ s.editor.state.history.past ≠ []
  canRedo : s.editor.canRedo = true ↔ s.editor.state.history.future ≠ []
  bounded : s.editor.state.history.past.length ≤ s.editor.state.maxHistory
  restores : s.editor.state.history.past ≠ [] →
    s.log.preceding.getLast? = some s.editor.state.undo.edit
  inverse : ∀ k, k ≤ s.editor.state.history.past.length ∨ s.editor.state.history.future = [] →
    State.redo^[k] (State.undo^[k] s.editor.state) = s.editor.state
  own : ∀ e ∈ s.editor.state.history.past ++ s.editor.state.history.future, e ∈ s.log.seen

/-! Undoing and redoing move along the timeline -/

namespace State

def moved (st : State K) (t : Timeline (EditState K)) : State K :=
  { st with edit := t.present, history := ⟨t.past, t.future⟩ }

theorem undo_moved (st : State K) (t : Timeline (EditState K)) : (st.moved t).undo = st.moved t.undo := by
  cases hlast : t.past.getLast? with
  | none => simp [undo, moved, Timeline.undo, hlast]
  | some previous => simp [undo, moved, Timeline.undo, hlast]

theorem redo_moved (st : State K) (t : Timeline (EditState K)) : (st.moved t).redo = st.moved t.redo := by
  cases hfuture : t.future with
  | nil => simp [redo, moved, Timeline.redo, hfuture]
  | cons next future => simp [redo, moved, Timeline.redo, hfuture]

theorem redo_iterate_undo {st : State K} {k : ℕ}
    (h : k ≤ st.history.past.length ∨ st.history.future = []) : redo^[k] (undo^[k] st) = st := by
  have hundo : undo^[k] (st.moved st.timeline) = st.moved (Timeline.undo^[k] st.timeline) :=
    (Function.Semiconj.iterate_right (fun t => (undo_moved st t).symm) k st.timeline).symm
  have hredo (t : Timeline (EditState K)) : redo^[k] (st.moved t) = st.moved (Timeline.redo^[k] t) :=
    (Function.Semiconj.iterate_right (fun t => (redo_moved st t).symm) k t).symm
  have hback : Timeline.redo^[k] (Timeline.undo^[k] st.timeline) = st.timeline := by
    obtain hk | hnil := h
    · exact Timeline.redo_iterate_undo hk
    · exact Timeline.redo_iterate_undo_of_future_nil k hnil
  calc redo^[k] (undo^[k] st) = redo^[k] (undo^[k] (st.moved st.timeline)) := rfl
    _ = st := by rw [hundo, hredo, hback]; rfl

end State

/-! What is stored -/

structure Stored (h : UndoHistory K) (maxHistory : ℕ) (seen preceding : List (EditState K)) :
    Prop where
  past : ∀ e ∈ h.past, e ∈ seen
  future : ∀ e ∈ h.future, e ∈ seen
  suffix : h.past <:+ preceding
  bounded : h.past.length + h.future.length ≤ maxHistory

namespace Stored
variable {h : UndoHistory K} {n : ℕ} {seen preceding : List (EditState K)} {e : EditState K}

theorem see (hs : Stored h n seen preceding) (e : EditState K) :
    Stored h n (e :: seen) preceding where
  past := fun e' he' => List.mem_cons_of_mem _ (hs.past e' he')
  future := fun e' he' => List.mem_cons_of_mem _ (hs.future e' he')
  suffix := hs.suffix
  bounded := hs.bounded

theorem suffix_append (hs : Stored h n seen preceding) (e : EditState K) :
    h.past ++ [e] <:+ preceding ++ [e] := by
  obtain ⟨older, rfl⟩ := hs.suffix
  exact ⟨older, (List.append_assoc _ _ _).symm⟩

theorem pushHistory (hs : Stored h n seen preceding) (he : e ∈ seen) :
    Stored (pushHistory h e n) n seen (preceding ++ [e]) where
  past := by
    intro e' he'
    obtain hpast | rfl := mem_pushHistory he'
    · exact hs.past e' hpast
    · exact he
  future := nofun
  suffix := by
    unfold ImageEditor.pushHistory
    dsimp only
    split
    · exact (List.tail_suffix _).trans (hs.suffix_append e)
    · exact hs.suffix_append e
  bounded := by
    have := hs.bounded
    unfold ImageEditor.pushHistory
    dsimp only
    split
    · simp
      omega
    · simp at *
      omega

theorem undo (hs : Stored h n seen preceding) (he : e ∈ seen) (hpast : h.past ≠ []) :
    Stored ⟨h.past.dropLast, e :: h.future⟩ n seen preceding.dropLast where
  past := fun e' he' => hs.past e' (List.dropLast_subset _ he')
  future := List.forall_mem_cons.mpr ⟨he, hs.future⟩
  suffix := by
    obtain ⟨older, rfl⟩ := hs.suffix
    exact ⟨older, (List.dropLast_append_of_ne_nil hpast).symm⟩
  bounded := by
    have := hs.bounded
    have := List.length_pos_iff.mpr hpast
    simp only [List.length_dropLast, List.length_cons]
    omega

theorem redo {next : EditState K} {future : List (EditState K)} (hs : Stored h n seen preceding)
    (he : e ∈ seen) (hfuture : h.future = next :: future) :
    Stored ⟨h.past ++ [e], future⟩ n seen (preceding ++ [e]) where
  past := List.forall_mem_append.mpr ⟨hs.past, List.forall_mem_singleton.mpr he⟩
  future := (List.forall_mem_cons.mp (hfuture ▸ hs.future)).2
  suffix := hs.suffix_append e
  bounded := by
    have := hs.bounded
    rw [hfuture] at this
    simp only [List.length_append, List.length_cons, List.length_nil] at *
    omega

end Stored

theorem pushHistory_past_ne_nil {h : UndoHistory K} {n : ℕ} (hn : 1 ≤ n) (e : EditState K) :
    (pushHistory h e n).past ≠ [] := by
  unfold pushHistory
  dsimp only
  split
  · next hlong =>
    intro hnil
    have := congrArg List.length hnil
    simp only [List.length_tail, List.length_nil] at this
    omega
  · simp

/-! What the gestures have saved -/

def Gesture.Saved (seen : List (EditState K)) (saved : Option (EditState K)) : Gesture K → Prop
  | idle => saved = none
  | outdated => saved.isSome
  | since e => saved = some e ∧ e ∈ seen

theorem Gesture.Saved.see {seen : List (EditState K)} {saved : Option (EditState K)} {g : Gesture K}
    (h : g.Saved seen saved) (e : EditState K) : g.Saved (e :: seen) saved := by
  cases g with
  | idle => exact h
  | outdated => exact h
  | since e' => exact ⟨h.1, List.mem_cons_of_mem _ h.2⟩

theorem Gesture.Saved.loaded {seen seen' : List (EditState K)} {saved : Option (EditState K)}
    {g : Gesture K} (h : g.Saved seen saved) : g.loaded.Saved seen' saved := by
  cases g with
  | idle => exact h
  | outdated => exact h
  | since e => exact Option.isSome_of_mem h.1

structure Kept (st : State K) (log : Log K) : Prop where
  stored : Stored st.history st.maxHistory log.seen log.preceding
  positive : 1 ≤ st.maxHistory
  edit : st.edit ∈ log.seen
  initial : st.initialEditState ∈ log.seen
  drag : log.drag.Saved log.seen st.preDragEditState
  origin : st.dragOrigin.isSome = st.preDragEditState.isSome
  straighten : log.straighten.Saved log.seen st.preStraightenEditState

namespace Kept
variable {img : Image K} {st st' : State K} {log : Log K}

/- A step may change the edit state and what the viewport shows. -/
theorem shown (h : Kept st log) (hhistory : st'.history = st.history)
    (hmax : st'.maxHistory = st.maxHistory) (hinitial : st'.initialEditState = st.initialEditState)
    (hdrag : st'.preDragEditState = st.preDragEditState) (horigin : st'.dragOrigin = st.dragOrigin)
    (hstraighten : st'.preStraightenEditState = st.preStraightenEditState) :
    Kept st' ⟨st'.edit :: log.seen, log.preceding, log.drag, log.straighten⟩ where
  stored := hhistory ▸ hmax ▸ h.stored.see _
  positive := hmax ▸ h.positive
  edit := List.mem_cons_self
  initial := hinitial ▸ List.mem_cons_of_mem _ h.initial
  drag := hdrag ▸ h.drag.see _
  origin := by rw [horigin, hdrag, h.origin]
  straighten := hstraighten ▸ h.straighten.see _

theorem pushHistoryAndUpdate (h : Kept st log) (e : EditState K) :
    Kept (st.pushHistoryAndUpdate e)
      ⟨e :: log.seen, log.preceding ++ [st.edit], log.drag, log.straighten⟩ where
  stored := (h.stored.pushHistory h.edit).see e
  positive := h.positive
  edit := List.mem_cons_self
  initial := List.mem_cons_of_mem _ h.initial
  drag := h.drag.see e
  origin := h.origin
  straighten := h.straighten.see e

theorem setStraighten (h : Kept st log) (clamped : Straighten K) :
    Kept (st.setStraighten img clamped)
      (log.act st (st.setStraighten img clamped) (.setStraighten clamped)) := by
  have hsaved : (log.straightenAfter st (.setStraighten clamped)).Saved log.seen
      (some (st.preStraightenEditState.getD st.edit)) := by
    have hstraighten := h.straighten
    unfold Log.straightenAfter
    cases hg : log.straighten with
    | idle =>
      rw [hg] at hstraighten
      exact ⟨by rw [show st.preStraightenEditState = none from hstraighten]; rfl, h.edit⟩
    | outdated => exact rfl
    | since e =>
      rw [hg] at hstraighten
      exact ⟨by rw [hstraighten.1]; rfl, hstraighten.2⟩
  have hpre : Kept
      { st with preStraightenEditState := some (st.preStraightenEditState.getD st.edit) }
      ⟨log.seen, log.preceding, log.drag, log.straightenAfter st (.setStraighten clamped)⟩ :=
    { h with straighten := hsaved }
  exact hpre.shown rfl rfl rfl rfl rfl rfl

theorem commitStraighten (h : Kept st log) (hintime : log.straighten ≠ .outdated) :
    Kept st.commitStraighten (log.act st st.commitStraighten .commitStraighten) := by
  have hstraighten := h.straighten
  unfold State.commitStraighten Log.act
  simp only [Log.precedingAfter, Log.dragAfter, Log.straightenAfter]
  cases hg : log.straighten with
  | idle =>
    rw [hg] at hstraighten
    have hnone : st.preStraightenEditState = none := hstraighten
    simp only [hnone, Gesture.began, List.append_nil]
    exact { h.shown rfl rfl rfl rfl rfl rfl with straighten := hnone }
  | outdated => exact absurd hg hintime
  | since e =>
    rw [hg] at hstraighten
    simp only [hstraighten.1, Gesture.began]
    exact
      { stored := (h.stored.pushHistory hstraighten.2).see _
        positive := h.positive
        edit := List.mem_cons_self
        initial := List.mem_cons_of_mem _ h.initial
        drag := h.drag.see _
        origin := h.origin
        straighten := rfl }

theorem undo (h : Kept st log) : Kept st.undo (log.act st st.undo .undo) := by
  unfold State.undo Log.act
  simp only [Log.precedingAfter, Log.dragAfter, Log.straightenAfter]
  cases hlast : st.history.past.getLast? with
  | none =>
    rw [if_pos (List.getLast?_eq_none_iff.mp hlast)]
    exact h.shown rfl rfl rfl rfl rfl rfl
  | some previous =>
    have hpast : st.history.past ≠ [] := by
      intro hnil
      rw [hnil] at hlast
      cases hlast
    rw [if_neg hpast]
    exact
      { stored := (h.stored.undo h.edit hpast).see _
        positive := h.positive
        edit := List.mem_cons_self
        initial := List.mem_cons_of_mem _ h.initial
        drag := h.drag.see _
        origin := h.origin
        straighten := h.straighten.see _ }

theorem redo (h : Kept st log) : Kept st.redo (log.act st st.redo .redo) := by
  unfold State.redo Log.act
  simp only [Log.precedingAfter, Log.dragAfter, Log.straightenAfter]
  cases hfuture : st.history.future with
  | nil =>
    rw [if_pos rfl]
    exact h.shown rfl rfl rfl rfl rfl rfl
  | cons next future =>
    rw [if_neg (List.cons_ne_nil _ _)]
    exact
      { stored := (h.stored.redo h.edit hfuture).see _
        positive := h.positive
        edit := List.mem_cons_self
        initial := List.mem_cons_of_mem _ h.initial
        drag := h.drag.see _
        origin := h.origin
        straighten := h.straighten.see _ }

theorem onPointerDown (h : Kept st log) (rect : Point K) (e : PointerEvent K) :
    Kept (st.onPointerDown rect e)
      (log.act st (st.onPointerDown rect e) (.pointerDown rect e)) := by
  unfold State.onPointerDown Log.act
  simp only [Log.precedingAfter, Log.dragAfter, Log.straightenAfter, State.startsDrag]
  by_cases hmode : st.mode = .crop
  · by_cases hpan : st.startsPan e
    · simp only [hmode, hpan, ne_eq, not_true, if_false, if_true, decide_true, Bool.not_true,
        Bool.and_false, Bool.false_and, Bool.false_eq_true]
      exact h.shown rfl rfl rfl rfl rfl rfl
    · simp only [hmode, hpan, ne_eq, not_true, if_false, decide_true, decide_false, Bool.not_false,
        Bool.true_and]
      split
      · next hmiss =>
        simp only [hmiss, Option.isSome_none, Bool.false_eq_true, if_false]
        exact h.shown rfl rfl rfl rfl rfl rfl
      · next handle hhit =>
        simp only [hhit, Option.isSome_some, if_true]
        exact
          { stored := h.stored.see _
            positive := h.positive
            edit := List.mem_cons_self
            initial := List.mem_cons_of_mem _ h.initial
            drag := ⟨rfl, List.mem_cons_self⟩
            origin := rfl
            straighten := h.straighten.see _ }
  · simp only [hmode, ne_eq, not_false_eq_true, if_true, decide_false, Bool.false_and,
      Bool.false_eq_true, if_false]
    exact h.shown rfl rfl rfl rfl rfl rfl

theorem onPointerMove (h : Kept st log) (e : PointerEvent K) :
    Kept (st.onPointerMove img e) (log.act st (st.onPointerMove img e) (.pointerMove e)) := by
  unfold State.onPointerMove
  split <;> exact h.shown rfl rfl rfl rfl rfl rfl

theorem onPointerUp (h : Kept st log)
    (hintime : st.isPanning = false → log.drag ≠ .outdated) :
    Kept st.onPointerUp (log.act st st.onPointerUp .pointerUp) := by
  unfold State.onPointerUp Log.act
  simp only [Log.precedingAfter, Log.dragAfter, Log.straightenAfter]
  cases hpan : st.isPanning with
  | true =>
    simp only [if_true]
    exact h.shown rfl rfl rfl rfl rfl rfl
  | false =>
    simp only [Bool.false_eq_true, if_false]
    have hdrag := h.drag
    have horigin := h.origin
    cases hg : log.drag with
    | idle =>
      rw [hg] at hdrag
      have hnone : st.preDragEditState = none := hdrag
      rw [hnone, Option.isSome_none, Option.isSome_eq_false_iff, Option.isNone_iff_eq_none] at horigin
      simp only [horigin, Gesture.began, List.append_nil]
      exact { h.shown rfl rfl rfl rfl rfl rfl with drag := hnone }
    | outdated => exact absurd hg (hintime hpan)
    | since e =>
      rw [hg] at hdrag
      rw [hdrag.1, Option.isSome_some, Option.isSome_iff_exists] at horigin
      obtain ⟨origin, horigin⟩ := horigin
      simp only [horigin, hdrag.1, Option.getD_some, Gesture.began]
      exact
        { stored := (h.stored.pushHistory hdrag.2).see _
          positive := h.positive
          edit := List.mem_cons_self
          initial := List.mem_cons_of_mem _ h.initial
          drag := rfl
          origin := rfl
          straighten := h.straighten.see _ }

theorem applyTemplate (h : Kept st log) (template : Option (CropTemplate K)) :
    Kept (st.applyTemplate img template)
      (log.act st (st.applyTemplate img template) (.applyTemplate template)) := by
  unfold State.applyTemplate
  split <;> exact h.pushHistoryAndUpdate _

/-- Every action keeps the history as it is to be, if it commits no gesture on an earlier image. -/
theorem act [IsStrictOrderedRing K] (h : Kept st log) {a : Action K}
    (hcommit : a = .commitStraighten → log.straighten ≠ .outdated)
    (hup : a = .pointerUp → st.isPanning = false → log.drag ≠ .outdated) :
    Kept (step img st a) (log.act st (step img st a) a) := by
  cases a with
  | rotateClockwise => exact h.pushHistoryAndUpdate _
  | rotateCounterClockwise => exact h.pushHistoryAndUpdate _
  | setStraighten clamped => exact h.setStraighten clamped
  | commitStraighten => exact h.commitStraighten (hcommit rfl)
  | setResizeMode mode => exact h.pushHistoryAndUpdate _
  | toggleFlipHorizontal => exact h.pushHistoryAndUpdate _
  | toggleFlipVertical => exact h.pushHistoryAndUpdate _
  | applyTemplate template => exact h.applyTemplate template
  | reset => exact h.pushHistoryAndUpdate _
  | undo => exact h.undo
  | redo => exact h.redo
  | pointerDown rect e => exact h.onPointerDown rect e
  | pointerMove e => exact h.onPointerMove e
  | pointerUp => exact h.onPointerUp (hup rfl)
  | _ => exact h.shown rfl rfl rfl rfl rfl rfl

end Kept

/-! What the flags say -/

structure Flagged (flags : Bool × Bool) (h : UndoHistory K) : Prop where
  canUndo : flags.1 = true ↔ h.past ≠ []
  canRedo : flags.2 = true ↔ h.future ≠ []

namespace Flagged
variable {ed : Editor K}

theorem pushHistory {h : UndoHistory K} {n : ℕ} (hn : 1 ≤ n) (e : EditState K) :
    Flagged (true, false) (pushHistory h e n) :=
  ⟨iff_of_true rfl (pushHistory_past_ne_nil hn e), iff_of_false Bool.false_ne_true (not_not.mpr rfl)⟩

theorem undo (h : Flagged (ed.canUndo, ed.canRedo) ed.state.history) :
    Flagged (ed.flags .undo) ed.state.undo.history := by
  unfold Editor.flags State.undo
  cases hlast : ed.state.history.past.getLast? with
  | none =>
    simp only [List.getLast?_eq_none_iff.mp hlast, List.length_nil, if_true]
    exact h
  | some previous =>
    have hpast : ed.state.history.past.length ≠ 0 := by
      intro hzero
      rw [List.length_eq_zero_iff.mp hzero] at hlast
      cases hlast
    simp only [if_neg hpast]
    exact ⟨by rw [decide_eq_true_iff, List.length_pos_iff], by simp⟩

theorem redo (h : Flagged (ed.canUndo, ed.canRedo) ed.state.history) :
    Flagged (ed.flags .redo) ed.state.redo.history := by
  unfold Editor.flags State.redo
  cases hfuture : ed.state.history.future with
  | nil => exact h
  | cons next future =>
    simp only [List.length_cons, Nat.succ_ne_zero, if_false, List.tail_cons]
    exact ⟨by simp, decide_eq_true_iff.trans List.length_pos_iff⟩

theorem act [IsStrictOrderedRing K] (h : Flagged (ed.canUndo, ed.canRedo) ed.state.history)
    (hmax : 1 ≤ ed.state.maxHistory) (a : Action K) :
    Flagged (ed.flags a) (step ed.image ed.state a).history := by
  cases a with
  | rotateClockwise => exact pushHistory hmax _
  | rotateCounterClockwise => exact pushHistory hmax _
  | commitStraighten =>
    simp only [Editor.flags, ImageEditor.step, State.commitStraighten]
    cases ed.state.preStraightenEditState with
    | none => exact h
    | some pre => exact pushHistory hmax pre
  | setResizeMode mode => exact pushHistory hmax _
  | toggleFlipHorizontal => exact pushHistory hmax _
  | toggleFlipVertical => exact pushHistory hmax _
  | applyTemplate template =>
    simp only [Editor.flags, ImageEditor.step, State.applyTemplate]
    split <;> exact pushHistory hmax _
  | reset => exact pushHistory hmax _
  | undo => exact h.undo
  | redo => exact h.redo
  | pointerDown rect e =>
    simp only [Editor.flags, ImageEditor.step, State.onPointerDown]
    split
    · exact h
    · split
      · exact h
      · split <;> exact h
  | pointerMove e =>
    simp only [Editor.flags, ImageEditor.step, State.onPointerMove]
    split <;> exact h
  | pointerUp =>
    simp only [Editor.flags, ImageEditor.step, State.onPointerUp]
    cases ed.state.isPanning with
    | true => exact h
    | false =>
      cases ed.state.dragOrigin with
      | none => exact h
      | some origin => exact pushHistory hmax _
  | _ => exact h

end Flagged

/-! Every run -/

structure Session.Kept (s : Session K) : Prop where
  state : ImageEditor.Kept s.editor.state s.log
  flags : Flagged (s.editor.canUndo, s.editor.canRedo) s.editor.state.history

theorem Session.Kept.laws {s : Session K} (h : s.Kept) : HistoryLaws s where
  canUndo := h.flags.canUndo
  canRedo := h.flags.canRedo
  bounded := (Nat.le_add_right _ _).trans h.state.stored.bounded
  restores := by
    intro hpast
    obtain ⟨older, heq⟩ := h.state.stored.suffix
    have hlast : s.editor.state.history.past.getLast? = some (s.editor.state.history.past.getLast hpast) :=
      List.getLast?_eq_some_getLast hpast
    rw [← heq, List.getLast?_append, hlast, State.undo, hlast]
    rfl
  inverse := fun _ hk => State.redo_iterate_undo hk
  own := List.forall_mem_append.mpr ⟨h.state.stored.past, h.state.stored.future⟩

variable [IsStrictOrderedRing K]

theorem Session.Kept.onload {s : Session K} (h : s.Kept) (img : Image K) :
    Session.Kept ⟨s.editor.onload img, s.log.onload (s.editor.onload img).state.edit⟩ where
  state :=
    { stored := ⟨nofun, nofun, List.suffix_rfl, Nat.zero_le _⟩
      positive := h.state.positive
      edit := List.mem_cons_self
      initial := List.mem_cons_self
      drag := h.state.drag.loaded
      origin := h.state.origin
      straighten := h.state.straighten.loaded }
  flags := ⟨by simp [Editor.onload, State.loadImage], by simp [Editor.onload, State.loadImage]⟩

theorem Session.Kept.step {s s' : Session K} (h : s.Kept) {ev : EditorEvent K}
    (hintime : s.InTime ev) (hstep : s.step ev = some s') : s'.Kept := by
  obtain ⟨ed, hed, rfl⟩ := Option.map_eq_some_iff.mp hstep
  cases ev with
  | act a =>
    cases hed
    simp only [Session.logAfter]
    split
    · exact h
    · refine ⟨h.state.act ?_ ?_, h.flags.act h.state.positive a⟩
      · rintro rfl
        exact hintime
      · rintro rfl
        exact hintime
  | loadImage =>
    cases hed
    exact ⟨h.state, h.flags⟩
  | onload img =>
    simp only [Editor.step, Option.ite_none_left_eq_some, Option.some.injEq] at hed
    obtain ⟨-, rfl⟩ := hed
    exact h.onload img
  | onerror =>
    simp only [Editor.step, Option.ite_none_left_eq_some, Option.some.injEq] at hed
    obtain ⟨-, rfl⟩ := hed
    exact ⟨h.state, h.flags⟩

/-- The undo history keeps its laws in every run in which no gesture on an earlier image is
committed. -/
theorem history_laws {cropWidth cropHeight : K} {template : CropTemplate K} {maxHistory : ℕ}
    {image : Image K} {s : Session K} (hmax : 1 ≤ maxHistory)
    (h : Runs Session.step Session.InTime
      (.new (.new cropWidth cropHeight template maxHistory image)) s) : HistoryLaws s := by
  have hnew : (Session.new (.new cropWidth cropHeight template maxHistory image)).Kept :=
    { state :=
        { stored := ⟨nofun, nofun, List.suffix_rfl, Nat.zero_le _⟩
          positive := hmax
          edit := List.mem_cons_self
          initial := List.mem_cons_self
          drag := rfl
          origin := rfl
          straighten := rfl }
      flags := ⟨by simp [Session.new, Editor.new, State.new], by simp [Session.new, Editor.new, State.new]⟩ }
  have hkept : s.Kept := h.invariant hnew fun _ _ _ hs hintime hstep => hs.step hintime hstep
  exact hkept.laws

/-! An image is loaded while another is being straightened -/

def begun : Session ℚ := .new (.new 0 0 freeTemplate 50 square)

def straightened : List (EditorEvent ℚ) :=
  [.loadImage, .onload square, .act (.setStraighten steep), .act .commitStraighten]

theorem history_laws_straightened :
    ∃ s, exec Session.step begun straightened = some s ∧ HistoryLaws s := by
  obtain ⟨s, hs, hrun⟩ : ∃ s, exec Session.step begun straightened = some s ∧
      Runs Session.step Session.InTime (.new (.new 0 0 freeTemplate 50 square)) s := by
    refine ⟨_, rfl, ((((Runs.refl begun).tail (a := .loadImage) trivial rfl).tail
      (a := .onload square) trivial rfl).tail (a := .act (.setStraighten steep)) trivial rfl).tail
        (a := .act .commitStraighten) ?_ rfl⟩
    intro heq
    cases heq
  exact ⟨s, hs, history_laws (by decide) hrun⟩

def reloaded : List (EditorEvent ℚ) :=
  [.loadImage, .onload square, .act (.setStraighten steep), .loadImage, .onload landscape,
    .act .commitStraighten]

theorem history_not_own : ¬ ∀ (cropWidth cropHeight : ℚ) (template : CropTemplate ℚ) (maxHistory : ℕ)
    (image : Image ℚ) (s : Session ℚ), 1 ≤ maxHistory →
      Runs Session.step (fun _ _ => True)
        (.new (.new cropWidth cropHeight template maxHistory image)) s → HistoryLaws s := by
  intro h
  have hlaws := h 0 0 freeTemplate 50 square _ (by decide) (.of_exec reloaded rfl (by decide +kernel))
  have hown := hlaws.own (loadedEditState square (some freeTemplate)) List.mem_cons_self
  cases hown with
  | tail _ hown =>
    cases hown with
    | tail _ hown => cases hown

end Pivox.ImageEditor
