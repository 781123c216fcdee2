import Pivox.ImageEditor.Engine
import Pivox.Transition
import Mathlib.Data.Rat.Cast.Order
import Mathlib.Tactic.NormNum

/-!
No dead pixels: in every run whose requests fit on both axes of the image, the crop rectangle stays
covered, in the present edit state and in every one that undo, redo and reset bring back.
-/

namespace Pivox.ImageEditor
open Transition

variable {K : Type} [Field K] [LinearOrder K]

/-- A property of the present placement and of each one that an action can restore. -/
structure Everywhere (P : Placement K → Prop) (st : State K) : Prop where
  edit : P st.edit.placement
  initial : P st.initialEditState.placement
  past : ∀ e ∈ st.history.past, P e.placement
  future : ∀ e ∈ st.history.future, P e.placement
  preDrag : ∀ e ∈ st.preDragEditState, P e.placement
  preStraighten : ∀ e ∈ st.preStraightenEditState, P e.placement

variable {P : Placement K → Prop} {img : Image K} {st st' : State K}

theorem mem_pushHistory {h : UndoHistory K} {e current : EditState K} {n : ℕ}
    (he : e ∈ (pushHistory h current n).past) : e ∈ h.past ∨ e = current := by
  have : e ∈ h.past ++ [current] := by
    unfold pushHistory at he
    dsimp only at he
    split at he
    · exact List.mem_of_mem_tail he
    · exact he
  simpa using this

namespace Everywhere

theorem pushed (h : Everywhere P st) {e : EditState K} (he : P e.placement) :
    ∀ e' ∈ (pushHistory st.history e st.maxHistory).past, P e'.placement := by
  intro e' he'
  obtain hpast | rfl := mem_pushHistory he'
  · exact h.past e' hpast
  · exact he

theorem pushHistoryAndUpdate (h : Everywhere P st) {e : EditState K} (he : P e.placement) :
    Everywhere P (st.pushHistoryAndUpdate e) where
  edit := he
  initial := h.initial
  past := h.pushed h.edit
  future := nofun
  preDrag := h.preDrag
  preStraighten := h.preStraighten

theorem applyRotationChange (h : Everywhere P st) {rotation : Quarter} {straighten : Straighten K}
    (hp : P ((st.rotationPlacement img rotation straighten).clamped img)) (push : Bool) :
    Everywhere P (st.applyRotationChange img rotation straighten push) := by
  unfold State.applyRotationChange
  cases push with
  | true => exact h.pushHistoryAndUpdate hp
  | false => exact { h with edit := hp }

theorem setStraighten (h : Everywhere P st) {clamped : Straighten K}
    (hp : P ((st.rotationPlacement img st.edit.rotation clamped).clamped img)) :
    Everywhere P (st.setStraighten img clamped) := by
  have hpre : P (st.preStraightenEditState.getD st.edit).placement := by
    cases hpre : st.preStraightenEditState with
    | none => exact h.edit
    | some pre => exact h.preStraighten pre hpre
  have hst : Everywhere P
      { st with preStraightenEditState := some (st.preStraightenEditState.getD st.edit) } :=
    { h with preStraighten := by rintro _ ⟨⟩; exact hpre }
  exact hst.applyRotationChange hp false

theorem commitStraighten (h : Everywhere P st) : Everywhere P st.commitStraighten := by
  unfold State.commitStraighten
  split
  · exact h
  · next pre hpre =>
    exact { h with
      past := h.pushed (h.preStraighten pre hpre)
      future := nofun
      preStraighten := nofun }

theorem applyTemplate (h : Everywhere P st) {template : Option (CropTemplate K)}
    (hp : ∀ ratio ∈ template.bind (·.ratio), P ((st.templatePlacement img ratio).clamped img)) :
    Everywhere P (st.applyTemplate img template) := by
  unfold State.applyTemplate
  split
  · exact h.pushHistoryAndUpdate h.edit
  · next ratio hratio => exact h.pushHistoryAndUpdate (hp ratio hratio)

theorem undo (h : Everywhere P st) : Everywhere P st.undo := by
  unfold State.undo
  split
  · exact h
  · next previous hprevious =>
    exact { h with
      edit := h.past previous (List.mem_of_getLast? hprevious)
      past := fun e he => h.past e (List.dropLast_subset _ he)
      future := List.forall_mem_cons.mpr ⟨h.edit, h.future⟩ }

theorem redo (h : Everywhere P st) : Everywhere P st.redo := by
  unfold State.redo
  split
  · exact h
  · next next future hfuture =>
    obtain ⟨hnext, hrest⟩ := List.forall_mem_cons.mp (hfuture ▸ h.future)
    exact { h with
      edit := hnext
      past := List.forall_mem_append.mpr ⟨h.past, List.forall_mem_singleton.mpr h.edit⟩
      future := hrest }

theorem onPointerDown (h : Everywhere P st) (rect : Point K) (e : PointerEvent K) :
    Everywhere P (st.onPointerDown rect e) := by
  unfold State.onPointerDown
  split
  · exact h
  · split
    · exact { h with }
    · dsimp only
      split
      · exact h
      · exact { h with preDrag := by rintro _ ⟨⟩; exact h.edit }

theorem dragPlacement_angle (drag : DragOrigin K) (e : PointerEvent K) :
    (st.dragPlacement img drag e).angle = totalAngle st.edit.rotation st.edit.straighten := by
  unfold State.dragPlacement
  dsimp only
  split <;> rfl

theorem place_drag (drag : DragOrigin K) (e : PointerEvent K) :
    (State.place img st.edit (st.dragPlacement img drag e)).placement =
      (st.dragPlacement img drag e).clamped img := by
  simp only [EditState.placement, State.place, Placement.clamped, dragPlacement_angle]

theorem onPointerMove (h : Everywhere P st) {e : PointerEvent K}
    (hp : st.pan = none → ∀ drag ∈ st.dragOrigin, P ((st.dragPlacement img drag e).clamped img)) :
    Everywhere P (st.onPointerMove img e) := by
  unfold State.onPointerMove
  split
  · exact { h with }
  · next drag hpan hdrag =>
    exact { h with edit := place_drag drag e ▸ hp hpan drag hdrag }
  · exact h

theorem onPointerUp (h : Everywhere P st) : Everywhere P st.onPointerUp := by
  unfold State.onPointerUp
  split
  · exact { h with }
  · split
    · exact h
    · have hpre : P (st.preDragEditState.getD st.initialEditState).placement := by
        cases hpre : st.preDragEditState with
        | none => exact h.initial
        | some e => exact h.preDrag e hpre
      exact { h with
        past := h.pushed hpre
        future := nofun
        preDrag := nofun }

/-- What holds of every placement goes on to hold of every placement, if it holds of the one asked
for once that is clamped. -/
theorem step (h : Everywhere P st) (a : Action K)
    (hp : ∀ p ∈ st.asks img a, P (p.clamped img)) : Everywhere P (step img st a) := by
  cases a with
  | rotateClockwise => exact h.applyRotationChange (hp _ rfl) true
  | rotateCounterClockwise => exact h.applyRotationChange (hp _ rfl) true
  | setStraighten clamped => exact h.setStraighten (hp _ rfl)
  | commitStraighten => exact h.commitStraighten
  | setResizeMode mode => exact h.pushHistoryAndUpdate h.edit
  | toggleFlipHorizontal => exact h.pushHistoryAndUpdate h.edit
  | toggleFlipVertical => exact h.pushHistoryAndUpdate h.edit
  | applyTemplate template =>
    exact h.applyTemplate fun ratio hratio => hp _ (Option.mem_map_of_mem _ hratio)
  | reset => exact h.pushHistoryAndUpdate h.initial
  | undo => exact h.undo
  | redo => exact h.redo
  | pointerDown rect e => exact h.onPointerDown rect e
  | pointerMove e =>
    refine h.onPointerMove fun hpan drag hdrag => hp _ ?_
    simp only [State.asks, hpan, Option.isSome_none, Bool.false_eq_true, if_false]
    exact Option.mem_map_of_mem _ hdrag
  | pointerUp => exact h.onPointerUp
  | _ => exact { h with }

end Everywhere

/-- An action that asks for a place puts the image there, clamped. -/
theorem step_placement {a : Action K} {p : Placement K} (hp : p ∈ st.asks img a) :
    (step img st a).edit.placement = p.clamped img := by
  cases a with
  | rotateClockwise => cases hp; rfl
  | rotateCounterClockwise => cases hp; rfl
  | setStraighten clamped => cases hp; rfl
  | applyTemplate template =>
    obtain ⟨ratio, hratio, rfl⟩ := Option.mem_map.mp hp
    simp only [step, State.applyTemplate, Option.mem_def.mp hratio]
    rfl
  | pointerMove e =>
    simp only [State.asks] at hp
    split at hp
    · cases hp
    · next hpan =>
      obtain ⟨drag, hdrag, rfl⟩ := Option.mem_map.mp hp
      rw [Option.not_isSome_iff_eq_none] at hpan
      simp only [step, State.onPointerMove, hpan, Option.mem_def.mp hdrag]
      exact Everywhere.place_drag drag e
  | _ => cases hp

/-! The crop is covered -/

section
variable [IsStrictOrderedRing K]

theorem Covers.minScale_le {p : Placement K} (h : Covers img p) : p.minScale img ≤ p.scale := by
  obtain ⟨hw, hh⟩ := h
  refine max_le ?_ ?_
  · rw [div_le_iff₀ img.width_pos]
    linarith [abs_nonneg (p.angle.cos * p.tx + p.angle.sin * p.ty)]
  · rw [div_le_iff₀ img.height_pos]
    linarith [abs_nonneg (p.angle.cos * p.ty - p.angle.sin * p.tx)]

/- A move of the image keeps the scale that covers the crop, and what changes the crop or the angle
raises it. -/
omit [IsStrictOrderedRing K] in
theorem asks_minScale_le (h : st.edit.placement.minScale img ≤ st.edit.placement.scale)
    {a : Action K} {p : Placement K} (hp : p ∈ st.asks img a) : p.minScale img ≤ p.scale := by
  cases a with
  | rotateClockwise => cases hp; exact le_max_right _ _
  | rotateCounterClockwise => cases hp; exact le_max_right _ _
  | setStraighten clamped => cases hp; exact le_max_right _ _
  | applyTemplate template =>
    obtain ⟨ratio, -, rfl⟩ := Option.mem_map.mp hp
    exact le_max_right _ _
  | pointerMove e =>
    simp only [State.asks] at hp
    split at hp
    · cases hp
    · obtain ⟨drag, -, rfl⟩ := Option.mem_map.mp hp
      unfold State.dragPlacement
      dsimp only
      split
      · exact h
      · exact le_max_left _ _
  | _ => cases hp

/-- Where an action asks for a place, it keeps the crop covered exactly if the place fits. -/
theorem step_covers_iff (h : Covers img st.edit.placement) {a : Action K} {p : Placement K}
    (hp : p ∈ st.asks img a) : Covers img (step img st a).edit.placement ↔ p.Fits img := by
  rw [step_placement hp]
  exact Placement.clamped_covers_iff (asks_minScale_le h.minScale_le hp)

theorem loaded_covers (img : Image K) (template : Option (CropTemplate K)) :
    Covers img (loadedEditState img template).placement := by
  have hangle : totalAngle .deg0 (Straighten.none : Straighten K) = ⟨1, 0⟩ := by
    simp [totalAngle, Direction.add, Quarter.direction, Straighten.none]
  constructor <;> simp [EditState.placement, loadedEditState, hangle]

/-- What is asked for fits on both axes of the image. -/
def Meets (img : Image K) (st : State K) (a : Action K) : Prop :=
  ∀ p ∈ st.asks img a, p.Fits img

def editorStep (img : Image K) (st : State K) (a : Action K) : Option (State K) :=
  some (step img st a)

/- No drag and no straighten is under way. -/
structure Idle (st : State K) : Prop where
  preDrag : st.preDragEditState = none
  preStraighten : st.preStraightenEditState = none

/-- An image has just been loaded, the first one or after a run on another, while the editor was
idle. -/
inductive Loaded : Image K → State K → Prop where
  | first {img : Image K} {st : State K} : Idle st → st.viewport = ⟨1, 0, 0⟩ →
      Loaded img (st.loadImage img)
  | next {img img' : Image K} {st₀ st : State K} : Loaded img' st₀ →
      Runs (editorStep img') (fun _ _ => True) st₀ st → Idle st → Loaded img (st.loadImage img)

theorem everywhere_loaded (hP : ∀ template, P (loadedEditState img template).placement)
    (h : Loaded img st) : Everywhere P st := by
  have hidle {st : State K} (hst : Idle st) : Everywhere P (st.loadImage img) :=
    { edit := hP _
      initial := hP _
      past := nofun
      future := nofun
      preDrag := fun e (he : e ∈ st.preDragEditState) => by simp [hst.preDrag] at he
      preStraighten := fun e (he : e ∈ st.preStraightenEditState) => by
        simp [hst.preStraighten] at he }
  cases h with
  | first hst _ => exact hidle hst
  | next _ _ hst => exact hidle hst

theorem everywhere_covers {st₀ : State K} (h₀ : Loaded img st₀)
    (h : Runs (editorStep img) (Meets img) st₀ st) : Everywhere (Covers img) st := by
  refine h.invariant (everywhere_loaded (loaded_covers img) h₀) fun st a st' hst ha hstep => ?_
  cases hstep
  exact hst.step a fun p hp =>
    (Placement.clamped_covers_iff (asks_minScale_le hst.edit.minScale_le hp)).mpr (ha p hp)

/-- No dead pixels, as long as every request fits and images are loaded while the editor is idle. -/
theorem no_dead_pixels {st₀ : State K} (h₀ : Loaded img st₀)
    (h : Runs (editorStep img) (Meets img) st₀ st) : Covers img st.edit.placement :=
  (everywhere_covers h₀ h).edit

/-! Without straightening every request fits -/

def Level (p : Placement K) : Prop :=
  p.angle.cos * p.angle.sin = 0

theorem totalAngle_unit (r : Quarter) (s : Straighten K) :
    (totalAngle r s).cos ^ 2 + (totalAngle r s).sin ^ 2 = 1 := by
  cases r <;> simp only [totalAngle, Quarter.direction, Direction.add] <;> linarith [s.unit]

theorem totalAngle_level (r : Quarter) (s : Straighten K) :
    (totalAngle r s).cos * (totalAngle r s).sin = 0 ↔ s.direction.cos * s.direction.sin = 0 := by
  cases r <;> simp [totalAngle, Quarter.direction, Direction.add, mul_comm]

omit [IsStrictOrderedRing K] in
theorem asks_angle {a : Action K} {p : Placement K} (hp : p ∈ st.asks img a) :
    (∃ r, p.angle = totalAngle r st.edit.straighten) ∨
      ∃ r s, a = .setStraighten s ∧ p.angle = totalAngle r s := by
  cases a with
  | rotateClockwise => cases hp; exact .inl ⟨_, rfl⟩
  | rotateCounterClockwise => cases hp; exact .inl ⟨_, rfl⟩
  | setStraighten clamped => cases hp; exact .inr ⟨_, _, rfl, rfl⟩
  | applyTemplate template =>
    obtain ⟨ratio, -, rfl⟩ := Option.mem_map.mp hp
    exact .inl ⟨_, rfl⟩
  | pointerMove e =>
    simp only [State.asks] at hp
    split at hp
    · cases hp
    · obtain ⟨drag, -, rfl⟩ := Option.mem_map.mp hp
      exact .inl ⟨_, Everywhere.dragPlacement_angle drag e⟩
  | _ => cases hp

/-- At a quarter turn each translation moves along one axis of the image only. -/
theorem Placement.fits_of_level {p : Placement K} (hlevel : Level p)
    (hunit : p.angle.cos ^ 2 + p.angle.sin ^ 2 = 1) : p.Fits img := by
  have heps : (epsilon : K) < 1 := by unfold epsilon; norm_num
  have htiny (x y : K) (hxy : x * y = 0) (h : x ^ 2 + y ^ 2 = 1) (hx : 0 < |x|)
      (hxe : |x| ≤ epsilon) : False := by
    have hy : y = 0 := (mul_eq_zero.mp hxy).resolve_left (abs_pos.mp hx)
    rw [hy, zero_pow two_ne_zero, add_zero, ← sq_abs] at h
    have := pow_lt_one₀ hx.le (hxe.trans_lt heps) two_ne_zero
    linarith
  have hcs : p.angle.cos * p.angle.sin = 0 := hlevel
  have hsc : p.angle.sin * p.angle.cos = 0 := by rw [mul_comm, hcs]
  have hunit' : p.angle.sin ^ 2 + p.angle.cos ^ 2 = 1 := by rw [add_comm, hunit]
  refine ⟨⟨fun h => ?_, fun h h' => (htiny _ _ hcs hunit h h').elim,
      fun h h' => (htiny _ _ hsc hunit' h h').elim⟩,
    ⟨fun h => ?_, fun h h' => (htiny _ _ hcs hunit h h').elim, fun h h' => ?_⟩⟩
  · rw [hcs, zero_mul] at h
    exact absurd h (lt_irrefl 0)
  · rw [mul_neg, hcs, neg_zero, zero_mul] at h
    exact absurd h (lt_irrefl 0)
  · rw [abs_neg] at h h'
    exact (htiny _ _ hsc hunit' h h').elim

theorem level_iff (e : EditState K) :
    Level e.placement ↔ e.straighten.direction.cos * e.straighten.direction.sin = 0 :=
  totalAngle_level e.rotation e.straighten

/-- An editor whose image is never straightened shows no dead pixels. -/
theorem no_dead_pixels_unstraightened {st₀ : State K} (h₀ : Loaded img st₀)
    (h : Runs (editorStep img) (fun _ a => ∀ s, a ≠ .setStraighten s) st₀ st) :
    Covers img st.edit.placement := by
  have hlevel (template : Option (CropTemplate K)) : Level (loadedEditState img template).placement :=
    (level_iff _).mpr (by simp [loadedEditState, Straighten.none])
  have hinv : Everywhere (fun p => Covers img p ∧ Level p) st := by
    refine h.invariant
      (everywhere_loaded (fun template => ⟨loaded_covers img template, hlevel template⟩) h₀)
      fun st a st' hst ha hstep => ?_
    cases hstep
    refine hst.step a fun p hp => ?_
    obtain ⟨hcovers, hlevel⟩ := hst.edit
    obtain ⟨r, hr⟩ | ⟨r, s, rfl, -⟩ := asks_angle hp
    · have hp' : Level p := by
        unfold Level
        rw [hr]
        exact (totalAngle_level r _).mpr ((level_iff st.edit).mp hlevel)
      have hfits : p.Fits img := Placement.fits_of_level hp' (hr ▸ totalAngle_unit r _)
      exact ⟨(Placement.clamped_covers_iff (asks_minScale_le hcovers.minScale_le hp)).mpr hfits, hp'⟩
    · exact absurd rfl (ha s)
  exact hinv.edit.1

/-! The viewport has a scale to divide by -/

structure CropPos (p : Placement K) : Prop where
  width : 0 < p.cropWidth
  height : 0 < p.cropHeight

theorem minCropSize_pos : (0 : K) < minCropSize := by
  unfold minCropSize
  norm_num

theorem applyCropTemplate_pos (img : Image K) {ratio w h : K} (hr : 0 < ratio) :
    0 < (applyCropTemplate (some ratio) w h img.naturalWidth img.naturalHeight).1 ∧
      0 < (applyCropTemplate (some ratio) w h img.naturalWidth img.naturalHeight).2 := by
  unfold applyCropTemplate
  dsimp only
  split
  · exact ⟨mul_pos img.height_pos hr, img.height_pos⟩
  · exact ⟨img.width_pos, div_pos img.width_pos hr⟩

omit [IsStrictOrderedRing K] in
theorem ratio_pos {template : Option (CropTemplate K)} {ratio : K}
    (h : ratio ∈ template.bind (·.ratio)) : 0 < ratio := by
  obtain ⟨t, -, ht⟩ := Option.bind_eq_some_iff.mp h
  exact t.ratio_pos ratio ht

theorem resizeCropFromHandle_pos {handle : DragHandle} (dx dy w h : K) {ratio : Option K}
    (hmove : handle ≠ .move) (hr : ∀ r ∈ ratio, 0 < r) :
    0 < (resizeCropFromHandle handle dx dy w h ratio).1 ∧
      0 < (resizeCropFromHandle handle dx dy w h ratio).2 := by
  have hpos (x : K) : 0 < max x minCropSize := minCropSize_pos.trans_le (le_max_right _ _)
  unfold resizeCropFromHandle
  rw [if_neg hmove]
  cases ratio with
  | none => exact ⟨hpos _, hpos _⟩
  | some r =>
    dsimp only
    split
    · exact ⟨hpos _, div_pos (hpos _) (hr r rfl)⟩
    · exact ⟨mul_pos (hpos _) (hr r rfl), hpos _⟩

theorem resizedCrop_pos {orig : EditState K} {handle : DragHandle} {dx dy : K}
    (hmove : handle ≠ .move) : 0 < (State.resizedCrop img orig handle dx dy).1 ∧
      0 < (State.resizedCrop img orig handle dx dy).2 := by
  obtain ⟨hw, hh⟩ := resizeCropFromHandle_pos dx dy orig.cropWidth orig.cropHeight hmove
    fun r (hr : r ∈ orig.activeTemplate.bind (·.ratio)) => ratio_pos hr
  have hcropW := lt_min hw img.width_pos
  have hcropH := lt_min hh img.height_pos
  unfold State.resizedCrop
  dsimp only
  split
  · exact ⟨hcropW, hcropH⟩
  · next ratio hratio =>
    split
    · exact ⟨mul_pos hcropH (ratio_pos hratio), hcropH⟩
    · exact ⟨hcropW, div_pos hcropW (ratio_pos hratio)⟩

theorem asks_cropPos (h : CropPos st.edit.placement) {a : Action K} {p : Placement K}
    (hp : p ∈ st.asks img a) : CropPos p := by
  cases a with
  | rotateClockwise => cases hp; exact ⟨h.width, h.height⟩
  | rotateCounterClockwise => cases hp; exact ⟨h.width, h.height⟩
  | setStraighten clamped => cases hp; exact ⟨h.width, h.height⟩
  | applyTemplate template =>
    obtain ⟨ratio, hratio, rfl⟩ := Option.mem_map.mp hp
    obtain ⟨hw, hh⟩ := applyCropTemplate_pos img (ratio_pos hratio)
    exact ⟨hw, hh⟩
  | pointerMove e =>
    simp only [State.asks] at hp
    split at hp
    · cases hp
    · obtain ⟨drag, -, rfl⟩ := Option.mem_map.mp hp
      unfold State.dragPlacement
      dsimp only
      split
      · exact ⟨h.width, h.height⟩
      · next hmove => exact ⟨(resizedCrop_pos hmove).1, (resizedCrop_pos hmove).2⟩
  | _ => cases hp

/- What the pointer divides by is positive. -/
structure Scaled (st : State K) : Prop where
  crops : Everywhere CropPos st
  zoom : 0 < st.zoom
  viewport : 0 < st.viewport.scale

theorem zoomMin_pos : (0 : K) < State.zoomMin := by
  unfold State.zoomMin
  norm_num

theorem zoomMax_pos : (0 : K) < State.zoomMax := by
  unfold State.zoomMax
  norm_num

theorem Scaled.render (h : Scaled st) (container : Container K) :
    0 < (st.render container).viewport.scale := by
  have hzoom : 0 < if st.zoomMode = .fit then 100 else st.zoom := by
    split
    · norm_num
    · exact h.zoom
  have hdraw : 0 < min ((container.clientWidth - State.canvasPadding * 2) / st.edit.cropWidth)
      ((container.clientHeight - State.canvasPadding * 2) / st.edit.cropHeight) :=
    lt_min (div_pos (sub_pos.mpr container.width_room) h.crops.edit.width)
      (div_pos (sub_pos.mpr container.height_room) h.crops.edit.height)
  exact mul_pos hdraw (div_pos hzoom (by norm_num))

/- Only the zoom actions and a rendering change what the pointer divides by. -/
omit [IsStrictOrderedRing K] in
theorem step_frame (img : Image K) (st : State K) (a : Action K) :
    (step img st a).zoom = st.zoom ∧ (step img st a).viewport = st.viewport ∨
      a = .zoomIn ∨ a = .zoomOut ∨ a = .zoomToFit ∨ (∃ level, a = .setZoom level) ∨
      ∃ container, a = .render container := by
  cases a with
  | zoomIn | zoomOut | zoomToFit | setZoom | render => simp
  | commitStraighten =>
    left
    simp only [step, State.commitStraighten]
    split <;> exact ⟨rfl, rfl⟩
  | applyTemplate template =>
    left
    simp only [step, State.applyTemplate]
    split <;> exact ⟨rfl, rfl⟩
  | undo =>
    left
    simp only [step, State.undo]
    split <;> exact ⟨rfl, rfl⟩
  | redo =>
    left
    simp only [step, State.redo]
    split <;> exact ⟨rfl, rfl⟩
  | pointerDown rect e =>
    left
    simp only [step, State.onPointerDown]
    split
    · exact ⟨rfl, rfl⟩
    · split
      · exact ⟨rfl, rfl⟩
      · split <;> exact ⟨rfl, rfl⟩
  | pointerMove e =>
    left
    simp only [step, State.onPointerMove]
    split <;> exact ⟨rfl, rfl⟩
  | pointerUp =>
    left
    simp only [step, State.onPointerUp]
    split
    · exact ⟨rfl, rfl⟩
    · split <;> exact ⟨rfl, rfl⟩
  | _ => exact .inl ⟨rfl, rfl⟩

theorem Scaled.step (h : Scaled st) (img : Image K) (a : Action K) :
    Scaled (step img st a) := by
  have hcrops : Everywhere CropPos (ImageEditor.step img st a) :=
    h.crops.step a fun p hp => ⟨(asks_cropPos h.crops.edit hp).width,
      (asks_cropPos h.crops.edit hp).height⟩
  obtain ⟨hzoom, hviewport⟩ | rfl | rfl | rfl | ⟨level, rfl⟩ | ⟨container, rfl⟩ :=
    step_frame img st a
  · exact ⟨hcrops, hzoom ▸ h.zoom, hviewport ▸ h.viewport⟩
  · have hstep : (0 : K) < State.zoomStep := by
      unfold State.zoomStep
      norm_num
    exact ⟨hcrops, lt_min zoomMax_pos (add_pos h.zoom hstep), h.viewport⟩
  · exact ⟨hcrops, zoomMin_pos.trans_le (le_max_left _ _), h.viewport⟩
  · exact ⟨hcrops, by change (0 : K) < 100; norm_num, h.viewport⟩
  · exact ⟨hcrops, zoomMin_pos.trans_le (le_max_left _ _), h.viewport⟩
  · exact ⟨hcrops, h.zoom, h.render container⟩

theorem Scaled.run {st₀ : State K} (h₀ : Scaled st₀)
    (h : Runs (editorStep img) (fun _ _ => True) st₀ st) : Scaled st := by
  refine h.invariant h₀ fun st a st' hst _ hstep => ?_
  cases hstep
  exact hst.step img a

theorem Loaded.scaled (h : Loaded img st) : Scaled st := by
  have hcrops {img : Image K} {st : State K} (h : Loaded img st) : Everywhere CropPos st :=
    everywhere_loaded (fun _ => ⟨img.width_pos, img.height_pos⟩) h
  have hzoom : (0 : K) < 100 := by norm_num
  induction h with
  | first hst hviewport =>
    refine ⟨hcrops (.first hst hviewport), hzoom, ?_⟩
    simp [State.loadImage, hviewport]
  | next h hrun hst ih => exact ⟨hcrops (.next h hrun hst), hzoom, (ih.run hrun).viewport⟩

theorem runs_scaled {st₀ : State K} (h₀ : Loaded img st₀)
    (h : Runs (editorStep img) (fun _ _ => True) st₀ st) : Scaled st :=
  h₀.scaled.run h

/-- The pointer's coordinates are always divided by a positive scale. -/
theorem viewport_scale_pos {st₀ : State K} (h₀ : Loaded img st₀)
    (h : Runs (editorStep img) (fun _ _ => True) st₀ st) : 0 < st.viewport.scale :=
  (runs_scaled h₀ h).viewport

end

/-! A drag over a straightened image -/

instance (p q u v r s : K) : Decidable (AxisFits p q u v r s) :=
  decidable_of_iff
    ((0 < p * q * (u * v) →
        ∃ a ∈ reaches p q r s u, ∃ b ∈ reaches q p r s v, |p| * a + |q| * b ≤ r) ∧
      (0 < |p| → |p| ≤ epsilon →
        ∃ a ∈ reaches p q r s u, ∀ b ∈ reaches q p r s v, |p| * a ≤ r + |q| * b) ∧
      (0 < |q| → |q| ≤ epsilon →
        ∃ b ∈ reaches q p r s v, ∀ a ∈ reaches p q r s u, |q| * b ≤ r + |p| * a))
    ⟨fun h => ⟨h.1, h.2.1, h.2.2⟩, fun h => ⟨h.adds, h.first, h.second⟩⟩

instance (img : Image K) (p : Placement K) : Decidable (p.Fits img) :=
  decidable_of_iff
    (AxisFits p.angle.cos p.angle.sin p.tx p.ty (p.roomW img) (p.roomH img) ∧
      AxisFits p.angle.cos (-p.angle.sin) p.ty p.tx (p.roomH img) (p.roomW img))
    ⟨fun h => ⟨h.1, h.2⟩, fun h => ⟨h.horizontal, h.vertical⟩⟩

instance (img : Image K) (st : State K) (a : Action K) : Decidable (Meets img st a) :=
  inferInstanceAs (Decidable (∀ p ∈ st.asks img a, p.Fits img))

instance (img : Image K) (p : Placement K) : Decidable (Covers img p) :=
  decidable_of_iff (_ ∧ _) ⟨fun h => ⟨h.1, h.2⟩, fun h => ⟨h.horizontal, h.vertical⟩⟩

theorem hundred_pos : (0 : ℚ) < 100 := by norm_num
theorem two_hundred_pos : (0 : ℚ) < 200 := by norm_num

def square : Image ℚ := ⟨100, 100, hundred_pos, hundred_pos⟩

def steep : Straighten ℚ := ⟨⟨4 / 5, 3 / 5⟩, by norm_num, by norm_num [abs_of_pos]⟩

def slight : Straighten ℚ := ⟨⟨24 / 25, 7 / 25⟩, by norm_num, by norm_num [abs_of_pos]⟩

theorem canvas_room : (16 : ℚ) * 2 < 132 := by norm_num

def canvas : Container ℚ := ⟨132, 132, canvas_room, canvas_room⟩

def freeTemplate : CropTemplate ℚ := ⟨"Free", none, nofun⟩

def opened : State ℚ := .new 0 0 freeTemplate 50

theorem loaded_opened (img : Image ℚ) : Loaded img (opened.loadImage img) :=
  .first ⟨rfl, rfl⟩ rfl

/- Straightening back leaves the larger scale, and with it room to drag the image to a side. -/
def dragged (x y : ℚ) : List (Action ℚ) :=
  [.setStraighten steep, .setStraighten slight, .commitStraighten, .enterCropMode,
    .render canvas, .pointerDown ⟨0, 0⟩ ⟨66, 66, 0, false⟩,
    .pointerMove ⟨66 + x, 66 + y, 0, false⟩, .pointerUp]

theorem no_dead_pixels_dragged :
    ∃ st, exec (editorStep square) (opened.loadImage square) (dragged 10 0) = some st ∧
      Covers square st.edit.placement := by
  refine ⟨_, rfl, no_dead_pixels (loaded_opened square) (.of_exec (dragged 10 0) rfl ?_)⟩
  decide +kernel

theorem dead_pixels : ¬ ∀ (img : Image ℚ) (st₀ st : State ℚ), Loaded img st₀ →
    Runs (editorStep img) (fun _ _ => True) st₀ st → Covers img st.edit.placement := by
  intro h
  have hrun := h square _ _ (loaded_opened square) (.of_exec (dragged 100 100) rfl (by decide +kernel))
  exact absurd hrun (by decide +kernel)

def landscape : Image ℚ := ⟨200, 100, two_hundred_pos, hundred_pos⟩

/- Loaded while the last image is being straightened: what that gesture saved comes back. -/
example : ¬ Covers square
    ([.commitStraighten, .undo].foldl (step square)
      ((step landscape (opened.loadImage landscape) (.setStraighten steep)).loadImage
        square)).edit.placement := by
  decide +kernel

end Pivox.ImageEditor
