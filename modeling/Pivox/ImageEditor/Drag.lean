import Pivox.ImageEditor.DeadPixels

/-!
A drag of the image or of a handle of the crop: what the last move of the pointer makes of the edit
state, after all the moves and renderings before it.
-/

namespace Pivox.ImageEditor
open Transition
variable {K : Type} [Field K] [LinearOrder K] [IsStrictOrderedRing K]

/- What comes between the pointer's going down and its going up. -/
inductive DragEvent (K : Type) [Field K] [LinearOrder K] where
  | move (e : PointerEvent K)
  | render (container : Container K)

def DragEvent.action : DragEvent K → Action K
  | .move e => .pointerMove e
  | .render container => .render container

def State.during (img : Image K) (st : State K) (events : List (DragEvent K)) : State K :=
  events.foldl (fun st event => step img st event.action) st

/- As the pointer's going down on a handle or on the image leaves it. -/
structure Dragging (st : State K) (drag : DragOrigin K) : Prop where
  dragOrigin : st.dragOrigin = some drag
  original : drag.originalEditState = st.edit
  pan : st.pan = none

/- The way of the pointer at the viewport scale given. -/
def DragOrigin.way (drag : DragOrigin K) (e : PointerEvent K) (viewportScale : K) : K × K :=
  ((e.clientX - drag.screenX) / viewportScale, (e.clientY - drag.screenY) / viewportScale)

/- How far the image may be moved behind the crop that the move asks for. -/
def State.leash (img : Image K) (st : State K) (drag : DragOrigin K) (e : PointerEvent K) :
    WithTop K × WithTop K :=
  (st.dragPlacement img drag e).bounds img

/- The translation is the one of the start, or one that the leash cuts off again. -/
def Uncut (now start : K) (leash : WithTop K) : Prop :=
  now = start ∨ leash ≤ ((|now| : K) : WithTop K)

/-- What the move goes by is what the start would have it go by. The viewport has the scale of the
start, if the pointer is not back there. Where the crop is resized, the scale has not grown beyond
that of the start and what the new crop needs, and the translation has not been cut off further than
the new crop cuts it off. -/
structure DirectMove (img : Image K) (drag : DragOrigin K) (viewportScale : K) (st : State K)
    (e : PointerEvent K) : Prop where
  viewport : st.viewport.scale = viewportScale ∨ e.clientX = drag.screenX ∧ e.clientY = drag.screenY
  scale : drag.handle ≠ .move → st.edit.scale ≤ drag.originalEditState.scale ∨
    st.edit.scale ≤ (st.dragPlacement img drag e).minScale img
  tx : drag.handle ≠ .move → Uncut st.edit.tx drag.originalEditState.tx (st.leash img drag e).1
  ty : drag.handle ≠ .move → Uncut st.edit.ty drag.originalEditState.ty (st.leash img drag e).2

/-- A move back to the start finds the edit state there as it is: the translation is within its
leash, and where the crop is resized, the scale is the least that covers it, and its size is one
that resizing it by nothing keeps. -/
structure Restorable (img : Image K) (e : EditState K) (handle : DragHandle) : Prop where
  within : e.placement.clamped img = e.placement
  scale : handle ≠ .move → e.placement.minScale img = e.scale
  size : handle ≠ .move → State.resizedCrop img e handle 0 0 = (e.cropWidth, e.cropHeight)

variable {img : Image K} {st st' : State K} {drag : DragOrigin K} {e : PointerEvent K}
  {events : List (DragEvent K)}

/- The pointer goes down on a handle or on the image, and no pan is under way or begins. -/
structure StartsDrag (st : State K) (rect : Point K) (e : PointerEvent K) (handle : DragHandle) :
    Prop where
  mode : st.mode = .crop
  idle : st.isPanning = false
  stays : ¬ st.startsPan e
  hit : State.hitTestHandles (st.screenToCropSpace rect e).x (st.screenToCropSpace rect e).y
    st.edit.cropWidth st.edit.cropHeight (16 / st.viewport.scale) = some handle

/- The drag that starts. -/
def dragFrom (st : State K) (e : PointerEvent K) (handle : DragHandle) : DragOrigin K :=
  ⟨handle, e.clientX, e.clientY, st.edit⟩

omit [IsStrictOrderedRing K] in
theorem StartsDrag.onPointerDown {rect : Point K} {handle : DragHandle}
    (h : StartsDrag st rect e handle) : st.onPointerDown rect e =
      { st with
        preDragEditState := some st.edit
        dragOrigin := some (dragFrom st e handle) } := by
  rw [State.onPointerDown, if_neg (not_not.mpr h.mode), if_neg h.stays]
  dsimp only
  rw [h.hit]
  rfl

omit [IsStrictOrderedRing K] in
theorem StartsDrag.dragging {rect : Point K} {handle : DragHandle}
    (h : StartsDrag st rect e handle) :
    Dragging (st.onPointerDown rect e) (dragFrom st e handle) := by
  rw [h.onPointerDown]
  exact ⟨rfl, rfl, by simp [State.pan, h.idle]⟩

/-! Clamping twice -/

theorem clamp_clamp_min (t : K) {m n : WithTop K} (hm : 0 ≤ m) (hn : 0 ≤ n) :
    clamp (clamp t m) n = clamp t (min m n) := by
  cases m with
  | top => rw [top_inf_eq]; rfl
  | coe m =>
    cases n with
    | top => rw [inf_top_eq]; rfl
    | coe n =>
      have hm : 0 ≤ m := WithTop.coe_nonneg.mp hm
      have hn : 0 ≤ n := WithTop.coe_nonneg.mp hn
      rw [← WithTop.coe_min]
      change max (-n) (min (max (-m) (min t m)) n) = max (-min m n) (min t (min m n))
      simp only [min_def, max_def]
      split_ifs <;> linarith

/-- What has been clamped is clamped again as what it was, unless it has been cut off too far. -/
theorem clamp_clamp {t : K} {m n : WithTop K} (hm : 0 ≤ m) (hn : 0 ≤ n)
    (h : Uncut (clamp t m) t n) : clamp (clamp t m) n = clamp t n := by
  obtain heq | hcut := h
  · rw [heq]
  · rw [abs_clamp hm] at hcut
    rw [clamp_clamp_min t hm hn]
    cases m with
    | top => rw [top_inf_eq]
    | coe m =>
      cases n with
      | top => exact absurd hcut (by simp)
      | coe n =>
        have hle : n ≤ m := (WithTop.coe_le_coe.mp hcut).trans (min_le_right _ _)
        rw [← WithTop.coe_min, min_eq_right hle]

/-! What a drag leaves as it is -/

/- The edit state at another place. -/
def EditState.placedAt (e : EditState K) (p : Placement K) : EditState K :=
  { e with
    cropWidth := p.cropWidth
    cropHeight := p.cropHeight
    scale := p.scale
    tx := p.tx
    ty := p.ty }

/-- Of the edit state at the start, only the place is another one; and of a resized crop, the
translation is that at the start, cut off somewhere. -/
structure Along (start st : State K) (drag : DragOrigin K) : Prop where
  dragOrigin : st.dragOrigin = some drag
  pan : st.pan = none
  edit : st.edit = start.edit.placedAt st.edit.placement
  fixed : drag.handle = .move → st.edit.cropWidth = start.edit.cropWidth ∧
    st.edit.cropHeight = start.edit.cropHeight ∧ st.edit.scale = start.edit.scale
  tx : drag.handle ≠ .move → ∃ m, 0 ≤ m ∧ st.edit.tx = clamp start.edit.tx m
  ty : drag.handle ≠ .move → ∃ m, 0 ≤ m ∧ st.edit.ty = clamp start.edit.ty m

variable {start : State K}

omit [IsStrictOrderedRing K] in
theorem Dragging.along (h : Dragging st drag) : Along st st drag where
  dragOrigin := h.dragOrigin
  pan := h.pan
  edit := rfl
  fixed _ := ⟨rfl, rfl, rfl⟩
  tx _ := ⟨⊤, le_top, rfl⟩
  ty _ := ⟨⊤, le_top, rfl⟩

omit [IsStrictOrderedRing K] in
theorem place_eq_placedAt (e : EditState K) (p : Placement K) :
    State.place img e p = e.placedAt (p.clamped img) := rfl

omit [IsStrictOrderedRing K] in
theorem pointerMove_edit (img : Image K) (e : PointerEvent K) (hpan : st.pan = none)
    (hdrag : st.dragOrigin = some drag) :
    step img st (.pointerMove e) =
      { st with edit := st.edit.placedAt ((st.dragPlacement img drag e).clamped img) } := by
  simp only [step, State.onPointerMove, hpan, hdrag, place_eq_placedAt]

omit [IsStrictOrderedRing K] in
theorem dragPlacement_move (hmove : drag.handle = .move) : st.dragPlacement img drag e =
    st.movePlacement drag.originalEditState (drag.way e st.viewport.scale).1
      (drag.way e st.viewport.scale).2 := by
  rw [State.dragPlacement, if_pos hmove]
  rfl

omit [IsStrictOrderedRing K] in
theorem dragPlacement_resize (hresize : drag.handle ≠ .move) : st.dragPlacement img drag e =
    st.resizePlacement img drag.originalEditState drag.handle (drag.way e st.viewport.scale).1
      (drag.way e st.viewport.scale).2 := by
  rw [State.dragPlacement, if_neg hresize]
  rfl

/-- Along the drag, a move or a rendering. -/
theorem Along.step (h : Along start st drag) (event : DragEvent K) :
    Along start (step img st event.action) drag := by
  cases event with
  | render container => exact { h with }
  | move e =>
    obtain ⟨htx, hty⟩ := @Placement.bounds_nonneg K _ _ img (st.dragPlacement img drag e)
    rw [DragEvent.action, pointerMove_edit img e h.pan h.dragOrigin]
    exact
      { dragOrigin := h.dragOrigin
        pan := h.pan
        edit := by
          rw [h.edit]
          rfl
        fixed := by
          intro hmove
          rw [dragPlacement_move hmove]
          exact h.fixed hmove
        tx := by
          intro hresize
          obtain ⟨m, hm, hcut⟩ := h.tx hresize
          refine ⟨min m ((st.dragPlacement img drag e).bounds img).1, le_min hm htx, ?_⟩
          rw [← clamp_clamp_min _ hm htx, ← hcut]
          rw [dragPlacement_resize hresize]
          rfl
        ty := by
          intro hresize
          obtain ⟨m, hm, hcut⟩ := h.ty hresize
          refine ⟨min m ((st.dragPlacement img drag e).bounds img).2, le_min hm hty, ?_⟩
          rw [← clamp_clamp_min _ hm hty, ← hcut]
          rw [dragPlacement_resize hresize]
          rfl }

theorem Along.during (h : Along start st drag) (events : List (DragEvent K)) :
    Along start (st.during img events) drag := by
  induction events generalizing st with
  | nil => exact h
  | cons event events ih => exact ih (h.step event)

/-! The last move -/

omit [IsStrictOrderedRing K] in
theorem DirectMove.way_eq {viewportScale : K} (h : DirectMove img drag viewportScale st e) :
    drag.way e st.viewport.scale = drag.way e viewportScale := by
  obtain hscale | ⟨hx, hy⟩ := h.viewport
  · rw [hscale]
  · simp [DragOrigin.way, hx, hy]

omit [IsStrictOrderedRing K] in
theorem Along.angle (h : Along start st drag) :
    totalAngle st.edit.rotation st.edit.straighten =
      totalAngle start.edit.rotation start.edit.straighten := by
  rw [h.edit]
  rfl

/- The scale that the new crop needs is taken, if the scale has not grown beyond it. -/
omit [Field K] [IsStrictOrderedRing K] in
theorem max_needed {needed now start : K} (h : now ≤ start ∨ now ≤ needed) :
    max needed (if start < now then now else needed) = needed := by
  split
  · next hgrown =>
    obtain hle | hle := h
    · exact absurd hgrown hle.not_gt
    · exact max_eq_left hle
  · exact max_self needed

omit [IsStrictOrderedRing K] in
theorem Along.resizePlacement_eq (h : Along start st drag) (hdragging : Dragging start drag)
    (hdirect : DirectMove img drag start.viewport.scale st e) (hresize : drag.handle ≠ .move) :
    st.dragPlacement img drag e =
      { start.dragPlacement img drag e with tx := st.edit.tx, ty := st.edit.ty } := by
  have hscale := hdirect.scale hresize
  rw [dragPlacement_resize hresize, hdirect.way_eq] at hscale ⊢
  rw [dragPlacement_resize hresize]
  generalize drag.way e start.viewport.scale = way at hscale ⊢
  rw [hdragging.original] at hscale ⊢
  simp only [State.resizePlacement, Placement.minScale, h.angle] at hscale ⊢
  rw [max_needed hscale, max_needed (.inl le_rfl)]

omit [IsStrictOrderedRing K] in
theorem Along.movePlacement_eq (h : Along start st drag)
    (hdirect : DirectMove img drag start.viewport.scale st e) (hmove : drag.handle = .move) :
    st.dragPlacement img drag e = start.dragPlacement img drag e := by
  obtain ⟨hwidth, hheight, hscale⟩ := h.fixed hmove
  rw [dragPlacement_move hmove, dragPlacement_move hmove, hdirect.way_eq]
  simp only [State.movePlacement, hwidth, hheight, hscale, h.angle]

/-- Where the last move is direct, it makes what it would have made as the first. -/
theorem Along.move_eq (h : Along start st drag) (hdragging : Dragging start drag)
    (hdirect : DirectMove img drag start.viewport.scale st e) :
    (st.dragPlacement img drag e).clamped img = (start.dragPlacement img drag e).clamped img := by
  by_cases hmove : drag.handle = .move
  · rw [h.movePlacement_eq hdirect hmove]
  · have htx := hdirect.tx hmove
    have hty := hdirect.ty hmove
    obtain ⟨m, hm, hcutx⟩ := h.tx hmove
    obtain ⟨n, hn, hcuty⟩ := h.ty hmove
    have hplacement := h.resizePlacement_eq hdragging hdirect hmove
    obtain ⟨hboundx, hboundy⟩ := @Placement.bounds_nonneg K _ _ img (start.dragPlacement img drag e)
    have hleash : st.leash img drag e = (start.dragPlacement img drag e).bounds img := by
      rw [State.leash, hplacement]
      rfl
    rw [hleash, hdragging.original, hcutx] at htx
    rw [hleash, hdragging.original, hcuty] at hty
    have hx := clamp_clamp hm hboundx htx
    have hy := clamp_clamp hn hboundy hty
    have hstart : (start.dragPlacement img drag e).tx = start.edit.tx ∧
        (start.dragPlacement img drag e).ty = start.edit.ty := by
      rw [dragPlacement_resize hmove]
      exact ⟨rfl, rfl⟩
    rw [hplacement]
    simp only [Placement.clamped, clampTranslation, Placement.bounds, hstart, Placement.mk.injEq,
      true_and, and_true]
    rw [hcutx, hcuty]
    exact ⟨hx, hy⟩

/- The edit state after the events and one more move. -/
def State.editAfter (img : Image K) (st : State K) (events : List (DragEvent K))
    (e : PointerEvent K) : EditState K :=
  (step img (st.during img events) (.pointerMove e)).edit

omit [IsStrictOrderedRing K] in
theorem editAfter_nil (h : Dragging st drag) : st.editAfter img [] e =
    st.edit.placedAt ((st.dragPlacement img drag e).clamped img) := by
  simp only [State.editAfter, State.during, List.foldl_nil,
    pointerMove_edit img e h.pan h.dragOrigin]

theorem editAfter_eq (h : Dragging st drag)
    (hdirect : DirectMove img drag st.viewport.scale (st.during img events) e) :
    st.editAfter img events e = st.editAfter img [] e := by
  have halong : Along st (st.during img events) drag := h.along.during events
  rw [editAfter_nil h, State.editAfter, pointerMove_edit img e halong.pan halong.dragOrigin,
    halong.move_eq h hdirect, halong.edit]
  rfl

omit [IsStrictOrderedRing K] in
theorem editAfter_congr {e' : PointerEvent K} (h : Dragging st drag)
    (hend : e.clientX = e'.clientX ∧ e.clientY = e'.clientY) :
    st.editAfter img [] e = st.editAfter img [] e' := by
  have hplacement : st.dragPlacement img drag e = st.dragPlacement img drag e' := by
    simp only [State.dragPlacement, hend]
  rw [editAfter_nil h, editAfter_nil h, hplacement]

omit [IsStrictOrderedRing K] in
theorem way_start (hback : e.clientX = drag.screenX ∧ e.clientY = drag.screenY) (scale : K) :
    drag.way e scale = (0, 0) := by
  simp [DragOrigin.way, hback]

omit [IsStrictOrderedRing K] in
/-- Asked for at the start, the place is the one there. -/
theorem dragPlacement_start (h : Dragging st drag)
    (hback : e.clientX = drag.screenX ∧ e.clientY = drag.screenY)
    (hrestorable : Restorable img st.edit drag.handle) :
    st.dragPlacement img drag e = st.edit.placement := by
  by_cases hmove : drag.handle = .move
  · rw [dragPlacement_move hmove, way_start hback, h.original]
    simp [State.movePlacement, EditState.placement]
  · have hsize := hrestorable.size hmove
    have hscale := hrestorable.scale hmove
    rw [dragPlacement_resize hmove, way_start hback, h.original]
    simp only [State.resizePlacement, hsize, max_needed (.inl le_rfl)]
    simp only [Placement.minScale, EditState.placement] at hscale
    rw [hscale]
    rfl

omit [IsStrictOrderedRing K] in
theorem editAfter_start (h : Dragging st drag)
    (hback : e.clientX = drag.screenX ∧ e.clientY = drag.screenY)
    (hrestorable : Restorable img st.edit drag.handle) : st.editAfter img [] e = st.edit := by
  rw [editAfter_nil h, dragPlacement_start h hback hrestorable, hrestorable.within]
  rfl

/-- Two drags from one start whose last moves are direct and end at one position end in one edit
state; at the position of the start, in the edit state there. -/
theorem drag_by_ends {rect : Point K} {handle : DragHandle} {down : PointerEvent K}
    (h : StartsDrag st rect down handle) (events events' : List (DragEvent K))
    (e e' : PointerEvent K)
    (hdirect : DirectMove img (dragFrom st down handle) st.viewport.scale
      ((st.onPointerDown rect down).during img events) e)
    (hdirect' : DirectMove img (dragFrom st down handle) st.viewport.scale
      ((st.onPointerDown rect down).during img events') e')
    (hend : e.clientX = e'.clientX ∧ e.clientY = e'.clientY) :
    (st.onPointerDown rect down).editAfter img events e =
        (st.onPointerDown rect down).editAfter img events' e' ∧
      (e.clientX = down.clientX ∧ e.clientY = down.clientY → Restorable img st.edit handle →
        (st.onPointerDown rect down).editAfter img events e = st.edit) := by
  have hdragging := h.dragging
  have hviewport : (st.onPointerDown rect down).viewport = st.viewport := by rw [h.onPointerDown]
  have hedit : (st.onPointerDown rect down).edit = st.edit := by rw [h.onPointerDown]
  rw [← hviewport] at hdirect hdirect'
  rw [editAfter_eq hdragging hdirect, editAfter_eq hdragging hdirect', ← hedit]
  exact ⟨editAfter_congr hdragging hend, editAfter_start hdragging⟩

/-! A crop dragged out, and back -/

theorem screen_width : (16 : ℚ) * 2 < 232 := by norm_num

def screen : Container ℚ := ⟨232, 132, screen_width, canvas_room⟩

/- A quarter of the image, and the pointer above the crop's lower right corner. -/
def quarterCrop : List (Action ℚ) :=
  [.enterCropMode, .render screen, .pointerDown ⟨0, 0⟩ ⟨216, 116, 0, false⟩,
    .pointerMove ⟨166, 91, 0, false⟩, .pointerUp, .render screen]

def quarterState : State ℚ :=
  quarterCrop.foldl (step landscape) (opened.loadImage landscape)

def corner : PointerEvent ℚ := ⟨216, 116, 0, false⟩

theorem startsDrag_quarter : StartsDrag quarterState ⟨0, 0⟩ corner .se :=
  ⟨by decide +kernel, by decide +kernel, by decide +kernel, by decide +kernel⟩

/-- Further and further out a drag is direct, and so is one that goes inwards and comes back. -/
theorem drag_by_ends_out :
    (quarterState.onPointerDown ⟨0, 0⟩ corner).editAfter landscape [.move ⟨226, 121, 0, false⟩]
        ⟨236, 126, 0, false⟩ =
      (quarterState.onPointerDown ⟨0, 0⟩ corner).editAfter landscape [] ⟨236, 126, 0, false⟩ ∧
    (quarterState.onPointerDown ⟨0, 0⟩ corner).editAfter landscape [.move ⟨206, 111, 0, false⟩]
        corner = quarterState.edit := by
  have hfurther : DirectMove landscape (dragFrom quarterState corner .se) quarterState.viewport.scale
      ((quarterState.onPointerDown ⟨0, 0⟩ corner).during landscape [.move ⟨226, 121, 0, false⟩])
      ⟨236, 126, 0, false⟩ :=
    ⟨.inl (by decide +kernel), fun _ => .inr (by decide +kernel),
      fun _ => .inl (by decide +kernel), fun _ => .inl (by decide +kernel)⟩
  have hback : DirectMove landscape (dragFrom quarterState corner .se) quarterState.viewport.scale
      ((quarterState.onPointerDown ⟨0, 0⟩ corner).during landscape [.move ⟨206, 111, 0, false⟩])
      corner :=
    ⟨.inr ⟨rfl, rfl⟩, fun _ => .inl (by decide +kernel),
      fun _ => .inl (by decide +kernel), fun _ => .inl (by decide +kernel)⟩
  have hatOnce (e : PointerEvent ℚ) : DirectMove landscape (dragFrom quarterState corner .se)
      quarterState.viewport.scale
      ((quarterState.onPointerDown ⟨0, 0⟩ corner).during landscape []) e :=
    ⟨.inl (by decide +kernel), fun _ => .inl (by decide +kernel),
      fun _ => .inl (by decide +kernel), fun _ => .inl (by decide +kernel)⟩
  have hwithin : clampTranslation quarterState.edit.placement.tx quarterState.edit.placement.ty
      (quarterState.edit.placement.bounds landscape).1 (quarterState.edit.placement.bounds landscape).2 =
        (quarterState.edit.placement.tx, quarterState.edit.placement.ty) := by
    decide +kernel
  have hrestorable : Restorable landscape quarterState.edit .se :=
    ⟨by rw [Placement.clamped, hwithin], fun _ => by decide +kernel, fun _ => by decide +kernel⟩
  exact ⟨(drag_by_ends startsDrag_quarter _ _ _ _ hfurther (hatOnce _) ⟨rfl, rfl⟩).1,
    (drag_by_ends startsDrag_quarter _ _ _ _ hback (hatOnce _) ⟨rfl, rfl⟩).2 ⟨rfl, rfl⟩ hrestorable⟩

/-- Out and back, the corner of the crop is where it was, and the image is larger than it was. -/
theorem drag_not_by_ends : ¬ ∀ (img : Image ℚ) (st₀ st : State ℚ) (rect : Point ℚ)
    (down : PointerEvent ℚ) (handle : DragHandle) (events : List (DragEvent ℚ)), Loaded img st₀ →
    Runs (editorStep img) (fun _ _ => True) st₀ st → StartsDrag st rect down handle →
      (st.onPointerDown rect down).editAfter img events down =
        (st.onPointerDown rect down).editAfter img [] down := by
  intro h
  have hrun : Runs (editorStep landscape) (fun _ _ => True) (opened.loadImage landscape)
      quarterState :=
    .of_exec quarterCrop rfl (by decide +kernel)
  have hsame := congrArg EditState.scale
    (h landscape _ _ _ _ _ [.move ⟨236, 126, 0, false⟩] (loaded_opened landscape) hrun
      startsDrag_quarter)
  exact absurd hsame (by decide +kernel)

end Pivox.ImageEditor
