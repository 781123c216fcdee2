import Pivox.ImageEditor.CropMath

/-!
The image editor's engine: the edit state, its undo history, the actions and the pointer.
-/

namespace Pivox.ImageEditor
variable {K : Type} [Field K] [LinearOrder K] [IsStrictOrderedRing K]

/-! Angles -/

inductive Quarter where
  | deg0 | deg90 | deg180 | deg270
  deriving DecidableEq, Repr

def Quarter.degrees : Quarter → ℕ
  | deg0 => 0
  | deg90 => 90
  | deg180 => 180
  | deg270 => 270

def quarterTurn (deg : ℕ) : Quarter :=
  match deg % 360 with
  | 90 => .deg90
  | 180 => .deg180
  | 270 => .deg270
  | _ => .deg0

def Quarter.direction : Quarter → Direction K
  | deg0 => ⟨1, 0⟩
  | deg90 => ⟨0, 1⟩
  | deg180 => ⟨-1, 0⟩
  | deg270 => ⟨0, -1⟩

/- An angle of at most 45 degrees either way. -/
structure Straighten (K : Type) [Field K] [LinearOrder K] where
  direction : Direction K
  unit : direction.cos ^ 2 + direction.sin ^ 2 = 1
  at_most_45 : |direction.sin| ≤ direction.cos

def Straighten.none : Straighten K :=
  ⟨⟨1, 0⟩, by ring, by rw [abs_zero]; exact zero_le_one⟩

def Direction.add (d e : Direction K) : Direction K :=
  ⟨d.cos * e.cos - d.sin * e.sin, d.sin * e.cos + d.cos * e.sin⟩

def totalAngle (rotation : Quarter) (straighten : Straighten K) : Direction K :=
  rotation.direction.add straighten.direction

/-! The state -/

inductive ResizeMode where
  | crop | cover | fit
  deriving DecidableEq, Repr

inductive ZoomMode where
  | fit | manual
  deriving DecidableEq, Repr

inductive EditorMode where
  | view | crop
  deriving DecidableEq, Repr

structure EditState (K : Type) [Field K] [LinearOrder K] where
  cropWidth : K
  cropHeight : K
  rotation : Quarter
  straighten : Straighten K
  scale : K
  tx : K
  ty : K
  flipHorizontal : Bool
  flipVertical : Bool
  activeTemplate : Option (CropTemplate K)
  resizeMode : ResizeMode

def EditState.placement (e : EditState K) : Placement K where
  cropWidth := e.cropWidth
  cropHeight := e.cropHeight
  scale := e.scale
  tx := e.tx
  ty := e.ty
  angle := totalAngle e.rotation e.straighten

structure UndoHistory (K : Type) [Field K] [LinearOrder K] where
  past : List (EditState K)
  future : List (EditState K)

def pushHistory (history : UndoHistory K) (current : EditState K) (maxHistory : ℕ) : UndoHistory K :=
  let past := history.past ++ [current]
  { past := if maxHistory < past.length then past.tail else past, future := [] }

structure Point (K : Type) where
  x : K
  y : K

/- The canvas's container, with room for more than the padding on its four sides. -/
structure Container (K : Type) [Field K] [LinearOrder K] where
  clientWidth : K
  clientHeight : K
  width_room : 16 * 2 < clientWidth
  height_room : 16 * 2 < clientHeight

structure PointerEvent (K : Type) where
  clientX : K
  clientY : K
  button : ℕ
  altKey : Bool

structure DragOrigin (K : Type) [Field K] [LinearOrder K] where
  handle : DragHandle
  screenX : K
  screenY : K
  originalEditState : EditState K

structure PanOrigin (K : Type) where
  pointerX : K
  pointerY : K
  originalOffset : Point K

structure Viewport (K : Type) where
  scale : K
  offsetX : K
  offsetY : K

structure State (K : Type) [Field K] [LinearOrder K] where
  edit : EditState K
  zoom : K
  zoomMode : ZoomMode
  panOffset : Point K
  isPanning : Bool
  mode : EditorMode
  history : UndoHistory K
  initialEditState : EditState K
  preDragEditState : Option (EditState K)
  preStraightenEditState : Option (EditState K)
  maxHistory : ℕ
  dragOrigin : Option (DragOrigin K)
  panOrigin : Option (PanOrigin K)
  viewport : Viewport K

def loadedEditState (img : Image K) (activeTemplate : Option (CropTemplate K)) : EditState K where
  cropWidth := img.naturalWidth
  cropHeight := img.naturalHeight
  rotation := .deg0
  straighten := .none
  scale := 1
  tx := 0
  ty := 0
  flipHorizontal := false
  flipVertical := false
  activeTemplate := activeTemplate
  resizeMode := .crop

namespace State

/- The editor as constructed, with the size of the crop and the template from its options. -/
def new (cropWidth cropHeight : K) (defaultTemplate : CropTemplate K) (maxHistory : ℕ) : State K :=
  let edit : EditState K :=
    { cropWidth := cropWidth
      cropHeight := cropHeight
      rotation := .deg0
      straighten := .none
      scale := 1
      tx := 0
      ty := 0
      flipHorizontal := false
      flipVertical := false
      activeTemplate := some defaultTemplate
      resizeMode := .crop }
  { edit := edit
    zoom := 100
    zoomMode := .fit
    panOffset := ⟨0, 0⟩
    isPanning := false
    mode := .view
    history := ⟨[], []⟩
    initialEditState := edit
    preDragEditState := none
    preStraightenEditState := none
    maxHistory := maxHistory
    dragOrigin := none
    panOrigin := none
    viewport := ⟨1, 0, 0⟩ }

/- The end of a loadImage. What a gesture has saved of the edit state, where a drag or a pan began
and the viewport stay as they are. -/
def loadImage (img : Image K) (st : State K) : State K :=
  let edit := loadedEditState img st.edit.activeTemplate
  { st with
    edit := edit
    initialEditState := edit
    history := ⟨[], []⟩
    zoom := 100
    zoomMode := .fit
    panOffset := ⟨0, 0⟩
    isPanning := false
    mode := .view }

def pushHistoryAndUpdate (st : State K) (edit : EditState K) : State K :=
  { st with history := pushHistory st.history st.edit st.maxHistory, edit := edit }

/- The edit state with the image clamped into the place given it. -/
def place (img : Image K) (e : EditState K) (p : Placement K) : EditState K :=
  let q := p.clamped img
  { e with
    cropWidth := q.cropWidth
    cropHeight := q.cropHeight
    scale := q.scale
    tx := q.tx
    ty := q.ty }

/-! Rotation, with the scale raised as the angle needs it -/

def rotationPlacement (img : Image K) (st : State K) (rotation : Quarter)
    (straighten : Straighten K) : Placement K :=
  let angle := totalAngle rotation straighten
  let minScale := computeMinScale st.edit.cropWidth st.edit.cropHeight img.naturalWidth
    img.naturalHeight angle
  { cropWidth := st.edit.cropWidth
    cropHeight := st.edit.cropHeight
    scale := max st.edit.scale minScale
    tx := st.edit.tx
    ty := st.edit.ty
    angle := angle }

def applyRotationChange (img : Image K) (st : State K) (rotation : Quarter)
    (straighten : Straighten K) (pushToHistory : Bool) : State K :=
  let placed := place img st.edit (st.rotationPlacement img rotation straighten)
  let edit := { placed with rotation := rotation, straighten := straighten }
  if pushToHistory then st.pushHistoryAndUpdate edit else { st with edit := edit }

def rotateClockwise (img : Image K) (st : State K) : State K :=
  st.applyRotationChange img (quarterTurn (st.edit.rotation.degrees + 90)) st.edit.straighten true

def rotateCounterClockwise (img : Image K) (st : State K) : State K :=
  st.applyRotationChange img (quarterTurn (st.edit.rotation.degrees + 270)) st.edit.straighten true

def setStraighten (img : Image K) (st : State K) (clamped : Straighten K) : State K :=
  let pre := st.preStraightenEditState.getD st.edit
  { st with preStraightenEditState := some pre }.applyRotationChange img st.edit.rotation clamped false

def commitStraighten (st : State K) : State K :=
  match st.preStraightenEditState with
  | none => st
  | some pre =>
    { st with
      preStraightenEditState := none
      history := pushHistory st.history pre st.maxHistory }

/-! Flips, templates and the resize mode -/

def setResizeMode (st : State K) (mode : ResizeMode) : State K :=
  st.pushHistoryAndUpdate { st.edit with resizeMode := mode }

def toggleFlipHorizontal (st : State K) : State K :=
  st.pushHistoryAndUpdate { st.edit with flipHorizontal := !st.edit.flipHorizontal }

def toggleFlipVertical (st : State K) : State K :=
  st.pushHistoryAndUpdate { st.edit with flipVertical := !st.edit.flipVertical }

def templatePlacement (img : Image K) (st : State K) (ratio : K) : Placement K :=
  let crop := applyCropTemplate (some ratio) st.edit.cropWidth st.edit.cropHeight img.naturalWidth
    img.naturalHeight
  let angle := totalAngle st.edit.rotation st.edit.straighten
  let minScale := computeMinScale crop.1 crop.2 img.naturalWidth img.naturalHeight angle
  { cropWidth := crop.1
    cropHeight := crop.2
    scale := max st.edit.scale minScale
    tx := st.edit.tx
    ty := st.edit.ty
    angle := angle }

def applyTemplate (img : Image K) (st : State K) (template : Option (CropTemplate K)) : State K :=
  match template.bind (·.ratio) with
  | none => st.pushHistoryAndUpdate { st.edit with activeTemplate := template }
  | some ratio =>
    st.pushHistoryAndUpdate
      { place img st.edit (st.templatePlacement img ratio) with activeTemplate := template }

/-! History -/

def reset (st : State K) : State K :=
  st.pushHistoryAndUpdate st.initialEditState

def undo (st : State K) : State K :=
  match st.history.past.getLast? with
  | none => st
  | some previous =>
    { st with
      edit := previous
      history := ⟨st.history.past.dropLast, st.edit :: st.history.future⟩ }

def redo (st : State K) : State K :=
  match st.history.future with
  | [] => st
  | next :: future =>
    { st with edit := next, history := ⟨st.history.past ++ [st.edit], future⟩ }

/-! The viewport -/

def zoomStep : K := 25
def zoomMin : K := 10
def zoomMax : K := 800

def zoomIn (st : State K) : State K :=
  { st with zoom := min zoomMax (st.zoom + zoomStep), zoomMode := .manual }

def zoomOut (st : State K) : State K :=
  { st with zoom := max zoomMin (st.zoom - zoomStep), zoomMode := .manual }

def zoomToFit (st : State K) : State K :=
  { st with zoom := 100, zoomMode := .fit, panOffset := ⟨0, 0⟩ }

def setZoom (st : State K) (level : K) : State K :=
  { st with zoom := max zoomMin (min zoomMax level), zoomMode := .manual }

def enterCropMode (st : State K) : State K :=
  { st with mode := .crop }

def exitCropMode (st : State K) : State K :=
  { st with mode := .view }

def canvasPadding : K := 16

/- What a rendering leaves for the pointer: where on the screen the crop lies, and how large. -/
def render (container : Container K) (st : State K) : State K :=
  let effectiveZoom := if st.zoomMode = .fit then 100 else st.zoom
  let drawW := container.clientWidth - canvasPadding * 2
  let drawH := container.clientHeight - canvasPadding * 2
  let scale := min (drawW / st.edit.cropWidth) (drawH / st.edit.cropHeight) * (effectiveZoom / 100)
  { st with
    viewport :=
      { scale := scale
        offsetX := (container.clientWidth - st.edit.cropWidth * scale) / 2 + st.panOffset.x
        offsetY := (container.clientHeight - st.edit.cropHeight * scale) / 2 + st.panOffset.y } }

/-! The pointer -/

def handles (hw hh : K) : List (DragHandle × Point K) :=
  [(.nw, ⟨-hw, -hh⟩), (.n, ⟨0, -hh⟩), (.ne, ⟨hw, -hh⟩), (.w, ⟨-hw, 0⟩), (.e, ⟨hw, 0⟩),
    (.sw, ⟨-hw, hh⟩), (.s, ⟨0, hh⟩), (.se, ⟨hw, hh⟩)]

def hitTestHandles (px py cropW cropH hitRadius : K) : Option DragHandle :=
  let hw := cropW / 2
  let hh := cropH / 2
  let hit := (handles hw hh).find? fun h =>
    decide ((px - h.2.x) * (px - h.2.x) + (py - h.2.y) * (py - h.2.y) ≤ hitRadius * hitRadius)
  match hit with
  | some h => some h.1
  | none => if |px| ≤ hw ∧ |py| ≤ hh then some .move else none

/- The canvas's top left corner is at `rect`. -/
def screenToCropSpace (st : State K) (rect : Point K) (e : PointerEvent K) : Point K where
  x := (e.clientX - rect.x - st.viewport.offsetX) / st.viewport.scale - st.edit.cropWidth / 2
  y := (e.clientY - rect.y - st.viewport.offsetY) / st.viewport.scale - st.edit.cropHeight / 2

def startsPan (st : State K) (e : PointerEvent K) : Prop :=
  (e.button = 1 ∨ e.button = 0 ∧ e.altKey = true) ∧ st.zoomMode = .manual ∧ 100 < st.zoom

instance (st : State K) (e : PointerEvent K) : Decidable (st.startsPan e) :=
  inferInstanceAs (Decidable (_ ∧ _))

def onPointerDown (st : State K) (rect : Point K) (e : PointerEvent K) : State K :=
  if st.mode ≠ .crop then st
  else if st.startsPan e then
    { st with panOrigin := some ⟨e.clientX, e.clientY, st.panOffset⟩, isPanning := true }
  else
    let cropPoint := st.screenToCropSpace rect e
    match hitTestHandles cropPoint.x cropPoint.y st.edit.cropWidth st.edit.cropHeight
      (16 / st.viewport.scale) with
    | none => st
    | some handle =>
      { st with
        preDragEditState := some st.edit
        dragOrigin := some ⟨handle, e.clientX, e.clientY, st.edit⟩ }

def movePlacement (st : State K) (orig : EditState K) (dx dy : K) : Placement K where
  cropWidth := st.edit.cropWidth
  cropHeight := st.edit.cropHeight
  scale := st.edit.scale
  tx := orig.tx + dx
  ty := orig.ty + dy
  angle := totalAngle st.edit.rotation st.edit.straighten

/- The dragged crop, no larger than the image and of the locked aspect ratio. -/
def resizedCrop (img : Image K) (orig : EditState K) (handle : DragHandle) (dx dy : K) : K × K :=
  let ratio := orig.activeTemplate.bind (·.ratio)
  let resized := resizeCropFromHandle handle dx dy orig.cropWidth orig.cropHeight ratio
  let cropW := min resized.1 img.naturalWidth
  let cropH := min resized.2 img.naturalHeight
  match ratio with
  | none => (cropW, cropH)
  | some ratio => if ratio < cropW / cropH then (cropH * ratio, cropH) else (cropW, cropW / ratio)

def resizePlacement (img : Image K) (st : State K) (orig : EditState K) (handle : DragHandle)
    (dx dy : K) : Placement K :=
  let crop := resizedCrop img orig handle dx dy
  let angle := totalAngle st.edit.rotation st.edit.straighten
  let newMinScale := computeMinScale crop.1 crop.2 img.naturalWidth img.naturalHeight angle
  { cropWidth := crop.1
    cropHeight := crop.2
    scale := max newMinScale (if orig.scale < st.edit.scale then st.edit.scale else newMinScale)
    tx := st.edit.tx
    ty := st.edit.ty
    angle := angle }

def dragPlacement (img : Image K) (st : State K) (drag : DragOrigin K) (e : PointerEvent K) :
    Placement K :=
  let dx := (e.clientX - drag.screenX) / st.viewport.scale
  let dy := (e.clientY - drag.screenY) / st.viewport.scale
  if drag.handle = .move then st.movePlacement drag.originalEditState dx dy
  else st.resizePlacement img drag.originalEditState drag.handle dx dy

/- The pan under way, whose origin is set as long as it lasts. -/
def pan (st : State K) : Option (PanOrigin K) :=
  if st.isPanning then st.panOrigin else none

def onPointerMove (img : Image K) (st : State K) (e : PointerEvent K) : State K :=
  match st.pan, st.dragOrigin with
  | some origin, _ =>
    { st with
      panOffset :=
        ⟨origin.originalOffset.x + (e.clientX - origin.pointerX),
          origin.originalOffset.y + (e.clientY - origin.pointerY)⟩ }
  | none, some drag => { st with edit := place img st.edit (st.dragPlacement img drag e) }
  | none, none => st

def onPointerUp (st : State K) : State K :=
  if st.isPanning then { st with panOrigin := none, isPanning := false }
  else
    match st.dragOrigin with
    | none => st
    | some _ =>
      let preDrag := st.preDragEditState.getD st.initialEditState
      { st with
        dragOrigin := none
        preDragEditState := none
        history := pushHistory st.history preDrag st.maxHistory }

end State

/-! One step of the editor -/

inductive Action (K : Type) [Field K] [LinearOrder K] where
  | rotateClockwise | rotateCounterClockwise
  | setStraighten (clamped : Straighten K)
  | commitStraighten
  | setResizeMode (mode : ResizeMode)
  | toggleFlipHorizontal | toggleFlipVertical
  | applyTemplate (template : Option (CropTemplate K))
  | reset | undo | redo
  | zoomIn | zoomOut | zoomToFit
  | setZoom (level : K)
  | enterCropMode | exitCropMode
  | render (container : Container K)
  | pointerDown (rect : Point K) (e : PointerEvent K)
  | pointerMove (e : PointerEvent K)
  | pointerUp

def step (img : Image K) (st : State K) : Action K → State K
  | .rotateClockwise => st.rotateClockwise img
  | .rotateCounterClockwise => st.rotateCounterClockwise img
  | .setStraighten clamped => st.setStraighten img clamped
  | .commitStraighten => st.commitStraighten
  | .setResizeMode mode => st.setResizeMode mode
  | .toggleFlipHorizontal => st.toggleFlipHorizontal
  | .toggleFlipVertical => st.toggleFlipVertical
  | .applyTemplate template => st.applyTemplate img template
  | .reset => st.reset
  | .undo => st.undo
  | .redo => st.redo
  | .zoomIn => st.zoomIn
  | .zoomOut => st.zoomOut
  | .zoomToFit => st.zoomToFit
  | .setZoom level => st.setZoom level
  | .enterCropMode => st.enterCropMode
  | .exitCropMode => st.exitCropMode
  | .render container => st.render container
  | .pointerDown rect e => st.onPointerDown rect e
  | .pointerMove e => st.onPointerMove img e
  | .pointerUp => st.onPointerUp

/- Where an action asks to place the image, before the translation is clamped. -/
def State.asks (img : Image K) (st : State K) : Action K → Option (Placement K)
  | .rotateClockwise =>
    some (st.rotationPlacement img (quarterTurn (st.edit.rotation.degrees + 90)) st.edit.straighten)
  | .rotateCounterClockwise =>
    some (st.rotationPlacement img (quarterTurn (st.edit.rotation.degrees + 270))
      st.edit.straighten)
  | .setStraighten clamped => some (st.rotationPlacement img st.edit.rotation clamped)
  | .applyTemplate template =>
    (template.bind (·.ratio)).map (st.templatePlacement img)
  | .pointerMove e =>
    if st.pan.isSome then none else st.dragOrigin.map (st.dragPlacement img · e)
  | _ => none

end Pivox.ImageEditor
