import Pivox.ImageEditor.DeadPixels
import Mathlib.Algebra.Order.Round
import Mathlib.Tactic.FieldSimp
import Mathlib.Tactic.LinearCombination

/-!
The crop rectangle that the editor exports, and the region of the image that it renders: they are
the same without straightening, but for a crop that is turned on its side or a mirrored axis.
-/

namespace Pivox.ImageEditor
open Transition

variable {K : Type} [Field K] [LinearOrder K] [IsStrictOrderedRing K]

structure CropRect (N : Type) where
  x : N
  y : N
  width : N
  height : N
  deriving DecidableEq, Repr

/- The crop rectangle before its rounding. The angle is undone: its sine changes sign. -/
def unroundedCropRect (cropW cropH imgW imgH tx ty scale : K) (d : Direction K) : CropRect K :=
  let cosA := d.cos
  let sinA := -d.sin
  let imgOffsetX := -tx / scale * cosA - -ty / scale * sinA
  let imgOffsetY := -tx / scale * sinA + -ty / scale * cosA
  let cropCenterX := imgW / 2 + imgOffsetX
  let cropCenterY := imgH / 2 + imgOffsetY
  let unscaledCropW := cropW / scale
  let unscaledCropH := cropH / scale
  { x := cropCenterX - unscaledCropW / 2
    y := cropCenterY - unscaledCropH / 2
    width := unscaledCropW
    height := unscaledCropH }

def CropRect.rounded [FloorRing K] (r : CropRect K) : CropRect ℤ where
  x := round r.x
  y := round r.y
  width := round r.width
  height := round r.height

def stateToImageCropRect [FloorRing K] (cropW cropH imgW imgH tx ty scale : K) (d : Direction K) :
    CropRect ℤ :=
  (unroundedCropRect cropW cropH imgW imgH tx ty scale d).rounded

namespace State

def cropRect (img : Image K) (st : State K) : CropRect K :=
  unroundedCropRect st.edit.cropWidth st.edit.cropHeight img.naturalWidth img.naturalHeight
    st.edit.tx st.edit.ty st.edit.scale (totalAngle st.edit.rotation st.edit.straighten)

def getCropRect [FloorRing K] (img : Image K) (st : State K) : CropRect ℤ :=
  stateToImageCropRect st.edit.cropWidth st.edit.cropHeight img.naturalWidth img.naturalHeight
    st.edit.tx st.edit.ty st.edit.scale (totalAngle st.edit.rotation st.edit.straighten)

/-! What a rendering draws -/

def mirror (flip : Bool) : K :=
  if flip then -1 else 1

/- Where on the screen the point `p` of the image comes: it is taken from the image's centre, scaled
and mirrored, turned, and moved from the centre of the crop. -/
def drawn (img : Image K) (container : Container K) (st : State K) (p : Point K) : Point K :=
  let vp := (st.render container).viewport
  let d := totalAngle st.edit.rotation st.edit.straighten
  let u := mirror st.edit.flipHorizontal * st.edit.scale * vp.scale * (p.x - img.naturalWidth / 2)
  let v := mirror st.edit.flipVertical * st.edit.scale * vp.scale * (p.y - img.naturalHeight / 2)
  { x := vp.offsetX + st.edit.cropWidth * vp.scale / 2 + st.edit.tx * vp.scale
      + (d.cos * u - d.sin * v)
    y := vp.offsetY + st.edit.cropHeight * vp.scale / 2 + st.edit.ty * vp.scale
      + (d.sin * u + d.cos * v) }

/- Whether a point of the screen is in the crop viewport. -/
def inViewport (container : Container K) (st : State K) (q : Point K) : Prop :=
  let vp := (st.render container).viewport
  (vp.offsetX ≤ q.x ∧ q.x ≤ vp.offsetX + st.edit.cropWidth * vp.scale) ∧
    vp.offsetY ≤ q.y ∧ q.y ≤ vp.offsetY + st.edit.cropHeight * vp.scale

end State

/- The points of an image. -/
def Image.region (img : Image K) : Set (Point K) :=
  {p | (0 ≤ p.x ∧ p.x ≤ img.naturalWidth) ∧ 0 ≤ p.y ∧ p.y ≤ img.naturalHeight}

def State.renderedRegion (img : Image K) (container : Container K) (st : State K) :
    Set (Point K) :=
  {p ∈ img.region | st.inViewport container (st.drawn img container p)}

namespace CropRect

def region (r : CropRect K) : Set (Point K) :=
  {p | (r.x ≤ p.x ∧ p.x ≤ r.x + r.width) ∧ r.y ≤ p.y ∧ p.y ≤ r.y + r.height}

structure Within (img : Image K) (r : CropRect K) : Prop where
  left : 0 ≤ r.x
  top : 0 ≤ r.y
  right : r.x + r.width ≤ img.naturalWidth
  bottom : r.y + r.height ≤ img.naturalHeight

/-- Rounding moves no number by more than half a pixel. -/
theorem rounded_near [FloorRing K] (r : CropRect K) :
    |r.x - r.rounded.x| ≤ 1 / 2 ∧ |r.y - r.rounded.y| ≤ 1 / 2 ∧
      |r.width - r.rounded.width| ≤ 1 / 2 ∧ |r.height - r.rounded.height| ≤ 1 / 2 :=
  ⟨abs_sub_round _, abs_sub_round _, abs_sub_round _, abs_sub_round _⟩

end CropRect

omit [IsStrictOrderedRing K] in
theorem State.getCropRect_eq [FloorRing K] (img : Image K) (st : State K) :
    st.getCropRect img = (st.cropRect img).rounded := rfl

/-- What is exported is what is rendered, and it lies in the image. -/
structure Exported (img : Image K) (st : State K) : Prop where
  rendered : st.edit.straighten = .none → ∀ container : Container K,
    st.renderedRegion img container = (st.cropRect img).region
  within : (st.cropRect img).Within img

/- Whether a crop of the image lies across it. -/
def Quarter.onSide : Quarter → Bool
  | deg0 | deg180 => false
  | deg90 | deg270 => true

/- How far the image is moved along its own axes. -/
def Placement.alongX (p : Placement K) : K := p.angle.cos * p.tx + p.angle.sin * p.ty
def Placement.alongY (p : Placement K) : K := p.angle.cos * p.ty - p.angle.sin * p.tx

/-- Without straightening the crop is not turned on its side, unless it is a square, and the image is
not moved along a mirrored axis; with it the image has room for the crop laid upright. -/
structure Exportable (img : Image K) (e : EditState K) : Prop where
  turned : e.straighten = .none → e.rotation.onSide → e.cropWidth = e.cropHeight
  mirroredX : e.straighten = .none → e.flipHorizontal → e.placement.alongX = 0
  mirroredY : e.straighten = .none → e.flipVertical → e.placement.alongY = 0
  upright : e.straighten ≠ .none →
    |e.placement.alongX| + e.cropWidth / 2 ≤ img.naturalWidth * e.scale / 2 ∧
      |e.placement.alongY| + e.cropHeight / 2 ≤ img.naturalHeight * e.scale / 2

/-! Rectangles about a centre -/

def centred (cx cy w h : K) : CropRect K :=
  ⟨cx - w / 2, cy - h / 2, w, h⟩

theorem mem_centred {cx cy w h : K} {p : Point K} :
    p ∈ (centred cx cy w h).region ↔ |p.x - cx| ≤ w / 2 ∧ |p.y - cy| ≤ h / 2 := by
  have haxis (t c l : K) : c - l / 2 ≤ t ∧ t ≤ c - l / 2 + l ↔ |t - c| ≤ l / 2 := by
    rw [abs_le]
    constructor <;> rintro ⟨h1, h2⟩ <;> constructor <;> linarith
  exact and_congr (haxis p.x cx w) (haxis p.y cy h)

theorem centred_within {img : Image K} {ox oy w h : K} :
    (centred (img.naturalWidth / 2 + ox) (img.naturalHeight / 2 + oy) w h).Within img ↔
      |ox| + w / 2 ≤ img.naturalWidth / 2 ∧ |oy| + h / 2 ≤ img.naturalHeight / 2 := by
  have haxis (o l n : K) : |o| + l / 2 ≤ n / 2 ↔
      0 ≤ n / 2 + o - l / 2 ∧ n / 2 + o - l / 2 + l ≤ n := by
    rw [← le_sub_iff_add_le, abs_le]
    constructor <;> rintro ⟨h1, h2⟩ <;> constructor <;> linarith
  rw [haxis ox w, haxis oy h]
  exact ⟨fun h => ⟨⟨h.left, h.right⟩, h.top, h.bottom⟩,
    fun h => ⟨h.1.1, h.2.1, h.1.2, h.2.2⟩⟩

/-- Rectangles that are no lines are told apart by their points. -/
theorem centred_region_inj {cx cy w h cx' cy' w' h' : K} (hw : 0 < w) (hh : 0 < h) (hw' : 0 < w')
    (hh' : 0 < h') : (centred cx cy w h).region = (centred cx' cy' w' h').region ↔
      (cx = cx' ∧ w = w') ∧ cy = cy' ∧ h = h' := by
  constructor
  · intro heq
    have hmem (p : Point K) : (|p.x - cx| ≤ w / 2 ∧ |p.y - cy| ≤ h / 2) ↔
        |p.x - cx'| ≤ w' / 2 ∧ |p.y - cy'| ≤ h' / 2 := by
      rw [← mem_centred, ← mem_centred, heq]
    have hcorner (l : K) (hl : 0 < l) (c : K) : |c - l / 2 - c| ≤ l / 2 ∧ |c + l / 2 - c| ≤ l / 2 := by
      constructor
      · rw [sub_sub_cancel_left, abs_neg, abs_of_pos (half_pos hl)]
      · rw [add_sub_cancel_left, abs_of_pos (half_pos hl)]
    have h1 := (hmem ⟨cx - w / 2, cy - h / 2⟩).mp ⟨(hcorner w hw cx).1, (hcorner h hh cy).1⟩
    have h2 := (hmem ⟨cx + w / 2, cy + h / 2⟩).mp ⟨(hcorner w hw cx).2, (hcorner h hh cy).2⟩
    have h3 := (hmem ⟨cx' - w' / 2, cy' - h' / 2⟩).mpr
      ⟨(hcorner w' hw' cx').1, (hcorner h' hh' cy').1⟩
    have h4 := (hmem ⟨cx' + w' / 2, cy' + h' / 2⟩).mpr
      ⟨(hcorner w' hw' cx').2, (hcorner h' hh' cy').2⟩
    simp only [abs_le] at h1 h2 h3 h4
    refine ⟨⟨?_, ?_⟩, ?_, ?_⟩ <;> linarith
  · rintro ⟨⟨rfl, rfl⟩, rfl, rfl⟩
    rfl

/-! The exported and the rendered rectangle, each about its centre -/

variable {img : Image K} {st : State K} {container : Container K}

theorem cropRect_eq : st.cropRect img =
    centred (img.naturalWidth / 2 + -(st.edit.placement.alongX / st.edit.scale))
      (img.naturalHeight / 2 + -(st.edit.placement.alongY / st.edit.scale))
      (st.edit.cropWidth / st.edit.scale) (st.edit.cropHeight / st.edit.scale) := by
  simp only [State.cropRect, unroundedCropRect, centred, Placement.alongX, Placement.alongY,
    EditState.placement, CropRect.mk.injEq, and_true]
  constructor <;> ring

omit [LinearOrder K] [IsStrictOrderedRing K] in
theorem mirror_mul_self (flip : Bool) : State.mirror flip * State.mirror flip = (1 : K) := by
  cases flip <;> simp [State.mirror]

theorem abs_mirror (flip : Bool) : |(State.mirror flip : K)| = 1 := by
  cases flip <;> simp [State.mirror]

/- One axis of the image that is scaled by `s`, mirrored by `f` and moved by `t`. -/
theorem abs_mirrored_le_iff {f s t d m : K} (hf : f * f = 1) (hs : 0 < s) :
    |t + f * s * d| ≤ m / 2 ↔ |d - -(f * t / s)| ≤ m / s / 2 := by
  have habs : |f| = 1 := by
    rw [← abs_mul_abs_self f] at hf
    nlinarith [abs_nonneg f]
  have hscaled : t + f * s * d = f * s * (d - -(f * t / s)) := by
    field_simp
    linear_combination (-t) * hf
  rw [hscaled, abs_mul, abs_mul, habs, one_mul, abs_of_pos hs, ← le_div_iff₀' hs, div_right_comm]

/- On the screen everything is enlarged by the scale of the viewport. -/
theorem inViewport_iff (hvp : 0 < (st.render container).viewport.scale) {x y : K} {q : Point K}
    (hx : q.x = (st.render container).viewport.offsetX
      + st.edit.cropWidth * (st.render container).viewport.scale / 2
      + x * (st.render container).viewport.scale)
    (hy : q.y = (st.render container).viewport.offsetY
      + st.edit.cropHeight * (st.render container).viewport.scale / 2
      + y * (st.render container).viewport.scale) :
    st.inViewport container q ↔
      |x| ≤ st.edit.cropWidth / 2 ∧ |y| ≤ st.edit.cropHeight / 2 := by
  have haxis (o l t v : K) (hv : 0 < v) :
      (o ≤ o + l * v / 2 + t * v ∧ o + l * v / 2 + t * v ≤ o + l * v) ↔ |t| ≤ l / 2 := by
    rw [abs_le]
    constructor
    · rintro ⟨h1, h2⟩
      have h1' : 0 ≤ (l / 2 + t) * v := by linarith
      have h2' : 0 ≤ (l / 2 - t) * v := by linarith
      have := nonneg_of_mul_nonneg_left h1' hv
      have := nonneg_of_mul_nonneg_left h2' hv
      constructor <;> linarith
    · rintro ⟨h1, h2⟩
      have h1' : 0 ≤ (l / 2 + t) * v := mul_nonneg (by linarith) hv.le
      have h2' : 0 ≤ (l / 2 - t) * v := mul_nonneg (by linarith) hv.le
      constructor <;> linarith
  unfold State.inViewport
  dsimp only
  rw [hx, hy]
  exact and_congr (haxis _ _ _ _ hvp) (haxis _ _ _ _ hvp)

theorem totalAngle_none (r : Quarter) : totalAngle r (Straighten.none : Straighten K) = r.direction := by
  simp [totalAngle, Direction.add, Straighten.none]

/- Where a point of the image lies behind the crop, taken from the crop's centre. -/
def State.behind (img : Image K) (st : State K) (p : Point K) : Point K :=
  let d := totalAngle st.edit.rotation st.edit.straighten
  let u := State.mirror st.edit.flipHorizontal * st.edit.scale * (p.x - img.naturalWidth / 2)
  let v := State.mirror st.edit.flipVertical * st.edit.scale * (p.y - img.naturalHeight / 2)
  ⟨st.edit.tx + (d.cos * u - d.sin * v), st.edit.ty + (d.sin * u + d.cos * v)⟩

theorem drawn_inViewport_iff (hvp : 0 < (st.render container).viewport.scale) {p : Point K} :
    st.inViewport container (st.drawn img container p) ↔
      |(st.behind img p).x| ≤ st.edit.cropWidth / 2 ∧
        |(st.behind img p).y| ≤ st.edit.cropHeight / 2 := by
  apply inViewport_iff hvp
  · simp only [State.drawn, State.behind]
    ring
  · simp only [State.drawn, State.behind]
    ring

/- The sides of the crop along the axes of the image. -/
def EditState.sideX (e : EditState K) : K := if e.rotation.onSide then e.cropHeight else e.cropWidth
def EditState.sideY (e : EditState K) : K := if e.rotation.onSide then e.cropWidth else e.cropHeight

def State.renderedRect (img : Image K) (st : State K) : CropRect K :=
  centred
    (img.naturalWidth / 2
      + -(State.mirror st.edit.flipHorizontal * st.edit.placement.alongX / st.edit.scale))
    (img.naturalHeight / 2
      + -(State.mirror st.edit.flipVertical * st.edit.placement.alongY / st.edit.scale))
    (st.edit.sideX / st.edit.scale) (st.edit.sideY / st.edit.scale)

/-- Without straightening the points behind the crop are those of its rectangle on the axes of the
image. -/
theorem behind_iff (hlevel : st.edit.straighten = .none) (hs : 0 < st.edit.scale) {p : Point K} :
    (|(st.behind img p).x| ≤ st.edit.cropWidth / 2 ∧
      |(st.behind img p).y| ≤ st.edit.cropHeight / 2) ↔ p ∈ (st.renderedRect img).region := by
  have hangle : totalAngle st.edit.rotation st.edit.straighten = st.edit.rotation.direction := by
    rw [hlevel, totalAngle_none]
  have haxis {f t d m x c o n : K} (hf : f * f = 1) (hx : x = t + f * st.edit.scale * d)
      (hd : d = c - n) (ho : o = -(f * t / st.edit.scale)) :
      |x| ≤ m / 2 ↔ |c - (n + o)| ≤ m / st.edit.scale / 2 := by
    rw [hx, abs_mirrored_le_iff hf hs, hd, ho, sub_sub]
  have hf := mirror_mul_self (K := K) st.edit.flipHorizontal
  have hg := mirror_mul_self (K := K) st.edit.flipVertical
  have hf' := (neg_mul_neg _ _).trans hf
  have hg' := (neg_mul_neg _ _).trans hg
  simp only [State.behind, State.renderedRect, mem_centred, Placement.alongX, Placement.alongY,
    EditState.placement, hangle, EditState.sideX, EditState.sideY]
  cases st.edit.rotation with
  | deg0 =>
    exact and_congr
      (haxis hf (by simp only [Quarter.direction]; ring) rfl (by simp only [Quarter.direction]; ring))
      (haxis hg (by simp only [Quarter.direction]; ring) rfl (by simp only [Quarter.direction]; ring))
  | deg90 =>
    rw [and_comm]
    exact and_congr
      (haxis hf (by simp only [Quarter.direction]; ring) rfl (by simp only [Quarter.direction]; ring))
      (haxis hg' (by simp only [Quarter.direction]; ring) rfl (by simp only [Quarter.direction]; ring))
  | deg180 =>
    exact and_congr
      (haxis hf' (by simp only [Quarter.direction]; ring) rfl (by simp only [Quarter.direction]; ring))
      (haxis hg' (by simp only [Quarter.direction]; ring) rfl (by simp only [Quarter.direction]; ring))
  | deg270 =>
    rw [and_comm]
    exact and_congr
      (haxis hf' (by simp only [Quarter.direction]; ring) rfl (by simp only [Quarter.direction]; ring))
      (haxis hg (by simp only [Quarter.direction]; ring) rfl (by simp only [Quarter.direction]; ring))

/-! The rendered rectangle lies in the image -/

/- What holds of every place in a run: without straightening it covers the crop. -/
structure Sound (img : Image K) (p : Placement K) : Prop where
  unit : p.angle.cos ^ 2 + p.angle.sin ^ 2 = 1
  crop : CropPos p
  scale : p.minScale img ≤ p.scale
  covers : Level p → Covers img p

theorem Sound.scale_pos {p : Placement K} (h : Sound img p) : 0 < p.scale := by
  have hturned : 0 < |p.angle.cos| ∨ 0 < |p.angle.sin| := by
    by_contra hnot
    simp only [abs_pos, not_or, not_not] at hnot
    have := h.unit
    rw [hnot.1, hnot.2] at this
    norm_num at this
  have hrequired : 0 < p.cropWidth * |p.angle.cos| + p.cropHeight * |p.angle.sin| := by
    have hc := mul_nonneg h.crop.width.le (abs_nonneg p.angle.cos)
    have hd := mul_nonneg h.crop.height.le (abs_nonneg p.angle.sin)
    obtain hcos | hsin := hturned
    · exact add_pos_of_pos_of_nonneg (mul_pos h.crop.width hcos) hd
    · exact add_pos_of_nonneg_of_pos hc (mul_pos h.crop.height hsin)
  exact (div_pos hrequired img.width_pos).trans_le ((le_max_left _ _).trans h.scale)

theorem everywhere_sound {st₀ : State K} (h₀ : Loaded img st₀)
    (h : Runs (editorStep img) (fun _ _ => True) st₀ st) : Everywhere (Sound img) st := by
  have hloaded (template : Option (CropTemplate K)) :
      Sound img (loadedEditState img template).placement :=
    { unit := totalAngle_unit _ _
      crop := ⟨img.width_pos, img.height_pos⟩
      scale := (loaded_covers img template).minScale_le
      covers := fun _ => loaded_covers img template }
  refine h.invariant (everywhere_loaded hloaded h₀) fun st a st' hst _ hstep => ?_
  cases hstep
  refine hst.step a fun p hp => ?_
  have hunit : p.angle.cos ^ 2 + p.angle.sin ^ 2 = 1 := by
    obtain ⟨r, hr⟩ | ⟨r, s, -, hr⟩ := asks_angle hp
    · rw [hr]
      exact totalAngle_unit r _
    · rw [hr]
      exact totalAngle_unit r s
  have hcrop := asks_cropPos hst.edit.crop hp
  have hscale := asks_minScale_le hst.edit.scale hp
  exact
    { unit := hunit
      crop := ⟨hcrop.width, hcrop.height⟩
      scale := hscale
      covers := fun hlevel =>
        (Placement.clamped_covers_iff hscale).mpr (Placement.fits_of_level hlevel hunit) }

theorem level_of_none (hlevel : st.edit.straighten = .none) : Level st.edit.placement := by
  rw [level_iff, hlevel]
  simp [Straighten.none]

omit [IsStrictOrderedRing K] in
theorem CropRect.Within.subset {r : CropRect K} (h : r.Within img) : r.region ⊆ img.region :=
  fun _ hp => ⟨⟨h.left.trans hp.1.1, hp.1.2.trans h.right⟩, h.top.trans hp.2.1, hp.2.2.trans h.bottom⟩

theorem sides_eq (hlevel : st.edit.straighten = .none) :
    st.edit.sideX = st.edit.cropWidth * |st.edit.placement.angle.cos|
        + st.edit.cropHeight * |st.edit.placement.angle.sin| ∧
      st.edit.sideY = st.edit.cropWidth * |st.edit.placement.angle.sin|
        + st.edit.cropHeight * |st.edit.placement.angle.cos| := by
  simp only [EditState.placement, hlevel, totalAngle_none, EditState.sideX, EditState.sideY]
  cases st.edit.rotation <;> simp [Quarter.direction, Quarter.onSide]

theorem renderedRect_within (h : Sound img st.edit.placement)
    (hlevel : st.edit.straighten = .none) : (st.renderedRect img).Within img := by
  obtain ⟨hw, hh⟩ := h.covers (level_of_none hlevel)
  obtain ⟨hsideX, hsideY⟩ := sides_eq hlevel
  have hs : 0 < st.edit.scale := h.scale_pos
  have haxis (f t l n : K) (hf : |f| = 1) (hcovers : |t| + l / 2 ≤ n * st.edit.scale / 2) :
      |-(f * t / st.edit.scale)| + l / st.edit.scale / 2 ≤ n / 2 := by
    rw [abs_neg, abs_div, abs_mul, hf, one_mul, abs_of_pos hs, div_right_comm, ← add_div,
      div_le_iff₀ hs]
    linarith
  refine centred_within.mpr ⟨haxis _ _ _ _ (abs_mirror _) ?_, haxis _ _ _ _ (abs_mirror _) ?_⟩
  · rw [hsideX]
    exact hw
  · rw [hsideY]
    exact hh

theorem renderedRegion_eq (h : Sound img st.edit.placement)
    (hlevel : st.edit.straighten = .none) (hvp : 0 < (st.render container).viewport.scale) :
    st.renderedRegion img container = (st.renderedRect img).region := by
  ext p
  simp only [State.renderedRegion, Set.mem_ofPred_eq, drawn_inViewport_iff hvp,
    behind_iff hlevel h.scale_pos]
  exact and_iff_right_of_imp fun hp => (renderedRect_within h hlevel).subset hp

/-! When the two are the same -/

theorem mirror_neg_div_inj {flip : Bool} {t s n : K} (hs : 0 < s) :
    n + -(State.mirror flip * t / s) = n + -(t / s) ↔ (flip = true → t = 0) := by
  rw [add_right_inj, neg_inj, div_left_inj' hs.ne']
  cases flip with
  | false => simp [State.mirror]
  | true =>
    simp only [State.mirror, if_true, neg_one_mul, forall_const]
    constructor
    · intro h
      linarith
    · rintro rfl
      exact neg_zero

omit [IsStrictOrderedRing K] in
theorem sides_inj {s : K} (hs : 0 < s) :
    (st.edit.sideX / s = st.edit.cropWidth / s ∧ st.edit.sideY / s = st.edit.cropHeight / s) ↔
      (st.edit.rotation.onSide = true → st.edit.cropWidth = st.edit.cropHeight) := by
  rw [div_left_inj' hs.ne', div_left_inj' hs.ne']
  unfold EditState.sideX EditState.sideY
  cases st.edit.rotation.onSide with
  | false => simp
  | true =>
    simp only [if_true, forall_const]
    exact ⟨fun h => h.2, fun h => ⟨h.symm, h⟩⟩

theorem Sound.region_inj (h : Sound img st.edit.placement) :
    (st.renderedRect img).region = (st.cropRect img).region ↔
      (img.naturalWidth / 2
            + -(State.mirror st.edit.flipHorizontal * st.edit.placement.alongX / st.edit.scale) =
          img.naturalWidth / 2 + -(st.edit.placement.alongX / st.edit.scale) ∧
        st.edit.sideX / st.edit.scale = st.edit.cropWidth / st.edit.scale) ∧
      img.naturalHeight / 2
            + -(State.mirror st.edit.flipVertical * st.edit.placement.alongY / st.edit.scale) =
          img.naturalHeight / 2 + -(st.edit.placement.alongY / st.edit.scale) ∧
        st.edit.sideY / st.edit.scale = st.edit.cropHeight / st.edit.scale := by
  have hs : 0 < st.edit.scale := h.scale_pos
  have hw : 0 < st.edit.cropWidth := h.crop.width
  have hh : 0 < st.edit.cropHeight := h.crop.height
  have hside : 0 < st.edit.sideX ∧ 0 < st.edit.sideY := by
    unfold EditState.sideX EditState.sideY
    cases st.edit.rotation.onSide with
    | false => exact ⟨hw, hh⟩
    | true => exact ⟨hh, hw⟩
  rw [cropRect_eq, State.renderedRect]
  exact centred_region_inj (div_pos hside.1 hs) (div_pos hside.2 hs) (div_pos hw hs)
    (div_pos hh hs)

theorem rendered_eq_cropRect_iff (h : Sound img st.edit.placement) :
    (st.renderedRect img).region = (st.cropRect img).region ↔
      (st.edit.rotation.onSide = true → st.edit.cropWidth = st.edit.cropHeight) ∧
        (st.edit.flipHorizontal = true → st.edit.placement.alongX = 0) ∧
          (st.edit.flipVertical = true → st.edit.placement.alongY = 0) := by
  have hs : 0 < st.edit.scale := h.scale_pos
  rw [h.region_inj, mirror_neg_div_inj hs, mirror_neg_div_inj hs, ← sides_inj hs]
  tauto

theorem cropRect_within_of_eq (h : Sound img st.edit.placement) (hlevel : st.edit.straighten = .none)
    (hregion : (st.renderedRect img).region = (st.cropRect img).region) :
    (st.cropRect img).Within img := by
  obtain ⟨⟨hcx, hw⟩, hcy, hh⟩ := h.region_inj.mp hregion
  have hwithin := renderedRect_within h hlevel
  rwa [State.renderedRect, hcx, hw, hcy, hh, ← cropRect_eq] at hwithin

theorem cropRect_within_iff (hs : 0 < st.edit.scale) : (st.cropRect img).Within img ↔
    |st.edit.placement.alongX| + st.edit.cropWidth / 2 ≤ img.naturalWidth * st.edit.scale / 2 ∧
      |st.edit.placement.alongY| + st.edit.cropHeight / 2 ≤
        img.naturalHeight * st.edit.scale / 2 := by
  have haxis (t l n : K) : |-(t / st.edit.scale)| + l / st.edit.scale / 2 ≤ n / 2 ↔
      |t| + l / 2 ≤ n * st.edit.scale / 2 := by
    rw [abs_neg, abs_div, abs_of_pos hs, div_right_comm, ← add_div, div_le_iff₀ hs,
      div_mul_eq_mul_div]
  rw [cropRect_eq, centred_within, haxis, haxis]

theorem Sound.exported_iff (h : Sound img st.edit.placement) (hscaled : Scaled st) :
    Exported img st ↔ Exportable img st.edit := by
  have hrendered (hlevel : st.edit.straighten = .none) (container : Container K) :
      st.renderedRegion img container = (st.renderedRect img).region :=
    renderedRegion_eq h hlevel (hscaled.render container)
  constructor
  · intro hexported
    have hroom : (16 : K) * 2 < 33 := by norm_num
    have hsame (hlevel : st.edit.straighten = .none) := (rendered_eq_cropRect_iff h).mp <|
      (hrendered hlevel _).symm.trans (hexported.rendered hlevel ⟨33, 33, hroom, hroom⟩)
    exact
      { turned := fun hlevel => (hsame hlevel).1
        mirroredX := fun hlevel => (hsame hlevel).2.1
        mirroredY := fun hlevel => (hsame hlevel).2.2
        upright := fun _ => (cropRect_within_iff h.scale_pos).mp hexported.within }
  · intro hexportable
    have hsame (hlevel : st.edit.straighten = .none) :
        (st.renderedRect img).region = (st.cropRect img).region :=
      (rendered_eq_cropRect_iff h).mpr ⟨hexportable.turned hlevel,
        hexportable.mirroredX hlevel, hexportable.mirroredY hlevel⟩
    refine ⟨fun hlevel container => (hrendered hlevel container).trans (hsame hlevel), ?_⟩
    by_cases hlevel : st.edit.straighten = .none
    · exact cropRect_within_of_eq h hlevel (hsame hlevel)
    · exact (cropRect_within_iff h.scale_pos).mpr (hexportable.upright hlevel)

/-- In every state of the editor what is exported is what is rendered, and lies in the image, if and
only if the state is one that can be exported. -/
theorem crop_exported_iff {st₀ : State K} (h₀ : Loaded img st₀)
    (h : Runs (editorStep img) (fun _ _ => True) st₀ st) :
    Exported img st ↔ Exportable img st.edit :=
  (everywhere_sound h₀ h).edit.exported_iff (runs_scaled h₀ h)

/-! An image turned on its side -/

theorem crop_exported_square :
    ∃ st, exec (editorStep square) (opened.loadImage square) [.rotateClockwise] = some st ∧
      Exported square st := by
  refine ⟨_, rfl, (crop_exported_iff (loaded_opened square)
    (.of_exec [.rotateClockwise] rfl (by decide +kernel))).mpr ?_⟩
  exact ⟨fun _ _ => rfl, fun _ hflip => absurd hflip Bool.false_ne_true,
    fun _ hflip => absurd hflip Bool.false_ne_true, fun hlevel => absurd rfl hlevel⟩

theorem crop_not_exported : ¬ ∀ (img : Image ℚ) (st₀ st : State ℚ), Loaded img st₀ →
    Runs (editorStep img) (fun _ _ => True) st₀ st → Exported img st := by
  intro h
  have hrun : Runs (editorStep landscape) (fun _ _ => True) (opened.loadImage landscape)
      (step landscape (opened.loadImage landscape) .rotateClockwise) :=
    .of_exec [.rotateClockwise] rfl (by decide +kernel)
  have hexportable := ((everywhere_sound (loaded_opened landscape) hrun).edit.exported_iff
    (runs_scaled (loaded_opened landscape) hrun)).mp (h landscape _ _ (loaded_opened landscape) hrun)
  have hsides : (200 : ℚ) = 100 := hexportable.turned rfl rfl
  norm_num at hsides

end Pivox.ImageEditor
