import Mathlib.Algebra.Order.Field.Basic
import Mathlib.Algebra.Order.Group.MinMax
import Mathlib.Algebra.Order.Monoid.WithTop
import Mathlib.Tactic.Linarith
import Mathlib.Tactic.Ring

/-!
The crop mathematics of the image editor: how far an image may be moved behind the crop rectangle,
and when the two directions, each limited for itself, leave it uncovered.
-/

namespace Pivox.ImageEditor
variable {K : Type} [Field K] [LinearOrder K] [IsStrictOrderedRing K]

/- Tried before the many other ways to an ordered ring. -/
scoped instance (priority := 1100) isOrderedRing : IsOrderedRing K :=
  IsStrictOrderedRing.toIsOrderedRing

instance two_atLeastTwo : Nat.AtLeastTwo 2 := ⟨Nat.le_refl 2⟩
instance ten_atLeastTwo : Nat.AtLeastTwo 10 := ⟨by decide⟩
instance sixteen_atLeastTwo : Nat.AtLeastTwo 16 := ⟨by decide⟩
instance hundred_atLeastTwo : Nat.AtLeastTwo 100 := ⟨by decide⟩

/- The cosine and the sine of an angle. -/
structure Direction (K : Type) where
  cos : K
  sin : K
  deriving DecidableEq

structure Image (K : Type) [Field K] [LinearOrder K] where
  naturalWidth : K
  naturalHeight : K
  width_pos : 0 < naturalWidth
  height_pos : 0 < naturalHeight

/- width / height, or none for freeform. -/
structure CropTemplate (K : Type) [Field K] [LinearOrder K] where
  label : String
  ratio : Option K
  ratio_pos : ∀ r ∈ ratio, 0 < r

inductive DragHandle where
  | nw | n | ne | w | e | sw | s | se | move
  deriving DecidableEq, Repr

def computeMinScale (cropW cropH imgW imgH : K) (d : Direction K) : K :=
  max ((cropW * |d.cos| + cropH * |d.sin|) / imgW) ((cropW * |d.sin| + cropH * |d.cos|) / imgH)

/- Below it a direction counts as none, and sets no limit. -/
def epsilon : K := 1 / 10 ^ 10

def limit (slack component : K) : WithTop K :=
  if epsilon < component then ((slack / component : K) : WithTop K) else ⊤

/- What the scaled image has more than the projected crop on either of its axes, by half. -/
def slackW (cropW cropH imgW scale : K) (d : Direction K) : K :=
  imgW * scale / 2 - (cropW / 2 * |d.cos| + cropH / 2 * |d.sin|)

def slackH (cropW cropH imgH scale : K) (d : Direction K) : K :=
  imgH * scale / 2 - (cropW / 2 * |d.sin| + cropH / 2 * |d.cos|)

/-- The greatest tx with ty = 0, and the greatest ty with tx = 0. -/
def computeTranslationBounds (cropW cropH imgW imgH scale : K) (d : Direction K) :
    WithTop K × WithTop K :=
  let w := slackW cropW cropH imgW scale d
  let h := slackH cropW cropH imgH scale d
  (max 0 (min (limit w |d.cos|) (limit h |d.sin|)), max 0 (min (limit w |d.sin|) (limit h |d.cos|)))

def clamp (t : K) : WithTop K → K
  | none => t
  | some m => max (-m) (min t m)

def clampTranslation (tx ty : K) (maxTx maxTy : WithTop K) : K × K :=
  (clamp tx maxTx, clamp ty maxTy)

/-- The crop of a template with a ratio is as much of the image as it takes. -/
def applyCropTemplate (ratio : Option K) (currentCropW currentCropH imgW imgH : K) : K × K :=
  match ratio with
  | none => (currentCropW, currentCropH)
  | some ratio => if ratio < imgW / imgH then (imgH * ratio, imgH) else (imgW, imgW / ratio)

def minCropSize : K := 10

def resizeWidth (handle : DragHandle) (deltaX w : K) : K :=
  match handle with
  | .nw | .w | .sw => w - deltaX * 2
  | .ne | .e | .se => w + deltaX * 2
  | _ => w

def resizeHeight (handle : DragHandle) (deltaY h : K) : K :=
  match handle with
  | .nw | .n | .ne => h - deltaY * 2
  | .sw | .s | .se => h + deltaY * 2
  | _ => h

def resizeCropFromHandle (handle : DragHandle) (deltaX deltaY currentCropW currentCropH : K)
    (aspectRatio : Option K) : K × K :=
  if handle = .move then (currentCropW, currentCropH)
  else
    let w := max (resizeWidth handle deltaX currentCropW) minCropSize
    let h := max (resizeHeight handle deltaY currentCropH) minCropSize
    match aspectRatio with
    | none => (w, h)
    | some ratio => if handle = .w ∨ handle = .e then (w, w / ratio) else (h * ratio, h)

/-! Clamping one number -/

/- How far the clamped number is from zero. -/
def reach (t : K) : WithTop K → K
  | none => |t|
  | some m => min |t| m

theorem abs_clamp {t : K} {m : WithTop K} (hm : 0 ≤ m) : |clamp t m| = reach t m := by
  cases m with
  | top => rfl
  | coe m =>
    have hm : 0 ≤ m := WithTop.coe_nonneg.mp hm
    change |max (-m) (min t m)| = min |t| m
    obtain ht | ht := le_total 0 t
    · rw [max_eq_right ((neg_nonpos.mpr hm).trans (le_min ht hm)), abs_of_nonneg (le_min ht hm),
        abs_of_nonneg ht]
    · rw [min_eq_left (ht.trans hm), abs_of_nonpos (max_le (neg_nonpos.mpr hm) ht), abs_of_nonpos ht,
        ← min_neg_neg, neg_neg, min_comm]

/-- A clamped number keeps its sign. -/
theorem clamp_eq_mul (t : K) {m : WithTop K} (hm : 0 ≤ m) : ∃ l, 0 ≤ l ∧ clamp t m = l * t := by
  cases m with
  | top => exact ⟨1, zero_le_one, (one_mul t).symm⟩
  | coe m =>
    have hm : 0 ≤ m := WithTop.coe_nonneg.mp hm
    change ∃ l, 0 ≤ l ∧ max (-m) (min t m) = l * t
    obtain hgt | hle := lt_or_ge m t
    · have ht : 0 < t := hm.trans_lt hgt
      refine ⟨m / t, div_nonneg hm ht.le, ?_⟩
      rw [min_eq_right hgt.le, max_eq_right (by linarith), div_mul_cancel₀ m ht.ne']
    · obtain hlt | hge := lt_or_ge t (-m)
      · have ht : t < 0 := by linarith
        refine ⟨-m / t, div_nonneg_of_nonpos (by linarith) ht.le, ?_⟩
        rw [min_eq_left hle, max_eq_left hlt.le, div_mul_cancel₀ (-m) ht.ne]
      · refine ⟨1, zero_le_one, ?_⟩
        rw [min_eq_left hle, max_eq_right hge, one_mul]

omit [IsStrictOrderedRing K] in
theorem reach_le {t b : K} {m : WithTop K} (h : m ≤ (b : WithTop K)) : reach t m ≤ b := by
  cases m with
  | top => exact absurd h (by simp)
  | coe m => exact (min_le_right _ _).trans (WithTop.coe_le_coe.mp h)

/- How far a translation by u may go that is projected by p and q on two axes with the rooms r and
s: as far as it is asked to, and as far as there is room on either axis, unless the direction counts
as none there. -/
def reaches (p q r s u : K) : List K :=
  |u| :: ((if epsilon < |p| then [r / |p|] else []) ++ if epsilon < |q| then [s / |q|] else [])

omit [IsStrictOrderedRing K] in
theorem reach_min (u : K) (m n : WithTop K) : reach u (min m n) = min (reach u m) (reach u n) := by
  cases m with
  | top =>
    rw [min_top_left]
    cases n with
    | top => exact (min_self _).symm
    | coe n => exact (min_eq_right (min_le_left _ _)).symm
  | coe m =>
    cases n with
    | top => exact (min_eq_left (min_le_left _ _)).symm
    | coe n =>
      rw [← WithTop.coe_min]
      change min |u| (min m n) = min (min |u| m) (min |u| n)
      rw [min_min_min_comm, min_self]

omit [IsStrictOrderedRing K] in
theorem reach_limit_isLeast (p r u : K) :
    IsLeast {a | a ∈ |u| :: if epsilon < |p| then [r / |p|] else []} (reach u (limit r |p|)) := by
  unfold limit
  split_ifs
  · have hpair : {a | a ∈ [|u|, r / |p|]} = {|u|, r / |p|} := by
      ext
      simp
    rw [hpair]
    exact isLeast_pair
  · change IsLeast {a | a ∈ [|u|]} |u|
    simp

theorem limit_nonneg {r : K} (hr : 0 ≤ r) (p : K) : 0 ≤ limit r |p| := by
  unfold limit
  split_ifs
  · exact WithTop.coe_nonneg.mpr (div_nonneg hr (abs_nonneg p))
  · exact le_top

/-- The clamped translation goes as far as the shortest of these. -/
theorem reach_isLeast {p q r s : K} (hr : 0 ≤ r) (hs : 0 ≤ s) (u : K) :
    IsLeast {a | a ∈ reaches p q r s u} (reach u (max 0 (min (limit r |p|) (limit s |q|)))) := by
  rw [max_eq_right (le_min (limit_nonneg hr p) (limit_nonneg hs q)), reach_min]
  have hunion := (reach_limit_isLeast p r u).union (reach_limit_isLeast q s u)
  refine (Set.ext fun a => ?_ : _ = {a | a ∈ reaches p q r s u}) ▸ hunion
  simp only [reaches, List.mem_cons, List.mem_append, Set.mem_union, Set.mem_ofPred_eq]
  tauto

/-! One axis of the image, on which two translations are projected -/

/-- Two numbers of one sign add up to more than they are; others make up for one another. -/
theorem abs_add_le_iff {x y w : K} :
    |x + y| ≤ w ↔ (0 < x * y → |x| + |y| ≤ w) ∧ |x| ≤ w + |y| ∧ |y| ≤ w + |x| := by
  constructor
  · intro h
    refine ⟨fun hxy => ?_, ?_, ?_⟩
    · obtain ⟨hx, hy⟩ | ⟨hx, hy⟩ := pos_and_pos_or_neg_and_neg_of_mul_pos hxy
      · rwa [abs_of_pos hx, abs_of_pos hy, ← abs_of_pos (add_pos hx hy)]
      · rwa [abs_of_neg hx, abs_of_neg hy, ← neg_add, ← abs_of_neg (add_neg hx hy)]
    · have := abs_sub_abs_le_abs_sub x (-y)
      rw [abs_neg, sub_neg_eq_add] at this
      linarith
    · have := abs_sub_abs_le_abs_sub y (-x)
      rw [abs_neg, sub_neg_eq_add, add_comm y x] at this
      linarith
  · rintro ⟨hadds, hx, hy⟩
    obtain hxy | hxy := lt_or_ge 0 (x * y)
    · exact (abs_add_le x y).trans (hadds hxy)
    · obtain ⟨hx', hy'⟩ | ⟨hx', hy'⟩ := mul_nonpos_iff.mp hxy
      · rw [abs_of_nonneg hx', abs_of_nonpos hy'] at hx hy
        exact abs_le.mpr ⟨by linarith, by linarith⟩
      · rw [abs_of_nonpos hx', abs_of_nonneg hy'] at hx hy
        exact abs_le.mpr ⟨by linarith, by linarith⟩

variable {p q u v slack : K} {mu mv : WithTop K}

theorem reach_nonneg (hmu : 0 ≤ mu) : 0 ≤ reach u mu :=
  abs_clamp (t := u) hmu ▸ abs_nonneg _

theorem mul_reach_le (hslack : 0 ≤ slack) (hp : epsilon < |p|) (hmu : mu ≤ max 0 (limit slack |p|)) :
    |p| * reach u mu ≤ slack := by
  have heps : (0 : K) < epsilon := by unfold epsilon; positivity
  have hpos : 0 < |p| := heps.trans hp
  have hlimit : max 0 (limit slack |p|) = ((slack / |p| : K) : WithTop K) := by
    rw [limit, if_pos hp]
    exact max_eq_right (WithTop.coe_nonneg.mpr (div_nonneg hslack hpos.le))
  calc |p| * reach u mu ≤ |p| * (slack / |p|) :=
        mul_le_mul_of_nonneg_left (reach_le (hmu.trans_eq hlimit)) hpos.le
    _ = slack := mul_div_cancel₀ slack hpos.ne'

/-- Each translation for itself is within the room, but for a direction that counts as none. -/
theorem mul_reach_le_add (hslack : 0 ≤ slack) (hmu : mu ≤ max 0 (limit slack |p|)) {r : K}
    (hr : 0 ≤ r) (htiny : 0 < |p| → |p| ≤ epsilon → |p| * reach u mu ≤ slack + r) :
    |p| * reach u mu ≤ slack + r := by
  obtain hp | hp := lt_or_ge epsilon |p|
  · have := mul_reach_le (u := u) hslack hp hmu
    linarith
  · obtain hzero | hpos := (abs_nonneg p).eq_or_lt
    · rw [← hzero, zero_mul]
      exact add_nonneg hslack hr
    · exact htiny hpos hp

/-- Where the clamped translations add up there is to be room for both, and where a direction counts
as none the one is to run out of the room by no more than the other one makes up for. -/
theorem abs_axis_le_iff (hslack : 0 ≤ slack) (hmu : 0 ≤ mu) (hmv : 0 ≤ mv)
    (hu : mu ≤ max 0 (limit slack |p|)) (hv : mv ≤ max 0 (limit slack |q|)) :
    |p * clamp u mu + q * clamp v mv| ≤ slack ↔
      (0 < p * q * (u * v) → |p| * reach u mu + |q| * reach v mv ≤ slack) ∧
      (0 < |p| → |p| ≤ epsilon → |p| * reach u mu ≤ slack + |q| * reach v mv) ∧
      (0 < |q| → |q| ≤ epsilon → |q| * reach v mv ≤ slack + |p| * reach u mu) := by
  have hx : |p * clamp u mu| = |p| * reach u mu := by rw [abs_mul, abs_clamp hmu]
  have hy : |q * clamp v mv| = |q| * reach v mv := by rw [abs_mul, abs_clamp hmv]
  have hx0 : 0 ≤ |p| * reach u mu := mul_nonneg (abs_nonneg p) (reach_nonneg hmu)
  have hy0 : 0 ≤ |q| * reach v mv := mul_nonneg (abs_nonneg q) (reach_nonneg hmv)
  obtain ⟨k, hk, hcu⟩ := clamp_eq_mul u hmu
  obtain ⟨l, hl, hcv⟩ := clamp_eq_mul v hmv
  have hsign : p * clamp u mu * (q * clamp v mv) = k * l * (p * q * (u * v)) := by
    rw [hcu, hcv]
    ring
  rw [abs_add_le_iff, hx, hy]
  constructor
  · rintro ⟨hadds, hfirst, hsecond⟩
    refine ⟨fun hpos => ?_, fun _ _ => hfirst, fun _ _ => hsecond⟩
    obtain h | h := (mul_nonneg (mul_nonneg hk hl) hpos.le).eq_or_lt
    · -- One of the two is limited to nothing.
      obtain h | h := mul_eq_zero.mp (hsign.trans h.symm)
      · rw [h, abs_zero] at hx
        linarith
      · rw [h, abs_zero] at hy
        linarith
    · exact hadds (hsign.symm ▸ h)
  · rintro ⟨hadds, hfirst, hsecond⟩
    refine ⟨fun hpos => hadds ?_, mul_reach_le_add hslack hu hy0 hfirst,
      mul_reach_le_add hslack hv hx0 hsecond⟩
    exact pos_of_mul_pos_right (hsign ▸ hpos) (mul_nonneg hk hl)

/-- The translations asked for, u and v, fit on an axis with the room r on which they are projected by
p and q, when the axis across has the room s: where their projections add up there is room for what
some reach of the one and some reach of the other come to, and a direction that counts as none runs
out of the room by no more than any reach of the other makes up for. -/
structure AxisFits (p q u v r s : K) : Prop where
  adds : 0 < p * q * (u * v) →
    ∃ a ∈ reaches p q r s u, ∃ b ∈ reaches q p r s v, |p| * a + |q| * b ≤ r
  first : 0 < |p| → |p| ≤ epsilon →
    ∃ a ∈ reaches p q r s u, ∀ b ∈ reaches q p r s v, |p| * a ≤ r + |q| * b
  second : 0 < |q| → |q| ≤ epsilon →
    ∃ b ∈ reaches q p r s v, ∀ a ∈ reaches p q r s u, |q| * b ≤ r + |p| * a

theorem fits_iff {p q u v r s a b : K} (ha : IsLeast {a | a ∈ reaches p q r s u} a)
    (hb : IsLeast {b | b ∈ reaches q p r s v} b) : AxisFits p q u v r s ↔
      (0 < p * q * (u * v) → |p| * a + |q| * b ≤ r) ∧
      (0 < |p| → |p| ≤ epsilon → |p| * a ≤ r + |q| * b) ∧
      (0 < |q| → |q| ≤ epsilon → |q| * b ≤ r + |p| * a) := by
  constructor
  · rintro ⟨hadds, hfirst, hsecond⟩
    refine ⟨fun h => ?_, fun h h' => ?_, fun h h' => ?_⟩
    · obtain ⟨a', ha', b', hb', hle⟩ := hadds h
      exact (add_le_add (mul_le_mul_of_nonneg_left (ha.2 ha') (abs_nonneg p))
        (mul_le_mul_of_nonneg_left (hb.2 hb') (abs_nonneg q))).trans hle
    · obtain ⟨a', ha', hle⟩ := hfirst h h'
      exact (mul_le_mul_of_nonneg_left (ha.2 ha') (abs_nonneg p)).trans (hle b hb.1)
    · obtain ⟨b', hb', hle⟩ := hsecond h h'
      exact (mul_le_mul_of_nonneg_left (hb.2 hb') (abs_nonneg q)).trans (hle a ha.1)
  · rintro ⟨hadds, hfirst, hsecond⟩
    refine ⟨fun h => ⟨a, ha.1, b, hb.1, hadds h⟩, fun h h' => ⟨a, ha.1, fun b' hb' => ?_⟩,
      fun h h' => ⟨b, hb.1, fun a' ha' => ?_⟩⟩
    · exact (hfirst h h').trans
        (add_le_add_right (mul_le_mul_of_nonneg_left (hb.2 hb') (abs_nonneg q)) r)
    · exact (hsecond h h').trans
        (add_le_add_right (mul_le_mul_of_nonneg_left (ha.2 ha') (abs_nonneg p)) r)

/-! The crop rectangle and the image behind it -/

structure Placement (K : Type) where
  cropWidth : K
  cropHeight : K
  scale : K
  tx : K
  ty : K
  angle : Direction K

/- With the crop centred, no part of it lies outside of the scaled, turned and moved image. -/
structure Covers (img : Image K) (p : Placement K) : Prop where
  horizontal : |p.angle.cos * p.tx + p.angle.sin * p.ty|
      + (p.cropWidth * |p.angle.cos| + p.cropHeight * |p.angle.sin|) / 2
    ≤ img.naturalWidth * p.scale / 2
  vertical : |p.angle.cos * p.ty - p.angle.sin * p.tx|
      + (p.cropWidth * |p.angle.sin| + p.cropHeight * |p.angle.cos|) / 2
    ≤ img.naturalHeight * p.scale / 2

namespace Placement

def bounds (img : Image K) (p : Placement K) : WithTop K × WithTop K :=
  computeTranslationBounds p.cropWidth p.cropHeight img.naturalWidth img.naturalHeight p.scale p.angle

def clamped (img : Image K) (p : Placement K) : Placement K :=
  let t := clampTranslation p.tx p.ty (p.bounds img).1 (p.bounds img).2
  { p with tx := t.1, ty := t.2 }

def minScale (img : Image K) (p : Placement K) : K :=
  computeMinScale p.cropWidth p.cropHeight img.naturalWidth img.naturalHeight p.angle

def roomW (img : Image K) (p : Placement K) : K :=
  slackW p.cropWidth p.cropHeight img.naturalWidth p.scale p.angle

def roomH (img : Image K) (p : Placement K) : K :=
  slackH p.cropWidth p.cropHeight img.naturalHeight p.scale p.angle

/-- On both axes of the image there is room for the two translations together. -/
structure Fits (img : Image K) (p : Placement K) : Prop where
  horizontal : AxisFits p.angle.cos p.angle.sin p.tx p.ty (p.roomW img) (p.roomH img)
  vertical : AxisFits p.angle.cos (-p.angle.sin) p.ty p.tx (p.roomH img) (p.roomW img)

variable {img : Image K} {p : Placement K}

omit [IsStrictOrderedRing K] in
@[simp] theorem clamped_angle : (p.clamped img).angle = p.angle := rfl

theorem rooms_nonneg (h : p.minScale img ≤ p.scale) : 0 ≤ p.roomW img ∧ 0 ≤ p.roomH img := by
  obtain ⟨hw, hh⟩ := max_le_iff.mp h
  rw [div_le_iff₀ img.width_pos] at hw
  rw [div_le_iff₀ img.height_pos] at hh
  constructor
  · unfold roomW slackW
    linarith
  · unfold roomH slackH
    linarith

omit [IsStrictOrderedRing K] in
theorem bounds_nonneg : 0 ≤ (p.bounds img).1 ∧ 0 ≤ (p.bounds img).2 :=
  ⟨le_max_left _ _, le_max_left _ _⟩

theorem covers_iff : Covers img p ↔
    |p.angle.cos * p.tx + p.angle.sin * p.ty| ≤ p.roomW img ∧
      |p.angle.cos * p.ty + -p.angle.sin * p.tx| ≤ p.roomH img := by
  unfold roomW roomH slackW slackH
  rw [neg_mul, ← sub_eq_add_neg]
  constructor
  · rintro ⟨hw, hh⟩
    constructor <;> linarith
  · rintro ⟨hw, hh⟩
    constructor <;> linarith

/-- Clamping each translation for itself leaves the crop covered exactly where both fit together. -/
theorem clamped_covers_iff (h : p.minScale img ≤ p.scale) :
    Covers img (p.clamped img) ↔ p.Fits img := by
  obtain ⟨hw, hh⟩ := rooms_nonneg h
  obtain ⟨htx, hty⟩ := @bounds_nonneg K _ _ img p
  have hboundX : (p.bounds img).1 =
      max 0 (min (limit (p.roomW img) |p.angle.cos|) (limit (p.roomH img) |p.angle.sin|)) := rfl
  have hboundY : (p.bounds img).2 =
      max 0 (min (limit (p.roomW img) |p.angle.sin|) (limit (p.roomH img) |p.angle.cos|)) := rfl
  have hhorizontal : |p.angle.cos * clamp p.tx (p.bounds img).1 +
      p.angle.sin * clamp p.ty (p.bounds img).2| ≤ p.roomW img ↔
        AxisFits p.angle.cos p.angle.sin p.tx p.ty (p.roomW img) (p.roomH img) := by
    refine (abs_axis_le_iff hw htx hty (max_le_max_left 0 (min_le_left _ _))
      (max_le_max_left 0 (min_le_left _ _))).trans (fits_iff ?_ ?_).symm
    · exact hboundX ▸ reach_isLeast hw hh p.tx
    · exact hboundY ▸ reach_isLeast hw hh p.ty
  have hvertical : |p.angle.cos * clamp p.ty (p.bounds img).2 +
      -p.angle.sin * clamp p.tx (p.bounds img).1| ≤ p.roomH img ↔
        AxisFits p.angle.cos (-p.angle.sin) p.ty p.tx (p.roomH img) (p.roomW img) := by
    rw [min_comm] at hboundX hboundY
    refine (abs_axis_le_iff hh hty htx (max_le_max_left 0 (min_le_right _ _))
      (by rw [abs_neg]; exact max_le_max_left 0 (min_le_right _ _))).trans (fits_iff ?_ ?_).symm
    · have hleast := reach_isLeast (p := p.angle.cos) (q := -p.angle.sin) hh hw p.ty
      rwa [abs_neg, ← hboundY] at hleast
    · have hleast := reach_isLeast (p := -p.angle.sin) (q := p.angle.cos) hh hw p.tx
      rwa [abs_neg, ← hboundX] at hleast
  rw [covers_iff]
  exact (and_congr hhorizontal hvertical).trans
    ⟨fun h => ⟨h.1, h.2⟩, fun h => ⟨h.horizontal, h.vertical⟩⟩

end Placement

end Pivox.ImageEditor
