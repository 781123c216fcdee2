import Pivox.ImageEditor.CropRect

/-!
The size of the crop: what a drag of one of its handles makes of it, and whether the image can fill
a crop of a given size.
-/

namespace Pivox.ImageEditor
variable {K : Type} [Field K] [LinearOrder K] [IsStrictOrderedRing K]

/-! A drag of a handle -/

/- The least sides of a crop with the locked ratio. -/
def smallestCrop : Option K → K × K
  | none => (minCropSize, minCropSize)
  | some ratio => (max minCropSize (minCropSize * ratio), max minCropSize (minCropSize / ratio))

/-- The crop is neither too small nor too large, and of the locked ratio. -/
structure Conforms (img : Image K) (ratio : Option K) (crop : K × K) : Prop where
  minWidth : minCropSize ≤ crop.1
  minHeight : minCropSize ≤ crop.2
  width_le : crop.1 ≤ img.naturalWidth
  height_le : crop.2 ≤ img.naturalHeight
  ratio_eq : ∀ r ∈ ratio, crop.1 = r * crop.2

/-- The side that the handle drags leaves the other one, which follows from the ratio, its
minimum. -/
def LeavesMinimum (handle : DragHandle) (dx dy : K) (orig : EditState K) : Prop :=
  ∀ ratio ∈ orig.activeTemplate.bind (·.ratio),
    if handle = .w ∨ handle = .e then
      1 < ratio → minCropSize * ratio ≤ resizeWidth handle dx orig.cropWidth
    else ratio < 1 → minCropSize / ratio ≤ resizeHeight handle dy orig.cropHeight

/- The largest crop of the ratio within a size. -/
theorem fitted_eq {a b ratio : K} (hb : 0 < b) (hr : 0 < ratio) :
    (if ratio < a / b then (b * ratio, b) else (a, a / ratio)) =
      (min a (b * ratio), min a (b * ratio) / ratio) := by
  have hlt : ratio < a / b ↔ b * ratio < a := by rw [lt_div_iff₀ hb, mul_comm]
  split
  · next h => rw [min_eq_right (hlt.mp h).le, mul_div_cancel_right₀ b hr.ne']
  · next h => rw [min_eq_left (not_lt.mp fun h' => h (hlt.mpr h'))]

/- The width that a drag asks for, before the image limits it. -/
def leadingWidth (handle : DragHandle) (dx dy : K) (orig : EditState K) (ratio : K) : K :=
  if handle = .w ∨ handle = .e then max (resizeWidth handle dx orig.cropWidth) minCropSize
  else max (resizeHeight handle dy orig.cropHeight) minCropSize * ratio

variable {img : Image K} {orig : EditState K} {handle : DragHandle} {dx dy ratio : K}

theorem resizedCrop_of_ratio (hmove : handle ≠ .move)
    (hratio : orig.activeTemplate.bind (·.ratio) = some ratio) :
    State.resizedCrop img orig handle dx dy =
      (min (leadingWidth handle dx dy orig ratio)
          (min img.naturalWidth (img.naturalHeight * ratio)),
        min (leadingWidth handle dx dy orig ratio)
          (min img.naturalWidth (img.naturalHeight * ratio)) / ratio) := by
  have hr : 0 < ratio := ratio_pos hratio
  have hside (x : K) : 0 < max x minCropSize := minCropSize_pos.trans_le (le_max_right _ _)
  unfold State.resizedCrop
  simp only [hratio, resizeCropFromHandle, hmove, if_false, leadingWidth]
  split
  · rw [fitted_eq (lt_min (div_pos (hside _) hr) img.height_pos) hr, min_mul_of_nonneg _ _ hr.le,
      div_mul_cancel₀ _ hr.ne', min_min_min_comm, min_self]
  · rw [fitted_eq (lt_min (hside _) img.height_pos) hr, min_mul_of_nonneg _ _ hr.le,
      min_min_min_comm, min_self]

omit [IsStrictOrderedRing K] in
theorem resizedCrop_of_free (hmove : handle ≠ .move)
    (hratio : orig.activeTemplate.bind (·.ratio) = none) :
    State.resizedCrop img orig handle dx dy =
      (min (max (resizeWidth handle dx orig.cropWidth) minCropSize) img.naturalWidth,
        min (max (resizeHeight handle dy orig.cropHeight) minCropSize) img.naturalHeight) := by
  unfold State.resizedCrop
  simp only [hratio, resizeCropFromHandle, hmove, if_false]

theorem leadingWidth_iff (hr : 0 < ratio) :
    minCropSize ≤ leadingWidth handle dx dy orig ratio ∧
        minCropSize * ratio ≤ leadingWidth handle dx dy orig ratio ↔
      if handle = .w ∨ handle = .e then
        1 < ratio → minCropSize * ratio ≤ resizeWidth handle dx orig.cropWidth
      else ratio < 1 → minCropSize / ratio ≤ resizeHeight handle dy orig.cropHeight := by
  have hmin : (0 : K) < minCropSize := minCropSize_pos
  have hone : minCropSize * ratio ≤ minCropSize ↔ ¬ 1 < ratio := by
    rw [not_lt]
    exact mul_le_iff_le_one_right hmin
  have hone' : minCropSize / ratio ≤ minCropSize ↔ ¬ ratio < 1 := by
    rw [not_lt, div_le_iff₀ hr]
    exact le_mul_iff_one_le_right hmin
  unfold leadingWidth
  split
  · rw [and_iff_right (le_max_right _ _), le_max_iff, hone, or_comm, ← imp_iff_not_or]
  · rw [and_iff_left (mul_le_mul_of_nonneg_right (le_max_right _ _) hr.le), ← div_le_iff₀ hr,
      le_max_iff, hone', or_comm, ← imp_iff_not_or]

theorem conforms_of_ratio (hr : 0 < ratio) (hw : (smallestCrop (some ratio)).1 ≤ img.naturalWidth)
    (hh : (smallestCrop (some ratio)).2 ≤ img.naturalHeight) (lead : K) :
    Conforms img (some ratio)
        (min lead (min img.naturalWidth (img.naturalHeight * ratio)),
          min lead (min img.naturalWidth (img.naturalHeight * ratio)) / ratio) ↔
      minCropSize ≤ lead ∧ minCropSize * ratio ≤ lead := by
  obtain ⟨hw, hwr⟩ := max_le_iff.mp hw
  obtain ⟨hh, hhr⟩ := max_le_iff.mp hh
  rw [div_le_iff₀ hr] at hhr
  have hhr' : minCropSize * ratio ≤ img.naturalHeight * ratio :=
    mul_le_mul_of_nonneg_right hh hr.le
  constructor
  · rintro ⟨hminW, hminH, -, -, -⟩
    have hminH : minCropSize * ratio ≤ _ := (le_div_iff₀ hr).mp hminH
    exact ⟨hminW.trans (min_le_left _ _), hminH.trans (min_le_left _ _)⟩
  · rintro ⟨hlead, hlead'⟩
    constructor
    · exact le_min hlead (le_min hw hhr)
    · exact (le_div_iff₀ hr).mpr (le_min hlead' (le_min hwr hhr'))
    · exact (min_le_right _ _).trans (min_le_left _ _)
    · exact (div_le_iff₀ hr).mpr ((min_le_right _ _).trans (min_le_right _ _))
    · rintro r ⟨⟩
      exact (mul_div_cancel₀ _ hr.ne').symm

/-- On an image with room for the smallest crop of the locked ratio, a drag of a handle leaves a
crop that conforms exactly if the dragged side leaves the other one its minimum. -/
theorem resizedCrop_conforms_iff (hmove : handle ≠ .move)
    (hw : (smallestCrop (orig.activeTemplate.bind (·.ratio))).1 ≤ img.naturalWidth)
    (hh : (smallestCrop (orig.activeTemplate.bind (·.ratio))).2 ≤ img.naturalHeight) :
    Conforms img (orig.activeTemplate.bind (·.ratio)) (State.resizedCrop img orig handle dx dy) ↔
      LeavesMinimum handle dx dy orig := by
  unfold LeavesMinimum
  cases hratio : orig.activeTemplate.bind (·.ratio) with
  | none =>
    rw [hratio] at hw hh
    rw [resizedCrop_of_free hmove hratio]
    constructor
    · intro _ r hr
      cases hr
    · intro _
      exact ⟨le_min (le_max_right _ _) hw, le_min (le_max_right _ _) hh, min_le_right _ _,
        min_le_right _ _, by simp⟩
  | some ratio =>
    rw [hratio] at hw hh
    have hr : 0 < ratio := ratio_pos hratio
    rw [resizedCrop_of_ratio hmove hratio, conforms_of_ratio hr hw hh, leadingWidth_iff hr]
    simp

theorem two_ratio_pos : ∀ r ∈ some (2 : ℚ), 0 < r := by
  rintro r ⟨⟩
  norm_num

def twoToOne : CropTemplate ℚ := ⟨"2:1", some 2, two_ratio_pos⟩

theorem resizedCrop_conforms_halved :
    Conforms landscape ((loadedEditState landscape (some twoToOne)).activeTemplate.bind (·.ratio))
        (State.resizedCrop landscape (loadedEditState landscape (some twoToOne)) .e (-50) 0) ∧
      LeavesMinimum .e (-50) 0 (loadedEditState landscape (some twoToOne)) := by
  have hleaves : LeavesMinimum .e (-50) 0 (loadedEditState landscape (some twoToOne)) := by
    intro ratio hratio
    obtain rfl : ratio = 2 := Option.some.inj hratio.symm
    rw [if_pos (.inr rfl)]
    intro _
    decide +kernel
  exact ⟨(resizedCrop_conforms_iff (by decide) (by decide +kernel) (by decide +kernel)).mpr hleaves,
    hleaves⟩

/- With its right side dragged to the minimum, the crop is half as high. -/
theorem resizedCrop_below_minimum : ¬ ∀ (img : Image ℚ) (orig : EditState ℚ) (handle : DragHandle)
    (dx dy : ℚ), handle ≠ .move → minCropSize ≤ orig.cropWidth → minCropSize ≤ orig.cropHeight →
      (smallestCrop (orig.activeTemplate.bind (·.ratio))).1 ≤ img.naturalWidth →
      (smallestCrop (orig.activeTemplate.bind (·.ratio))).2 ≤ img.naturalHeight →
        Conforms img (orig.activeTemplate.bind (·.ratio))
          (State.resizedCrop img orig handle dx dy) := by
  intro h
  have hconforms := h landscape (loadedEditState landscape (some twoToOne)) .e (-95) 0 (by decide)
    (by decide +kernel) (by decide +kernel) (by decide +kernel) (by decide +kernel)
  exact absurd hconforms.minHeight (by decide +kernel)

/-! Whether the image can fill a crop -/

def isCropSizeValid (newCropW newCropH imgW imgH scale : K) (d : Direction K) : Bool :=
  let maxW := imgW * scale * |d.cos| + imgH * scale * |d.sin|
  let maxH := imgW * scale * |d.sin| + imgH * scale * |d.cos|
  decide (newCropW ≤ maxW) && decide (newCropH ≤ maxH)

/- The points of the crop, from its centre. -/
def cropPoints (cropW cropH : K) : Set (Point K) := {q | |q.x| ≤ cropW / 2 ∧ |q.y| ≤ cropH / 2}

/- Those of the image, scaled, turned and moved. -/
def imagePoints (imgW imgH scale : K) (d : Direction K) (tx ty : K) : Set (Point K) :=
  {q | ∃ u v, |u| ≤ imgW * scale / 2 ∧ |v| ≤ imgH * scale / 2 ∧
    q = ⟨tx + (d.cos * u - d.sin * v), ty + (d.sin * u + d.cos * v)⟩}

/-- Some translation places the image over the whole crop. -/
def Fillable (cropW cropH imgW imgH scale : K) (d : Direction K) : Prop :=
  ∃ tx ty, cropPoints cropW cropH ⊆ imagePoints imgW imgH scale d tx ty

section validity
variable {cropW cropH imgW imgH scale tx ty : K} {d : Direction K}

/- A point of the image, turned back. -/
theorem mem_imagePoints (hunit : d.cos ^ 2 + d.sin ^ 2 = 1) {q : Point K} :
    q ∈ imagePoints imgW imgH scale d tx ty ↔
      |d.cos * (q.x - tx) + d.sin * (q.y - ty)| ≤ imgW * scale / 2 ∧
        |d.cos * (q.y - ty) - d.sin * (q.x - tx)| ≤ imgH * scale / 2 := by
  constructor
  · rintro ⟨u, v, hu, hv, rfl⟩
    have hcos : d.cos * (tx + (d.cos * u - d.sin * v) - tx)
        + d.sin * (ty + (d.sin * u + d.cos * v) - ty) = u := by
      linear_combination u * hunit
    have hsin : d.cos * (ty + (d.sin * u + d.cos * v) - ty)
        - d.sin * (tx + (d.cos * u - d.sin * v) - tx) = v := by
      linear_combination v * hunit
    exact ⟨by rwa [hcos], by rwa [hsin]⟩
  · rintro ⟨hu, hv⟩
    refine ⟨_, _, hu, hv, ?_⟩
    obtain ⟨x, y⟩ := q
    simp only [Point.mk.injEq]
    constructor
    · linear_combination (tx - x) * hunit
    · linear_combination (ty - y) * hunit

theorem computeMinScale_le_iff (hw : 0 < imgW) (hh : 0 < imgH) :
    computeMinScale cropW cropH imgW imgH d ≤ scale ↔
      cropW * |d.cos| + cropH * |d.sin| ≤ imgW * scale ∧
        cropW * |d.sin| + cropH * |d.cos| ≤ imgH * scale := by
  rw [computeMinScale, max_le_iff, div_le_iff₀ hw, div_le_iff₀ hh, mul_comm scale imgW,
    mul_comm scale imgH]

/- Along a direction, a rectangle reaches as far as the corner that lies in it. -/
theorem projection_le {a b m t : K} (ha : 0 ≤ a) (hb : 0 ≤ b) (c s : K)
    (h : ∀ x y, |x| ≤ a → |y| ≤ b → |c * x + s * y - t| ≤ m) : a * |c| + b * |s| ≤ m := by
  have hside (x e : K) (he : 0 ≤ e) : ∃ y, |y| ≤ e ∧ x * y = e * |x| := by
    obtain hx | hx := le_total 0 x
    · exact ⟨e, (abs_of_nonneg he).le, by rw [abs_of_nonneg hx, mul_comm]⟩
    · refine ⟨-e, by rw [abs_neg, abs_of_nonneg he], ?_⟩
      rw [abs_of_nonpos hx]
      ring
  obtain ⟨x, hx, hcx⟩ := hside c a ha
  obtain ⟨y, hy, hsy⟩ := hside s b hb
  have hcorner := (abs_le.mp (h x y hx hy)).2
  have hopposite := (abs_le.mp (h (-x) (-y) (by rwa [abs_neg]) (by rwa [abs_neg]))).1
  linarith

theorem abs_project_le {a b x y : K} (hx : |x| ≤ a) (hy : |y| ≤ b) (c s : K) :
    |c * x + s * y| ≤ a * |c| + b * |s| := by
  calc |c * x + s * y| ≤ |c * x| + |s * y| := abs_add_le _ _
    _ = |x| * |c| + |y| * |s| := by rw [abs_mul, abs_mul, mul_comm |c|, mul_comm |s|]
    _ ≤ a * |c| + b * |s| :=
      add_le_add (mul_le_mul_of_nonneg_right hx (abs_nonneg c))
        (mul_le_mul_of_nonneg_right hy (abs_nonneg s))

/-- The minimal scale is the one from which on some translation places the image over the crop. -/
theorem computeMinScale_le_iff_fillable (hunit : d.cos ^ 2 + d.sin ^ 2 = 1) (hcropW : 0 < cropW)
    (hcropH : 0 < cropH) (hw : 0 < imgW) (hh : 0 < imgH) :
    computeMinScale cropW cropH imgW imgH d ≤ scale ↔
      Fillable cropW cropH imgW imgH scale d := by
  rw [computeMinScale_le_iff hw hh]
  have hcropW : 0 ≤ cropW / 2 := by linarith
  have hcropH : 0 ≤ cropH / 2 := by linarith
  constructor
  · rintro ⟨hfitsW, hfitsH⟩
    refine ⟨0, 0, fun q hq => (mem_imagePoints hunit).mpr ?_⟩
    obtain ⟨hx, hy⟩ := hq
    have hprojW := abs_project_le hx hy d.cos d.sin
    have hprojH := abs_project_le hx hy (-d.sin) d.cos
    rw [abs_neg] at hprojH
    constructor
    · rw [sub_zero, sub_zero]
      linarith
    · rw [sub_zero, sub_zero, show d.cos * q.y - d.sin * q.x = -d.sin * q.x + d.cos * q.y by ring]
      linarith
  · rintro ⟨tx, ty, hsubset⟩
    have hcorners (x y : K) (hx : |x| ≤ cropW / 2) (hy : |y| ≤ cropH / 2) :=
      (mem_imagePoints hunit).mp (hsubset (show (⟨x, y⟩ : Point K) ∈ cropPoints cropW cropH from ⟨hx, hy⟩))
    have hprojW := projection_le (t := d.cos * tx + d.sin * ty) (m := imgW * scale / 2)
      hcropW hcropH d.cos d.sin fun x y hx hy => by
        have hcorner := (hcorners x y hx hy).1
        rwa [show d.cos * (x - tx) + d.sin * (y - ty) =
          d.cos * x + d.sin * y - (d.cos * tx + d.sin * ty) by ring] at hcorner
    have hprojH := projection_le (t := d.cos * ty - d.sin * tx) (m := imgH * scale / 2)
      hcropW hcropH (-d.sin) d.cos fun x y hx hy => by
        have hcorner := (hcorners x y hx hy).2
        rwa [show d.cos * (y - ty) - d.sin * (x - tx) =
          -d.sin * x + d.cos * y - (d.cos * ty - d.sin * tx) by ring] at hcorner
    rw [abs_neg] at hprojH
    constructor <;> linarith

omit [IsStrictOrderedRing K] in
theorem isCropSizeValid_iff : isCropSizeValid cropW cropH imgW imgH scale d = true ↔
    cropW ≤ imgW * scale * |d.cos| + imgH * scale * |d.sin| ∧
      cropH ≤ imgW * scale * |d.sin| + imgH * scale * |d.cos| := by
  simp [isCropSizeValid]

omit [IsStrictOrderedRing K] in
theorem not_isCropSizeValid_iff : ¬ isCropSizeValid cropW cropH imgW imgH scale d = true ↔
    imgW * scale * |d.cos| + imgH * scale * |d.sin| < cropW ∨
      imgW * scale * |d.sin| + imgH * scale * |d.cos| < cropH := by
  rw [isCropSizeValid_iff, not_and_or, not_le, not_le]

omit [IsStrictOrderedRing K] in
theorem abs_unit (hunit : d.cos ^ 2 + d.sin ^ 2 = 1) : |d.cos| ^ 2 + |d.sin| ^ 2 = 1 := by
  rwa [sq_abs, sq_abs]

theorem isCropSizeValid_of_computeMinScale_le (hunit : d.cos ^ 2 + d.sin ^ 2 = 1)
    (hcropW : 0 < cropW) (hcropH : 0 < cropH) (hw : 0 < imgW) (hh : 0 < imgH)
    (h : computeMinScale cropW cropH imgW imgH d ≤ scale) :
    isCropSizeValid cropW cropH imgW imgH scale d = true := by
  obtain ⟨hfitsW, hfitsH⟩ := (computeMinScale_le_iff hw hh).mp h
  have hunit := abs_unit hunit
  have hcos : 0 ≤ |d.cos| := abs_nonneg _
  have hsin : 0 ≤ |d.sin| := abs_nonneg _
  have hcross : 0 ≤ |d.cos| * |d.sin| := mul_nonneg hcos hsin
  rw [isCropSizeValid_iff]
  constructor
  · calc cropW ≤ cropW * (|d.cos| ^ 2 + |d.sin| ^ 2) + 2 * (cropH * (|d.cos| * |d.sin|)) := by
          have := mul_nonneg hcropH.le hcross
          rw [hunit]
          linarith
      _ = (cropW * |d.cos| + cropH * |d.sin|) * |d.cos|
          + (cropW * |d.sin| + cropH * |d.cos|) * |d.sin| := by ring
      _ ≤ imgW * scale * |d.cos| + imgH * scale * |d.sin| :=
        add_le_add (mul_le_mul_of_nonneg_right hfitsW hcos)
          (mul_le_mul_of_nonneg_right hfitsH hsin)
  · calc cropH ≤ cropH * (|d.cos| ^ 2 + |d.sin| ^ 2) + 2 * (cropW * (|d.cos| * |d.sin|)) := by
          have := mul_nonneg hcropW.le hcross
          rw [hunit]
          linarith
      _ = (cropW * |d.cos| + cropH * |d.sin|) * |d.sin|
          + (cropW * |d.sin| + cropH * |d.cos|) * |d.cos| := by ring
      _ ≤ imgW * scale * |d.sin| + imgH * scale * |d.cos| :=
        add_le_add (mul_le_mul_of_nonneg_right hfitsW hsin)
          (mul_le_mul_of_nonneg_right hfitsH hcos)

/- At a quarter turn both tests compare each side of the crop with one side of the image. -/
theorem isCropSizeValid_of_level (hunit : d.cos ^ 2 + d.sin ^ 2 = 1)
    (hlevel : d.cos = 0 ∨ d.sin = 0) (hw : 0 < imgW) (hh : 0 < imgH) :
    isCropSizeValid cropW cropH imgW imgH scale d = true ↔
      computeMinScale cropW cropH imgW imgH d ≤ scale := by
  have hunit := abs_unit hunit
  rw [isCropSizeValid_iff, computeMinScale_le_iff hw hh]
  obtain hcos | hsin := hlevel
  · have hsin : |d.sin| = 1 := by
      rw [hcos, abs_zero] at hunit
      exact (pow_eq_one_iff_of_nonneg (abs_nonneg _) two_ne_zero).mp (by linarith)
    simp [hcos, hsin, and_comm]
  · have hcos : |d.cos| = 1 := by
      rw [hsin, abs_zero] at hunit
      exact (pow_eq_one_iff_of_nonneg (abs_nonneg _) two_ne_zero).mp (by linarith)
    simp [hcos, hsin]

/- The bounding box of the turned image is valid, and the image does not fill it. -/
theorem level_of_agree (hunit : d.cos ^ 2 + d.sin ^ 2 = 1) (hw : 0 < imgW) (hh : 0 < imgH)
    (hscale : 0 < scale)
    (h : ∀ cropW cropH, 0 < cropW → 0 < cropH →
      isCropSizeValid cropW cropH imgW imgH scale d = true →
        computeMinScale cropW cropH imgW imgH d ≤ scale) : d.cos = 0 ∨ d.sin = 0 := by
  by_contra hlevel
  obtain ⟨hcos, hsin⟩ := not_or.mp hlevel
  have hcos : 0 < |d.cos| := abs_pos.mpr hcos
  have hsin : 0 < |d.sin| := abs_pos.mpr hsin
  have hunit := abs_unit hunit
  have hwidth : 0 < imgW * scale := mul_pos hw hscale
  have hheight : 0 < imgH * scale := mul_pos hh hscale
  have hmin := h _ _ (add_pos (mul_pos hwidth hcos) (mul_pos hheight hsin))
    (add_pos (mul_pos hwidth hsin) (mul_pos hheight hcos))
    (isCropSizeValid_iff.mpr ⟨le_refl _, le_refl _⟩)
  have hfits := ((computeMinScale_le_iff hw hh).mp hmin).1
  have hsum : (imgW * scale * |d.cos| + imgH * scale * |d.sin|) * |d.cos|
      + (imgW * scale * |d.sin| + imgH * scale * |d.cos|) * |d.sin|
      = imgW * scale + 2 * (imgH * scale * (|d.cos| * |d.sin|)) := by
    linear_combination imgW * scale * hunit
  have hcross : 0 < imgH * scale * (|d.cos| * |d.sin|) := mul_pos hheight (mul_pos hcos hsin)
  linarith

/-- The test of a crop size agrees with the minimal scale exactly for the crops that the image can
fill and those that are wider or higher than its bounding box. On an image and at a scale that are
given, it agrees for every crop exactly at the quarter turns. -/
theorem isCropSizeValid_agrees_iff (hunit : d.cos ^ 2 + d.sin ^ 2 = 1) (hw : 0 < imgW)
    (hh : 0 < imgH) (hscale : 0 < scale) :
    (∀ cropW cropH, 0 < cropW → 0 < cropH →
      (((isCropSizeValid cropW cropH imgW imgH scale d = true ↔
            computeMinScale cropW cropH imgW imgH d ≤ scale) ∧
          (computeMinScale cropW cropH imgW imgH d ≤ scale ↔
            Fillable cropW cropH imgW imgH scale d)) ↔
        Fillable cropW cropH imgW imgH scale d ∨
          imgW * scale * |d.cos| + imgH * scale * |d.sin| < cropW ∨
          imgW * scale * |d.sin| + imgH * scale * |d.cos| < cropH)) ∧
      ((∀ cropW cropH, 0 < cropW → 0 < cropH →
        (isCropSizeValid cropW cropH imgW imgH scale d = true ↔
          computeMinScale cropW cropH imgW imgH d ≤ scale)) ↔ d.cos = 0 ∨ d.sin = 0) := by
  refine ⟨fun cropW cropH hcropW hcropH => ?_, fun h => ?_, fun hlevel cropW cropH _ _ => ?_⟩
  · have hfill : computeMinScale cropW cropH imgW imgH d ≤ scale ↔ _ :=
      computeMinScale_le_iff_fillable hunit hcropW hcropH hw hh
    have hvalid : computeMinScale cropW cropH imgW imgH d ≤ scale → _ :=
      isCropSizeValid_of_computeMinScale_le hunit hcropW hcropH hw hh
    rw [and_iff_left hfill, ← not_isCropSizeValid_iff, ← hfill]
    constructor
    · intro hagree
      rw [← hagree]
      exact em _
    · rintro (hmin | hnot)
      · exact iff_of_true (hvalid hmin) hmin
      · exact iff_of_false hnot fun hmin => hnot (hvalid hmin)
  · refine level_of_agree hunit hw hh hscale fun cropW cropH hcropW hcropH => ?_
    exact (h cropW cropH hcropW hcropH).mp
  · exact isCropSizeValid_of_level hunit hlevel hw hh

end validity

theorem isCropSizeValid_agrees_turned :
    (∀ cropW cropH : ℚ, 0 < cropW → 0 < cropH →
      (isCropSizeValid cropW cropH 200 100 1 ⟨0, 1⟩ = true ↔
        computeMinScale cropW cropH 200 100 ⟨0, 1⟩ ≤ 1)) ∧
    isCropSizeValid 80 150 200 100 1 (⟨0, 1⟩ : Direction ℚ) = true := by
  have hunit : (⟨0, 1⟩ : Direction ℚ).cos ^ 2 + (⟨0, 1⟩ : Direction ℚ).sin ^ 2 = 1 := by
    norm_num
  have hagrees : ∀ cropW cropH : ℚ, 0 < cropW → 0 < cropH →
      (isCropSizeValid cropW cropH 200 100 1 ⟨0, 1⟩ = true ↔
        computeMinScale cropW cropH 200 100 ⟨0, 1⟩ ≤ 1) :=
    (isCropSizeValid_agrees_iff hunit (by norm_num) (by norm_num) (by norm_num)).2.mpr (.inl rfl)
  refine ⟨hagrees, (hagrees 80 150 (by norm_num) (by norm_num)).mpr ?_⟩
  decide +kernel

/- A square image turned by the angle of a 3-4-5 triangle, and its bounding box. -/
theorem isCropSizeValid_too_large : ¬ ∀ (cropW cropH imgW imgH scale : ℚ) (d : Direction ℚ),
    0 < cropW → 0 < cropH → 0 < imgW → 0 < imgH → 0 < scale → d.cos ^ 2 + d.sin ^ 2 = 1 →
      (isCropSizeValid cropW cropH imgW imgH scale d = true ↔
        computeMinScale cropW cropH imgW imgH d ≤ scale) := by
  intro h
  have hagree := h 140 140 100 100 1 ⟨4 / 5, 3 / 5⟩ (by norm_num) (by norm_num) (by norm_num)
    (by norm_num) (by norm_num) (by norm_num)
  exact absurd (hagree.mp (by decide +kernel)) (by decide +kernel)

end Pivox.ImageEditor
