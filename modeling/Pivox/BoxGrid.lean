import Mathlib.Algebra.Order.Round
import Mathlib.Tactic.FieldSimp
import Mathlib.Tactic.Linarith
import Mathlib.Tactic.Ring

/-!
Boxes whose positions and sizes are each rounded to a grid: what margin keeps a box in the one around
it, and what gap keeps two of them apart.
-/

namespace BoxGrid
variable {K : Type} [Field K] [LinearOrder K]

structure Box (K : Type) where
  x : K
  y : K
  width : K
  height : K
  deriving DecidableEq

inductive Axis where
  | horizontal
  | vertical
  deriving DecidableEq

namespace Box

def start (b : Box K) : Axis → K
  | .horizontal => b.x
  | .vertical => b.y

def size (b : Box K) : Axis → K
  | .horizontal => b.width
  | .vertical => b.height

/-- A point of the box, its edges included. -/
def Covers (b : Box K) (point : Axis → K) : Prop :=
  ∀ axis, b.start axis ≤ point axis ∧ point axis ≤ b.start axis + b.size axis

def Overlap (b c : Box K) : Prop := ∃ point, b.Covers point ∧ c.Covers point

/-- On one of the axes the one box ends the gap before the other starts. -/
def Apart (gap : K) (b c : Box K) : Prop :=
  ∃ axis, b.start axis + b.size axis + gap ≤ c.start axis ∨
    c.start axis + c.size axis + gap ≤ b.start axis

/-- The box, placed relative to the one around it, keeps the margins from the edges of that one. -/
structure Inside (left top right bottom : K) (b around : Box K) : Prop where
  left : left ≤ b.x
  top : top ≤ b.y
  right : b.x + b.width + right ≤ around.width
  bottom : b.y + b.height + bottom ≤ around.height

theorem Apart.symm {gap : K} {b c : Box K} (h : b.Apart gap c) : c.Apart gap b := by
  obtain ⟨axis, h⟩ := h
  exact ⟨axis, h.symm⟩

instance [DecidableLE K] {gap : K} {b c : Box K} : Decidable (b.Apart gap c) :=
  decidable_of_iff
    ((b.x + b.width + gap ≤ c.x ∨ c.x + c.width + gap ≤ b.x) ∨
      (b.y + b.height + gap ≤ c.y ∨ c.y + c.height + gap ≤ b.y))
    ⟨fun h => h.elim (fun h => ⟨.horizontal, h⟩) (fun h => ⟨.vertical, h⟩), fun ⟨axis, h⟩ =>
      match axis, h with
      | .horizontal, h => .inl h
      | .vertical, h => .inr h⟩

instance {left top right bottom : K} {b around : Box K} :
    Decidable (b.Inside left top right bottom around) :=
  decidable_of_iff (left ≤ b.x ∧ top ≤ b.y ∧ b.x + b.width + right ≤ around.width ∧
      b.y + b.height + bottom ≤ around.height)
    ⟨fun ⟨hl, ht, hr, hb⟩ => ⟨hl, ht, hr, hb⟩, fun ⟨hl, ht, hr, hb⟩ => ⟨hl, ht, hr, hb⟩⟩

end Box

section Snap
variable [FloorRing K]

/-- The nearest line of a grid, and of two the upper one. -/
def snap (cell v : K) : K := round (v / cell) * cell

def Box.snap (cell : K) (b : Box K) : Box K :=
  ⟨BoxGrid.snap cell b.x, BoxGrid.snap cell b.y, BoxGrid.snap cell b.width,
    BoxGrid.snap cell b.height⟩

theorem Box.start_snap (cell : K) (b : Box K) (axis : Axis) :
    (b.snap cell).start axis = BoxGrid.snap cell (b.start axis) := by
  cases axis <;> rfl

theorem Box.size_snap (cell : K) (b : Box K) (axis : Axis) :
    (b.snap cell).size axis = BoxGrid.snap cell (b.size axis) := by
  cases axis <;> rfl

end Snap

variable [IsStrictOrderedRing K]

/- Tried before the many other ways to an ordered ring. -/
scoped instance (priority := 1100) isOrderedRing : IsOrderedRing K :=
  IsStrictOrderedRing.toIsOrderedRing

theorem Box.Apart.not_overlap {gap : K} {b c : Box K} (hgap : 0 < gap) (h : b.Apart gap c) :
    ¬ b.Overlap c := by
  rintro ⟨point, hb, hc⟩
  obtain ⟨axis, h | h⟩ := h
  · linarith [(hb axis).2, (hc axis).1]
  · linarith [(hc axis).2, (hb axis).1]

section Rounding
variable [FloorRing K] {a b c cell : K}

/- Two roundings up, by at most a half each, against one rounding down, by less than a half. -/
theorem round_add_round_le (h : a + b + 1 ≤ c) : round a + round b ≤ round c := by
  have ha := round_le_add_half a
  have hb := round_le_add_half b
  have hc := sub_half_lt_round c
  have hlt : ((round a + round b : ℤ) : K) < ((round c + 1 : ℤ) : K) := by
    push_cast
    linarith
  have hlt : round a + round b < round c + 1 := by exact_mod_cast hlt
  omega

theorem round_add_round_add_one_le (h : a + b + 2 ≤ c) : round a + round b + 1 ≤ round c := by
  have hle : a + b + 1 ≤ c - 1 := by linarith
  have hround := round_add_round_le hle
  rw [round_sub_one] at hround
  omega

theorem round_nonneg (h : 0 ≤ a) : 0 ≤ round a := by
  have ha := sub_half_lt_round a
  have hlt : ((-1 : ℤ) : K) < ((round a : ℤ) : K) := by
    push_cast
    linarith
  have hlt : -1 < round a := by exact_mod_cast hlt
  omega

theorem snap_nonneg (hcell : 0 < cell) (h : 0 ≤ a) : 0 ≤ snap cell a := by
  have hround : (0 : K) ≤ (round (a / cell) : K) := by
    exact_mod_cast round_nonneg (div_nonneg h hcell.le)
  exact mul_nonneg hround hcell.le

theorem snap_add_snap_le (hcell : 0 < cell) (h : a + b + cell ≤ c) :
    snap cell a + snap cell b ≤ snap cell c := by
  have hcells : a / cell + b / cell + 1 ≤ c / cell := by
    rw [le_div_iff₀ hcell]
    field_simp
    exact h
  have hround : (round (a / cell) + round (b / cell) : K) ≤ round (c / cell) := by
    exact_mod_cast round_add_round_le hcells
  calc snap cell a + snap cell b = (round (a / cell) + round (b / cell)) * cell := by
        unfold snap
        ring
    _ ≤ snap cell c := mul_le_mul_of_nonneg_right hround hcell.le

theorem snap_add_snap_add_cell_le (hcell : 0 < cell) (h : a + b + 2 * cell ≤ c) :
    snap cell a + snap cell b + cell ≤ snap cell c := by
  have hcells : a / cell + b / cell + 2 ≤ c / cell := by
    rw [le_div_iff₀ hcell]
    field_simp
    linarith
  have hround : (round (a / cell) + round (b / cell) + 1 : K) ≤ round (c / cell) := by
    exact_mod_cast round_add_round_add_one_le hcells
  calc snap cell a + snap cell b + cell = (round (a / cell) + round (b / cell) + 1) * cell := by
        unfold snap
        ring
    _ ≤ snap cell c := mul_le_mul_of_nonneg_right hround hcell.le

end Rounding

namespace Box
variable [FloorRing K] {cell : K} {b c around : Box K}

/-- A margin of one cell is what rounding both boxes takes at most. -/
theorem Inside.snap {left top : K} (hcell : 0 < cell) (hleft : 0 ≤ left) (htop : 0 ≤ top)
    (h : b.Inside left top cell cell around) :
    (b.snap cell).Inside 0 0 0 0 (around.snap cell) where
  left := snap_nonneg hcell (hleft.trans h.left)
  top := snap_nonneg hcell (htop.trans h.top)
  right := by
    rw [add_zero]
    exact snap_add_snap_le hcell h.right
  bottom := by
    rw [add_zero]
    exact snap_add_snap_le hcell h.bottom

/-- Of a gap of two cells rounding both boxes leaves one. -/
theorem Apart.snap (hcell : 0 < cell) (h : b.Apart (2 * cell) c) :
    (b.snap cell).Apart cell (c.snap cell) := by
  obtain ⟨axis, h⟩ := h
  refine ⟨axis, ?_⟩
  rw [start_snap, start_snap, size_snap, size_snap]
  exact h.imp (snap_add_snap_add_cell_le hcell) (snap_add_snap_add_cell_le hcell)

end Box

end BoxGrid
