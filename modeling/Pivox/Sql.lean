import Mathlib.Data.List.Dedup

/-!
Conditions over rows with NULLs: three truth values, of which a query keeps the rows where the
condition is true, and the tables a query is made of.
-/

namespace Pivox.Sql
variable {α β : Type}

inductive Truth where
  | yes
  | no
  | unknown
  deriving DecidableEq, Repr

namespace Truth

def ofBool : Bool → Truth
  | true => yes
  | false => no

def and : Truth → Truth → Truth
  | no, _ => no
  | _, no => no
  | yes, yes => yes
  | _, _ => unknown

def or : Truth → Truth → Truth
  | yes, _ => yes
  | _, yes => yes
  | no, no => no
  | _, _ => unknown

def not : Truth → Truth
  | yes => no
  | no => yes
  | unknown => unknown

@[simp] theorem ofBool_eq_yes (b : Bool) : ofBool b = yes ↔ b = true := by
  cases b <;> simp [ofBool]

@[simp] theorem and_eq_yes (s t : Truth) : s.and t = yes ↔ s = yes ∧ t = yes := by
  cases s <;> cases t <;> simp [and]

@[simp] theorem or_eq_yes (s t : Truth) : s.or t = yes ↔ s = yes ∨ t = yes := by
  cases s <;> cases t <;> simp [or]

/- False below unknown below true. -/
def rank : Truth → Nat
  | no => 0
  | unknown => 1
  | yes => 2

instance : LE Truth := ⟨fun s t => s.rank ≤ t.rank⟩

instance (s t : Truth) : Decidable (s ≤ t) := inferInstanceAs (Decidable (s.rank ≤ t.rank))

theorem le_refl (s : Truth) : s ≤ s := Nat.le_refl s.rank

theorem le_yes (s : Truth) : s ≤ yes := by cases s <;> decide

theorem yes_of_le {s t : Truth} (h : s ≤ t) (hs : s = yes) : t = yes := by
  subst hs
  revert h
  cases t <;> decide

theorem and_le_and {s s' t t' : Truth} (hs : s ≤ s') (ht : t ≤ t') : s.and t ≤ s'.and t' := by
  revert hs ht
  cases s <;> cases s' <;> cases t <;> cases t' <;> decide

theorem or_le_or {s s' t t' : Truth} (hs : s ≤ s') (ht : t ≤ t') : s.or t ≤ s'.or t' := by
  revert hs ht
  cases s <;> cases s' <;> cases t <;> cases t' <;> decide

theorem not_le_not {s t : Truth} (h : s ≤ t) : t.not ≤ s.not := by
  revert h
  cases s <;> cases t <;> decide

end Truth

/- A column of NULLs is one of options. -/
def eq [DecidableEq α] : Option α → Option α → Truth
  | some a, some b => .ofBool (a = b)
  | _, _ => .unknown

def isNull (a : Option α) : Truth := .ofBool a.isNone

def isNotNull (a : Option α) : Truth := .ofBool a.isSome

def isIn [DecidableEq α] (a : Option α) (rows : List (Option α)) : Truth :=
  rows.foldr (fun b rest => (eq a b).or rest) .no

def anyRow (rows : List α) : Truth := .ofBool !rows.isEmpty

def selectWhere (rows : List α) (cond : α → Truth) : List α := rows.filter fun r => cond r = .yes

def joinOn (left : List α) (right : List β) (cond : α → β → Truth) : List (α × β) :=
  left.flatMap fun a => (selectWhere right (cond a)).map (a, ·)

theorem eq_eq_yes [DecidableEq α] (a b : Option α) :
    eq a b = .yes ↔ ∃ x, a = some x ∧ b = some x := by
  cases a with
  | none => simp [eq]
  | some x =>
    cases b with
    | none => simp [eq]
    | some y =>
      have hsymm : x = y ↔ y = x := eq_comm
      simp [eq, hsymm]

@[simp] theorem eq_some_eq_yes [DecidableEq α] (a : Option α) (b : α) :
    eq a (some b) = .yes ↔ a = some b := by
  cases a <;> simp [eq]

@[simp] theorem isNull_eq_yes (a : Option α) : isNull a = .yes ↔ a = none := by
  simp [isNull]

@[simp] theorem isNotNull_eq_yes (a : Option α) : isNotNull a = .yes ↔ a ≠ none := by
  simp [isNotNull, Option.isSome_iff_ne_none]

@[simp] theorem isIn_eq_yes [DecidableEq α] (a : Option α) (rows : List (Option α)) :
    isIn a rows = .yes ↔ ∃ x, a = some x ∧ some x ∈ rows := by
  unfold isIn
  induction rows with
  | nil => simp
  | cons b rest ih =>
    have hhead : eq a b = .yes ↔ ∃ x, a = some x ∧ b = some x := eq_eq_yes a b
    simp only [List.foldr_cons, Truth.or_eq_yes, hhead, ih, List.mem_cons]
    constructor
    · rintro (⟨x, ha, hb⟩ | ⟨x, ha, hmem⟩)
      · exact ⟨x, ha, .inl hb.symm⟩
      · exact ⟨x, ha, .inr hmem⟩
    · rintro ⟨x, ha, hb | hmem⟩
      · exact .inl ⟨x, ha, hb.symm⟩
      · exact .inr ⟨x, ha, hmem⟩

@[simp] theorem anyRow_eq_yes (rows : List α) : anyRow rows = .yes ↔ ∃ r, r ∈ rows := by
  cases rows with
  | nil => simp [anyRow]
  | cons r rest => simp [anyRow]

@[simp] theorem mem_selectWhere (rows : List α) (cond : α → Truth) (r : α) :
    r ∈ selectWhere rows cond ↔ r ∈ rows ∧ cond r = .yes := by
  simp [selectWhere]

@[simp] theorem mem_joinOn (left : List α) (right : List β) (cond : α → β → Truth) (r : α × β) :
    r ∈ joinOn left right cond ↔ r.1 ∈ left ∧ r.2 ∈ right ∧ cond r.1 r.2 = .yes := by
  obtain ⟨a, b⟩ := r
  simp only [joinOn, List.mem_flatMap, List.mem_map, mem_selectWhere, Prod.mk.injEq]
  constructor
  · rintro ⟨a', ha, b', ⟨hb, hcond⟩, rfl, rfl⟩
    exact ⟨ha, hb, hcond⟩
  · intro ⟨ha, hb, hcond⟩
    exact ⟨a, ha, b, ⟨hb, hcond⟩, rfl, rfl⟩

end Pivox.Sql
