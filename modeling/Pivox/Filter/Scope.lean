import Pivox.Filter.Translation
import Pivox.Filter.Keyset

/-!
The conditions of a list, with the values in place of their placeholders. What is built is these
conditions, numbered in the order of the text, with their values as the arguments.
-/

namespace Pivox.Filter
open Sql

section maps
variable {A B : Type}

def Condition.map (f : A → B) : Condition A → Condition B
  | .notDeleted => .notDeleted
  | .predicate sql a => .predicate sql (f a)
  | .filter c => .filter (c.map f)
  | .afterId descending id => .afterId descending (f id)
  | .afterRow column descending sortValue id => .afterRow column descending (f sortValue) (f id)

def Condition.values : Condition A → List A
  | .notDeleted => []
  | .predicate _ a => [a]
  | .filter c => c.values
  | .afterId _ id => [id]
  | .afterRow _ _ sortValue id => [sortValue, id]

def Condition.number (n : Nat) : Condition A → Condition Nat
  | .notDeleted => .notDeleted
  | .predicate sql _ => .predicate sql n
  | .filter c => .filter (c.number n)
  | .afterId descending _ => .afterId descending n
  | .afterRow column descending _ _ => .afterRow column descending n (n + 1)

/-- Each condition after the values of those before it. -/
def numberAll (n : Nat) : List (Condition A) → List (Condition Nat)
  | [] => []
  | c :: cs => c.number n :: numberAll (n + c.values.length) cs

variable {n : Nat} {c : Condition A} {cs : List (Condition A)}

theorem Condition.values_number : (c.number n).values = List.range' n c.values.length := by
  cases c with
  | notDeleted => rfl
  | predicate sql a => rfl
  | filter c => exact c.values_number n
  | afterId descending id => rfl
  | afterRow column descending sortValue id => rfl

theorem values_numberAll :
    (numberAll n cs).flatMap Condition.values = List.range' n (cs.flatMap Condition.values).length := by
  induction cs generalizing n with
  | nil => rfl
  | cons c cs ih =>
    simp only [numberAll, List.flatMap_cons, ih, Condition.values_number, List.length_append,
      List.range'_append_1]

@[simp] theorem numberAll_append {cs' : List (Condition A)} :
    numberAll n (cs ++ cs') =
      numberAll n cs ++ numberAll (n + (cs.flatMap Condition.values).length) cs' := by
  induction cs generalizing n with
  | nil => simp [numberAll]
  | cons c cs ih => simp [numberAll, ih, Nat.add_assoc]

variable {f : Nat → B} {g : A → B}

theorem Condition.map_number (h : Fills f g n c.values) : (c.number n).map f = c.map g := by
  cases c with
  | notDeleted => rfl
  | predicate sql a => exact congrArg (Condition.predicate sql) (fills_singleton.mp h)
  | filter c => exact congrArg Condition.filter (Clause.map_number h)
  | afterId descending id => exact congrArg (Condition.afterId descending) (fills_singleton.mp h)
  | afterRow column descending sortValue id =>
    obtain ⟨hsort, hid⟩ := fills_append.mp (show Fills f g n ([sortValue] ++ [id]) from h)
    simp only [List.length_singleton, fills_singleton] at hsort hid
    simp [Condition.number, Condition.map, hsort, hid]

/-- Numbered conditions, with their placeholders filled in, are the conditions that were numbered. -/
theorem map_numberAll (h : Fills f g n (cs.flatMap Condition.values)) :
    (numberAll n cs).map (Condition.map f) = cs.map (Condition.map g) := by
  induction cs generalizing n with
  | nil => rfl
  | cons c cs ih =>
    obtain ⟨hc, hcs⟩ := fills_append.mp (List.flatMap_cons ▸ h)
    simp [numberAll, Condition.map_number hc, ih hcs]

end maps

/-- The conditions numbered from one, with their values bound. -/
def bound (cs : List (Condition Value)) : Bound := (numberAll 1 cs, cs.flatMap Condition.values)

/-- The argument that a placeholder is bound to. -/
def argument (args : List Value) (k : Nat) : Option Value := args[k - 1]?

@[simp] theorem map_argument_bound (cs : List (Condition Value)) :
    (bound cs).1.map (Condition.map (argument (bound cs).2)) = cs.map (Condition.map some) :=
  map_numberAll (fills_getElem _ 1)

@[simp] theorem addPredicate_bound (cs : List (Condition Value)) (p : Predicate) :
    addPredicate (bound cs) p = bound (cs ++ [Condition.predicate p.sql p.arg]) := by
  simp [addPredicate, bound, numberAll, Condition.number, Condition.values, Nat.add_comm]

theorem foldl_addPredicate (cs : List (Condition Value)) (ps : List Predicate) :
    ps.foldl addPredicate (bound cs) =
      bound (cs ++ ps.map fun p => Condition.predicate p.sql p.arg) := by
  induction ps generalizing cs with
  | nil => simp
  | cons p ps ih => simp [ih]

/-- What the filter of a list asks for, the comparisons with `exclude` left out. -/
def filterConditions (lib : Library) (rf : ResourceFilter) (filterStr exclude : String) :
    Except String (List (Condition Value)) :=
  if isBlank filterStr then .ok []
  else
    match lib.parse filterStr with
    | .error e => .error ("invalid filter: " ++ e)
    | .ok none => .ok []
    | .ok (some root) => (translate lib rf exclude root).map fun c => [.filter c]

/-- What the list asks for before its filter. -/
def baseConditions (q : ListQuery) : List (Condition Value) :=
  (if q.resource.softDelete && !q.showDeleted then [Condition.notDeleted] else []) ++
    (q.base ++ q.resource.defaultConditions).map fun p => Condition.predicate p.sql p.arg

def scopeConditions (lib : Library) (q : ListQuery) (exclude : String) :
    Except String (List (Condition Value)) :=
  (filterConditions lib q.resource q.filter exclude).map (baseConditions q ++ ·)

def cursorConditions (order : OrderByPlan) : Option KeysetCursor → List (Condition Value)
  | none => []
  | some cursor =>
    if order.field = "" then [.afterId order.descending cursor.id]
    else [.afterRow order.column order.descending cursor.sortValue cursor.id]

section scope
variable {lib : Library}

theorem isBlank_empty : isBlank "" = true := by decide

theorem base_bound (q : ListQuery) :
    q.resource.defaultConditions.foldl addPredicate (q.base.foldl addPredicate
      (if q.resource.softDelete && !q.showDeleted then ([.notDeleted], []) else ([], []))) =
      bound (baseConditions q) := by
  have hdeleted : (if q.resource.softDelete && !q.showDeleted then ([.notDeleted], [])
      else ([], []) : Bound) =
      bound (if q.resource.softDelete && !q.showDeleted then [Condition.notDeleted] else []) := by
    split <;> rfl
  rw [hdeleted, foldl_addPredicate, foldl_addPredicate]
  simp [baseConditions]

/-- The scope is built from its conditions, each value where it belongs. -/
theorem buildScopeConditions_eq (q : ListQuery) (exclude : String) :
    buildScopeConditions lib q exclude = (scopeConditions lib q exclude).map bound := by
  simp only [buildScopeConditions, base_bound, scopeConditions, filterConditions]
  by_cases hblank : isBlank q.filter = true
  · simp [hblank, Except.map]
  · have hne : q.filter ≠ "" := fun h => hblank (h ▸ isBlank_empty)
    simp only [hblank, Bool.false_eq_true, if_false]
    cases hparse : lib.parse q.filter with
    | error e => simp [transpileExcluding, hne, hparse, Except.map, bind, Except.bind]
    | ok root =>
      cases root with
      | none => simp [transpileExcluding, hne, hparse, Except.map, bind, Except.bind, addClause]
      | some root =>
        simp only [transpileExcluding_root q.resource _ exclude hne hparse]
        cases translate lib q.resource exclude root with
        | error e => rfl
        | ok c =>
          simp [Except.map, bind, Except.bind, addClause, bound, numberAll, Condition.number,
            Nat.add_comm, Condition.values]

theorem addCursor_bound (order : OrderByPlan) (cs : List (Condition Value))
    (cursor : Option KeysetCursor) :
    addCursor order (bound cs) cursor = bound (cs ++ cursorConditions order cursor) := by
  cases cursor with
  | none => simp [addCursor, cursorConditions]
  | some cursor =>
    by_cases h : order.field = ""
    · simp [addCursor, cursorConditions, h, bound, numberAll, Condition.number, Condition.values,
        Nat.add_comm]
    · have hnext : ∀ n : Nat, n + 2 = 1 + n + 1 := by omega
      simp [addCursor, cursorConditions, h, bound, numberAll, Condition.number, hnext,
        Nat.add_comm 1, Condition.values]

/-- A list query is the conditions of its scope and of its cursor, then its limit. -/
theorem buildListQuery_eq (q : ListQuery) :
    buildListQuery lib q = (scopeConditions lib q "").map fun cs =>
      let b := bound (cs ++ cursorConditions q.order q.cursor)
      ⟨q.resource.table, b.1, q.order, b.2.length + 1,
        b.2 ++ [Value.int64 (listPageSize q.pageSize + 1)]⟩ := by
  simp only [buildListQuery, buildScopeConditions_eq]
  cases scopeConditions lib q "" with
  | error e => rfl
  | ok cs => simp [Except.map, bind, Except.bind, addCursor_bound]

end scope

/-! What the database makes of the conditions. -/

/- `after` is the comparison of a cursor, with its column when the order has one. -/
structure Semantics (R : Type) where
  notDeleted : R → Truth
  predicate : R → List Fragment → Option Value → Truth
  atom : R → Atom (Option Value) → Truth
  afterId : R → Bool → Option Value → Truth
  afterRow : R → String → Bool → Option Value → Option Value → Truth

def Semantics.truth {R : Type} (sem : Semantics R) (row : R) : Condition (Option Value) → Truth
  | .notDeleted => sem.notDeleted row
  | .predicate sql a => sem.predicate row sql a
  | .filter c => c.eval (sem.atom row)
  | .afterId descending id => sem.afterId row descending id
  | .afterRow column descending sortValue id => sem.afterRow row column descending sortValue id

/-- The row satisfies the conditions, each placeholder standing for its argument. -/
def Semantics.selects {R : Type} (sem : Semantics R) (b : Bound) (row : R) : Bool :=
  b.1.all fun c => sem.truth row (c.map (argument b.2)) = .yes

/-- The row satisfies the conditions themselves. -/
def Semantics.satisfies {R : Type} (sem : Semantics R) (cs : List (Condition Value)) (row : R) :
    Bool :=
  cs.all fun c => sem.truth row (c.map some) = .yes

theorem Semantics.selects_bound {R : Type} (sem : Semantics R) (cs : List (Condition Value)) :
    sem.selects (bound cs) = sem.satisfies cs := by
  funext row
  have h := congrArg (List.all · fun c => decide (sem.truth row c = .yes)) (map_argument_bound cs)
  simpa only [selects, satisfies, List.all_map, Function.comp_def] using h

end Pivox.Filter
