import Mathlib
import Pivox.Filter.Transpiler

/-!
What a filter says, with its values in place: the transpiler writes this clause, its values
numbered in the order of its text.
-/

namespace Pivox.Filter
variable (lib : Library) (rf : ResourceFilter) (exclude : String)

def keyOf (key : String) : Except String Value :=
  if jsonbKeyPattern key then .ok (.string key) else .error ("invalid jsonb key " ++ key.quote)

def literalOf (value : String) : Except String (Clause Value) :=
  if rf.defaultFields = [] then
    .error ("bare literal " ++ value.quote ++ " not supported: no default fields configured")
  else
    let columns := rf.defaultFields.filterMap fun name =>
      (rf.filterable.lookup name).map FilterableField.sqlColumn
    if columns = [] then .error ("no default fields found for bare literal " ++ value.quote)
    else .ok (.search (columns.map fun column => (column, .string (containing value))))

def identOf (name : String) : Except String (Clause Value) :=
  match rf.filterable.lookup name with
  | some fm => .ok (.atom (.operand (.column fm.sqlColumn)))
  | none => literalOf rf name

def constOf : Constant → Except String (Clause Value)
  | .string s => literalOf rf s
  | .int64 n => .ok (.atom (.value (.int64 n)))
  | .double bits => .ok (.atom (.value (.double bits)))
  | .bool b => .ok (.atom (.value (.bool b)))
  | .other typeName => .error ("unsupported constant type: " ++ typeName)

def fieldOf : Expr → Except String (Field Value)
  | .ident name =>
    match rf.filterable.lookup name with
    | some fm => .ok ⟨.column fm.sqlColumn, fm.type, fm.allowPartial, fm.jsonb⟩
    | none => .error ("unknown field: " ++ name)
  | .select operand field => do
    let fm ← fieldOf operand
    if fm.jsonb then
      let key ← keyOf field
      .ok ⟨.jsonText fm.column key, .string, false, false⟩
    else .error (operand.identName ++ " does not support traversal")
  | e => .error ("expected field identifier, got " ++ e.typeName)

def selectOf (operand : Expr) (field : String) : Except String (Clause Value) := do
  let fm ← fieldOf rf operand
  if fm.jsonb then
    let key ← keyOf field
    .ok (.atom (.operand (.jsonText fm.column key)))
  else .error (field ++ " does not support traversal")

def isField (field : String) : Expr → Bool
  | .ident name => field != "" && name == field
  | _ => false

def comparisonOf (lhs rhs : Expr) (op : Comparison) : Except String (Clause Value) :=
  if isField exclude lhs then .ok .true
  else do
    let fm ← fieldOf rf lhs
    let value ← resolveValue lib rhs
    match wildcardPattern op fm.allowPartial value with
    | some pattern => .ok (.atom (.ilike fm.column (.string pattern) true))
    | none => .ok (.atom (.compare fm.column op value))

def hasSelectOf (operand : Expr) (field : String) (rhs : Expr) :
    Except String (Clause Value) := do
  let fm ← fieldOf rf operand
  if fm.jsonb then
    let key ← keyOf field
    let value ← resolveValue lib rhs
    .ok (.atom (.ilike (.jsonText fm.column key) (.string (containing (lib.sprint value))) false))
  else .error (field ++ " does not support traversal")

def hasOf (lhs rhs : Expr) : Except String (Clause Value) :=
  if isField exclude lhs then .ok .true
  else
    match lhs with
    | .select operand field => hasSelectOf lib rf operand field rhs
    | lhs => do
      let fm ← fieldOf rf lhs
      let value ← resolveValue lib rhs
      if fm.jsonb then .ok (.atom (.hasKey fm.column value))
      else .ok (.atom (.ilike fm.column (.string (containing (lib.sprint value))) false))

def timestampOf (arg : Expr) : Except String (Clause Value) := do
  let value ← resolveValue lib arg
  let ts ← parseTimestamp lib value
  .ok (.atom (.value ts))

def translate : Expr → Except String (Clause Value)
  | .call f args =>
    match f, args with
    | .and, [l, r] => do .ok (.and (← translate l) (← translate r))
    | .fuzzyAnd, [l, r] => do .ok (.and (← translate l) (← translate r))
    | .or, [l, r] => do .ok (.or (← translate l) (← translate r))
    | .not, [e] => do .ok (.not (← translate e))
    | .compare op, [lhs, rhs] => comparisonOf lib rf exclude lhs rhs op
    | .has, [lhs, rhs] => hasOf lib rf exclude lhs rhs
    | .timestamp, [arg] => timestampOf lib arg
    | .and, args | .fuzzyAnd, args =>
      .error ("AND requires 2 arguments, got " ++ toString args.length)
    | .or, args => .error ("OR requires 2 arguments, got " ++ toString args.length)
    | .not, args => .error ("NOT requires 1 argument, got " ++ toString args.length)
    | .compare op, _ => .error (op.text ++ " requires 2 arguments")
    | .has, _ => .error ": requires 2 arguments"
    | .timestamp, _ => .error "timestamp() requires 1 argument"
    | .other name, _ => .error ("unsupported function: " ++ name)
  | .ident name => identOf rf name
  | .const c => constOf rf c
  | .select operand field => selectOf rf operand field
  | .other typeName => .error ("unsupported expression type: " ++ typeName)

/-! The transpiler writes it, numbered from its next placeholder. -/

def Field.number (n : Nat) (fm : Field Value) : Field Nat :=
  ⟨fm.column.number n, fm.type, fm.allowPartial, fm.jsonb⟩

variable {lib}

/-- How a clause comes out after the placeholders so far. -/
def written (t : Transpiler) (args : List Value) (c : Clause Value) : Clause Nat × List Value :=
  (c.number (t.startIdx + args.length), args ++ c.values)

section writing
variable {t : Transpiler} {args : List Value}

@[simp] theorem throw_run (e : String) {α : Type} : (throw e : Transpile α) args = .error e := rfl

@[simp] theorem pure_run {α : Type} (a : α) : (pure a : Transpile α) args = .ok (a, args) := rfl

@[simp] theorem bind_run {α β : Type} (m : Transpile α) (f : α → Transpile β) :
    (m >>= f) args = (m args).bind fun x => f x.1 x.2 := rfl

@[simp] theorem map_run {α β : Type} (f : α → β) (m : Transpile α) :
    (f <$> m) args = (m args).map fun x => (f x.1, x.2) := by
  rw [map_eq_pure_bind, bind_run]
  cases m args <;> rfl

@[simp] theorem liftM_run {α : Type} (r : Except String α) :
    (liftM r : Transpile α) args = r.map fun a => (a, args) := by
  cases r <;> rfl

@[simp] theorem nextParam_run (v : Value) :
    nextParam t v args = .ok (t.startIdx + args.length, args ++ [v]) := rfl

@[simp] theorem map_ok {α β : Type} (f : α → β) (a : α) :
    (Except.ok a : Except String α).map f = .ok (f a) := rfl

@[simp] theorem map_error {α β : Type} (f : α → β) (e : String) :
    (Except.error e : Except String α).map f = .error e := rfl

@[simp] theorem except_bind {α β : Type} (r : Except String α) (f : α → Except String β) :
    r >>= f = r.bind f := rfl

@[simp] theorem ok_bind {α β : Type} (f : α → Except String β) (a : α) :
    (Except.ok a : Except String α).bind f = f a := rfl

@[simp] theorem error_bind {α β : Type} (f : α → Except String β) (e : String) :
    (Except.error e : Except String α).bind f = .error e := rfl

theorem isExcluded_eq (e : Expr) : isExcluded t e = isField t.exclude e := by
  cases e <;> rfl

theorem jsonbKeyParam_eq (key : String) : jsonbKeyParam t key args =
    (keyOf key).map fun v => (t.startIdx + args.length, args ++ [v]) := by
  unfold jsonbKeyParam keyOf
  split <;> rfl

theorem resolveField_eq : (e : Expr) → resolveField t e args =
    (fieldOf t.filter e).map fun fm =>
      (fm.number (t.startIdx + args.length), args ++ fm.column.values)
  | .ident name => by
    simp only [resolveField, fieldOf]
    cases t.filter.filterable.lookup name <;> simp [Field.number, Operand.number, Operand.values]
  | .select operand field => by
    have ih := resolveField_eq operand
    simp only [resolveField, fieldOf, bind_run, ih]
    cases fieldOf t.filter operand with
    | error e => rfl
    | ok fm =>
      by_cases hjsonb : fm.jsonb = true
      · cases hkey : keyOf field <;> simp [Field.number, jsonbKeyParam_eq, hkey, hjsonb,
          Operand.number, Operand.values, Nat.add_assoc]
      · simp [Field.number, hjsonb]
  | .call _ _ => rfl
  | .const _ => rfl
  | .other _ => rfl

theorem transpileSelect_eq (operand : Expr) (field : String) :
    transpileSelect t operand field args =
      (selectOf t.filter operand field).map (written t args) := by
  simp only [transpileSelect, selectOf, bind_run, resolveField_eq, except_bind]
  cases fieldOf t.filter operand with
  | error e => rfl
  | ok fm =>
    by_cases hjsonb : fm.jsonb = true
    · cases hkey : keyOf field <;> simp [Field.number, jsonbKeyParam_eq, hkey, hjsonb, written,
        Clause.number, Clause.values, Atom.number, Atom.values, Operand.number, Operand.values,
        Nat.add_assoc]
    · simp [Field.number, hjsonb]

theorem searchClause_eq (value : Value) (column : Column) : searchClause t value column args =
    .ok ((column, t.startIdx + args.length), args ++ [value]) := rfl

theorem mapM_searchClause (columns : List Column) (value : Value) :
    columns.mapM (searchClause t value) args =
    .ok (((columns.map fun column => (column, value)).zipIdx (t.startIdx + args.length)).map
      (fun c => (c.1.1, c.2)), args ++ List.replicate columns.length value) := by
  induction columns generalizing args with
  | nil => simp
  | cons column columns ih =>
    simp [List.mapM_cons, searchClause_eq, ih, List.zipIdx_cons, Nat.add_assoc,
      List.replicate_succ]

theorem expandBareLiteral_eq (value : String) : expandBareLiteral t value args =
    (literalOf t.filter value).map (written t args) := by
  unfold expandBareLiteral literalOf
  split
  · rfl
  · simp only
    split
    · rfl
    · simp [mapM_searchClause, written, Clause.number, Clause.values, Function.comp_def]

theorem transpileIdent_eq (name : String) : transpileIdent t name args =
    (identOf t.filter name).map (written t args) := by
  unfold transpileIdent identOf
  cases t.filter.filterable.lookup name with
  | some fm =>
    simp [written, Clause.number, Clause.values, Atom.number, Atom.values, Operand.number,
      Operand.values]
  | none => exact expandBareLiteral_eq name

theorem transpileConst_eq (c : Constant) : transpileConst t c args =
    (constOf t.filter c).map (written t args) := by
  cases c with
  | string s => exact expandBareLiteral_eq s
  | _ => rfl

theorem transpileComparison_eq (lhs rhs : Expr) (op : Comparison) :
    transpileComparison lib t lhs rhs op args =
      (comparisonOf lib t.filter t.exclude lhs rhs op).map (written t args) := by
  unfold transpileComparison comparisonOf
  rw [isExcluded_eq]
  split
  · simp [written, Clause.number, Clause.values]
  · simp only [bind_run, resolveField_eq, except_bind]
    cases fieldOf t.filter lhs with
    | error e => rfl
    | ok fm =>
      cases resolveValue lib rhs with
      | error e => rfl
      | ok value =>
        simp only [map_ok, ok_bind, liftM_run, Field.number]
        cases wildcardPattern op fm.allowPartial value <;>
          simp [written, Clause.number, Clause.values, Atom.number, Atom.values, Nat.add_assoc]

theorem transpileHasSelect_eq (operand : Expr) (field : String) (rhs : Expr) :
    transpileHasSelect lib t operand field rhs args =
      (hasSelectOf lib t.filter operand field rhs).map (written t args) := by
  simp only [transpileHasSelect, hasSelectOf, bind_run, resolveField_eq, except_bind]
  cases fieldOf t.filter operand with
  | error e => rfl
  | ok fm =>
    by_cases hjsonb : fm.jsonb = true
    · cases hkey : keyOf field with
      | error e => simp [Field.number, jsonbKeyParam_eq, hkey, hjsonb]
      | ok key =>
        cases resolveValue lib rhs with
        | error e => simp [Field.number, jsonbKeyParam_eq, hkey, hjsonb]
        | ok value =>
          simp [Field.number, jsonbKeyParam_eq, hkey, hjsonb, written, Clause.number,
            Clause.values, Atom.number, Atom.values, Operand.number, Operand.values,
            Nat.add_assoc]
    · simp [Field.number, hjsonb]

theorem transpileHas_eq (lhs rhs : Expr) : transpileHas lib t lhs rhs args =
    (hasOf lib t.filter t.exclude lhs rhs).map (written t args) := by
  unfold transpileHas hasOf
  rw [isExcluded_eq]
  split
  · simp [written, Clause.number, Clause.values]
  · split
    · exact transpileHasSelect_eq _ _ _
    · simp only [bind_run, resolveField_eq, except_bind]
      cases fieldOf t.filter lhs with
      | error e => rfl
      | ok fm =>
        cases resolveValue lib rhs with
        | error e => rfl
        | ok value =>
          by_cases hjsonb : fm.jsonb = true <;>
            simp [Field.number, hjsonb, written, Clause.number, Clause.values, Atom.number,
              Atom.values, Nat.add_assoc]

theorem transpileTimestamp_eq (arg : Expr) : transpileTimestamp lib t arg args =
    (timestampOf lib arg).map (written t args) := by
  simp only [transpileTimestamp, timestampOf, bind_run, except_bind]
  cases resolveValue lib arg with
  | error e => rfl
  | ok value =>
    cases hts : parseTimestamp lib value <;>
      simp [hts, written, Clause.number, Clause.values, Atom.number, Atom.values]

theorem binary_eq {l r : Transpile (Clause Nat)} {l' r' : Except String (Clause Value)}
    (op : Clause Nat → Clause Nat → Clause Nat) (op' : Clause Value → Clause Value → Clause Value)
    (hnumber : ∀ l r n, (op' l r).number n = op (l.number n) (r.number (n + l.values.length)))
    (hvalues : ∀ l r, (op' l r).values = l.values ++ r.values)
    (hl : ∀ args, l args = l'.map (written t args))
    (hr : ∀ args, r args = r'.map (written t args)) :
    (do pure (op (← l) (← r)) : Transpile (Clause Nat)) args =
      (do .ok (op' (← l') (← r')) : Except String (Clause Value)).map (written t args) := by
  simp only [bind_run, hl, hr, except_bind]
  cases l' with
  | error e => rfl
  | ok l' =>
    cases r' with
    | error e => rfl
    | ok r' => simp [written, hnumber, hvalues, Nat.add_assoc]

/- A comparison of other than two operands is refused by both. -/
theorem transpileCompare_eq {op : Comparison} (es : List Expr)
    (h : ∀ lhs rhs, es = [lhs, rhs] → False) : transpileExpr lib t (.call (.compare op) es) args =
      (translate lib t.filter t.exclude (.call (.compare op) es)).map (written t args) := by
  match es, h with
  | [], _ | [_], _ | _ :: _ :: _ :: _, _ => rfl
  | [lhs, rhs], h => exact (h lhs rhs rfl).elim

/-- The transpiler writes what the filter says, or fails as it does. -/
theorem transpileExpr_eq (e : Expr) : transpileExpr lib t e args =
    (translate lib t.filter t.exclude e).map (written t args) := by
  induction e using transpileExpr.induct generalizing args with
  | case1 l r ihl ihr =>
    simp only [transpileExpr, translate]
    exact binary_eq .and .and (fun _ _ _ => rfl) (fun _ _ => rfl) (fun _ => ihl) fun _ => ihr
  | case2 l r ihl ihr =>
    simp only [transpileExpr, translate]
    exact binary_eq .and .and (fun _ _ _ => rfl) (fun _ _ => rfl) (fun _ => ihl) fun _ => ihr
  | case3 l r ihl ihr =>
    simp only [transpileExpr, translate]
    exact binary_eq .or .or (fun _ _ _ => rfl) (fun _ _ => rfl) (fun _ => ihl) fun _ => ihr
  | case4 e ih =>
    simp only [transpileExpr, translate, bind_run, ih, except_bind]
    cases translate lib t.filter t.exclude e <;> rfl
  | case5 op lhs rhs => exact transpileComparison_eq lhs rhs op
  | case6 lhs rhs => exact transpileHas_eq lhs rhs
  | case7 arg => exact transpileTimestamp_eq arg
  | case8 es h =>
    match es, h with
    | [], _ | [_], _ | _ :: _ :: _ :: _, _ => rfl
    | [l, r], h => exact (h l r rfl).elim
  | case9 es h =>
    match es, h with
    | [], _ | [_], _ | _ :: _ :: _ :: _, _ => rfl
    | [l, r], h => exact (h l r rfl).elim
  | case10 es h =>
    match es, h with
    | [], _ | [_], _ | _ :: _ :: _ :: _, _ => rfl
    | [l, r], h => exact (h l r rfl).elim
  | case11 es h =>
    match es, h with
    | [], _ | _ :: _ :: _, _ => rfl
    | [e], h => exact (h e rfl).elim
  | case12 => exact transpileCompare_eq _ (by assumption)
  | case13 es h =>
    match es, h with
    | [], _ | [_], _ | _ :: _ :: _ :: _, _ => rfl
    | [lhs, rhs], h => exact (h lhs rhs rfl).elim
  | case14 es h =>
    match es, h with
    | [], _ | _ :: _ :: _, _ => rfl
    | [arg], h => exact (h arg rfl).elim
  | case15 es name => cases es <;> rfl
  | case16 name => exact transpileIdent_eq name
  | case17 c => exact transpileConst_eq c
  | case18 operand field => exact transpileSelect_eq operand field
  | case19 typeName => rfl

end writing

theorem fills_getElem (values : List Value) (startIdx : Nat) :
    Fills (fun k => values[k - startIdx]?) some startIdx values := by
  apply List.ext_getElem?
  intro i
  rcases Nat.lt_or_ge i values.length with h | h
  · simp [h]
  · simp [h]

/- What has been transpiled, as the filter says it. -/
theorem transpileExcluding_root {lib : Library} {filterStr : String} {root : Expr}
    (rf : ResourceFilter) (startIdx : Nat) (field : String) (hne : filterStr ≠ "")
    (hparse : lib.parse filterStr = .ok (some root)) :
    transpileExcluding lib rf filterStr startIdx field =
      (translate lib rf field root).map fun c => ⟨some (c.number startIdx), c.values⟩ := by
  simp only [transpileExcluding, hne, if_false, hparse, StateT.run, transpileExpr_eq, except_bind]
  cases translate lib rf field root <;> simp [written]

end Pivox.Filter
