import Pivox.Filter.Exclusion

/-!
When the clause of an accepted filter has the types that the database asks for: conditions are
boolean, and a column is compared with a value that its declared type admits.
-/

namespace Pivox.Filter
open Sql

section types
variable {A : Type}

/- `->>` is defined on maps. -/
def Operand.type? : Operand A → Option FieldType
  | .column c => some c.type
  | .jsonText x _ => if x.type? = some .map then some .string else none

def Value.isString : Value → Bool
  | .string _ => true
  | _ => false

def Value.isBool : Value → Bool
  | .bool _ => true
  | _ => false

/-- `admits` tells the values that a column of a type may be compared with. -/
def Atom.boolean (admits : FieldType → Value → Bool) : Atom (Option Value) → Bool
  | .operand x => x.type? = some .bool
  | .value v => v.any Value.isBool
  | .compare x _ v => x.type?.any fun ty => v.any (admits ty)
  | .ilike x v _ => x.type? = some .string && v.any Value.isString
  | .hasKey x v => x.type? = some .map && v.any Value.isString

def Clause.boolean (admits : FieldType → Value → Bool) : Clause (Option Value) → Bool
  | .true => Bool.true
  | .atom a => a.boolean admits
  | .search clauses => clauses.all fun c => Atom.boolean admits (.ilike (.column c.1) c.2 false)
  | .and l r => l.boolean admits && r.boolean admits
  | .or l r => l.boolean admits && r.boolean admits
  | .not e => e.boolean admits

end types

def WhereClause.wellTyped (wc : WhereClause) (startIdx : Nat)
    (admits : FieldType → Value → Bool) : Prop :=
  ∀ c, wc.sql = some c → (c.map fun k => wc.args[k - startIdx]?).boolean admits = true

section filters
variable (lib : Library) (rf : ResourceFilter) (admits : FieldType → Value → Bool)

/-- The declared type of what an expression refers to. -/
def fieldType : Expr → Option FieldType
  | .ident name => (rf.filterable.lookup name).map FilterableField.type
  | .select operand _ => if fieldType operand = some .map then some .string else none
  | _ => none

def isPartial : Expr → Bool
  | .ident name => (rf.filterable.lookup name).any FilterableField.allowPartial
  | _ => false

def isJsonb : Expr → Bool
  | .ident name => (rf.filterable.lookup name).any FilterableField.jsonb
  | _ => false

def comparable (lhs : Expr) (op : Comparison) (value : Value) : Bool :=
  if (wildcardPattern op (isPartial rf lhs) value).isSome then fieldType rf lhs = some .string
  else (fieldType rf lhs).any fun ty => admits ty value

def searchable (lhs : Expr) (value : Value) : Bool :=
  if isJsonb rf lhs then fieldType rf lhs = some .map && value.isString
  else fieldType rf lhs = some .string

/- A bare literal is searched in the default fields. -/
def defaultsSearchable : Bool :=
  rf.defaultFields.all fun name =>
    (rf.filterable.lookup name).all fun fm => fm.type = .string

/-- The filter, and each operand of AND, OR and NOT, is a condition. -/
def conditional : Expr → Bool
  | .call f args =>
    match f, args with
    | .and, [l, r] => conditional l && conditional r
    | .fuzzyAnd, [l, r] => conditional l && conditional r
    | .or, [l, r] => conditional l && conditional r
    | .not, [e] => conditional e
    | .compare op, [lhs, rhs] =>
      match resolveValue lib rhs with
      | .ok value => comparable rf admits lhs op value
      | .error _ => false
    | .has, [lhs, rhs] =>
      match resolveValue lib rhs with
      | .ok value => searchable rf lhs value
      | .error _ => false
    | _, _ => false
  | .ident name =>
    match rf.filterable.lookup name with
    | some fm => fm.type = .bool
    | none => defaultsSearchable rf
  | .const (.string _) => defaultsSearchable rf
  | .const (.bool _) => true
  | _ => false

end filters

section typing
variable {lib : Library} {rf : ResourceFilter} {admits : FieldType → Value → Bool}

@[simp] theorem Operand.type?_map {A B : Type} (f : A → B) (x : Operand A) :
    (x.map f).type? = x.type? := by
  induction x with
  | column c => rfl
  | jsonText x key ih => simp [Operand.map, Operand.type?, ih]

theorem fieldOf_type : (e : Expr) → {fm : Field Value} → fieldOf rf e = .ok fm →
    fm.column.type? = fieldType rf e ∧ fm.allowPartial = isPartial rf e ∧ fm.jsonb = isJsonb rf e
  | .ident name, fm, h => by
    simp only [fieldOf] at h
    cases hname : rf.filterable.lookup name with
    | none => simp [hname] at h
    | some declared =>
      simp only [hname, Except.ok.injEq] at h
      subst h
      simp [Operand.type?, fieldType, isPartial, isJsonb, hname]
  | .select operand field, fm, h => by
    simp only [fieldOf, except_bind] at h
    obtain ⟨inner, hinner, h⟩ := bind_ok h
    have htype := (fieldOf_type operand hinner).1
    split at h
    · obtain ⟨key, _, h⟩ := bind_ok h
      simp only [Except.ok.injEq] at h
      subst h
      simp [Operand.type?, fieldType, isPartial, isJsonb, htype]
    · cases h
  | .call _ _, _, h => by cases h
  | .const _, _, h => by cases h
  | .other _, _, h => by cases h

theorem literalOf_boolean {value : String} {c : Clause Value} (h : literalOf rf value = .ok c) :
    (c.map some).boolean admits = defaultsSearchable rf := by
  unfold literalOf at h
  split at h
  · cases h
  · simp only at h
    split at h
    · cases h
    · simp only [Except.ok.injEq] at h
      subst h
      simp only [Clause.map, Clause.boolean, List.map_map, List.all_map, List.all_filterMap,
        defaultsSearchable]
      congr 1
      funext name
      cases rf.filterable.lookup name <;>
        simp [Function.comp_def, Atom.boolean, Operand.type?, Value.isString]

theorem comparisonOf_boolean {lhs rhs : Expr} {op : Comparison} {c : Clause Value}
    (h : comparisonOf lib rf "" lhs rhs op = .ok c) :
    (c.map some).boolean admits = conditional lib rf admits (.call (.compare op) [lhs, rhs]) := by
  simp only [comparisonOf, isField_empty, Bool.false_eq_true, if_false, except_bind] at h
  obtain ⟨fm, hfm, h⟩ := bind_ok h
  obtain ⟨value, hvalue, h⟩ := bind_ok h
  obtain ⟨htype, hpartial, -⟩ := fieldOf_type lhs hfm
  simp only [conditional, hvalue, comparable, ← htype, ← hpartial]
  cases hpattern : wildcardPattern op fm.allowPartial value with
  | none =>
    simp only [hpattern, Except.ok.injEq] at h
    subst h
    simp [Clause.map, Clause.boolean, Atom.map, Atom.boolean]
  | some pattern =>
    simp only [hpattern, Except.ok.injEq] at h
    subst h
    simp [Clause.map, Clause.boolean, Atom.map, Atom.boolean, Value.isString]

theorem hasOf_boolean {lhs rhs : Expr} {c : Clause Value} (h : hasOf lib rf "" lhs rhs = .ok c) :
    (c.map some).boolean admits = conditional lib rf admits (.call .has [lhs, rhs]) := by
  simp only [hasOf, isField_empty, Bool.false_eq_true, if_false] at h
  split at h
  · rename_i operand field
    simp only [hasSelectOf, except_bind] at h
    obtain ⟨fm, hfm, h⟩ := bind_ok h
    have htype := (fieldOf_type operand hfm).1
    split at h
    · obtain ⟨key, hkey, h⟩ := bind_ok h
      obtain ⟨value, hvalue, h⟩ := bind_ok h
      simp only [Except.ok.injEq] at h
      subst h
      simp [conditional, hvalue, searchable, isJsonb, fieldType, ← htype, Clause.map,
        Clause.boolean, Atom.map, Atom.boolean, Operand.map, Operand.type?, Value.isString]
    · cases h
  · simp only [except_bind] at h
    obtain ⟨fm, hfm, h⟩ := bind_ok h
    obtain ⟨value, hvalue, h⟩ := bind_ok h
    obtain ⟨htype, -, hjsonb⟩ := fieldOf_type _ hfm
    simp only [conditional, hvalue, searchable, ← htype, ← hjsonb]
    split at h
    · rename_i hj
      simp only [Except.ok.injEq] at h
      subst h
      simp [hj, Clause.map, Clause.boolean, Atom.map, Atom.boolean]
    · rename_i hj
      simp only [Except.ok.injEq] at h
      subst h
      simp [hj, Clause.map, Clause.boolean, Atom.map, Atom.boolean, Value.isString]

theorem timestampOf_boolean {arg : Expr} {c : Clause Value} (h : timestampOf lib arg = .ok c) :
    (c.map some).boolean admits = false := by
  simp only [timestampOf, except_bind] at h
  obtain ⟨value, hvalue, h⟩ := bind_ok h
  obtain ⟨ts, hts, h⟩ := bind_ok h
  simp only [Except.ok.injEq] at h
  subst h
  unfold parseTimestamp at hts
  split at hts
  · split at hts
    · simp only [Except.ok.injEq] at hts
      subst hts
      rfl
    · cases hts
  · cases hts

theorem selectOf_boolean {operand : Expr} {field : String} {c : Clause Value}
    (h : selectOf rf operand field = .ok c) : (c.map some).boolean admits = false := by
  simp only [selectOf, except_bind] at h
  obtain ⟨fm, hfm, h⟩ := bind_ok h
  split at h
  · obtain ⟨key, hkey, h⟩ := bind_ok h
    simp only [Except.ok.injEq] at h
    subst h
    simp only [Clause.map, Clause.boolean, Atom.map, Atom.boolean, Operand.map, Operand.type?]
    split <;> decide
  · cases h

theorem binary_boolean {l r : Except String (Clause Value)}
    (op : {A : Type} → Clause A → Clause A → Clause A) {bl br : Bool} {c : Clause Value}
    (hop : ∀ cl cr : Clause Value, ((op cl cr).map some).boolean admits =
      ((cl.map some).boolean admits && (cr.map some).boolean admits))
    (h : l.bind (fun cl => r.bind fun cr => .ok (op cl cr)) = .ok c)
    (hl : ∀ cl, l = .ok cl → (cl.map some).boolean admits = bl)
    (hr : ∀ cr, r = .ok cr → (cr.map some).boolean admits = br) :
    (c.map some).boolean admits = (bl && br) := by
  obtain ⟨cl, hcl, h⟩ := bind_ok h
  obtain ⟨cr, hcr, h⟩ := bind_ok h
  simp only [Except.ok.injEq] at h
  subst h
  rw [hop, hl cl hcl, hr cr hcr]

/-- The clause of an accepted filter is boolean throughout just when the filter is conditional. -/
theorem translate_boolean (e : Expr) {c : Clause Value} (h : translate lib rf "" e = .ok c) :
    (c.map some).boolean admits = conditional lib rf admits e := by
  induction e using transpileExpr.induct generalizing c with
  | case1 l r ihl ihr =>
    exact binary_boolean .and (fun _ _ => rfl) h (fun _ => ihl) fun _ => ihr
  | case2 l r ihl ihr =>
    exact binary_boolean .and (fun _ _ => rfl) h (fun _ => ihl) fun _ => ihr
  | case3 l r ihl ihr =>
    exact binary_boolean .or (fun _ _ => rfl) h (fun _ => ihl) fun _ => ihr
  | case4 e ih =>
    simp only [translate, except_bind] at h
    obtain ⟨ce, hce, h⟩ := bind_ok h
    simp only [Except.ok.injEq] at h
    subst h
    simpa [Clause.map, Clause.boolean, conditional] using ih hce
  | case5 op lhs rhs => exact comparisonOf_boolean h
  | case6 lhs rhs => exact hasOf_boolean h
  | case7 arg => exact timestampOf_boolean h
  | case16 name =>
    simp only [translate, identOf] at h
    cases hname : rf.filterable.lookup name with
    | none =>
      simp only [hname] at h
      simpa [conditional, hname] using literalOf_boolean h
    | some fm =>
      simp only [hname, Except.ok.injEq] at h
      subst h
      simp [conditional, hname, Clause.map, Clause.boolean, Atom.map, Atom.boolean, Operand.map,
        Operand.type?]
  | case17 k =>
    cases k with
    | string s => exact literalOf_boolean h
    | other typeName => cases h
    | _ =>
      cases h
      rfl
  | case18 operand field => exact selectOf_boolean h
  | _ => simp [translate] at h

end typing

/-- What the database is asked is well typed for just those accepted filters that are conditions,
with conditions below AND, OR and NOT, and values that the compared fields admit. -/
theorem transpile_wellTyped_iff (lib : Library) (rf : ResourceFilter)
    (admits : FieldType → Value → Bool) (filterStr : String) (startIdx : Nat) (wc : WhereClause)
    (h : transpile lib rf filterStr startIdx = .ok wc) :
    wc.wellTyped startIdx admits ↔ filterStr = "" ∨
      Parses lib filterStr fun root => conditional lib rf admits root = true := by
  rcases transpile_cases h with ⟨hempty, rfl, -⟩ | ⟨root, c, hne, hparse, hc, rfl⟩
  · refine iff_of_true (fun c hc => by cases hc) (hempty.imp_right fun hnone root hroot => ?_)
    simp [hnone] at hroot
  · have hbool : WhereClause.wellTyped ⟨some (c.number startIdx), c.values⟩ startIdx admits ↔
        (c.map some).boolean admits = true := by
      simp [WhereClause.wellTyped, Clause.map_number (fills_getElem c.values startIdx)]
    rw [hbool, translate_boolean root hc]
    simp [hne, Parses, hparse]

theorem transpile_wellTyped_agent :
    WhereClause.wellTyped ⟨some (.atom (.compare (.column agentColumn) .eq 1)), [.string "a"]⟩ 1
      fun _ v => v.isString := by
  have hconditional : Parses (parsing "agent = \"a\"" agentEquals) "agent = \"a\"" fun root =>
      conditional (parsing "agent = \"a\"" agentEquals) connectorFilter (fun _ v => v.isString) root =
        true := by
    intro root hroot
    obtain rfl : agentEquals = root := Option.some.inj (Except.ok.inj hroot)
    decide
  exact (transpile_wellTyped_iff (parsing "agent = \"a\"" agentEquals) connectorFilter
    (fun _ v => v.isString) "agent = \"a\"" 1
    ⟨some (.atom (.compare (.column agentColumn) .eq 1)), [.string "a"]⟩ (by decide)).mpr
      (.inr hconditional)

/-- `displayName` is accepted as a filter, and asks for the rows where a text is true. -/
theorem transpile_not_wellTyped :
    ¬ ∀ (lib : Library) (rf : ResourceFilter) (admits : FieldType → Value → Bool)
      (filterStr : String) (startIdx : Nat) (wc : WhereClause),
      transpile lib rf filterStr startIdx = .ok wc → wc.wellTyped startIdx admits := by
  intro h
  have htyped := h (parsing "displayName" (.ident "displayName")) connectorFilter (fun _ _ => true)
    "displayName" 1 ⟨some (.atom (.operand (.column ⟨"display_name", .string⟩))), []⟩ (by decide)
  exact absurd (htyped _ rfl) (by decide)

end Pivox.Filter
