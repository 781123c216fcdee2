import Pivox.Filter.Clause

/-!
The transpiler of AIP-160 filters. It numbers its placeholders as it appends their values; the
same clause with its values in place is `translate`.
-/

namespace Pivox.Filter

structure FilterableField where
  column : String
  type : FieldType
  allowPartial : Bool
  jsonb : Bool
  deriving DecidableEq, Repr

abbrev FilterableField.sqlColumn (fm : FilterableField) : Column := ⟨fm.column, fm.type⟩

structure SortableField where
  column : String
  type : FieldType
  deriving DecidableEq, Repr

abbrev Time := Int

/- A double is its bits. -/
inductive Value where
  | string (s : String)
  | int64 (n : Int)
  | double (bits : UInt64)
  | bool (b : Bool)
  | time (t : Time)
  | uuid (id : Nat)
  deriving DecidableEq, Repr

/- What the SQL of a predicate is around the placeholder of its argument. -/
inductive Fragment where
  | text (s : String)
  | arg
  deriving DecidableEq, Repr

structure Predicate where
  sql : List Fragment
  arg : Value
  deriving DecidableEq, Repr

structure ResourceFilter where
  filterable : List (String × FilterableField)
  sortable : List (String × SortableField)
  facetable : List (String × String)
  table : String
  softDelete : Bool
  defaultOrder : String
  defaultPageSize : Int
  maxPageSize : Int
  defaultConditions : List Predicate
  defaultFields : List String
  deriving Repr

def connectorFilter : ResourceFilter where
  filterable := [("displayName", ⟨"display_name", .string, true, false⟩),
    ("description", ⟨"description", .string, true, false⟩),
    ("agent", ⟨"agent", .string, false, false⟩),
    ("createTime", ⟨"create_time", .timestamp, false, false⟩),
    ("updateTime", ⟨"update_time", .timestamp, false, false⟩),
    ("annotations", ⟨"annotations", .map, false, true⟩)]
  sortable := [("displayName", ⟨"display_name", .string⟩), ("createTime", ⟨"create_time", .timestamp⟩),
    ("updateTime", ⟨"update_time", .timestamp⟩)]
  facetable := [("agent", "agent"), ("space", "space_id")]
  table := "connectors"
  softDelete := false
  defaultOrder := ""
  defaultPageSize := 0
  maxPageSize := 0
  defaultConditions := []
  defaultFields := ["displayName"]

/- The functions of a parsed filter. -/
inductive Function where
  | and
  | fuzzyAnd
  | or
  | not
  | compare (op : Comparison)
  | has
  | timestamp
  | other (name : String)
  deriving DecidableEq, Repr

def Function.text : Function → String
  | .and => "AND"
  | .fuzzyAnd => "FUZZY"
  | .or => "OR"
  | .not => "NOT"
  | .compare op => op.text
  | .has => ":"
  | .timestamp => "timestamp"
  | .other name => name

inductive Constant where
  | string (s : String)
  | int64 (n : Int)
  | double (bits : UInt64)
  | bool (b : Bool)
  | other (typeName : String)
  deriving DecidableEq, Repr

/-- The syntax tree as the parser gives it, unchecked. -/
inductive Expr where
  | call (function : Function) (args : List Expr)
  | ident (name : String)
  | const (c : Constant)
  | select (operand : Expr) (field : String)
  | other (typeName : String)
  deriving Repr

def Expr.typeName : Expr → String
  | .call _ _ => "*expr.Expr_CallExpr"
  | .ident _ => "*expr.Expr_IdentExpr"
  | .const _ => "*expr.Expr_ConstExpr"
  | .select _ _ => "*expr.Expr_SelectExpr"
  | .other typeName => typeName

/- GetIdentExpr().GetName(), which is empty for anything else. -/
def Expr.identName : Expr → String
  | .ident name => name
  | _ => ""

/-- What is used of the parser and of Go's time and fmt packages. -/
structure Library where
  parse : String → Except String (Option Expr)
  parseRFC3339 : String → Except String Time
  sprintDouble : UInt64 → String
  sprintTime : Time → String

/- fmt's %v -/
def Library.sprint (lib : Library) : Value → String
  | .string s => s
  | .int64 n => toString n
  | .double bits => lib.sprintDouble bits
  | .bool b => toString b
  | .time t => lib.sprintTime t
  | .uuid id => toString id

/- A field as an expression names it, with the modifiers of its declaration. -/
structure Field (A : Type) where
  column : Operand A
  type : FieldType
  allowPartial : Bool
  jsonb : Bool

structure Transpiler where
  filter : ResourceFilter
  startIdx : Nat
  exclude : String

/- `args` is the state. -/
abbrev Transpile (α : Type) := StateT (List Value) (Except String) α

variable (lib : Library)

def nextParam (t : Transpiler) (value : Value) : Transpile Nat := fun args =>
  .ok (t.startIdx + args.length, args ++ [value])

def isKeyStart (c : Char) : Bool :=
  ('A' ≤ c ∧ c ≤ 'Z') ∨ ('a' ≤ c ∧ c ≤ 'z') ∨ c = '_'

def isKeyChar (c : Char) : Bool := isKeyStart c || decide ('0' ≤ c ∧ c ≤ '9')

def jsonbKeyPattern (key : String) : Bool :=
  match key.toList with
  | [] => false
  | c :: cs => isKeyStart c && cs.all isKeyChar

def jsonbKeyParam (t : Transpiler) (key : String) : Transpile Nat :=
  if jsonbKeyPattern key then nextParam t (.string key)
  else throw ("invalid jsonb key " ++ key.quote)

def likeLiteralEscaper (s : String) : String :=
  .ofList (s.toList.flatMap fun c =>
    if c = '\\' ∨ c = '%' ∨ c = '_' then ['\\', c] else [c])

def wildcards (s : String) : String := .ofList (s.toList.map fun c => if c = '*' then '%' else c)

/- Of the operand of `=` on a field that allows partial matches. -/
def wildcardPattern (op : Comparison) (allowPartial : Bool) : Value → Option String
  | .string s =>
    if op = .eq ∧ allowPartial = true ∧ '*' ∈ s.toList then some (wildcards (likeLiteralEscaper s))
    else none
  | _ => none

/- `%` on either side -/
def containing (s : String) : String := "%" ++ s ++ "%"

def constToValue : Constant → Except String Value
  | .string s => .ok (.string s)
  | .int64 n => .ok (.int64 n)
  | .double bits => .ok (.double bits)
  | .bool b => .ok (.bool b)
  | .other typeName => .error ("unsupported constant type: " ++ typeName)

def parseTimestamp : Value → Except String Value
  | .string s =>
    match lib.parseRFC3339 s with
    | .ok ts => .ok (.time ts)
    | .error e => .error ("invalid timestamp: " ++ e)
  | _ => .error "timestamp() argument must be a string"

def resolveValue : Expr → Except String Value
  | .const c => constToValue c
  | .call f args =>
    match f, args with
    | .timestamp, [arg] => do parseTimestamp lib (← resolveValue arg)
    | .timestamp, _ => .error "timestamp() requires 1 argument"
    | f, _ => .error ("unsupported function in value position: " ++ f.text)
  | .ident name => .ok (.string name)
  | e => .error ("expected value, got " ++ e.typeName)

section expressions
variable (t : Transpiler)

def searchClause (value : Value) (column : Column) : Transpile (Column × Nat) := do
  pure (column, ← nextParam t value)

def expandBareLiteral (value : String) : Transpile (Clause Nat) := do
  if t.filter.defaultFields = [] then
    throw ("bare literal " ++ value.quote ++ " not supported: no default fields configured")
  let columns := t.filter.defaultFields.filterMap fun name =>
    (t.filter.filterable.lookup name).map FilterableField.sqlColumn
  if columns = [] then
    throw ("no default fields found for bare literal " ++ value.quote)
  pure (.search (← columns.mapM (searchClause t (.string (containing value)))))

def transpileIdent (name : String) : Transpile (Clause Nat) :=
  match t.filter.filterable.lookup name with
  | some fm => pure (.atom (.operand (.column fm.sqlColumn)))
  | none => expandBareLiteral t name

def transpileConst : Constant → Transpile (Clause Nat)
  | .string s => expandBareLiteral t s
  | .int64 n => do pure (.atom (.value (← nextParam t (.int64 n))))
  | .double bits => do pure (.atom (.value (← nextParam t (.double bits))))
  | .bool b => do pure (.atom (.value (← nextParam t (.bool b))))
  | .other typeName => throw ("unsupported constant type: " ++ typeName)

/- A traversal has no modifiers of its own. -/
def resolveField : Expr → Transpile (Field Nat)
  | .ident name =>
    match t.filter.filterable.lookup name with
    | some fm => pure ⟨.column fm.sqlColumn, fm.type, fm.allowPartial, fm.jsonb⟩
    | none => throw ("unknown field: " ++ name)
  | .select operand field => do
    let fm ← resolveField operand
    if fm.jsonb then
      let key ← jsonbKeyParam t field
      pure ⟨.jsonText fm.column key, .string, false, false⟩
    else throw (operand.identName ++ " does not support traversal")
  | e => throw ("expected field identifier, got " ++ e.typeName)

def transpileSelect (operand : Expr) (field : String) : Transpile (Clause Nat) := do
  let fm ← resolveField t operand
  if fm.jsonb then
    let key ← jsonbKeyParam t field
    pure (.atom (.operand (.jsonText fm.column key)))
  else throw (field ++ " does not support traversal")

def isExcluded : Expr → Bool
  | .ident name => t.exclude != "" && name == t.exclude
  | _ => false

def transpileComparison (lhs rhs : Expr) (op : Comparison) : Transpile (Clause Nat) :=
  if isExcluded t lhs then pure .true
  else do
    let fm ← resolveField t lhs
    let value ← resolveValue lib rhs
    match wildcardPattern op fm.allowPartial value with
    | some pattern =>
      let param ← nextParam t (.string pattern)
      pure (.atom (.ilike fm.column param true))
    | none =>
      let param ← nextParam t value
      pure (.atom (.compare fm.column op param))

def transpileHasSelect (operand : Expr) (field : String) (rhs : Expr) :
    Transpile (Clause Nat) := do
  let fm ← resolveField t operand
  if fm.jsonb then
    let key ← jsonbKeyParam t field
    let value ← resolveValue lib rhs
    let param ← nextParam t (.string (containing (lib.sprint value)))
    pure (.atom (.ilike (.jsonText fm.column key) param false))
  else throw (field ++ " does not support traversal")

def transpileHas (lhs rhs : Expr) : Transpile (Clause Nat) :=
  if isExcluded t lhs then pure .true
  else
    match lhs with
    | .select operand field => transpileHasSelect lib t operand field rhs
    | lhs => do
      let fm ← resolveField t lhs
      let value ← resolveValue lib rhs
      if fm.jsonb then
        let param ← nextParam t value
        pure (.atom (.hasKey fm.column param))
      else
        let param ← nextParam t (.string (containing (lib.sprint value)))
        pure (.atom (.ilike fm.column param false))

def transpileTimestamp (arg : Expr) : Transpile (Clause Nat) := do
  let value ← resolveValue lib arg
  let ts ← parseTimestamp lib value
  pure (.atom (.value (← nextParam t ts)))

def transpileExpr : Expr → Transpile (Clause Nat)
  | .call f args =>
    match f, args with
    | .and, [l, r] => do pure (.and (← transpileExpr l) (← transpileExpr r))
    | .fuzzyAnd, [l, r] => do pure (.and (← transpileExpr l) (← transpileExpr r))
    | .or, [l, r] => do pure (.or (← transpileExpr l) (← transpileExpr r))
    | .not, [e] => do pure (.not (← transpileExpr e))
    | .compare op, [lhs, rhs] => transpileComparison lib t lhs rhs op
    | .has, [lhs, rhs] => transpileHas lib t lhs rhs
    | .timestamp, [arg] => transpileTimestamp lib t arg
    | .and, args | .fuzzyAnd, args =>
      throw ("AND requires 2 arguments, got " ++ toString args.length)
    | .or, args => throw ("OR requires 2 arguments, got " ++ toString args.length)
    | .not, args => throw ("NOT requires 1 argument, got " ++ toString args.length)
    | .compare op, _ => throw (op.text ++ " requires 2 arguments")
    | .has, _ => throw ": requires 2 arguments"
    | .timestamp, _ => throw "timestamp() requires 1 argument"
    | .other name, _ => throw ("unsupported function: " ++ name)
  | .ident name => transpileIdent t name
  | .const c => transpileConst t c
  | .select operand field => transpileSelect t operand field
  | .other typeName => throw ("unsupported expression type: " ++ typeName)

end expressions

/- No clause at all when the filter is empty. -/
structure WhereClause where
  sql : Option (Clause Nat)
  args : List Value
  deriving DecidableEq, Repr

def transpileExcluding (rf : ResourceFilter) (filterStr : String) (startIdx : Nat)
    (excludeField : String) : Except String WhereClause :=
  if filterStr = "" then .ok ⟨none, []⟩
  else
    match lib.parse filterStr with
    | .error e => .error ("invalid filter: " ++ e)
    | .ok none => .ok ⟨none, []⟩
    | .ok (some root) => do
      let (sql, args) ← (transpileExpr lib ⟨rf, startIdx, excludeField⟩ root).run []
      .ok ⟨some sql, args⟩

def transpile (rf : ResourceFilter) (filterStr : String) (startIdx : Nat) :
    Except String WhereClause :=
  transpileExcluding lib rf filterStr startIdx ""

end Pivox.Filter
