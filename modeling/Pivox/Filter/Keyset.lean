import Pivox.Filter.Transpiler

/-!
The queries of the keyset lists: the conditions of their scope, the transpiled filter, the cursor
and the limit, each value bound to the next placeholder.
-/

namespace Pivox.Filter
variable (lib : Library)

/- strings.TrimSpace leaves nothing of it. -/
def isSpace (c : Char) : Bool :=
  c ∈ ['\t', '\n', '\x0b', '\x0c', '\r', ' ', '\u0085', '\u00a0', '\u1680', '\u2028', '\u2029',
    '\u202f', '\u205f', '\u3000'] || decide ('\u2000' ≤ c ∧ c ≤ '\u200a')

def isBlank (s : String) : Bool := s.toList.all isSpace

def trimSpace (s : String) : String :=
  .ofList ((s.toList.dropWhile isSpace).reverse.dropWhile isSpace).reverse

/- `field` is empty when the order is by id only. -/
structure OrderByPlan where
  field : String
  column : String
  type : FieldType
  descending : Bool
  deriving DecidableEq, Repr

/- strings.Fields -/
def fieldsOf (s : String) : List String :=
  ((s.toList.splitBy fun a b => isSpace a == isSpace b).filter fun w =>
    !w.all isSpace).map String.ofList

def toLower (s : String) : String := .ofList (s.toList.map Char.toLower)

def parseOrderTerm (orderBy : String) : Except String (String × Bool) :=
  if ',' ∈ orderBy.toList then
    .error ("keyset order_by supports a single field, got " ++ orderBy.quote)
  else
    match fieldsOf orderBy with
    | [] => .ok ("", false)
    | [field] => .ok (field, false)
    | [field, direction] =>
      if toLower direction = "asc" then .ok (field, false)
      else if toLower direction = "desc" then .ok (field, true)
      else .error ("invalid order direction " ++ direction.quote ++ " for field " ++ field.quote ++
        "; must be \"asc\" or \"desc\"")
    | _ => .error ("invalid order_by term " ++ orderBy.quote)

def planDefaultOrder (rf : ResourceFilter) : Except String OrderByPlan :=
  if isBlank rf.defaultOrder then .ok ⟨"", "", .string, false⟩
  else
    match parseOrderTerm rf.defaultOrder with
    | .error e => .error ("resource " ++ rf.table.quote ++ " has invalid DefaultOrder " ++
        rf.defaultOrder.quote ++ ": " ++ e)
    | .ok (field, descending) =>
      if field = "" ∨ field = "id" then .ok ⟨"", "", .string, descending⟩
      else
        match rf.sortable.lookup field with
        | some sf => .ok ⟨field, sf.column, sf.type, descending⟩
        | none => .error ("resource " ++ rf.table.quote ++ " DefaultOrder field " ++ field.quote ++
            " is not registered Sortable")

def planOrderBy (rf : ResourceFilter) (orderBy : String) : Except String OrderByPlan :=
  if isBlank orderBy then planDefaultOrder rf
  else
    match parseOrderTerm (trimSpace orderBy) with
    | .error e => .error e
    | .ok (field, descending) =>
      if field = "" then planDefaultOrder rf
      else
        match rf.sortable.lookup field with
        | some sf => .ok ⟨field, sf.column, sf.type, descending⟩
        | none => .error ("invalid order_by field " ++ field.quote)

/- `sortValue` is not looked at when the order is by id only. -/
structure KeysetCursor where
  sortValue : Value
  id : Value
  deriving DecidableEq, Repr

structure ListQuery where
  resource : ResourceFilter
  base : List Predicate
  filter : String
  order : OrderByPlan
  pageSize : Int
  cursor : Option KeysetCursor
  showDeleted : Bool

/- `afterRow` is the row comparison of a compound cursor. -/
inductive Condition (A : Type) where
  | notDeleted
  | predicate (sql : List Fragment) (a : A)
  | filter (c : Clause A)
  | afterId (descending : Bool) (id : A)
  | afterRow (column : String) (descending : Bool) (sortValue id : A)
  deriving DecidableEq, Repr

def keysetOp (descending : Bool) : String := if descending then "<" else ">"

def Fragment.piece (k : Nat) : Fragment → Piece
  | .text s => .text s
  | .arg => .placeholder k

/- fmt.Sprintf, which adds an argument that the text does not take. -/
def predicateText (sql : List Fragment) (k : Nat) : List Piece :=
  sql.map (Fragment.piece k) ++
    if .arg ∈ sql then [] else [Piece.text "%!(EXTRA string=", .placeholder k, .text ")"]

def Condition.text : Condition Nat → List Piece
  | .notDeleted => [.text "delete_time IS NULL"]
  | .predicate sql k => predicateText sql k
  | .filter c => c.text
  | .afterId descending k => [.text ("id " ++ keysetOp descending ++ " "), .placeholder k]
  | .afterRow column descending sortPh idPh =>
    [.text ("(" ++ column ++ ", id) " ++ keysetOp descending ++ " ("), .placeholder sortPh,
      .text ", ", .placeholder idPh, .text ")"]

/- Conditions with the arguments that are bound so far. -/
abbrev Bound := List (Condition Nat) × List Value

def addPredicate (b : Bound) (p : Predicate) : Bound :=
  (b.1 ++ [Condition.predicate p.sql (b.2.length + 1)], b.2 ++ [p.arg])

def addClause (b : Bound) (wc : WhereClause) : Bound :=
  match wc.sql with
  | none => b
  | some c => (b.1 ++ [Condition.filter c], b.2 ++ wc.args)

def buildScopeConditions (q : ListQuery) (excludeFilterField : String) : Except String Bound := do
  let deleted : Bound :=
    if q.resource.softDelete && !q.showDeleted then ([.notDeleted], []) else ([], [])
  let base := q.base.foldl addPredicate deleted
  let scope := q.resource.defaultConditions.foldl addPredicate base
  if isBlank q.filter then .ok scope
  else
    let wc ← transpileExcluding lib q.resource q.filter (scope.2.length + 1) excludeFilterField
    .ok (addClause scope wc)

def addCursor (order : OrderByPlan) (b : Bound) : Option KeysetCursor → Bound
  | none => b
  | some cursor =>
    if order.field = "" then
      (b.1 ++ [.afterId order.descending (b.2.length + 1)], b.2 ++ [cursor.id])
    else
      (b.1 ++ [.afterRow order.column order.descending (b.2.length + 1) (b.2.length + 2)],
        b.2 ++ [cursor.sortValue, cursor.id])

def orderClause (order : OrderByPlan) : String :=
  if order.field ≠ "" then
    let dir := if order.descending then "DESC" else "ASC"
    order.column ++ " " ++ dir ++ ", id " ++ dir
  else if order.descending then "id DESC"
  else "id"

/- The backstop of the builder; the callers clamp the size before. -/
def listPageSize (pageSize : Int) : Int :=
  if pageSize ≤ 0 then 100 else if pageSize > 1000 then 1000 else pageSize

/-- A list query: its text is `text`, and `args` are bound to its placeholders. -/
structure BuiltQuery where
  table : String
  conditions : List (Condition Nat)
  order : OrderByPlan
  limit : Nat
  args : List Value

def whereText (conditions : List (Condition Nat)) : List Piece :=
  if conditions = [] then []
  else [Piece.text " WHERE "] ++ join " AND " (conditions.map Condition.text)

def BuiltQuery.text (b : BuiltQuery) : List Piece :=
  [Piece.text "SELECT * FROM ", .text b.table] ++ whereText b.conditions ++
    [Piece.text " ORDER BY ", .text (orderClause b.order), .text " LIMIT ", .placeholder b.limit]

def buildListQuery (q : ListQuery) : Except String BuiltQuery := do
  let scope ← buildScopeConditions lib q ""
  let b := addCursor q.order scope q.cursor
  .ok ⟨q.resource.table, b.1, q.order, b.2.length + 1,
    b.2 ++ [Value.int64 (listPageSize q.pageSize + 1)]⟩

end Pivox.Filter
