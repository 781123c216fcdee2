import Pivox.Filter.Keyset

/-!
Facet counts: the facets that are not filtered on share one GROUPING SETS scan, which also gives
the total; each other facet has a scan of its own, without its own comparisons.
-/

namespace Pivox.Filter
variable (lib : Library)

def defaultTermsSize : Int := 50

structure FacetSpec where
  field : String
  name : String
  selfExcluding : Bool
  size : Int
  column : String
  deriving DecidableEq, Repr

structure FacetBucket where
  key : String
  count : Int
  deriving DecidableEq, Repr

inductive FacetErr where
  | unknownFacetField (field : String)
  | filter (message : String)
  | query (message : String)
  deriving DecidableEq, Repr

/- A value of a result row, as the driver yields it. -/
inductive Cell where
  | int (n : Int)
  | text (s : String)
  | null
  deriving DecidableEq, Repr

/- `shared` groups by each column in turn and by none, `terms` by one column. -/
inductive FacetQuery where
  | shared (table : String) (conditions : List (Condition Nat)) (columns : List String)
  | terms (table : String) (conditions : List (Condition Nat)) (column : String)

def groupingColumn (i : Nat) (column : String) : String :=
  ", grouping(" ++ column ++ ") AS g" ++ toString i ++ ", (" ++ column ++ ")::text AS v" ++ toString i

def FacetQuery.text : FacetQuery → List Piece
  | .shared table conditions columns =>
    [.text "SELECT count(*) AS cnt"] ++
      (columns.zipIdx.map fun c => .text (groupingColumn c.2 c.1)) ++
      [.text (" FROM " ++ table)] ++ whereText conditions ++
      if columns = [] then []
      else [.text " GROUP BY GROUPING SETS ("] ++
        join ", " (columns.map fun column => [.text ("(" ++ column ++ ")")]) ++ [.text ", ())"]
  | .terms table conditions column =>
    [.text ("SELECT (" ++ column ++ ")::text AS v, count(*) AS cnt FROM " ++ table)] ++
      whereText conditions ++ [.text (" GROUP BY " ++ column)]

/- Runs a query with its arguments bound. -/
abbrev Querier := FacetQuery → List Value → Except String (List (List Cell))

/-- The fields that the filter compares. -/
def collectFilterFields : Expr → List String
  | .call f args =>
    match f, args with
    | .and, args | .fuzzyAnd, args | .or, args | .not, args => collectArgs args
    | .compare _, [.ident name, _] => [name]
    | .has, [.ident name, _] => [name]
    | _, _ => []
  | _ => []
where
  collectArgs : List Expr → List String
    | [] => []
    | e :: es => collectFilterFields e ++ collectArgs es

def activeFilterFields (filterStr : String) : Except String (List String) :=
  if isBlank filterStr then .ok []
  else
    match lib.parse filterStr with
    | .error e => .error ("invalid filter: " ++ e)
    | .ok none => .ok []
    | .ok (some root) => .ok (collectFilterFields root)

def toInt64 : Option Cell → Except FacetErr Int
  | some (.int n) => .ok n
  | _ => .error (.query "filter: facet expected integer column")

def toStringKey : Option Cell → String
  | some (.text s) => s
  | some (.int n) => toString n
  | _ => ""

def bucketLe (a b : FacetBucket) : Bool :=
  if a.count ≠ b.count then decide (b.count < a.count) else decide (a.key ≤ b.key)

def topN (buckets : List FacetBucket) (size : Int) : List FacetBucket :=
  let sorted := buckets.mergeSort bucketLe
  if size > 0 ∧ (sorted.length : Int) > size then sorted.take size.toNat else sorted

/- The first facet, from the `i`-th, whose grouping flag is zero in the row. -/
def groupedFacet (vals : List Cell) : Nat → Nat → Except FacetErr (Option Nat)
  | _, 0 => .ok none
  | i, n + 1 =>
    match toInt64 vals[1 + 2 * i]? with
    | .error e => .error e
    | .ok g => if g = 0 then .ok (some i) else groupedFacet vals (i + 1) n

/- What has been read of the shared scan so far. -/
structure SharedScan where
  total : Int
  buckets : List (List FacetBucket)

def addBucket (b : FacetBucket) (i : Nat) (buckets : List (List FacetBucket)) :
    List (List FacetBucket) :=
  buckets.modify i (· ++ [b])

def readShared (n : Nat) (scan : SharedScan) (vals : List Cell) : Except FacetErr SharedScan :=
  match toInt64 vals[0]? with
  | .error e => .error e
  | .ok count =>
    match groupedFacet vals 0 n with
    | .error e => .error e
    | .ok (some i) =>
      .ok ⟨scan.total, addBucket ⟨toStringKey vals[2 + 2 * i]?, count⟩ i scan.buckets⟩
    | .ok none => .ok ⟨count, scan.buckets⟩

abbrev Facets := List (String × List FacetBucket)

def query (querier : Querier) (q : FacetQuery) (args : List Value) :
    Except FacetErr (List (List Cell)) :=
  (querier q args).mapError .query

def runSharedFacets (querier : Querier) (rf : ResourceFilter) (b : Bound)
    (shared : List FacetSpec) : Except FacetErr (Int × Facets) := do
  let rows ← query querier (.shared rf.table b.1 (shared.map FacetSpec.column)) b.2
  let scan ← rows.foldlM (readShared shared.length) ⟨0, List.replicate shared.length []⟩
  .ok (scan.total, (shared.zip scan.buckets).map fun s => (s.1.name, topN s.2 s.1.size))

def readTerms (vals : List Cell) : Except FacetErr FacetBucket :=
  match toInt64 vals[1]? with
  | .error e => .error e
  | .ok count => .ok ⟨toStringKey vals[0]?, count⟩

def runTermsFacet (querier : Querier) (rf : ResourceFilter) (b : Bound) (s : FacetSpec) :
    Except FacetErr (List FacetBucket) := do
  let rows ← query querier (.terms rf.table b.1 s.column) b.2
  let buckets ← rows.mapM readTerms
  .ok (topN buckets s.size)

/- A spec with what it leaves open filled in. -/
def resolveSpec (rf : ResourceFilter) (s : FacetSpec) : Except FacetErr FacetSpec :=
  match rf.facetable.lookup s.field with
  | none => .error (.unknownFacetField s.field)
  | some column => .ok
    { s with
      column := column
      name := if s.name = "" then s.field else s.name
      size := if s.size ≤ 0 then defaultTermsSize else s.size }

def ownScan (active : List String) (s : FacetSpec) : Bool :=
  s.selfExcluding && decide (s.field ∈ active)

def scopeFor (q : ListQuery) (exclude : String) : Except FacetErr Bound :=
  (buildScopeConditions lib q exclude).mapError .filter

def excludingFacet (querier : Querier) (q : ListQuery) (s : FacetSpec) :
    Except FacetErr (String × List FacetBucket) := do
  let scope ← scopeFor lib q s.field
  let buckets ← runTermsFacet querier q.resource scope s
  .ok (s.name, buckets)

/-- A later result of one name replaces an earlier one. -/
def computeFacets (querier : Querier) (q : ListQuery) (specs : List FacetSpec) :
    Except FacetErr (Int × Facets) :=
  if specs = [] then .ok (0, [])
  else do
    let resolved ← specs.mapM (resolveSpec q.resource)
    let active ← (activeFilterFields lib q.filter).mapError .filter
    let shared := resolved.filter fun s => !ownScan active s
    let selfExcluding := resolved.filter (ownScan active)
    let scope ← scopeFor lib q ""
    let (total, results) ← runSharedFacets querier q.resource scope shared
    let own ← selfExcluding.mapM (excludingFacet lib querier q)
    .ok (total, own.reverse ++ results.reverse)

end Pivox.Filter
