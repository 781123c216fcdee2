import Mathlib.Data.Int.Order.Basic
import Mathlib.Data.List.Dedup
import Mathlib.Data.List.Perm.Basic
import Pivox.Filter.Scope
import Pivox.Filter.Exclusion
import Pivox.Filter.Facets

/-!
The total and the buckets against their definition: how many rows the list selects, and how many of
them each value of a column has.
-/

namespace Pivox.Filter
open Sql List

/- `none` is NULL. -/
structure Table (R V : Type) extends Semantics R where
  rows : List R
  column : R → String → Option V
  text : V → String

section groups
variable {R V : Type} [DecidableEq V] (t : Table R V)

/-- The distinct values of the column, NULL among them, each with the number of rows that have it. -/
def Table.groups (rows : List R) (column : String) : List (Option V × Nat) :=
  (rows.map (t.column · column)).dedup.map fun v => (v, (rows.map (t.column · column)).count v)

def Table.cell : Option V → Cell
  | none => .null
  | some v => .text (t.text v)

/- A row of the shared scan: a count, then a flag and a value for each column. -/
def flagged (n : Nat) (flags : List (Int × Cell)) : List Cell :=
  .int n :: flags.flatMap fun f => [.int f.1, f.2]

def Table.groupedRow (columns : List String) (column : String) (g : Option V × Nat) : List Cell :=
  flagged g.2 (columns.map fun c => if c = column then (0, t.cell g.1) else (1, .null))

def totalRow (columns : List String) (n : Nat) : List Cell :=
  flagged n (columns.map fun _ => (1, .null))

/- Without a column to group by there is the one count. -/
def Table.groupingSets (columns : List String) (rows : List R) : List (List Cell) :=
  (columns.flatMap fun column => (t.groups rows column).map (t.groupedRow columns column)) ++
    [totalRow columns rows.length]

/-- What the query comes to, in some order. -/
def Table.answer (args : List Value) : FacetQuery → List (List Cell)
  | .shared _ conditions columns =>
    t.groupingSets columns (t.rows.filter (t.selects (conditions, args)))
  | .terms _ conditions column =>
    (t.groups (t.rows.filter (t.selects (conditions, args))) column).map fun g =>
      [t.cell g.1, .int g.2]

def FacetQuery.table : FacetQuery → String
  | .shared table _ _ => table
  | .terms table _ _ => table

/-- The database holds the table under the name. -/
def Table.Answers (name : String) (querier : Querier) : Prop :=
  ∀ q args, q.table = name → ∃ rows, querier q args = .ok rows ∧ rows.Perm (t.answer args q)

/- NULL has the empty text. -/
def Table.bucket (g : Option V × Nat) : FacetBucket := ⟨(g.1.map t.text).getD "", g.2⟩

/-- The values of the column as texts, with their counts. -/
def Table.pairs (rows : List R) (column : String) : List FacetBucket :=
  (t.groups rows column).map t.bucket

omit [DecidableEq V] in
theorem toStringKey_cell (v : Option V) : toStringKey (t.cell v) = (v.map t.text).getD "" := by
  cases v <;> rfl

end groups

/-- The first `size` of the pairs, by descending count and ascending key. -/
def IsTop (size : Nat) (pairs buckets : List FacetBucket) : Prop :=
  ∃ sorted : List FacetBucket, sorted.Perm pairs ∧
    sorted.Pairwise (fun a b => b.count < a.count ∨ a.count = b.count ∧ a.key ≤ b.key) ∧
    buckets = sorted.take size

theorem bucketLe_iff (a b : FacetBucket) :
    bucketLe a b = true ↔ b.count < a.count ∨ a.count = b.count ∧ a.key ≤ b.key := by
  unfold bucketLe
  by_cases h : a.count = b.count
  · simp [h]
  · simp [h]

theorem bucketLe_trans (a b c : FacetBucket) (hab : bucketLe a b = true)
    (hbc : bucketLe b c = true) : bucketLe a c = true := by
  rw [bucketLe_iff] at hab hbc ⊢
  rcases hab with hab | ⟨hab, hkab⟩
  · rcases hbc with hbc | ⟨hbc, -⟩
    · exact .inl (by omega)
    · exact .inl (by omega)
  · rcases hbc with hbc | ⟨hbc, hkbc⟩
    · exact .inl (by omega)
    · exact .inr ⟨by omega, String.le_trans hkab hkbc⟩

theorem bucketLe_total (a b : FacetBucket) : (bucketLe a b || bucketLe b a) = true := by
  rw [Bool.or_eq_true, bucketLe_iff, bucketLe_iff]
  rcases lt_trichotomy a.count b.count with h | h | h
  · exact .inr (.inl h)
  · rcases String.le_total a.key b.key with hk | hk
    · exact .inl (.inr ⟨h, hk⟩)
    · exact .inr (.inr ⟨h.symm, hk⟩)
  · exact .inl (.inl h)

theorem topN_isTop {buckets pairs : List FacetBucket} {size : Int} (hsize : 0 < size)
    (hperm : buckets.Perm pairs) : IsTop size.toNat pairs (topN buckets size) := by
  refine ⟨buckets.mergeSort bucketLe, (mergeSort_perm _ _).trans hperm, ?_, ?_⟩
  · have hsorted := pairwise_mergeSort bucketLe_trans bucketLe_total buckets
    simpa only [bucketLe_iff] using hsorted
  · unfold topN
    by_cases hlen : ((buckets.mergeSort bucketLe).length : Int) > size
    · simp only [hsize, hlen, and_self, if_true]
    · have hle : (buckets.mergeSort bucketLe).length ≤ size.toNat := by omega
      simp only [hlen, and_false, if_false, take_of_length_le hle]

/-! Rows of the shared scan, read by their flags. -/

theorem flagged_flag (n : Nat) (flags : List (Int × Cell)) (i : Nat) :
    (flagged n flags)[1 + 2 * i]? = flags[i]?.map fun f => .int f.1 := by
  induction flags generalizing i n with
  | nil => simp [flagged, Nat.add_comm 1]
  | cons f flags ih =>
    cases i with
    | zero => rfl
    | succ i => simpa [flagged, Nat.mul_add, Nat.add_comm 1] using ih n i

theorem flagged_value (n : Nat) (flags : List (Int × Cell)) (i : Nat) :
    (flagged n flags)[2 + 2 * i]? = flags[i]?.map Prod.snd := by
  induction flags generalizing i n with
  | nil => simp [flagged, Nat.add_comm 2]
  | cons f flags ih =>
    cases i with
    | zero => rfl
    | succ i => simpa [flagged, Nat.mul_add, Nat.add_comm 2] using ih n i

/-- The first flag that is zero. -/
theorem groupedFacet_flagged (n : Nat) (before flags : List (Int × Cell)) :
    groupedFacet (flagged n (before ++ flags)) before.length flags.length =
      .ok ((flags.findIdx? fun f => f.1 = 0).map (before.length + ·)) := by
  induction flags generalizing before with
  | nil => rfl
  | cons f flags ih =>
    have hflag : (flagged n (before ++ f :: flags))[1 + 2 * before.length]? = some (.int f.1) := by
      simp [flagged_flag]
    simp only [List.length_cons, groupedFacet, hflag, toInt64, findIdx?_cons]
    by_cases h : f.1 = 0
    · simp [h]
    · have hrest := ih (before ++ [f])
      simp only [append_assoc, singleton_append, length_append, length_singleton] at hrest
      simp only [h, if_false, decide_false, Bool.false_eq_true, hrest, Option.map_map]
      congr 2
      funext i
      simp only [Function.comp_apply]
      omega

/- What a row of the shared scan adds. -/
inductive Entry where
  | bucket (i : Nat) (b : FacetBucket)
  | total (n : Int)

def Entry.add (scan : SharedScan) : Entry → SharedScan
  | .bucket i b => ⟨scan.total, addBucket b i scan.buckets⟩
  | .total n => ⟨n, scan.buckets⟩

def Entry.bucketOf (i : Nat) : Entry → Option FacetBucket
  | .bucket j b => if j = i then some b else none
  | .total _ => none

def Entry.total? : Entry → Option Int
  | .bucket _ _ => none
  | .total n => some n

def Reads (n : Nat) (vals : List Cell) (e : Entry) : Prop :=
  ∀ scan, readShared n scan vals = .ok (e.add scan)

/-- A row of the shared scan goes to the first facet whose flag is zero, or is the total. -/
theorem readShared_flagged (n : Nat) (flags : List (Int × Cell)) (scan : SharedScan) :
    readShared flags.length scan (flagged n flags) =
      match flags.findIdx? fun f => f.1 = 0 with
      | some i => .ok ((Entry.bucket i ⟨toStringKey (flags[i]?.map Prod.snd), n⟩).add scan)
      | none => .ok ((Entry.total n).add scan) := by
  have hcount : toInt64 (flagged n flags)[0]? = .ok (n : Int) := rfl
  have hfacet := groupedFacet_flagged n [] flags
  simp only [nil_append, length_nil, Nat.zero_add, Option.map_id'] at hfacet
  simp only [readShared, hcount, hfacet, flagged_value]
  cases flags.findIdx? fun f => f.1 = 0 with
  | none => rfl
  | some i => rfl

theorem foldlM_reads {n : Nat} {rows : List (List Cell)} {entries : List Entry}
    (h : Forall₂ (Reads n) rows entries) (scan : SharedScan) :
    rows.foldlM (readShared n) scan = .ok (entries.foldl Entry.add scan) := by
  induction h generalizing scan with
  | nil => rfl
  | cons hread _ ih => simp [hread scan, bind, Except.bind, ih]

theorem foldl_add_buckets (entries : List Entry) (scan : SharedScan) (i : Nat) :
    (entries.foldl Entry.add scan).buckets[i]? =
      scan.buckets[i]?.map (· ++ entries.filterMap (Entry.bucketOf i)) := by
  induction entries generalizing scan with
  | nil => simp
  | cons e entries ih =>
    simp only [foldl_cons, ih]
    cases e with
    | total n => rfl
    | bucket j b =>
      by_cases h : j = i
      · simp [Entry.add, addBucket, Entry.bucketOf, h, Function.comp_def]
      · simp [Entry.add, addBucket, Entry.bucketOf, h]

theorem foldl_add_total (entries : List Entry) (scan : SharedScan) :
    (entries.foldl Entry.add scan).total =
      (entries.filterMap Entry.total?).getLast?.getD scan.total := by
  induction entries generalizing scan with
  | nil => rfl
  | cons e entries ih =>
    simp only [foldl_cons, ih]
    cases e with
    | bucket j b => rfl
    | total n =>
      simp only [filterMap_cons, Entry.total?, getLast?_cons]
      rfl

section scans
variable {R V : Type} [DecidableEq V] (t : Table R V)

/- The rows of the shared scan in the order that its text lists the columns. -/
def entries (columns : List String) (rows : List R) : List Entry :=
  (columns.zipIdx.flatMap fun c => (t.groups rows c.1).map fun g => Entry.bucket c.2 (t.bucket g)) ++
    [Entry.total rows.length]

omit [DecidableEq V] in
theorem reads_grouped {columns : List String} (hnodup : columns.Nodup) {column : String} {i : Nat}
    (hi : columns[i]? = some column) (g : Option V × Nat) :
    Reads columns.length (t.groupedRow columns column g) (.bucket i (t.bucket g)) := by
  intro scan
  have hidx : (columns.map fun c => if c = column then ((0 : Int), t.cell g.1)
      else (1, .null)).findIdx? (fun f => f.1 = 0) = some i := by
    obtain ⟨hlt, hget⟩ := List.getElem?_eq_some_iff.mp hi
    rw [findIdx?_map, findIdx?_eq_some_iff_getElem]
    refine ⟨hlt, by simp [hget], fun j hj => ?_⟩
    have hne : columns[j] ≠ column := by
      rw [← hget]
      exact fun h => absurd ((hnodup.getElem_inj_iff).mp h) (by omega)
    simp [hne]
  have hread := readShared_flagged g.2 (columns.map fun c =>
    if c = column then ((0 : Int), t.cell g.1) else (1, .null)) scan
  rw [hidx, length_map] at hread
  simpa [hi, toStringKey_cell, Table.groupedRow, Table.bucket] using hread

theorem reads_total (columns : List String) (n : Nat) :
    Reads columns.length (totalRow columns n) (.total n) := by
  intro scan
  have hidx : (columns.map fun _ => ((1 : Int), Cell.null)).findIdx? (fun f => f.1 = 0) = none := by
    simp
  have hread := readShared_flagged n (columns.map fun _ => ((1 : Int), Cell.null)) scan
  rwa [hidx, length_map] at hread

theorem forall₂_flatMap {α β γ : Type} {P : β → γ → Prop} {l : List α} {f : α → List β}
    {g : α → List γ} (h : ∀ a ∈ l, Forall₂ P (f a) (g a)) :
    Forall₂ P (l.flatMap f) (l.flatMap g) := by
  induction l with
  | nil => exact .nil
  | cons a l ih =>
    simp only [flatMap_cons]
    exact rel_append (h a mem_cons_self) (ih fun b hb => h b (mem_cons_of_mem a hb))

theorem reads_groupingSets {columns : List String} (hnodup : columns.Nodup) (rows : List R) :
    Forall₂ (Reads columns.length) (t.groupingSets columns rows) (entries t columns rows) := by
  have hsplit (f : String → List (List Cell)) :
      columns.flatMap f = columns.zipIdx.flatMap fun c => f c.1 := by
    rw [← flatMap_map Prod.fst f, zipIdx_map_fst]
  rw [Table.groupingSets, entries, hsplit]
  refine rel_append (forall₂_flatMap fun c hc => ?_) (.cons (reads_total columns _) .nil)
  rw [forall₂_map_left_iff, forall₂_map_right_iff, forall₂_same]
  exact fun g _ => reads_grouped t hnodup (mem_zipIdx_iff_getElem?.mp hc) g

omit [DecidableEq V] in
theorem filterMap_buckets (i j : Nat) (groups : List (Option V × Nat)) :
    (groups.map fun g => Entry.bucket j (t.bucket g)).filterMap (Entry.bucketOf i) =
      if j = i then groups.map t.bucket else [] := by
  by_cases h : j = i
  · simp [filterMap_map, Function.comp_def, Entry.bucketOf, h]
  · simp [filterMap_map, Function.comp_def, Entry.bucketOf, h]

/- Each index stands once. -/
theorem flatMap_zipIdx {α β : Type} {columns : List α} (f : α → List β) {k i : Nat} {column : α}
    (hi : columns[i]? = some column) :
    (columns.zipIdx k).flatMap (fun c => if c.2 = k + i then f c.1 else []) = f column := by
  induction columns generalizing k i with
  | nil => simp at hi
  | cons c columns ih =>
    cases i with
    | zero =>
      have hrest : (columns.zipIdx (k + 1)).flatMap (fun c => if c.2 = k then f c.1 else []) = [] := by
        rw [flatMap_eq_nil_iff]
        intro c hc
        have hle := le_snd_of_mem_zipIdx hc
        rw [if_neg (by omega)]
      simp only [getElem?_cons_zero, Option.some.injEq] at hi
      simp [zipIdx_cons, hrest, hi]
    | succ i =>
      have hrest := ih (k := k + 1) (i := i) (by simpa using hi)
      simp only [Nat.add_assoc, Nat.add_comm 1] at hrest
      simpa [zipIdx_cons] using hrest

theorem forall₂_zipIdx {α : Type} {P : α → α × Nat → Prop} {l : List α}
    (h : ∀ a i, l[i]? = some a → P a (a, i)) : Forall₂ P l l.zipIdx := by
  have hself : Forall₂ (fun a c => P a.1 c) l.zipIdx l.zipIdx :=
    forall₂_same.mpr fun c hc => h c.1 c.2 (mem_zipIdx_iff_getElem?.mp hc)
  rwa [← forall₂_map_left_iff, zipIdx_map_fst] at hself

theorem entries_buckets {columns : List String} {rows : List R} {column : String} {i : Nat}
    (hi : columns[i]? = some column) :
    (entries t columns rows).filterMap (Entry.bucketOf i) = t.pairs rows column := by
  have hcolumn := flatMap_zipIdx (fun c => (t.groups rows c).map t.bucket) (k := 0) hi
  simp only [Nat.zero_add] at hcolumn
  simp only [entries, filterMap_append, filterMap_flatMap, filterMap_buckets, hcolumn]
  simp [Entry.bucketOf, Table.pairs]

theorem entries_total (columns : List String) (rows : List R) :
    (entries t columns rows).filterMap Entry.total? = [(rows.length : Int)] := by
  simp [entries, filterMap_flatMap, filterMap_map, Function.comp_def, Entry.total?]

/-- The shared scan gives the number of rows, and for each facet the top of its pairs. -/
theorem runSharedFacets_ok {querier : Querier} {rf : ResourceFilter} (b : Bound)
    (shared : List FacetSpec) (hanswers : t.Answers rf.table querier)
    (hnodup : (shared.map FacetSpec.column).Nodup) (hsize : ∀ s ∈ shared, 0 < s.size) :
    ∃ results, runSharedFacets querier rf b shared =
        .ok (((t.rows.filter (t.selects b)).length : Int), results) ∧
      Forall₂ (fun s r => r.1 = s.name ∧
        IsTop s.size.toNat (t.pairs (t.rows.filter (t.selects b)) s.column) r.2) shared results := by
  obtain ⟨rows, hrows, hperm⟩ := hanswers (.shared rf.table b.1 (shared.map FacetSpec.column)) b.2 rfl
  obtain ⟨read, hread, hentries⟩ := perm_comp_forall₂ hperm
    (reads_groupingSets t hnodup (t.rows.filter (t.selects b)))
  rw [length_map] at hread
  have hfold := foldlM_reads hread ⟨0, replicate shared.length []⟩
  have htotal : (read.foldl Entry.add ⟨0, replicate shared.length []⟩).total =
      (t.rows.filter (t.selects b)).length := by
    have hone := hentries.filterMap Entry.total?
    rw [entries_total, perm_singleton] at hone
    simp [foldl_add_total, hone]
  have hbuckets : shared.zip (read.foldl Entry.add ⟨0, replicate shared.length []⟩).buckets =
      shared.zipIdx.map fun s => (s.1, read.filterMap (Entry.bucketOf s.2)) := by
    apply ext_getElem?
    intro i
    simp only [zip, getElem?_zipWith, foldl_add_buckets, getElem?_map, getElem?_zipIdx]
    cases hs : shared[i]? with
    | none => rfl
    | some s =>
      obtain ⟨hlt, -⟩ := List.getElem?_eq_some_iff.mp hs
      simp [hlt]
  refine ⟨shared.zipIdx.map fun s => (s.1.name, topN (read.filterMap (Entry.bucketOf s.2)) s.1.size),
    ?_, ?_⟩
  · simp [runSharedFacets, query, hrows, hfold, htotal, hbuckets, bind, Except.bind, Except.mapError]
  · rw [forall₂_map_right_iff]
    refine forall₂_zipIdx fun s i hs => ⟨rfl, topN_isTop (hsize s (mem_of_getElem? hs)) ?_⟩
    have hcolumn : (shared.map FacetSpec.column)[i]? = some s.column := by simp [hs]
    have hpairs := hentries.filterMap (Entry.bucketOf i)
    rwa [entries_buckets t hcolumn] at hpairs

theorem mapM_ok {ε α β : Type} {f : α → Except ε β} {l : List α} {bs : List β}
    (h : Forall₂ (fun a b => f a = .ok b) l bs) : l.mapM f = .ok bs := by
  induction h with
  | nil => rfl
  | cons hb _ ih => simp [mapM_cons, hb, ih, bind, Except.bind, pure, Except.pure]

theorem exists_forall₂ {α β : Type} {P : α → β → Prop} {l : List α} (h : ∀ a ∈ l, ∃ b, P a b) :
    ∃ bs, Forall₂ P l bs := by
  induction l with
  | nil => exact ⟨[], .nil⟩
  | cons a l ih =>
    obtain ⟨b, hb⟩ := h a mem_cons_self
    obtain ⟨bs, hbs⟩ := ih fun a' ha' => h a' (mem_cons_of_mem a ha')
    exact ⟨b :: bs, .cons hb hbs⟩

/-- A scan of its own gives the facet the top of its pairs. -/
theorem runTermsFacet_ok {querier : Querier} {rf : ResourceFilter} {b : Bound} {s : FacetSpec}
    (hanswers : t.Answers rf.table querier) (hsize : 0 < s.size) :
    ∃ buckets, runTermsFacet querier rf b s = .ok buckets ∧
      IsTop s.size.toNat (t.pairs (t.rows.filter (t.selects b)) s.column) buckets := by
  obtain ⟨rows, hrows, hperm⟩ := hanswers (.terms rf.table b.1 s.column) b.2 rfl
  have hanswer : Forall₂ (fun vals bucket => readTerms vals = .ok bucket)
      (t.answer b.2 (.terms rf.table b.1 s.column))
      (t.pairs (t.rows.filter (t.selects b)) s.column) := by
    rw [Table.answer, Table.pairs, forall₂_map_left_iff, forall₂_map_right_iff, forall₂_same]
    intro g _
    simp [readTerms, toInt64, toStringKey_cell, Table.bucket]
  obtain ⟨buckets, hread, hbuckets⟩ := perm_comp_forall₂ hperm hanswer
  have hrun := mapM_ok hread
  exact ⟨_, by simp [runTermsFacet, query, hrows, hrun, bind, Except.bind, Except.mapError],
    topN_isTop hsize hbuckets⟩

variable {lib : Library}

theorem scopeConditions_excluding {q : ListQuery} {cs : List (Condition Value)} (exclude : String)
    (h : scopeConditions lib q "" = .ok cs) : ∃ cs', scopeConditions lib q exclude = .ok cs' := by
  unfold scopeConditions filterConditions at h ⊢
  by_cases hblank : isBlank q.filter = true
  · simp [hblank, Except.map]
  · simp only [hblank] at h ⊢
    cases hparse : lib.parse q.filter with
    | error e => simp [hparse, Except.map] at h
    | ok root =>
      cases root with
      | none => simp [Except.map]
      | some root =>
        cases hroot : translate lib q.resource "" root with
        | error e => simp [hparse, hroot, Except.map] at h
        | ok c =>
          obtain ⟨c', hc'⟩ := translate_excluding exclude root hroot
          simp [hc', Except.map]

theorem activeFilterFields_ok {q : ListQuery} {cs : List (Condition Value)}
    (h : scopeConditions lib q "" = .ok cs) : ∃ active, activeFilterFields lib q.filter = .ok active := by
  unfold scopeConditions filterConditions at h
  unfold activeFilterFields
  by_cases hblank : isBlank q.filter = true
  · simp [hblank]
  · cases hparse : lib.parse q.filter with
    | error e => simp [hblank, hparse, Except.map] at h
    | ok root => cases root <;> simp [hblank]

/-- The rows that the list selects, the comparisons with `exclude` left out of its filter. -/
def Table.matching (lib : Library) (q : ListQuery) (exclude : String) : List R :=
  match scopeConditions lib q exclude with
  | .ok cs => t.rows.filter (t.satisfies cs)
  | .error _ => []

def FacetSpec.key (s : FacetSpec) : String := if s.name = "" then s.field else s.name

def FacetSpec.top (s : FacetSpec) : Int := if s.size ≤ 0 then defaultTermsSize else s.size

/-- The field whose comparisons the facet does without: its own, when the filter has it. -/
def FacetSpec.excludes (lib : Library) (filterStr : String) (s : FacetSpec) : String :=
  if ownScan ((activeFilterFields lib filterStr).toOption.getD []) s then s.field else ""

def FacetSpec.resolved (rf : ResourceFilter) (s : FacetSpec) : FacetSpec :=
  { s with column := (rf.facetable.lookup s.field).getD "", name := s.key, size := s.top }

theorem FacetSpec.top_pos (s : FacetSpec) : 0 < s.top := by
  unfold top defaultTermsSize
  split <;> omega

theorem resolveSpec_ok {rf : ResourceFilter} {s : FacetSpec} {column : String}
    (h : rf.facetable.lookup s.field = some column) : resolveSpec rf s = .ok (s.resolved rf) := by
  simp [resolveSpec, h, FacetSpec.resolved, FacetSpec.key, FacetSpec.top]

omit [DecidableEq V] in
theorem selects_scope {q : ListQuery} {exclude : String} {cs : List (Condition Value)}
    (h : scopeConditions lib q exclude = .ok cs) :
    t.rows.filter (t.selects (bound cs)) = t.matching lib q exclude := by
  simp [Table.matching, h, Semantics.selects_bound]

theorem excludingFacet_ok {querier : Querier} {q : ListQuery} {s : FacetSpec}
    {cs : List (Condition Value)} (hanswers : t.Answers q.resource.table querier)
    (hscope : scopeConditions lib q "" = .ok cs) (hsize : 0 < s.size) :
    ∃ r, excludingFacet lib querier q s = .ok r ∧ r.1 = s.name ∧
      IsTop s.size.toNat (t.pairs (t.matching lib q s.field) s.column) r.2 := by
  obtain ⟨cs', hcs'⟩ := scopeConditions_excluding s.field hscope
  obtain ⟨buckets, hrun, htop⟩ := runTermsFacet_ok t (b := bound cs') hanswers hsize
  rw [selects_scope t hcs'] at htop
  refine ⟨(s.name, buckets), ?_, rfl, htop⟩
  simp [excludingFacet, scopeFor, buildScopeConditions_eq, hcs', hrun, bind, Except.bind, Except.map,
    Except.mapError]

theorem lookup_of_mem {α β : Type} [DecidableEq α] {l : List (α × β)} (hnodup : (l.map Prod.fst).Nodup)
    {r : α × β} (h : r ∈ l) : l.lookup r.1 = some r.2 := by
  obtain ⟨before, after, rfl⟩ := append_of_mem h
  rw [map_append, map_cons] at hnodup
  refine lookup_eq_some_iff.mpr ⟨before, after, rfl, fun p hp => ?_⟩
  have hfresh := (nodup_middle.mp hnodup).notMem
  simp only [mem_append, not_or] at hfresh
  have hne : r.1 ≠ p.1 := fun heq => hfresh.1 (heq ▸ mem_map_of_mem hp)
  simpa using hne

theorem forall₂_map_eq {α β γ : Type} {P : α → β → Prop} {f : α → γ} {g : β → γ} {l : List α}
    {l' : List β} (h : Forall₂ P l l') (heq : ∀ a b, P a b → g b = f a) : l'.map g = l.map f := by
  induction h with
  | nil => rfl
  | cons hP _ ih => simp [heq _ _ hP, ih]

theorem exists_of_forall₂ {α β : Type} {P : α → β → Prop} {l : List α} {l' : List β}
    (h : Forall₂ P l l') {a : α} (ha : a ∈ l) : ∃ b ∈ l', P a b := by
  induction h with
  | nil => cases ha
  | cons hP _ ih =>
    rcases mem_cons.mp ha with rfl | ha
    · exact ⟨_, mem_cons_self, hP⟩
    · obtain ⟨b, hb, hP⟩ := ih ha
      exact ⟨b, mem_cons_of_mem _ hb, hP⟩

/- The specs with what they leave open filled in. -/
theorem computeFacets_resolved {querier : Querier} {q : ListQuery} {specs resolved : List FacetSpec}
    {cs : List (Condition Value)} {active : List String}
    (hanswers : t.Answers q.resource.table querier) (hcs : scopeConditions lib q "" = .ok cs)
    (hactive : activeFilterFields lib q.filter = .ok active) (hne : specs ≠ [])
    (hresolve : specs.mapM (resolveSpec q.resource) = .ok resolved)
    (hsizes : ∀ s ∈ resolved, 0 < s.size) (hnames : (resolved.map FacetSpec.name).Nodup)
    (hcolumns : (resolved.map FacetSpec.column).Nodup) :
    ∃ results, computeFacets lib querier q specs = .ok ((t.matching lib q "").length, results) ∧
      ∀ s ∈ resolved, ∃ buckets, results.lookup s.name = some buckets ∧
        IsTop s.size.toNat (t.pairs
          (t.matching lib q (if ownScan active s then s.field else "")) s.column) buckets := by
  let own := resolved.filter (ownScan active)
  let shared := resolved.filter fun s => !ownScan active s
  obtain ⟨results, hshared, hresults⟩ := runSharedFacets_ok t (bound cs) shared
    hanswers (hcolumns.sublist (filter_sublist.map _)) fun s hs => hsizes s (mem_filter.mp hs).1
  obtain ⟨owns, howns⟩ := exists_forall₂ (l := own) fun s hs =>
    excludingFacet_ok t hanswers hcs (hsizes s (mem_filter.mp hs).1)
  have hown := mapM_ok (howns.imp fun _ _ h => h.1)
  rw [selects_scope t hcs] at hshared hresults
  have hfst : (owns.map Prod.fst ++ results.map Prod.fst).Perm (resolved.map FacetSpec.name) := by
    rw [forall₂_map_eq howns fun _ _ h => h.2.1, forall₂_map_eq hresults fun _ _ h => h.1,
      ← map_append]
    exact (filter_append_perm (ownScan active) resolved).map _
  have hnodup : ((owns.reverse ++ results.reverse).map Prod.fst).Nodup := by
    rw [map_append, map_reverse, map_reverse]
    exact (((reverse_perm _).append (reverse_perm _)).trans hfst).nodup_iff.mpr hnames
  refine ⟨owns.reverse ++ results.reverse, ?_, fun s hs => ?_⟩
  · simp only [computeFacets, hne, if_false, hresolve, hactive, scopeFor, buildScopeConditions_eq, hcs,
      Except.map, Except.mapError, bind, Except.bind]
    simp only [shared] at hshared
    simp only [own] at hown
    simp only [hshared, hown]
  · cases hactive : ownScan active s with
    | true =>
      obtain ⟨r, hr, -, hname, htop⟩ := exists_of_forall₂ howns (mem_filter.mpr ⟨hs, hactive⟩)
      exact ⟨r.2, hname ▸ lookup_of_mem hnodup (by simp [hr]), htop⟩
    | false =>
      obtain ⟨r, hr, hname, htop⟩ := exists_of_forall₂ hresults
        (mem_filter.mpr ⟨hs, by simp [hactive]⟩)
      exact ⟨r.2, hname ▸ lookup_of_mem hnodup (by simp [hr]), htop⟩

/-- The total is the number of rows that the list selects, and each facet has the top of the pairs of
its column, without its own comparisons when the filter has any. -/
def Table.Counts (t : Table R V) (lib : Library) (querier : Querier) (q : ListQuery)
    (specs : List FacetSpec) : Prop :=
  ∃ results, computeFacets lib querier q specs = .ok ((t.matching lib q "").length, results) ∧
    ∀ s ∈ specs, ∃ column buckets, q.resource.facetable.lookup s.field = some column ∧
      results.lookup s.key = some buckets ∧
      IsTop s.top.toNat (t.pairs (t.matching lib q (s.excludes lib q.filter)) column) buckets

/-- Facets on distinct columns are counted, whatever the list asks for. -/
theorem computeFacets_counts (lib : Library) (t : Table R V) (querier : Querier) (q : ListQuery)
    (specs : List FacetSpec) (b : Bound) (hanswers : t.Answers q.resource.table querier)
    (hscope : buildScopeConditions lib q "" = .ok b) (hne : specs ≠ [])
    (hfacetable : ∀ s ∈ specs, (q.resource.facetable.lookup s.field).isSome)
    (hnames : (specs.map FacetSpec.key).Nodup)
    (hcolumns : (specs.map fun s => q.resource.facetable.lookup s.field).Nodup) :
    t.Counts lib querier q specs := by
  rw [buildScopeConditions_eq] at hscope
  obtain ⟨cs, hcs⟩ : ∃ cs, scopeConditions lib q "" = .ok cs := by
    cases h : scopeConditions lib q "" with
    | error e => simp [h, Except.map] at hscope
    | ok cs => exact ⟨cs, rfl⟩
  obtain ⟨active, hactive⟩ := activeFilterFields_ok hcs
  have hresolve : specs.mapM (resolveSpec q.resource) =
      .ok (specs.map (FacetSpec.resolved q.resource)) := by
    refine mapM_ok (forall₂_map_right_iff.mpr (forall₂_same.mpr fun s hs => ?_))
    obtain ⟨column, hcolumn⟩ := Option.isSome_iff_exists.mp (hfacetable s hs)
    exact resolveSpec_ok hcolumn
  have hdistinct : (specs.map fun s => (q.resource.facetable.lookup s.field).getD "").Nodup := by
    rw [Nodup, pairwise_map] at hcolumns ⊢
    refine hcolumns.imp_of_mem fun hs hs' hne heq => hne ?_
    obtain ⟨column, hcolumn⟩ := Option.isSome_iff_exists.mp (hfacetable _ hs)
    obtain ⟨column', hcolumn'⟩ := Option.isSome_iff_exists.mp (hfacetable _ hs')
    simp_all
  obtain ⟨results, hrun, hresults⟩ := computeFacets_resolved t hanswers hcs hactive hne hresolve
    (by simpa [FacetSpec.resolved] using fun s _ => s.top_pos)
    (by simpa [FacetSpec.resolved, Function.comp_def] using hnames)
    (by simpa [FacetSpec.resolved, Function.comp_def] using hdistinct)
  refine ⟨results, hrun, fun s hs => ?_⟩
  obtain ⟨column, hcolumn⟩ := Option.isSome_iff_exists.mp (hfacetable s hs)
  obtain ⟨buckets, hlookup, htop⟩ := hresults (s.resolved q.resource) (mem_map_of_mem hs)
  refine ⟨column, buckets, hcolumn, hlookup, ?_⟩
  simpa [FacetSpec.resolved, FacetSpec.excludes, hactive, hcolumn, ownScan, Except.toOption] using htop

end scans

/-! Connectors of the agents `a` and `b`. -/

def agents : Table String String where
  notDeleted _ := .yes
  predicate _ _ _ := .yes
  atom agent
    | .compare (.column c) .eq v => if c.text = "agent" then eq v (some (.string agent)) else .unknown
    | _ => .unknown
  afterId _ _ _ := .unknown
  afterRow _ _ _ _ _ := .unknown
  rows := ["a", "b"]
  column agent column := if column = "agent" then some agent else none
  text agent := agent

def agentsQuerier : Querier := fun q args => .ok (agents.answer args q)

def connectorList (rf : ResourceFilter) (filterStr : String) : ListQuery :=
  ⟨rf, [], filterStr, ⟨"", "", .string, false⟩, 10, none, false⟩

theorem agents_answers (name : String) : agents.Answers name agentsQuerier :=
  fun _ _ _ => ⟨_, rfl, .refl _⟩

def facetOn (field : String) : FacetSpec := ⟨field, "", true, 0, ""⟩

theorem computeFacets_counts_agents :
    agents.Counts (parsing "agent = \"a\"" agentEquals) agentsQuerier
      (connectorList connectorFilter "agent = \"a\"") [facetOn "agent", facetOn "space"] :=
  computeFacets_counts (parsing "agent = \"a\"" agentEquals) agents agentsQuerier
    (connectorList connectorFilter "agent = \"a\"") [facetOn "agent", facetOn "space"]
    ([.filter (.atom (.compare (.column agentColumn) .eq 1))], [.string "a"])
    (agents_answers _) (by decide) (by decide) (by decide) (by decide) (by decide)

/- Two facets on one column. -/
def twiceFacetable : ResourceFilter :=
  { connectorFilter with facetable := [("agent", "agent"), ("agents", "agent")] }

/-- Without a facet the total is zero, and of two facets on one column the second stays empty. -/
theorem computeFacets_not_counts :
    (¬ ∀ (lib : Library) (t : Table String String) (querier : Querier) (q : ListQuery)
      (specs : List FacetSpec) (b : Bound), t.Answers q.resource.table querier →
      buildScopeConditions lib q "" = .ok b →
      (∀ s ∈ specs, s.name = "" ∧ (q.resource.facetable.lookup s.field).isSome) →
      (specs.map FacetSpec.field).Nodup → t.Counts lib querier q specs) ∧
    ¬ ∀ (lib : Library) (t : Table String String) (querier : Querier) (q : ListQuery)
      (specs : List FacetSpec) (b : Bound), t.Answers q.resource.table querier →
      buildScopeConditions lib q "" = .ok b → specs ≠ [] →
      (∀ s ∈ specs, s.name = "" ∧ (q.resource.facetable.lookup s.field).isSome) →
      (specs.map FacetSpec.field).Nodup → t.Counts lib querier q specs := by
  constructor
  · intro h
    obtain ⟨results, hrun, -⟩ := h (parsing "" agentEquals) agents agentsQuerier
      (connectorList connectorFilter "") [] ([], []) (agents_answers _) rfl (by decide) (by decide)
    have htotal : (0 : Int) = ((agents.matching (parsing "" agentEquals)
      (connectorList connectorFilter "") "").length : Int) := congrArg Prod.fst (Except.ok.inj hrun)
    exact absurd htotal (by decide)
  · intro h
    obtain ⟨results, hrun, hfacets⟩ := h (parsing "" agentEquals) agents agentsQuerier
      (connectorList twiceFacetable "") [facetOn "agent", facetOn "agents"] ([], [])
      (agents_answers _) rfl (by decide) (by decide) (by decide)
    have hresults : [("agents", topN [] 50), ("agent", topN [⟨"a", 1⟩, ⟨"b", 1⟩, ⟨"a", 1⟩, ⟨"b", 1⟩] 50)]
        = results := congrArg Prod.snd (Except.ok.inj hrun)
    obtain ⟨column, buckets, hcolumn, hlookup, sorted, hperm, -, htake⟩ :=
      hfacets (facetOn "agents") (by simp)
    have hcolumn : "agent" = column := Option.some.inj hcolumn
    have hbuckets : topN [] 50 = buckets := by
      rw [← hresults] at hlookup
      exact Option.some.inj hlookup
    have hempty : buckets = [] := by simp [← hbuckets, topN]
    have hlen : sorted.length = 2 := by
      rw [hperm.length_eq, ← hcolumn]
      decide
    have htop : (facetOn "agents").top.toNat = 50 := by decide
    simp [hempty, htop] at htake
    simp [htake] at hlen

end Pivox.Filter
