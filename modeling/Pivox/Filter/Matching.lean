import Pivox.Filter.Exclusion
import Pivox.Sql.Like

/-!
What the comparisons, wildcards and searches of a filter say of the values of a row.
-/

namespace Pivox.Filter
open Sql

/- How the database compares two values; texts are equal when they are the same. -/
structure Comparing where
  order : Value → Value → Ordering
  string : ∀ s s', order (.string s) (.string s') = .eq ↔ s = s'
  fold : CaseFold
  hasKey : Value → Value → Bool

/- The columns of a row and what is taken out of them; NULL is `none`. -/
abbrev Row := Operand (Option Value) → Option Value

def Comparison.holds : Comparison → Ordering → Bool
  | .eq, o => o = .eq
  | .ne, o => o ≠ .eq
  | .lt, o => o = .lt
  | .le, o => o ≠ .gt
  | .gt, o => o = .gt
  | .ge, o => o ≠ .lt

def boolTruth : Option Value → Truth
  | some (.bool b) => .ofBool b
  | _ => .unknown

/- A backslash is the escape character also without ESCAPE. -/
def ilikeTruth (f : CaseFold) : Option Value → Option Value → Truth
  | some (.string s), some (.string p) =>
    match ilike f s.toList p.toList with
    | some b => .ofBool b
    | none => .unknown
  | _, _ => .unknown

def Comparing.truth (db : Comparing) (row : Row) : Atom (Option Value) → Truth
  | .operand x => boolTruth (row x)
  | .value v => boolTruth v
  | .compare x op v =>
    match row x, v with
    | some a, some b => .ofBool (op.holds (db.order a b))
    | _, _ => .unknown
  | .ilike x v _ => ilikeTruth db.fold (row x) v
  | .hasKey x v =>
    match row x, v with
    | some a, some b => .ofBool (db.hasKey a b)
    | _, _ => .unknown

/-- What a clause of the transpiler, with its values so far, comes to on a row. -/
def Comparing.evaluates (db : Comparing) (row : Row) (startIdx : Nat) (w : Clause Nat × List Value) :
    Truth :=
  (w.1.map fun k => w.2[k - startIdx]?).eval (db.truth row)

/-- The clause that is written is the one that the filter says. -/
theorem evaluates_written (db : Comparing) (row : Row) (t : Transpiler) (args : List Value)
    (c : Clause Value) :
    db.evaluates row t.startIdx (written t args c) = (c.map some).eval (db.truth row) := by
  have hfills : Fills (fun k => (args ++ c.values)[k - t.startIdx]?) some
      (t.startIdx + args.length) c.values := by
    apply List.ext_getElem?
    intro i
    have hplace : t.startIdx + args.length + i - t.startIdx = args.length + i := by
      omega
    rcases Nat.lt_or_ge i c.values.length with h | h
    · simp [h, hplace]
    · simp [h]
  rw [Comparing.evaluates, written, Clause.map_number hfills]

variable {lib : Library} {t : Transpiler} {args : List Value} {db : Comparing} {row : Row}

/-! Wildcards -/

theorem toList_likeLiteralEscaper (s : String) : (likeLiteralEscaper s).toList =
    s.toList.flatMap fun c => if isSpecial c = true then ['\\', c] else [c] := by
  rw [likeLiteralEscaper, String.toList_ofList]
  congr 1
  funext c
  simp [isSpecial, or_assoc]

theorem toList_wildcards (s : String) :
    (wildcards s).toList = s.toList.map fun c => if c = '*' then '%' else c := by
  rw [wildcards, String.toList_ofList]

/-- Escaped and then with its stars made wildcards, a text is the pattern of stars that it reads. -/
theorem likeTokens_wildcards (s : String) :
    likeTokens (wildcards (likeLiteralEscaper s)).toList = some (globTokens s.toList) := by
  rw [toList_wildcards, toList_likeLiteralEscaper]
  induction s.toList with
  | nil => rfl
  | cons c cs ih =>
    rw [List.flatMap_cons, List.map_append]
    cases hspecial : isSpecial c with
    | true =>
      have hstar : c ≠ '*' := by
        rintro rfl
        cases hspecial
      simp only [if_true, List.map_cons, List.map_nil, hstar, if_false, List.cons_append,
        List.nil_append]
      rw [if_neg (by decide), likeTokens_escaped, ih, globTokens, globTokens, List.map_cons,
        if_neg hstar]
      rfl
    | false =>
      simp only [Bool.false_eq_true, if_false, List.map_cons, List.map_nil, List.cons_append,
        List.nil_append]
      by_cases hstar : c = '*'
      · subst hstar
        rw [if_pos rfl, likeTokens_any, ih]
        rfl
      · rw [if_neg hstar, likeTokens_char hspecial, ih, globTokens, globTokens, List.map_cons,
          if_neg hstar]
        rfl

theorem ilikeTruth_wildcards (f : CaseFold) (s operand : String) :
    ilikeTruth f (some (.string s)) (some (.string (wildcards (likeLiteralEscaper operand)))) =
      .ofBool (likeMatch (foldTokens f (globTokens operand.toList)) (s.toList.map f.fold)) := by
  have hilike : ilike f s.toList (wildcards (likeLiteralEscaper operand)).toList =
      some (likeMatch (foldTokens f (globTokens operand.toList)) (s.toList.map f.fold)) := by
    rw [ilike, likeTokens_map, likeTokens_wildcards]
    rfl
  simp only [ilikeTruth, hilike]

/- A comparison of a field that is not excluded, once field and value are resolved. -/
theorem transpileComparison_written {lhs rhs : Expr} {fm : Field Value} {value : Value}
    (op : Comparison) (args : List Value) (hown : isExcluded t lhs = false)
    (hfield : fieldOf t.filter lhs = .ok fm)
    (hvalue : resolveValue lib rhs = .ok value) :
    transpileComparison lib t lhs rhs op args = .ok (written t args
      (match wildcardPattern op fm.allowPartial value with
      | some pattern => .atom (.ilike fm.column (.string pattern) true)
      | none => .atom (.compare fm.column op value))) := by
  rw [isExcluded_eq] at hown
  rw [transpileComparison_eq, comparisonOf, hown, hfield, hvalue]
  simp only [Bool.false_eq_true, if_false, except_bind, ok_bind]
  cases wildcardPattern op fm.allowPartial value <;> rfl

theorem fieldOf_ident {rf : ResourceFilter} {name : String} {fm : FilterableField}
    (h : rf.filterable.lookup name = some fm) :
    fieldOf rf (.ident name) = .ok ⟨.column fm.sqlColumn, fm.type, fm.allowPartial, fm.jsonb⟩ := by
  simp only [fieldOf, h]

theorem truth_compare (db : Comparing) {x : Operand (Option Value)} {v : Value} (hrow : row x = some v)
    (op : Comparison) (value : Value) :
    db.truth row (.compare x op (some value)) = .ofBool (op.holds (db.order v value)) := by
  simp only [Comparing.truth, hrow]

/-- Equality on a field that allows partial matches: a pattern of stars, without a star the text
itself. -/
theorem equality_is_glob {name operand s : String} {fm : FilterableField} {rhs : Expr}
    (hfield : t.filter.filterable.lookup name = some fm) (hallowed : fm.allowPartial = true)
    (hown : isExcluded t (.ident name) = false) (hvalue : resolveValue lib rhs = .ok (.string operand))
    (hrow : row (.column fm.sqlColumn) = some (.string s)) :
    ∃ w, transpileComparison lib t (.ident name) rhs .eq args = .ok w ∧
      (db.evaluates row t.startIdx w = .yes ↔
        if '*' ∈ operand.toList then GlobMatches db.fold operand.toList s.toList else s = operand) := by
  refine ⟨_, transpileComparison_written .eq args hown (fieldOf_ident hfield) hvalue, ?_⟩
  rw [evaluates_written]
  by_cases hstar : '*' ∈ operand.toList
  · have hpattern : wildcardPattern .eq fm.allowPartial (.string operand) =
        some (wildcards (likeLiteralEscaper operand)) := by
      simp [wildcardPattern, hallowed, hstar]
    simp only [hpattern, if_pos hstar, Clause.map, Atom.map, Operand.map, Clause.eval, Comparing.truth,
      hrow, ilikeTruth_wildcards, Truth.ofBool_eq_yes, globMatches_iff]
  · have hliteral : wildcardPattern .eq fm.allowPartial (.string operand) = none := by
      simp [wildcardPattern, hstar]
    simp only [hliteral, if_neg hstar, Clause.map, Atom.map, Operand.map, Clause.eval,
      truth_compare db hrow, Truth.ofBool_eq_yes, Comparison.holds, decide_eq_true_eq, db.string]

theorem toLower_cases (c : Char) :
    c.toLower = c ∨ 97 ≤ c.toLower.toNat ∧ c.toLower.toNat ≤ 122 := by
  unfold Char.toLower
  split
  · rename_i h
    have hlow : 65 ≤ c.val.toNat := h.1
    have hhigh : c.val.toNat ≤ 90 := h.2
    have hval : (c.val + ('a'.val - 'A'.val)).toNat = c.val.toNat + 32 := by
      have hshift : ('a'.val - 'A'.val).toNat = 32 := by
        decide
      rw [UInt32.toNat_add]
      omega
    refine .inr ⟨?_, ?_⟩
    · show 97 ≤ (c.val + ('a'.val - 'A'.val)).toNat
      omega
    · show (c.val + ('a'.val - 'A'.val)).toNat ≤ 122
      omega
  · exact .inl rfl

/- The letters of ASCII. -/
def asciiFold : CaseFold where
  fold := Char.toLower
  special c hc := by
    simp only [isSpecial, Bool.or_eq_true, decide_eq_true_eq] at hc
    obtain (rfl | rfl) | rfl := hc <;> rfl
  plain c hc := by
    obtain h | ⟨hlow, hhigh⟩ := toLower_cases c
    · rw [h, hc]
    · generalize c.toLower = d at *
      simp only [isSpecial, Bool.or_eq_false_iff, decide_eq_false_iff_not]
      refine ⟨⟨?_, ?_⟩, ?_⟩ <;> rintro rfl <;> revert hlow hhigh <;> decide

/- A database that orders nothing but by equality. -/
def plainComparing : Comparing where
  order v v' := if v = v' then .eq else .lt
  string s s' := by simp
  fold := asciiFold
  hasKey _ _ := false

/- A row in which all is one text. -/
def rowOf (s : String) : Row := fun _ => some (.string s)

def displayName : FilterableField := ⟨"display_name", .string, true, false⟩

def connectors : Transpiler := ⟨connectorFilter, 1, ""⟩

theorem equality_is_glob_backslash :
    ∃ w, transpileComparison (parsing "" (.other "")) connectors (.ident "displayName")
        (.const (.string "a\\*%")) .eq [] = .ok w ∧
      plainComparing.evaluates (rowOf "A\\bc%") 1 w = .yes := by
  have hfield : connectors.filter.filterable.lookup "displayName" = some displayName := rfl
  obtain ⟨w, hw, hiff⟩ : ∃ w, transpileComparison (parsing "" (.other "")) connectors
      (.ident "displayName") (.const (.string "a\\*%")) .eq [] = .ok w ∧
        (plainComparing.evaluates (rowOf "A\\bc%") 1 w = .yes ↔ _) :=
    equality_is_glob hfield rfl rfl rfl rfl
  refine ⟨w, hw, hiff.mpr ?_⟩
  rw [if_pos (by decide)]
  exact .char (by decide) rfl (.char (by decide) rfl (.star ['b', 'c'] (.char (by decide) rfl .nil)))

/-! Substrings -/

theorem toList_containing (s : String) : (containing s).toList = '%' :: s.toList ++ ['%'] := by
  rw [containing, String.toList_append, String.toList_append]
  rfl

theorem ilikeTruth_containing (f : CaseFold) {operand : String} (h : Plain operand.toList)
    (s : String) : ilikeTruth f (some (.string s)) (some (.string (containing operand))) = .yes ↔
      ContainsFolded f s.toList operand.toList := by
  simp only [ilikeTruth, toList_containing, ilike_containing h, Truth.ofBool_eq_yes,
    decide_eq_true_eq]

/-- An operand with a special character finds a text that it is no part of. -/
theorem exists_ilikeTruth_containing (f : CaseFold) {operand : String} (h : ¬ Plain operand.toList) :
    ∃ s : String, ilikeTruth f (some (.string s)) (some (.string (containing operand))) = .yes ∧
      ¬ ContainsFolded f s.toList operand.toList := by
  obtain ⟨text, hmatch, hcontains⟩ := exists_not_containing (f := f) h
  refine ⟨.ofList text, ?_, ?_⟩
  · simp only [ilikeTruth, toList_containing, String.toList_ofList, hmatch]
    rfl
  · rwa [String.toList_ofList]

/-- `field:operand` looks for the operand in the text of the field. -/
def FieldLiteral (lib : Library) (db : Comparing) (operand : String) : Prop :=
  ∀ (t : Transpiler) (args : List Value) (row : Row) (name : String) (fm : FilterableField)
    (rhs : Expr) (s : String), t.filter.filterable.lookup name = some fm → fm.jsonb = false →
    isExcluded t (.ident name) = false → resolveValue lib rhs = .ok (.string operand) →
    row (.column fm.sqlColumn) = some (.string s) →
    ∃ w, transpileHas lib t (.ident name) rhs args = .ok w ∧
      (db.evaluates row t.startIdx w = .yes ↔ ContainsFolded db.fold s.toList operand.toList)

/-- `labels.key:operand` looks for it in what the map has at the key. -/
def KeyLiteral (lib : Library) (db : Comparing) (operand : String) : Prop :=
  ∀ (t : Transpiler) (args : List Value) (row : Row) (name key : String) (fm : FilterableField)
    (rhs : Expr) (s : String), t.filter.filterable.lookup name = some fm → fm.jsonb = true →
    jsonbKeyPattern key = true → resolveValue lib rhs = .ok (.string operand) →
    row (.jsonText (.column fm.sqlColumn) (some (.string key))) = some (.string s) →
    ∃ w, transpileHas lib t (.select (.ident name) key) rhs args = .ok w ∧
      (db.evaluates row t.startIdx w = .yes ↔ ContainsFolded db.fold s.toList operand.toList)

/- The columns of the default fields that are fields. -/
def defaultColumns (rf : ResourceFilter) : List Column :=
  rf.defaultFields.filterMap fun name => (rf.filterable.lookup name).map FilterableField.sqlColumn

/-- A bare literal is looked for in each of the default fields. -/
def BareLiteral (db : Comparing) (operand : String) : Prop :=
  ∀ (t : Transpiler) (args : List Value) (row : Row), defaultColumns t.filter ≠ [] →
    ∃ w, expandBareLiteral t operand args = .ok w ∧
      (db.evaluates row t.startIdx w = .yes ↔ ∃ c ∈ defaultColumns t.filter, ∃ s,
        row (.column c) = some (.string s) ∧ ContainsFolded db.fold s.toList operand.toList)

theorem transpileHas_field {name operand : String} {fm : FilterableField} {rhs : Expr}
    (hfield : t.filter.filterable.lookup name = some fm) (hjsonb : fm.jsonb = false)
    (hown : isExcluded t (.ident name) = false)
    (hvalue : resolveValue lib rhs = .ok (.string operand)) :
    transpileHas lib t (.ident name) rhs args = .ok (written t args
      (.atom (.ilike (.column fm.sqlColumn) (.string (containing operand)) false))) := by
  rw [isExcluded_eq] at hown
  have hhas : hasOf lib t.filter t.exclude (.ident name) rhs =
      .ok (.atom (.ilike (.column fm.sqlColumn) (.string (containing operand)) false)) := by
    simp only [hasOf, hown, fieldOf_ident hfield, hvalue]
    simp [hjsonb, Library.sprint]
  rw [transpileHas_eq, hhas]
  rfl

theorem transpileHas_key {name key operand : String} {fm : FilterableField} {rhs : Expr}
    (hfield : t.filter.filterable.lookup name = some fm) (hjsonb : fm.jsonb = true)
    (hkey : jsonbKeyPattern key = true) (hvalue : resolveValue lib rhs = .ok (.string operand)) :
    transpileHas lib t (.select (.ident name) key) rhs args = .ok (written t args
      (.atom (.ilike (.jsonText (.column fm.sqlColumn) (.string key)) (.string (containing operand))
        false))) := by
  have hkeyOf : keyOf key = .ok (.string key) := by
    rw [keyOf, if_pos hkey]
  have hhas : hasOf lib t.filter t.exclude (.select (.ident name) key) rhs =
      .ok (.atom (.ilike (.jsonText (.column fm.sqlColumn) (.string key))
        (.string (containing operand)) false)) := by
    simp only [hasOf, isField, hasSelectOf, fieldOf_ident hfield, hvalue, hkeyOf]
    simp [hjsonb, Library.sprint]
  rw [transpileHas_eq, hhas]
  rfl

theorem expandBareLiteral_written {operand : String} (h : defaultColumns t.filter ≠ []) :
    expandBareLiteral t operand args = .ok (written t args (.search
      ((defaultColumns t.filter).map fun c => (c, .string (containing operand))))) := by
  have hfields : t.filter.defaultFields ≠ [] := by
    intro hnil
    exact h (by rw [defaultColumns, hnil, List.filterMap_nil])
  have hliteral : literalOf t.filter operand = .ok (.search
      ((defaultColumns t.filter).map fun c => (c, .string (containing operand)))) := by
    rw [literalOf, if_neg hfields]
    exact if_neg h
  rw [expandBareLiteral_eq, hliteral]
  rfl

theorem foldr_or_eq_yes (truths : List Truth) :
    truths.foldr Truth.or Truth.no = Truth.yes ↔ Truth.yes ∈ truths := by
  induction truths with
  | nil => simp
  | cons x truths ih =>
    have hsymm : Truth.yes = x ↔ x = .yes := eq_comm
    rw [List.foldr_cons, Truth.or_eq_yes, ih, List.mem_cons, hsymm]

theorem search_eq_yes {columns : List Column} {pattern : String} :
    ((Clause.search (columns.map fun c => (c, Value.string pattern))).map some).eval (db.truth row) =
        .yes ↔
      ∃ c ∈ columns, ilikeTruth db.fold (row (.column c)) (some (.string pattern)) = .yes := by
  simp only [Clause.map, List.map_map, Clause.eval, foldr_or_eq_yes, List.mem_map]
  constructor
  · rintro ⟨c, hc, h⟩
    exact ⟨c, hc, h⟩
  · rintro ⟨c, hc, h⟩
    exact ⟨c, hc, h⟩

theorem exists_text_of_ilikeTruth {f : CaseFold} {v p : Option Value} (h : ilikeTruth f v p = .yes) :
    ∃ s, v = some (.string s) := by
  unfold ilikeTruth at h
  split at h
  · exact ⟨_, rfl⟩
  · cases h

theorem fieldLiteral_iff (lib : Library) (db : Comparing) (operand : String) :
    FieldLiteral lib db operand ↔ Plain operand.toList := by
  constructor
  · intro h
    by_contra hplain
    obtain ⟨s, hyes, hcontains⟩ := exists_ilikeTruth_containing db.fold hplain
    obtain ⟨w, hw, hiff⟩ := h connectors [] (rowOf s) "displayName" displayName
      (.const (.string operand)) s rfl rfl rfl rfl rfl
    have hfield : connectors.filter.filterable.lookup "displayName" = some displayName := rfl
    rw [transpileHas_field hfield rfl rfl rfl] at hw
    obtain rfl := Except.ok.inj hw
    rw [evaluates_written] at hiff
    exact hcontains (hiff.mp hyes)
  · intro hplain t args row name fm rhs s hfield hjsonb hown hvalue hrow
    refine ⟨_, transpileHas_field hfield hjsonb hown hvalue, ?_⟩
    rw [evaluates_written, ← ilikeTruth_containing db.fold hplain s]
    simp only [Clause.map, Atom.map, Operand.map, Clause.eval, Comparing.truth, hrow]

theorem keyLiteral_iff (lib : Library) (db : Comparing) (operand : String) :
    KeyLiteral lib db operand ↔ Plain operand.toList := by
  constructor
  · intro h
    by_contra hplain
    obtain ⟨s, hyes, hcontains⟩ := exists_ilikeTruth_containing db.fold hplain
    obtain ⟨w, hw, hiff⟩ := h connectors [] (rowOf s) "annotations" "k"
      ⟨"annotations", .map, false, true⟩ (.const (.string operand)) s rfl rfl (by decide) rfl rfl
    have hfield : connectors.filter.filterable.lookup "annotations" =
        some ⟨"annotations", .map, false, true⟩ := rfl
    rw [transpileHas_key hfield rfl (by decide) rfl] at hw
    obtain rfl := Except.ok.inj hw
    rw [evaluates_written] at hiff
    exact hcontains (hiff.mp hyes)
  · intro hplain t args row name key fm rhs s hfield hjsonb hkey hvalue hrow
    refine ⟨_, transpileHas_key hfield hjsonb hkey hvalue, ?_⟩
    rw [evaluates_written, ← ilikeTruth_containing db.fold hplain s]
    simp only [Clause.map, Atom.map, Operand.map, Clause.eval, Comparing.truth, hrow]

theorem bareLiteral_iff (db : Comparing) (operand : String) :
    BareLiteral db operand ↔ Plain operand.toList := by
  constructor
  · intro h
    by_contra hplain
    obtain ⟨s, hyes, hcontains⟩ := exists_ilikeTruth_containing db.fold hplain
    have hcolumns : defaultColumns connectors.filter = [displayName.sqlColumn] := by
      decide
    obtain ⟨w, hw, hiff⟩ := h connectors [] (rowOf s) (by rw [hcolumns]; exact List.cons_ne_nil _ _)
    rw [expandBareLiteral_written (by rw [hcolumns]; exact List.cons_ne_nil _ _)] at hw
    obtain rfl := Except.ok.inj hw
    rw [evaluates_written, search_eq_yes, hcolumns] at hiff
    obtain ⟨c, -, s', hs', hfound⟩ := hiff.mp ⟨_, List.mem_singleton_self _, hyes⟩
    have hsame : s = s' := by
      cases hs'
      rfl
    exact hcontains (hsame ▸ hfound)
  · intro hplain t args row hcolumns
    refine ⟨_, expandBareLiteral_written hcolumns, ?_⟩
    rw [evaluates_written, search_eq_yes]
    constructor
    · rintro ⟨c, hc, hyes⟩
      obtain ⟨s, hs⟩ := exists_text_of_ilikeTruth hyes
      rw [hs] at hyes
      exact ⟨c, hc, s, hs, (ilikeTruth_containing db.fold hplain s).mp hyes⟩
    · rintro ⟨c, hc, s, hs, hfound⟩
      exact ⟨c, hc, by rw [hs]; exact (ilikeTruth_containing db.fold hplain s).mpr hfound⟩

/-- Each of the three paths looks for the operand as it is if and only if none of its characters is
one of the pattern language. -/
theorem search_is_literal_iff (lib : Library) (db : Comparing) (operand : String) :
    (FieldLiteral lib db operand ∧ KeyLiteral lib db operand ∧ BareLiteral db operand ↔
      Plain operand.toList) ∧
    (FieldLiteral lib db operand ↔ Plain operand.toList) ∧
    (KeyLiteral lib db operand ↔ Plain operand.toList) ∧
    (BareLiteral db operand ↔ Plain operand.toList) := by
  refine ⟨?_, fieldLiteral_iff lib db operand, keyLiteral_iff lib db operand,
    bareLiteral_iff db operand⟩
  rw [fieldLiteral_iff, keyLiteral_iff, bareLiteral_iff, and_self, and_self]

/-- `displayName:"100%"` finds `100`. -/
theorem search_not_literal :
    ¬ ∀ operand, FieldLiteral (parsing "" (.other "")) plainComparing operand := by
  intro h
  obtain ⟨w, hw, hiff⟩ := h "100%" connectors [] (rowOf "100") "displayName" displayName
    (.const (.string "100%")) "100" rfl rfl rfl rfl rfl
  have hfield : connectors.filter.filterable.lookup "displayName" = some displayName := rfl
  rw [transpileHas_field hfield rfl rfl rfl] at hw
  obtain rfl := Except.ok.inj hw
  have hyes : plainComparing.evaluates (rowOf "100") 1 (written connectors []
      (.atom (.ilike (.column displayName.sqlColumn) (.string (containing "100%")) false))) =
      .yes := by
    decide
  have hcontains := hiff.mp hyes
  revert hcontains
  decide

/-! Inequality -/

/- The operand is a pattern of stars for `=`. -/
def IsWildcard (fm : Field Value) (operand : Value) : Prop :=
  fm.allowPartial = true ∧ ∃ s : String, operand = .string s ∧ '*' ∈ s.toList

theorem wildcardPattern_eq_none {fm : Field Value} {operand : Value} (h : ¬ IsWildcard fm operand) :
    wildcardPattern .eq fm.allowPartial operand = none := by
  cases operand with
  | string s =>
    have hnone : ¬ (fm.allowPartial = true ∧ '*' ∈ s.toList) := fun hand =>
      h ⟨hand.1, s, rfl, hand.2⟩
    simp [wildcardPattern, hnone]
  | _ => rfl

theorem wildcardPattern_ne (allowPartial : Bool) (operand : Value) :
    wildcardPattern .ne allowPartial operand = none := by
  cases operand <;> simp [wildcardPattern]

theorem not_ofBool (b : Bool) : (Truth.ofBool b).not = .ofBool (!b) := by
  cases b <;> rfl

theorem transpileNot_written (e : Expr) {c : Clause Value}
    (h : transpileExpr lib t e args = .ok (written t args c)) :
    transpileExpr lib t (.call .not [e]) args = .ok (written t args (.not c)) := by
  simp only [transpileExpr, bind_run, h]
  rfl

/-- `!=` holds of a value just where `=` does not, and is what NOT makes of it, but for an operand
with a star on a field that allows partial matches: `=` takes that for a pattern, and `!=` for the
text that it is. -/
theorem inequality_complements {lhs rhs : Expr} {fm : Field Value} {operand v : Value}
    (hown : isExcluded t lhs = false) (hfield : fieldOf t.filter lhs = .ok fm)
    (hvalue : resolveValue lib rhs = .ok operand) (hrow : row (fm.column.map some) = some v) :
    ∃ eq ne not, transpileExpr lib t (.call (.compare .eq) [lhs, rhs]) args = .ok eq ∧
      transpileExpr lib t (.call (.compare .ne) [lhs, rhs]) args = .ok ne ∧
      transpileExpr lib t (.call .not [.call (.compare .eq) [lhs, rhs]]) args = .ok not ∧
      (¬ IsWildcard fm operand →
        (db.evaluates row t.startIdx ne = .yes ↔ db.evaluates row t.startIdx eq ≠ .yes) ∧
          db.evaluates row t.startIdx ne = db.evaluates row t.startIdx not) ∧
      ∀ pattern s, IsWildcard fm operand → operand = .string pattern → v = .string s →
        (db.evaluates row t.startIdx ne = .yes ↔ s ≠ pattern) ∧
          (db.evaluates row t.startIdx not = .yes ↔ ¬ GlobMatches db.fold pattern.toList s.toList) := by
  have heq := transpileComparison_written .eq args hown hfield hvalue
  have hne := transpileComparison_written .ne args hown hfield hvalue
  simp only [wildcardPattern_ne] at hne
  have hnot := transpileNot_written (.call (.compare .eq) [lhs, rhs]) heq
  refine ⟨_, _, _, heq, hne, hnot, fun hliteral => ?_, ?_⟩
  · simp only [wildcardPattern_eq_none hliteral, evaluates_written, Clause.map, Atom.map, Clause.eval,
      truth_compare db hrow, not_ofBool, Truth.ofBool_eq_yes, Comparison.holds]
    simp
  · rintro pattern s ⟨hallowed, pattern', rfl, hstar⟩ heq' rfl
    obtain rfl : pattern' = pattern := Value.string.inj heq'
    have hpattern : wildcardPattern .eq fm.allowPartial (.string pattern') =
        some (wildcards (likeLiteralEscaper pattern')) := by
      simp [wildcardPattern, hallowed, hstar]
    have hglob : db.truth row (.ilike (fm.column.map some)
        (some (.string (wildcards (likeLiteralEscaper pattern')))) true) =
        .ofBool (likeMatch (foldTokens db.fold (globTokens pattern'.toList))
          (s.toList.map db.fold.fold)) := by
      simp only [Comparing.truth, hrow, ilikeTruth_wildcards]
    simp only [hpattern, evaluates_written, Clause.map, Atom.map, Clause.eval, truth_compare db hrow,
      hglob, not_ofBool, Truth.ofBool_eq_yes, Comparison.holds, decide_eq_true_eq, ne_eq, db.string,
      Bool.not_eq_true', ← globMatches_iff, true_and, Bool.not_eq_true]

def displayNameField : Field Value := ⟨.column displayName.sqlColumn, .string, true, false⟩

theorem inequality_complements_plain :
    ∃ eq ne not, transpileExpr (parsing "" (.other "")) connectors
        (.call (.compare .eq) [.ident "displayName", .const (.string "a")]) [] = .ok eq ∧
      transpileExpr (parsing "" (.other "")) connectors
        (.call (.compare .ne) [.ident "displayName", .const (.string "a")]) [] = .ok ne ∧
      transpileExpr (parsing "" (.other "")) connectors
        (.call .not [.call (.compare .eq) [.ident "displayName", .const (.string "a")]]) [] =
          .ok not ∧
      plainComparing.evaluates (rowOf "b") 1 eq = .no ∧
      plainComparing.evaluates (rowOf "b") 1 ne = .yes ∧
      plainComparing.evaluates (rowOf "b") 1 not = .yes := by
  have hfield : fieldOf connectors.filter (.ident "displayName") = .ok displayNameField := rfl
  have hrow : rowOf "b" (displayNameField.column.map some) = some (.string "b") := rfl
  have hliteral : ¬ IsWildcard displayNameField (.string "a") := by
    rintro ⟨-, s, hs, hstar⟩
    obtain rfl := Value.string.inj hs
    exact absurd hstar (by decide)
  obtain ⟨eq, ne, not, heq, hne, hnot, hcomplements, -⟩ :=
    @inequality_complements (parsing "" (.other "")) connectors [] plainComparing _ _
      (.const (.string "a")) _ _ _ rfl hfield rfl hrow
  have hno : plainComparing.evaluates (rowOf "b") 1 eq = .no := by
    cases heq
    decide
  have hyes : plainComparing.evaluates (rowOf "b") 1 ne = .yes :=
    (hcomplements hliteral).1.mpr fun h => absurd (hno.symm.trans h) (by decide)
  exact ⟨eq, ne, not, heq, hne, hnot, hno, hyes, (hcomplements hliteral).2.symm.trans hyes⟩

/-- `ab` satisfies both `displayName = "a*"` and `displayName != "a*"`. -/
theorem inequality_not_complement :
    ¬ ∀ (t : Transpiler) (row : Row) (lhs rhs : Expr) (eq ne : Clause Nat × List Value),
      transpileExpr (parsing "" (.other "")) t (.call (.compare .eq) [lhs, rhs]) [] = .ok eq →
      transpileExpr (parsing "" (.other "")) t (.call (.compare .ne) [lhs, rhs]) [] = .ok ne →
      (∀ x, row x ≠ none) →
      (plainComparing.evaluates row t.startIdx ne = .yes ↔
        plainComparing.evaluates row t.startIdx eq ≠ .yes) := by
  intro h
  have hown : isExcluded connectors (.ident "displayName") = false := rfl
  have hfield : fieldOf connectors.filter (.ident "displayName") = .ok displayNameField := rfl
  have hvalue : resolveValue (parsing "" (.other "")) (.const (.string "a*")) =
      .ok (.string "a*") := rfl
  have heq := transpileComparison_written .eq [] hown hfield hvalue
  have hne := transpileComparison_written .ne [] hown hfield hvalue
  have hiff := h connectors (rowOf "ab") _ _ _ _ heq hne (fun _ => Option.some_ne_none _)
  revert hiff
  decide

end Pivox.Filter
