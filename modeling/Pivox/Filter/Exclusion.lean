import Pivox.Filter.Translation

/-!
A facet on a field that is filtered on drops the comparisons with it. What is left is wider as
long as none of them stands below an odd number of NOTs, where dropping it narrows.
-/

namespace Pivox.Filter
open Sql

/-- The rows that satisfy the clause, given what its atoms come to on them. -/
def WhereClause.holds (wc : WhereClause) (startIdx : Nat) (truth : Atom (Option Value) → Truth) :
    Prop :=
  ∀ c, wc.sql = some c → (c.map fun k => wc.args[k - startIdx]?).eval truth = .yes

theorem holds_number {c : Clause Value} {startIdx : Nat} {truth : Atom (Option Value) → Truth} :
    (WhereClause.mk (some (c.number startIdx)) c.values).holds startIdx truth ↔
      (c.map some).eval truth = .yes := by
  simp [WhereClause.holds, Clause.map_number (fills_getElem c.values startIdx)]

/-- Whether the field is compared below an odd number of NOTs; `odd` for those already passed. -/
def negates (field : String) : Expr → Bool → Bool
  | .call f args, odd =>
    match f, args with
    | .and, [l, r] => negates field l odd || negates field r odd
    | .fuzzyAnd, [l, r] => negates field l odd || negates field r odd
    | .or, [l, r] => negates field l odd || negates field r odd
    | .not, [e] => negates field e !odd
    | .compare _, [lhs, _] => odd && isField field lhs
    | .has, [lhs, _] => odd && isField field lhs
    | _, _ => false
  | _, _ => false

/-- Whether the field is compared at all. -/
def compares (field : String) : Expr → Bool
  | .call f args =>
    match f, args with
    | .and, [l, r] => compares field l || compares field r
    | .fuzzyAnd, [l, r] => compares field l || compares field r
    | .or, [l, r] => compares field l || compares field r
    | .not, [e] => compares field e
    | .compare _, [lhs, _] => isField field lhs
    | .has, [lhs, _] => isField field lhs
    | _, _ => false
  | _ => false

/- `c` has become `c'`, below an odd number of NOTs or not. -/
def Widens (odd : Bool) (c c' : Clause Value) : Prop :=
  ∀ truth : Atom (Option Value) → Truth,
    if odd then (c'.map some).eval truth ≤ (c.map some).eval truth
    else (c.map some).eval truth ≤ (c'.map some).eval truth

theorem Widens.refl (odd : Bool) (c : Clause Value) : Widens odd c c := by
  intro truth
  split <;> exact Truth.le_refl _

theorem Widens.true (c : Clause Value) : Widens false c .true := fun _ => Truth.le_yes _

theorem Widens.and {odd : Bool} {l l' r r' : Clause Value} (hl : Widens odd l l')
    (hr : Widens odd r r') : Widens odd (.and l r) (.and l' r') := by
  intro truth
  have hl := hl truth
  have hr := hr truth
  cases odd with
  | false => exact Truth.and_le_and hl hr
  | true => exact Truth.and_le_and hl hr

theorem Widens.or {odd : Bool} {l l' r r' : Clause Value} (hl : Widens odd l l')
    (hr : Widens odd r r') : Widens odd (.or l r) (.or l' r') := by
  intro truth
  have hl := hl truth
  have hr := hr truth
  cases odd with
  | false => exact Truth.or_le_or hl hr
  | true => exact Truth.or_le_or hl hr

theorem Widens.not {odd : Bool} {e e' : Clause Value} (h : Widens (!odd) e e') :
    Widens odd (.not e) (.not e') := by
  intro truth
  have h := h truth
  cases odd with
  | false => exact Truth.not_le_not h
  | true => exact Truth.not_le_not h

section exclusion
variable {lib : Library} {rf : ResourceFilter} {field : String}

@[simp] theorem isField_empty (e : Expr) : isField "" e = false := by
  cases e <;> rfl

theorem bind_ok {α β : Type} {r : Except String α} {f : α → Except String β} {b : β}
    (h : r.bind f = .ok b) : ∃ a, r = .ok a ∧ f a = .ok b := by
  cases r with
  | error e => cases h
  | ok a => exact ⟨a, rfl, h⟩

/- The same for AND and OR. -/
theorem binary_widens {l r l' r' : Except String (Clause Value)}
    {op : Clause Value → Clause Value → Clause Value} {odd : Bool} {c : Clause Value}
    (hop : ∀ cl cl' cr cr', Widens odd cl cl' → Widens odd cr cr' →
      Widens odd (op cl cr) (op cl' cr'))
    (h : l.bind (fun cl => r.bind fun cr => .ok (op cl cr)) = .ok c)
    (hl : ∀ cl, l = .ok cl → ∃ cl', l' = .ok cl' ∧ Widens odd cl cl')
    (hr : ∀ cr, r = .ok cr → ∃ cr', r' = .ok cr' ∧ Widens odd cr cr') :
    ∃ c', l'.bind (fun cl => r'.bind fun cr => .ok (op cl cr)) = .ok c' ∧ Widens odd c c' := by
  obtain ⟨cl, hcl, h⟩ := bind_ok h
  obtain ⟨cr, hcr, h⟩ := bind_ok h
  obtain ⟨cl', hcl', hwl⟩ := hl cl hcl
  obtain ⟨cr', hcr', hwr⟩ := hr cr hcr
  have hc : op cl cr = c := Except.ok.inj h
  exact ⟨op cl' cr', by rw [hcl', hcr']; rfl, hc ▸ hop _ _ _ _ hwl hwr⟩

/-- A comparison is dropped, or is what it was. -/
theorem dropped_widens {r r' : Except String (Clause Value)} {lhs : Expr} {odd : Bool}
    {c : Clause Value} (h : r = .ok c) (hodd : (odd && isField field lhs) = false)
    (hdrop : isField field lhs = true → r' = .ok .true)
    (hkeep : isField field lhs = false → r' = r) : ∃ c', r' = .ok c' ∧ Widens odd c c' := by
  cases hfield : isField field lhs with
  | true =>
    have heven : odd = false := by simpa [hfield] using hodd
    exact ⟨.true, hdrop hfield, heven ▸ Widens.true c⟩
  | false => exact ⟨c, (hkeep hfield).trans h, Widens.refl odd c⟩

/-- Where no comparison with the field is negated, the filter without them is wider. -/
theorem translate_widens (e : Expr) {odd : Bool} {c : Clause Value}
    (h : translate lib rf "" e = .ok c) (hpos : negates field e odd = false) :
    ∃ c', translate lib rf field e = .ok c' ∧ Widens odd c c' := by
  induction e using transpileExpr.induct generalizing odd c with
  | case1 l r ihl ihr =>
    simp only [negates, Bool.or_eq_false_iff] at hpos
    exact binary_widens (fun _ _ _ _ => Widens.and) h (fun _ hl => ihl hl hpos.1)
      fun _ hr => ihr hr hpos.2
  | case2 l r ihl ihr =>
    simp only [negates, Bool.or_eq_false_iff] at hpos
    exact binary_widens (fun _ _ _ _ => Widens.and) h (fun _ hl => ihl hl hpos.1)
      fun _ hr => ihr hr hpos.2
  | case3 l r ihl ihr =>
    simp only [negates, Bool.or_eq_false_iff] at hpos
    exact binary_widens (fun _ _ _ _ => Widens.or) h (fun _ hl => ihl hl hpos.1)
      fun _ hr => ihr hr hpos.2
  | case4 e ih =>
    simp only [translate, except_bind] at h
    obtain ⟨ce, hce, h⟩ := bind_ok h
    have heven : negates field e (!odd) = false := by simpa only [negates] using hpos
    obtain ⟨ce', hce', hw⟩ := ih hce heven
    have hc : .not ce = c := Except.ok.inj h
    exact ⟨.not ce', by simp [translate, hce'], hc ▸ hw.not⟩
  | case5 op lhs rhs =>
    exact dropped_widens h hpos (fun hf => by simp [translate, comparisonOf, hf])
      fun hf => by simp [translate, comparisonOf, hf]
  | case6 lhs rhs =>
    exact dropped_widens h hpos (fun hf => by simp [translate, hasOf, hf])
      fun hf => by simp [translate, hasOf, hf]
  | _ =>
    refine ⟨c, .trans ?_ h, Widens.refl odd c⟩
    simp [translate]

/- Leaving out comparisons leaves nothing that could not be transpiled before. -/
theorem translate_excluding (field : String) (e : Expr) {c : Clause Value}
    (h : translate lib rf "" e = .ok c) : ∃ c', translate lib rf field e = .ok c' := by
  induction e using transpileExpr.induct generalizing c with
  | case1 l r ihl ihr | case2 l r ihl ihr | case3 l r ihl ihr =>
    obtain ⟨cl, hcl, h⟩ := bind_ok h
    obtain ⟨cr, hcr, -⟩ := bind_ok h
    obtain ⟨cl', hcl'⟩ := ihl hcl
    obtain ⟨cr', hcr'⟩ := ihr hcr
    simp [translate, hcl', hcr']
  | case4 e ih =>
    obtain ⟨ce, hce, -⟩ := bind_ok h
    obtain ⟨ce', hce'⟩ := ih hce
    simp [translate, hce']
  | case5 op lhs rhs =>
    by_cases hf : isField field lhs = true
    · exact ⟨.true, by simp [translate, comparisonOf, hf]⟩
    · exact ⟨c, by simpa [translate, comparisonOf, hf] using h⟩
  | case6 lhs rhs =>
    by_cases hf : isField field lhs = true
    · exact ⟨.true, by simp [translate, hasOf, hf]⟩
    · exact ⟨c, by simpa [translate, hasOf, hf] using h⟩
  | _ =>
    refine ⟨c, .trans ?_ h⟩
    simp [translate]

/-- Where the field is not compared, nothing changes. -/
theorem translate_compares (e : Expr) (h : compares field e = false) :
    translate lib rf field e = translate lib rf "" e := by
  induction e using transpileExpr.induct with
  | case1 l r ihl ihr | case2 l r ihl ihr | case3 l r ihl ihr =>
    simp only [compares, Bool.or_eq_false_iff] at h
    simp only [translate, ihl h.1, ihr h.2]
  | case4 e ih =>
    simp only [compares] at h
    simp only [translate, ih h]
  | case5 op lhs rhs =>
    simp only [compares] at h
    simp [translate, comparisonOf, h]
  | case6 lhs rhs =>
    simp only [compares] at h
    simp [translate, hasOf, h]
  | _ => simp [translate]

/- What the parser makes of a filter. -/
def Parses (lib : Library) (filterStr : String) (P : Expr → Prop) : Prop :=
  ∀ root, lib.parse filterStr = .ok (some root) → P root

theorem transpile_cases {filterStr : String} {startIdx : Nat} {wc : WhereClause}
    (h : transpile lib rf filterStr startIdx = .ok wc) :
    ((filterStr = "" ∨ lib.parse filterStr = .ok none) ∧ wc = ⟨none, []⟩ ∧
      ∀ field, transpileExcluding lib rf filterStr startIdx field = .ok wc) ∨
    ∃ root c, filterStr ≠ "" ∧ lib.parse filterStr = .ok (some root) ∧
      translate lib rf "" root = .ok c ∧ wc = ⟨some (c.number startIdx), c.values⟩ := by
  by_cases hne : filterStr = ""
  · have hwc : wc = ⟨none, []⟩ := by simpa [transpile, transpileExcluding, hne] using h.symm
    exact .inl ⟨.inl hne, hwc, fun field => by simp [transpileExcluding, hne, hwc]⟩
  · cases hparse : lib.parse filterStr with
    | error e => simp [transpile, transpileExcluding, hne, hparse] at h
    | ok root =>
      cases root with
      | none =>
        have hwc : wc = ⟨none, []⟩ := by
          simpa [transpile, transpileExcluding, hne, hparse] using h.symm
        exact .inl ⟨.inr rfl, hwc, fun field => by simp [transpileExcluding, hne, hparse, hwc]⟩
      | some root =>
        rw [transpile, transpileExcluding_root rf startIdx "" hne hparse] at h
        cases hc : translate lib rf "" root with
        | error e => simp [hc] at h
        | ok c => exact .inr ⟨root, c, hne, rfl, hc, by simpa [hc] using h.symm⟩

/-- Dropping the comparisons with a field that is never negated only widens an accepted filter, and
changes nothing when the field is not compared. -/
theorem excluding_widens (lib : Library) (rf : ResourceFilter) (filterStr field : String)
    (startIdx : Nat) (wc : WhereClause) (h : transpile lib rf filterStr startIdx = .ok wc)
    (hpos : Parses lib filterStr fun root => negates field root false = false) :
    ∃ wc', transpileExcluding lib rf filterStr startIdx field = .ok wc' ∧
      (∀ truth, wc.holds startIdx truth → wc'.holds startIdx truth) ∧
      (Parses lib filterStr (fun root => compares field root = false) → wc' = wc) := by
  rcases transpile_cases h with ⟨-, -, hsame⟩ | ⟨root, c, hne, hparse, hc, rfl⟩
  · exact ⟨wc, hsame field, fun _ hw => hw, fun _ => rfl⟩
  · obtain ⟨c', hc', hw⟩ := translate_widens root hc (hpos root hparse)
    refine ⟨_, by rw [transpileExcluding_root rf startIdx field hne hparse, hc']; rfl, ?_, ?_⟩
    · intro truth hholds
      exact holds_number.mpr (Truth.yes_of_le (hw truth) (holds_number.mp hholds))
    · intro hcompares
      have hsame : translate lib rf field root = translate lib rf "" root :=
        translate_compares root (hcompares root hparse)
      rw [hc, hc'] at hsame
      rw [Except.ok.inj hsame]

end exclusion

/-! Connectors by agent: a filter that leaves out those of one agent, and a facet that then has none. -/

def agentColumn : Column := ⟨"agent", .string⟩

def agentEquals : Expr := .call (.compare .eq) [.ident "agent", .const (.string "a")]

def notAgent : Expr := .call .not [agentEquals]

/- A parser of one filter. -/
def parsing (filterStr : String) (root : Expr) : Library where
  parse s := if s = filterStr then .ok (some root) else .error "syntax error"
  parseRFC3339 _ := .error "parsing time"
  sprintDouble _ := ""
  sprintTime _ := ""

/- A row of agent `b`. -/
def truthOfB : Atom (Option Value) → Truth
  | .compare (.column c) .eq v => if c.text = "agent" then eq v (some (.string "b")) else .unknown
  | _ => .unknown

theorem excluding_widens_agent :
    (∃ wc', transpileExcluding (parsing "agent = \"a\"" agentEquals) connectorFilter
        "agent = \"a\"" 1 "agent" = .ok wc' ∧
      ∀ truth, (WhereClause.mk (some (.atom (.compare (.column agentColumn) .eq 1)))
        [.string "a"]).holds 1 truth → wc'.holds 1 truth) ∧
    transpileExcluding (parsing "agent = \"a\"" agentEquals) connectorFilter
      "agent = \"a\"" 1 "space" =
        .ok ⟨some (.atom (.compare (.column agentColumn) .eq 1)), [.string "a"]⟩ := by
  have hexcluding (field : String) (hpos : negates field agentEquals false = false) :=
    excluding_widens (parsing "agent = \"a\"" agentEquals) connectorFilter "agent = \"a\"" field 1
      ⟨some (.atom (.compare (.column agentColumn) .eq 1)), [.string "a"]⟩ (by decide)
      (fun root h => by cases h; exact hpos)
  obtain ⟨wide, hwide, hwidens, -⟩ := hexcluding "agent" (by decide)
  obtain ⟨same, hsame, -, hequal⟩ := hexcluding "space" (by decide)
  have hspace : Parses (parsing "agent = \"a\"" agentEquals) "agent = \"a\""
      fun root => compares "space" root = false := by
    intro root hroot
    cases hroot
    decide
  exact ⟨⟨wide, hwide, hwidens⟩, by rw [hsame, hequal hspace]⟩

/-- `NOT agent = "a"` holds of a row of agent `b`, and nothing of `NOT TRUE`. -/
theorem excluding_narrows_not_agent :
    ¬ ∀ (lib : Library) (rf : ResourceFilter) (filterStr field : String) (startIdx : Nat)
      (wc : WhereClause), transpile lib rf filterStr startIdx = .ok wc →
      ∃ wc', transpileExcluding lib rf filterStr startIdx field = .ok wc' ∧
        ∀ truth, wc.holds startIdx truth → wc'.holds startIdx truth := by
  intro h
  obtain ⟨wc', hwc', hholds⟩ := h (parsing "NOT agent = \"a\"" notAgent) connectorFilter
    "NOT agent = \"a\"" "agent" 1 ⟨some (.not (.atom (.compare (.column agentColumn) .eq 1))),
      [.string "a"]⟩ (by decide)
  have heq : wc' = ⟨some (.not .true), []⟩ := (Except.ok.inj hwc').symm
  subst heq
  have hfalse := hholds truthOfB (fun c hc => by cases hc; decide) _ rfl
  exact absurd hfalse (by decide)

end Pivox.Filter
