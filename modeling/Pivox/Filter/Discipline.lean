import Pivox.Filter.Scope
import Pivox.Filter.Exclusion
import Pivox.Filter.Facets

/-!
Which placeholders a query has. Each clause has exactly those of its own arguments, numbered in the
order that they were appended, and what the operands say does not reach the text.
-/

namespace Pivox.Filter

/-- Clauses with the arguments that each of them bound, numbered from `n`. -/
def Own (n : Nat) : List (List Piece × List Value) → Prop
  | [] => True
  | (text, args) :: rest =>
    (∀ k, k ∈ placeholders text ↔ n ≤ k ∧ k < n + args.length) ∧ Own (n + args.length) rest

theorem own_append {n : Nat} {before after : List (List Piece × List Value)} :
    Own n (before ++ after) ↔ Own n before ∧ Own (n + (before.flatMap Prod.snd).length) after := by
  induction before generalizing n with
  | nil => simp [Own]
  | cons c before ih => simp [Own, ih, and_assoc, Nat.add_assoc]

/-- Every placeholder has its argument, and every argument a placeholder. -/
theorem own_placeholders {n : Nat} {clauses : List (List Piece × List Value)} (h : Own n clauses)
    (k : Nat) : (∃ c ∈ clauses, k ∈ placeholders c.1) ↔
      n ≤ k ∧ k < n + (clauses.flatMap Prod.snd).length := by
  induction clauses generalizing n with
  | nil =>
    simp only [List.not_mem_nil, false_and, exists_false, List.flatMap_nil, List.length_nil, false_iff]
    omega
  | cons c clauses ih =>
    obtain ⟨hc, hrest⟩ := h
    simp only [List.mem_cons, exists_eq_or_imp, hc, ih hrest, List.flatMap_cons, List.length_append]
    omega

theorem placeholders_predicateText (sql : List Fragment) (k k' : Nat) :
    k' ∈ placeholders (predicateText sql k) ↔ k' = k := by
  have hpieces : k' ∈ placeholders (sql.map (Fragment.piece k)) ↔ .arg ∈ sql ∧ k' = k := by
    induction sql with
    | nil => simp
    | cons f sql ih =>
      cases f with
      | text s => simpa [Fragment.piece] using ih
      | arg =>
        simp only [List.map_cons, Fragment.piece, placeholders_placeholder, List.mem_cons, ih]
        tauto
  unfold predicateText
  by_cases h : .arg ∈ sql
  · simp [h, hpieces]
  · simp [h, hpieces]

/-- The condition and its arguments. -/
def Condition.clause (n : Nat) (c : Condition Value) : List Piece × List Value :=
  ((c.number n).text, c.values)

theorem Condition.mem_placeholders (n k : Nat) (c : Condition Value) :
    k ∈ placeholders (c.clause n).1 ↔ n ≤ k ∧ k < n + c.values.length := by
  cases c with
  | notDeleted =>
    simp only [clause, number, text, values, placeholders_text, placeholders_nil, List.not_mem_nil,
      List.length_nil, false_iff]
    omega
  | predicate sql a =>
    simp only [clause, number, text, values, placeholders_predicateText, List.length_singleton]
    omega
  | filter c =>
    simp [clause, number, text, values, Clause.values_number, List.mem_range'_1]
  | afterId descending id =>
    simp only [clause, number, text, values, placeholders_text, placeholders_placeholder,
      placeholders_nil, List.mem_singleton, List.length_singleton]
    omega
  | afterRow column descending sortValue id =>
    simp only [clause, number, text, values, placeholders_text, placeholders_placeholder,
      placeholders_nil, List.mem_cons, List.not_mem_nil, or_false, List.length_cons, List.length_nil]
    omega

def clausesFrom (n : Nat) : List (Condition Value) → List (List Piece × List Value)
  | [] => []
  | c :: cs => c.clause n :: clausesFrom (n + c.values.length) cs

theorem own_clausesFrom (n : Nat) (cs : List (Condition Value)) : Own n (clausesFrom n cs) := by
  induction cs generalizing n with
  | nil => trivial
  | cons c cs ih => exact ⟨fun k => c.mem_placeholders n k, ih _⟩

theorem clausesFrom_texts (n : Nat) (cs : List (Condition Value)) :
    (clausesFrom n cs).map Prod.fst = (numberAll n cs).map Condition.text := by
  induction cs generalizing n with
  | nil => rfl
  | cons c cs ih => simp [clausesFrom, numberAll, Condition.clause, ih]

theorem clausesFrom_values (n : Nat) (cs : List (Condition Value)) :
    (clausesFrom n cs).flatMap Prod.snd = cs.flatMap Condition.values := by
  induction cs generalizing n with
  | nil => rfl
  | cons c cs ih => simp [clausesFrom, Condition.clause, ih]

/-- A text of clauses, with text around them that has no placeholders. -/
inductive Framed : List Piece → List (List Piece) → Prop where
  | nil : Framed [] []
  | text (s : String) {t : List Piece} {clauses : List (List Piece)} (h : Framed t clauses) :
    Framed (.text s :: t) clauses
  | clause (c : List Piece) {t : List Piece} {clauses : List (List Piece)} (h : Framed t clauses) :
    Framed (c ++ t) (c :: clauses)

theorem Framed.placeholders {text : List Piece} {clauses : List (List Piece)}
    (h : Framed text clauses) : placeholders text = clauses.flatMap Filter.placeholders := by
  induction h with
  | nil => rfl
  | text s _ ih => simpa using ih
  | clause c _ ih => simp [ih]

theorem Framed.texts {t : List Piece} {clauses : List (List Piece)} (texts : List String)
    (h : Framed t clauses) : Framed (texts.map Piece.text ++ t) clauses := by
  induction texts with
  | nil => exact h
  | cons s texts ih => exact .text s ih

theorem Framed.join {sep : String} {texts : List (List Piece)} {t : List Piece}
    {clauses : List (List Piece)} (h : Framed t clauses) :
    Framed (join sep texts ++ t) (texts ++ clauses) := by
  induction texts with
  | nil => exact h
  | cons c texts ih =>
    cases texts with
    | nil => exact .clause c h
    | cons c' texts =>
      have hrest := Framed.clause c (.text sep ih)
      simpa [Filter.join] using hrest

theorem Framed.whereText (conditions : List (Condition Nat)) {t : List Piece}
    {clauses : List (List Piece)} (h : Framed t clauses) :
    Framed (whereText conditions ++ t) (conditions.map Condition.text ++ clauses) := by
  unfold Filter.whereText
  split
  · rename_i hnil
    simpa [hnil] using h
  · exact .text " WHERE " (.join h)

/-- The text has its placeholders in the clauses, each clause those of the arguments it bound. -/
structure Disciplined (text : List Piece) (args : List Value)
    (clauses : List (List Piece × List Value)) : Prop where
  numbered : ∀ k, k ∈ placeholders text ↔ 1 ≤ k ∧ k ≤ args.length
  appended : args = clauses.flatMap Prod.snd
  framed : Framed text (clauses.map Prod.fst)
  own : Own 1 clauses

theorem disciplined {text : List Piece} {args : List Value}
    {clauses : List (List Piece × List Value)} (hargs : args = clauses.flatMap Prod.snd)
    (hframed : Framed text (clauses.map Prod.fst)) (hown : Own 1 clauses) :
    Disciplined text args clauses := by
  refine ⟨fun k => ?_, hargs, hframed, hown⟩
  have hk := own_placeholders hown k
  rw [hframed.placeholders, hargs]
  simp only [List.mem_flatMap, List.mem_map, exists_exists_and_eq_and, hk]
  omega

def limitClause (n : Nat) (pageSize : Int) : List Piece × List Value :=
  ([.placeholder n], [.int64 (listPageSize pageSize + 1)])

theorem list_disciplined (q : ListQuery) (cs : List (Condition Value)) :
    Disciplined (BuiltQuery.text ⟨q.resource.table, (bound cs).1, q.order, (bound cs).2.length + 1,
        (bound cs).2 ++ [Value.int64 (listPageSize q.pageSize + 1)]⟩)
      ((bound cs).2 ++ [Value.int64 (listPageSize q.pageSize + 1)])
      (clausesFrom 1 cs ++ [limitClause ((bound cs).2.length + 1) q.pageSize]) := by
  apply disciplined
  · simp [bound, clausesFrom_values, limitClause]
  · rw [List.map_append, clausesFrom_texts, BuiltQuery.text, List.append_assoc]
    exact .texts ["SELECT * FROM ", q.resource.table] (.whereText _
      (.texts [" ORDER BY ", orderClause q.order, " LIMIT "] (.clause [.placeholder _] .nil)))
  · rw [own_append, clausesFrom_values]
    refine ⟨own_clausesFrom 1 cs, fun k => ?_, trivial⟩
    simp only [placeholders_placeholder, placeholders_nil, List.mem_singleton, bound,
      List.length_singleton]
    omega

theorem framed_join (sep : String) (texts : List String) :
    Framed (join sep (texts.map fun s => [.text s])) [] := by
  induction texts with
  | nil => exact .nil
  | cons s texts ih =>
    cases texts with
    | nil => exact .text s .nil
    | cons s' texts => exact .text s (.text sep ih)

theorem Framed.append {s t : List Piece} {before after : List (List Piece)} (hs : Framed s before)
    (ht : Framed t after) : Framed (s ++ t) (before ++ after) := by
  induction hs with
  | nil => exact ht
  | text s _ ih => exact .text s ih
  | clause c _ ih => simpa using ih.clause c

theorem facet_disciplined (table column : String) (columns : List String)
    (cs : List (Condition Value)) :
    Disciplined (FacetQuery.shared table (bound cs).1 columns).text (bound cs).2 (clausesFrom 1 cs) ∧
      Disciplined (FacetQuery.terms table (bound cs).1 column).text (bound cs).2
        (clausesFrom 1 cs) := by
  have hargs : (bound cs).2 = (clausesFrom 1 cs).flatMap Prod.snd := (clausesFrom_values 1 cs).symm
  constructor
  · refine disciplined hargs ?_ (own_clausesFrom 1 cs)
    have hgroup : Framed (if columns = [] then []
        else [Piece.text " GROUP BY GROUPING SETS ("] ++
          join ", " (columns.map fun column => [.text ("(" ++ column ++ ")")]) ++
            [Piece.text ", ())"]) [] := by
      split
      · exact .nil
      · have hjoin := framed_join ", " (columns.map fun column => "(" ++ column ++ ")")
        rw [List.map_map] at hjoin
        exact .text _ (hjoin.append (.text ", ())" .nil))
    have hselect := Framed.texts (columns.zipIdx.map fun c => groupingColumn c.2 c.1)
      (.text (" FROM " ++ table) (.whereText (bound cs).1 hgroup))
    rw [clausesFrom_texts]
    simpa [FacetQuery.text, bound, Function.comp_def] using Framed.text "SELECT count(*) AS cnt" hselect
  · refine disciplined hargs ?_ (own_clausesFrom 1 cs)
    rw [clausesFrom_texts]
    have hgroup := Framed.whereText (bound cs).1
      (.text (" GROUP BY " ++ column) .nil)
    simpa [FacetQuery.text, bound] using
      Framed.text ("SELECT (" ++ column ++ ")::text AS v, count(*) AS cnt FROM " ++ table) hgroup

/-! What a filter says beside its operands and its keys. -/

def skeleton {A : Type} (c : Clause A) : Clause Unit := c.map fun _ => ()

section shapes
variable {A B : Type}

theorem Operand.number_map (f : A → B) (n : Nat) (x : Operand A) :
    (x.map f).number n = x.number n := by
  induction x with
  | column c => rfl
  | jsonText x key ih => simp [Operand.map, Operand.number, ih, Operand.values_map]

theorem Atom.number_map (f : A → B) (n : Nat) (a : Atom A) : (a.map f).number n = a.number n := by
  cases a <;> simp [Atom.map, Atom.number, Operand.number_map, Operand.values_map]

theorem Clause.number_map (f : A → B) (n : Nat) (c : Clause A) :
    (c.map f).number n = c.number n := by
  induction c generalizing n with
  | true => rfl
  | atom a => simp [Clause.map, Clause.number, Atom.number_map]
  | search clauses => simp [Clause.map, Clause.number, List.zipIdx_map, Function.comp_def]
  | and l r ihl ihr => simp [Clause.map, Clause.number, ihl, ihr, Clause.values_map]
  | or l r ihl ihr => simp [Clause.map, Clause.number, ihl, ihr, Clause.values_map]
  | not e ih => simp [Clause.map, Clause.number, ih]

/-- Clauses that differ in their values only have the same text. -/
theorem number_skeleton {c c' : Clause A} (h : skeleton c = skeleton c') (n : Nat) :
    c.number n = c'.number n := by
  rw [← Clause.number_map (fun _ => ()) n c, ← Clause.number_map (fun _ => ()) n c']
  exact congrArg _ h

theorem Condition.number_map (f : A → B) (n : Nat) (c : Condition A) :
    (c.map f).number n = c.number n := by
  cases c with
  | filter c => exact congrArg Condition.filter (Clause.number_map f n c)
  | _ => rfl

theorem Condition.values_map (f : A → B) (c : Condition A) : (c.map f).values = c.values.map f := by
  cases c with
  | filter c => exact Clause.values_map f c
  | _ => rfl

theorem numberAll_map (f : A → B) (n : Nat) (cs : List (Condition A)) :
    numberAll n (cs.map (Condition.map f)) = numberAll n cs := by
  induction cs generalizing n with
  | nil => rfl
  | cons c cs ih => simp [numberAll, ih, Condition.number_map, Condition.values_map]

end shapes

section erasing
variable (rf : ResourceFilter)

def allowsPartial : Expr → Bool
  | .ident name => (rf.filterable.lookup name).any FilterableField.allowPartial
  | _ => false

def hasStar : Expr → Bool
  | .const (.string s) => '*' ∈ s.toList
  | .ident name => '*' ∈ name.toList
  | _ => false

/- The operand of `=` where partial matches are allowed keeps its star. -/
def eraseOperand (op : Comparison) (lhs rhs : Expr) : Expr :=
  if op = .eq ∧ allowsPartial rf lhs = true ∧ hasStar rhs = true then .const (.string "*")
  else .const (.string "")

def eraseKeys : Expr → Expr
  | .select operand _ => .select (eraseKeys operand) "k"
  | e => e

/-- The filter with the same operand everywhere, and the same key. -/
def erase : Expr → Expr
  | .call f args =>
    match f, args with
    | .and, [l, r] => .call .and [erase l, erase r]
    | .fuzzyAnd, [l, r] => .call .fuzzyAnd [erase l, erase r]
    | .or, [l, r] => .call .or [erase l, erase r]
    | .not, [e] => .call .not [erase e]
    | .compare op, [lhs, rhs] => .call (.compare op) [eraseKeys lhs, eraseOperand rf op lhs rhs]
    | .has, [lhs, _] => .call .has [eraseKeys lhs, .const (.string "")]
    | .timestamp, [_] => .const (.int64 0)
    | f, args => .call f args
  | .ident name => if (rf.filterable.lookup name).isSome then .ident name else .const (.string "")
  | .const (.string _) => .const (.string "")
  | .const (.other typeName) => .const (.other typeName)
  | .const _ => .const (.int64 0)
  | .select operand _ => .select (eraseKeys operand) "k"
  | .other typeName => .other typeName

variable {lib : Library} {rf : ResourceFilter} {exclude : String}

@[simp] theorem isField_eraseKeys (e : Expr) : isField exclude (eraseKeys e) = isField exclude e := by
  cases e <;> rfl

theorem keyOf_k : keyOf "k" = .ok (.string "k") := by decide

def Field.skeleton (fm : Field Value) : Field Unit :=
  ⟨fm.column.map fun _ => (), fm.type, fm.allowPartial, fm.jsonb⟩

theorem fieldOf_eraseKeys : ∀ (e : Expr) {fm : Field Value}, fieldOf rf e = .ok fm →
    ∃ fm', fieldOf rf (eraseKeys e) = .ok fm' ∧ fm'.skeleton = fm.skeleton
  | .ident name, fm, h => ⟨fm, h, rfl⟩
  | .select operand field, fm, h => by
    obtain ⟨fmo, hfmo, h⟩ := bind_ok h
    obtain ⟨fmo', hfmo', hsk⟩ := fieldOf_eraseKeys operand hfmo
    have hjsonb : fmo'.jsonb = fmo.jsonb := 
      congrArg (fun fm : Field Unit => fm.jsonb) hsk
    have hcolumn : fmo'.column.map (fun _ => ()) = fmo.column.map fun _ => () :=
      congrArg (fun fm : Field Unit => fm.column) hsk
    cases hj : fmo.jsonb with
    | false => simp [hj] at h
    | true =>
      simp only [hj, if_true] at h
      obtain ⟨key, hkey, h⟩ := bind_ok h
      refine ⟨⟨.jsonText fmo'.column (.string "k"), .string, false, false⟩, ?_, ?_⟩
      · simp [eraseKeys, fieldOf, hfmo', hjsonb, hj, keyOf_k]
      · rw [← Except.ok.inj h]
        simp [Field.skeleton, Operand.map, hcolumn]
  | .call _ _, _, h => by cases h
  | .const _, _, h => by cases h
  | .other _, _, h => by cases h

theorem parseTimestamp_time {value ts : Value} (h : parseTimestamp lib value = .ok ts) :
    ∃ t, ts = .time t := by
  cases value with
  | string s =>
    simp only [parseTimestamp] at h
    cases hparse : lib.parseRFC3339 s with
    | error e => simp [hparse] at h
    | ok t => exact ⟨t, by simpa [hparse] using h.symm⟩
  | _ => cases h

/- A star makes a pattern of the operand of `=` where partial matches are allowed. -/
theorem wildcardPattern_isSome {op : Comparison} {allowPartial : Bool} {rhs : Expr} {value : Value}
    (h : resolveValue lib rhs = .ok value) :
    (wildcardPattern op allowPartial value).isSome ↔
      op = .eq ∧ allowPartial = true ∧ hasStar rhs = true := by
  have hstring (s : String) : (wildcardPattern op allowPartial (.string s)).isSome ↔
      op = .eq ∧ allowPartial = true ∧ '*' ∈ s.toList := by
    unfold wildcardPattern
    split <;> simp_all
  cases rhs with
  | const k =>
    cases k with
    | string s =>
      rw [← Except.ok.inj h]
      simpa [hasStar] using hstring s
    | other typeName => cases h
    | _ =>
      rw [← Except.ok.inj h]
      simp [wildcardPattern, hasStar]
  | ident name =>
    rw [← Except.ok.inj h]
    simpa [hasStar] using hstring name
  | call f args =>
    obtain ⟨t, rfl⟩ : ∃ t, value = .time t := by
      match f, args, h with
      | .timestamp, [arg], h =>
        simp only [resolveValue, except_bind] at h
        obtain ⟨arg', -, h⟩ := bind_ok h
        exact parseTimestamp_time h
    simp [wildcardPattern, hasStar]
  | select operand field => cases h
  | other typeName => cases h

theorem fieldOf_allowPartial {e : Expr} {fm : Field Value} (h : fieldOf rf e = .ok fm) :
    fm.allowPartial = allowsPartial rf e := by
  cases e with
  | ident name =>
    simp only [fieldOf] at h
    cases hname : rf.filterable.lookup name with
    | none => simp [hname] at h
    | some f =>
      simp only [hname] at h
      rw [← Except.ok.inj h]
      simp [allowsPartial, hname]
  | select operand field =>
    obtain ⟨fmo, -, h⟩ := bind_ok h
    cases hj : fmo.jsonb with
    | false => simp [hj] at h
    | true =>
      simp only [hj, if_true] at h
      obtain ⟨key, -, h⟩ := bind_ok h
      rw [← Except.ok.inj h]
      rfl
  | _ => cases h

theorem eraseOperand_value (lib : Library) (rf : ResourceFilter) (op : Comparison) (lhs rhs : Expr) :
    ∃ s,
    resolveValue lib (eraseOperand rf op lhs rhs) = .ok (.string s) ∧
      (hasStar (eraseOperand rf op lhs rhs) = true ↔
        op = .eq ∧ allowsPartial rf lhs = true ∧ hasStar rhs = true) := by
  unfold eraseOperand
  split
  · rename_i hstar
    exact ⟨"*", rfl, iff_of_true (by decide) hstar⟩
  · rename_i hstar
    exact ⟨"", rfl, iff_of_false (by decide) hstar⟩

theorem comparisonOf_erase {op : Comparison} {lhs rhs : Expr} {c : Clause Value}
    (h : comparisonOf lib rf exclude lhs rhs op = .ok c) :
    ∃ c', comparisonOf lib rf exclude (eraseKeys lhs) (eraseOperand rf op lhs rhs) op = .ok c' ∧
      skeleton c' = skeleton c := by
  unfold comparisonOf at h ⊢
  rw [isField_eraseKeys]
  cases hfield : isField exclude lhs with
  | true =>
    simp only [hfield, if_true] at h ⊢
    exact ⟨c, h, rfl⟩
  | false =>
    simp only [hfield, Bool.false_eq_true, if_false] at h ⊢
    obtain ⟨fm, hfm, h⟩ := bind_ok h
    obtain ⟨value, hvalue, h⟩ := bind_ok h
    obtain ⟨fm', hfm', hsk⟩ := fieldOf_eraseKeys lhs hfm
    obtain ⟨s, hs, hstar⟩ := eraseOperand_value lib rf op lhs rhs
    have hpartial : fm'.allowPartial = allowsPartial rf lhs :=
      (congrArg (fun fm : Field Unit => fm.allowPartial) hsk).trans (fieldOf_allowPartial hfm)
    have hsome : (wildcardPattern op fm'.allowPartial (.string s)).isSome =
        (wildcardPattern op fm.allowPartial value).isSome := by
      rw [Bool.eq_iff_iff, wildcardPattern_isSome hs, wildcardPattern_isSome hvalue, hstar, hpartial,
        fieldOf_allowPartial hfm]
      tauto
    have hcolumn : fm'.column.map (fun _ => ()) = fm.column.map fun _ => () :=
      congrArg (fun fm : Field Unit => fm.column) hsk
    simp only [hfm', hs, except_bind, ok_bind]
    cases hp : wildcardPattern op fm.allowPartial value with
    | none =>
      have hp' : wildcardPattern op fm'.allowPartial (.string s) = none := by simpa [hp] using hsome
      simp only [hp] at h
      simp only [hp']
      exact ⟨_, rfl, by simp [← Except.ok.inj h, skeleton, Clause.map, Atom.map, hcolumn]⟩
    | some pattern =>
      obtain ⟨pattern', hp'⟩ := Option.isSome_iff_exists.mp (hsome.trans (by rw [hp]; rfl))
      simp only [hp] at h
      simp only [hp']
      exact ⟨_, rfl, by simp [← Except.ok.inj h, skeleton, Clause.map, Atom.map, hcolumn]⟩

theorem hasSelectOf_erase {operand rhs : Expr} {field : String} {c : Clause Value}
    (h : hasSelectOf lib rf operand field rhs = .ok c) :
    ∃ c', hasSelectOf lib rf (eraseKeys operand) "k" (.const (.string "")) = .ok c' ∧
      skeleton c' = skeleton c := by
  obtain ⟨fm, hfm, h⟩ := bind_ok h
  obtain ⟨fm', hfm', hsk⟩ := fieldOf_eraseKeys operand hfm
  have hjsonb : fm'.jsonb = fm.jsonb := congrArg (fun fm : Field Unit => fm.jsonb) hsk
  have hcolumn := congrArg (fun fm : Field Unit => fm.column) hsk
  cases hj : fm.jsonb with
  | false => simp [hj] at h
  | true =>
    simp only [hj, if_true] at h
    obtain ⟨key, -, h⟩ := bind_ok h
    obtain ⟨value, -, h⟩ := bind_ok h
    simp only [hasSelectOf, hfm', except_bind, ok_bind, hjsonb, hj, if_true, keyOf_k, resolveValue,
      constToValue]
    refine ⟨_, rfl, ?_⟩
    rw [← Except.ok.inj h]
    simp only [skeleton, Clause.map, Atom.map, Operand.map]
    rw [show fm'.column.map (fun _ => ()) = fm.column.map fun _ => () from hcolumn]

theorem hasOf_erase {lhs rhs : Expr} {c : Clause Value}
    (h : hasOf lib rf exclude lhs rhs = .ok c) :
    ∃ c', hasOf lib rf exclude (eraseKeys lhs) (.const (.string "")) = .ok c' ∧
      skeleton c' = skeleton c := by
  unfold hasOf at h ⊢
  rw [isField_eraseKeys]
  cases hfield : isField exclude lhs with
  | true =>
    simp only [hfield, if_true] at h ⊢
    exact ⟨c, h, rfl⟩
  | false =>
    simp only [hfield, Bool.false_eq_true, if_false] at h ⊢
    cases lhs with
    | select operand field => exact hasSelectOf_erase h
    | ident name =>
      obtain ⟨fm, hfm, h⟩ := bind_ok h
      obtain ⟨value, -, h⟩ := bind_ok h
      simp only [eraseKeys, hfm, except_bind, ok_bind, resolveValue, constToValue]
      cases hj : fm.jsonb with
      | false =>
        simp only [hj, Bool.false_eq_true, if_false] at h ⊢
        exact ⟨_, rfl, by rw [← Except.ok.inj h]; rfl⟩
      | true =>
        simp only [hj, if_true] at h ⊢
        exact ⟨_, rfl, by rw [← Except.ok.inj h]; rfl⟩
    | _ => cases h

theorem literalOf_skeleton {s : String} {c : Clause Value} (h : literalOf rf s = .ok c)
    (s' : String) : ∃ c', literalOf rf s' = .ok c' ∧ skeleton c' = skeleton c := by
  unfold literalOf at h ⊢
  split at h
  · cases h
  · rename_i hfields
    simp only [hfields, if_false] at h ⊢
    split at h
    · cases h
    · rename_i hcolumns
      simp only [hcolumns, if_false]
      refine ⟨_, rfl, ?_⟩
      rw [← Except.ok.inj h]
      simp [skeleton, Clause.map]

theorem timestampOf_value {arg : Expr} {c : Clause Value} (h : timestampOf lib arg = .ok c) :
    ∃ v, c = .atom (.value v) := by
  obtain ⟨value, -, h⟩ := bind_ok h
  obtain ⟨ts, -, h⟩ := bind_ok h
  exact ⟨ts, (Except.ok.inj h).symm⟩

theorem selectOf_erase {operand : Expr} {field : String} {c : Clause Value}
    (h : selectOf rf operand field = .ok c) :
    ∃ c', selectOf rf (eraseKeys operand) "k" = .ok c' ∧ skeleton c' = skeleton c := by
  obtain ⟨fm, hfm, h⟩ := bind_ok h
  obtain ⟨fm', hfm', hsk⟩ := fieldOf_eraseKeys operand hfm
  have hjsonb : fm'.jsonb = fm.jsonb := congrArg (fun fm : Field Unit => fm.jsonb) hsk
  have hcolumn : fm'.column.map (fun _ => ()) = fm.column.map fun _ => () :=
    congrArg (fun fm : Field Unit => fm.column) hsk
  cases hj : fm.jsonb with
  | false => simp [hj] at h
  | true =>
    simp only [hj, if_true] at h
    obtain ⟨key, -, h⟩ := bind_ok h
    simp only [selectOf, hfm', except_bind, ok_bind, hjsonb, hj, if_true, keyOf_k]
    exact ⟨_, rfl, by simp [← Except.ok.inj h, skeleton, Clause.map, Atom.map, Operand.map, hcolumn]⟩

/-- An accepted filter is accepted without its operands and keys, and says the same beside them. -/
theorem translate_erase (e : Expr) {c : Clause Value} (h : translate lib rf exclude e = .ok c) :
    ∃ c', translate lib rf exclude (erase rf e) = .ok c' ∧ skeleton c' = skeleton c := by
  induction e using transpileExpr.induct generalizing c with
  | case1 l r ihl ihr | case2 l r ihl ihr | case3 l r ihl ihr =>
    obtain ⟨cl, hcl, h⟩ := bind_ok h
    obtain ⟨cr, hcr, h⟩ := bind_ok h
    obtain ⟨cl', hcl', hl⟩ := ihl hcl
    obtain ⟨cr', hcr', hr⟩ := ihr hcr
    simp only [erase, translate, hcl', hcr', except_bind, ok_bind]
    refine ⟨_, rfl, ?_⟩
    rw [← Except.ok.inj h]
    simp only [skeleton, Clause.map] at hl hr ⊢
    rw [hl, hr]
  | case4 e ih =>
    obtain ⟨ce, hce, h⟩ := bind_ok h
    obtain ⟨ce', hce', he⟩ := ih hce
    simp only [erase, translate, hce', except_bind, ok_bind]
    refine ⟨_, rfl, ?_⟩
    rw [← Except.ok.inj h]
    simp only [skeleton, Clause.map] at he ⊢
    rw [he]
  | case5 op lhs rhs => exact comparisonOf_erase h
  | case6 lhs rhs => exact hasOf_erase h
  | case7 arg =>
    obtain ⟨v, rfl⟩ := timestampOf_value h
    exact ⟨.atom (.value (.int64 0)), rfl, rfl⟩
  | case16 name =>
    cases hname : rf.filterable.lookup name with
    | none =>
      simp only [translate, identOf, hname] at h
      simpa [erase, hname, translate, constOf] using literalOf_skeleton h ""
    | some fm => exact ⟨c, by simpa [erase, hname] using h, rfl⟩
  | case17 k =>
    cases k with
    | string s => exact literalOf_skeleton h ""
    | other typeName => cases h
    | _ =>
      refine ⟨.atom (.value (.int64 0)), rfl, ?_⟩
      rw [← Except.ok.inj h]
      rfl
  | case18 operand field => exact selectOf_erase h
  | _ => simp [translate] at h

end erasing

theorem numberAll_alike {cs cs' : List (Condition Value)}
    (h : cs.map (Condition.map fun _ => ()) = cs'.map (Condition.map fun _ => ())) (n : Nat) :
    numberAll n cs = numberAll n cs' := by
  rw [← numberAll_map (fun _ => ()) n cs, h, numberAll_map]

section queries
variable {lib : Library} {q : ListQuery} {filterStr exclude : String} {root root' : Expr}

/-- Two accepted filters that are one without their operands and keys say the same beside them. -/
theorem translate_alike {rf : ResourceFilter} {c c' : Clause Value}
    (halike : erase rf root = erase rf root') (h : translate lib rf exclude root = .ok c)
    (h' : translate lib rf exclude root' = .ok c') : skeleton c = skeleton c' := by
  obtain ⟨d, hd, hsk⟩ := translate_erase root h
  obtain ⟨d', hd', hsk'⟩ := translate_erase root' h'
  rw [halike, hd'] at hd
  rw [← hsk, ← hsk', Except.ok.inj hd]

theorem scopeConditions_parsed {cs : List (Condition Value)} (hblank : isBlank q.filter = false)
    (hparse : lib.parse q.filter = .ok (some root)) (h : scopeConditions lib q exclude = .ok cs) :
    ∃ c, translate lib q.resource exclude root = .ok c ∧
      cs = baseConditions q ++ [Condition.filter c] := by
  simp only [scopeConditions, filterConditions, hblank, hparse] at h
  cases hc : translate lib q.resource exclude root with
  | error e => simp [hc] at h
  | ok c => exact ⟨c, rfl, by simpa [hc] using h.symm⟩

/- The queries of two lists whose filters are one without their operands and keys. -/
theorem scopeConditions_alike {cs cs' : List (Condition Value)}
    (hblank : isBlank q.filter = false) (hblank' : isBlank filterStr = false)
    (hparse : lib.parse q.filter = .ok (some root)) (hparse' : lib.parse filterStr = .ok (some root'))
    (halike : erase q.resource root = erase q.resource root')
    (h : scopeConditions lib q exclude = .ok cs)
    (h' : scopeConditions lib { q with filter := filterStr } exclude = .ok cs') :
    cs.map (Condition.map fun _ => ()) = cs'.map (Condition.map fun _ => ()) := by
  obtain ⟨c, hc, rfl⟩ := scopeConditions_parsed hblank hparse h
  obtain ⟨c', hc', rfl⟩ := scopeConditions_parsed (q := { q with filter := filterStr }) hblank'
    hparse' h'
  have hsk := translate_alike halike hc hc'
  simp only [skeleton] at hsk
  simp [baseConditions, Condition.map, hsk]

end queries

/-- The transpiled filter has one placeholder for each argument, in the order of the arguments, and
each of its comparisons the placeholders of its own operand and keys. -/
def WhereClause.OwnOperands (lib : Library) (rf : ResourceFilter) (filterStr exclude : String)
    (startIdx : Nat) (wc : WhereClause) : Prop :=
  match wc.sql with
  | none => wc.args = []
  | some sql => placeholders sql.text = List.range' startIdx wc.args.length ∧
    ∃ root c, lib.parse filterStr = .ok (some root) ∧ translate lib rf exclude root = .ok c ∧
      sql.map (fun k => wc.args[k - startIdx]?) = c.map some

theorem transpileExcluding_ownOperands {lib : Library} {rf : ResourceFilter}
    {filterStr exclude : String} {startIdx : Nat} {wc : WhereClause}
    (h : transpileExcluding lib rf filterStr startIdx exclude = .ok wc) :
    wc.OwnOperands lib rf filterStr exclude startIdx := by
  by_cases hne : filterStr = ""
  · have hwc : ⟨none, []⟩ = wc := by simpa [transpileExcluding, hne] using h
    rw [← hwc]
    rfl
  · cases hparse : lib.parse filterStr with
    | error e => simp [transpileExcluding, hne, hparse] at h
    | ok root =>
      cases root with
      | none =>
        have hwc : ⟨none, []⟩ = wc := by simpa [transpileExcluding, hne, hparse] using h
        rw [← hwc]
        rfl
      | some root =>
        rw [transpileExcluding_root rf startIdx exclude hne hparse] at h
        cases hc : translate lib rf exclude root with
        | error e => simp [hc] at h
        | ok c =>
          simp only [hc, map_ok, Except.ok.injEq] at h
          subst h
          refine ⟨by simp [Clause.values_number], root, c, hparse, hc, ?_⟩
          exact Clause.map_number (fills_getElem c.values startIdx)

/-- The queries with another filter have the same texts. -/
structure SameTexts (lib : Library) (q : ListQuery) (filterStr exclude : String) : Prop where
  transpiled : ∀ startIdx wc wc',
    transpileExcluding lib q.resource q.filter startIdx exclude = .ok wc →
    transpileExcluding lib q.resource filterStr startIdx exclude = .ok wc' →
    wc.sql.map Clause.text = wc'.sql.map Clause.text
  list : ∀ b b', buildListQuery lib q = .ok b →
    buildListQuery lib { q with filter := filterStr } = .ok b' → b.text = b'.text
  facets : ∀ b b', buildScopeConditions lib q exclude = .ok b →
    buildScopeConditions lib { q with filter := filterStr } exclude = .ok b' →
    ∀ columns column, (FacetQuery.shared q.resource.table b.1 columns).text =
        (FacetQuery.shared q.resource.table b'.1 columns).text ∧
      (FacetQuery.terms q.resource.table b.1 column).text =
        (FacetQuery.terms q.resource.table b'.1 column).text

theorem sameTexts {lib : Library} {q : ListQuery} {filterStr exclude : String} {root root' : Expr}
    (hblank : isBlank q.filter = false) (hblank' : isBlank filterStr = false)
    (hparse : lib.parse q.filter = .ok (some root)) (hparse' : lib.parse filterStr = .ok (some root'))
    (halike : erase q.resource root = erase q.resource root') :
    SameTexts lib q filterStr exclude := by
  have hne (s : String) (h : isBlank s = false) : s ≠ "" := by
    rintro rfl
    rw [isBlank_empty] at h
    cases h
  constructor
  · intro startIdx wc wc' h h'
    rw [transpileExcluding_root _ _ _ (hne _ hblank) hparse] at h
    rw [transpileExcluding_root _ _ _ (hne _ hblank') hparse'] at h'
    cases hc : translate lib q.resource exclude root with
    | error e => simp [hc] at h
    | ok c =>
      cases hc' : translate lib q.resource exclude root' with
      | error e => simp [hc'] at h'
      | ok c' =>
        simp only [hc, hc', map_ok, Except.ok.injEq] at h h'
        subst h h'
        simp [number_skeleton (translate_alike halike hc hc')]
  · intro b b' h h'
    rw [buildListQuery_eq] at h h'
    cases hcs : scopeConditions lib q "" with
    | error e => simp [hcs] at h
    | ok cs =>
      cases hcs' : scopeConditions lib { q with filter := filterStr } "" with
      | error e => simp [hcs'] at h'
      | ok cs' =>
        have hsame := scopeConditions_alike hblank hblank' hparse hparse' halike hcs hcs'
        simp only [hcs, hcs', map_ok, Except.ok.injEq] at h h'
        subst h h'
        have hnumber : numberAll 1 (cs ++ cursorConditions q.order q.cursor) =
            numberAll 1 (cs' ++ cursorConditions q.order q.cursor) :=
          numberAll_alike (by simp [hsame]) 1
        have hlen := congrArg (fun cs => (cs.flatMap Condition.values).length) hnumber
        simp only [values_numberAll, List.length_range'] at hlen
        simp only [BuiltQuery.text, bound, hnumber, hlen]
  · intro b b' h h' columns column
    rw [buildScopeConditions_eq] at h h'
    cases hcs : scopeConditions lib q exclude with
    | error e => simp [hcs] at h
    | ok cs =>
      cases hcs' : scopeConditions lib { q with filter := filterStr } exclude with
      | error e => simp [hcs'] at h'
      | ok cs' =>
        have hsame := scopeConditions_alike hblank hblank' hparse hparse' halike hcs hcs'
        simp only [hcs, hcs', map_ok, Except.ok.injEq] at h h'
        subst h h'
        simp [bound, numberAll_alike hsame 1]

/-- Whatever is filtered, sorted and paged, each clause of a query has the placeholders of its own
arguments and no others, numbered as the arguments were appended; and but for stars where partial
matches are allowed, the text does not depend on operands and keys. -/
theorem queries_disciplined (lib : Library) (q : ListQuery) (exclude : String) :
    (∀ startIdx wc, transpileExcluding lib q.resource q.filter startIdx exclude = .ok wc →
      wc.OwnOperands lib q.resource q.filter exclude startIdx) ∧
    (∀ b, buildListQuery lib q = .ok b → ∃ cs, scopeConditions lib q "" = .ok cs ∧
      Disciplined b.text b.args (clausesFrom 1 (cs ++ cursorConditions q.order q.cursor) ++
        [limitClause b.args.length q.pageSize])) ∧
    (∀ b, buildScopeConditions lib q exclude = .ok b →
      ∃ cs, scopeConditions lib q exclude = .ok cs ∧ ∀ columns column,
        Disciplined (FacetQuery.shared q.resource.table b.1 columns).text b.2 (clausesFrom 1 cs) ∧
        Disciplined (FacetQuery.terms q.resource.table b.1 column).text b.2 (clausesFrom 1 cs)) ∧
    ∀ filterStr root root', isBlank q.filter = false → isBlank filterStr = false →
      lib.parse q.filter = .ok (some root) → lib.parse filterStr = .ok (some root') →
      erase q.resource root = erase q.resource root' → SameTexts lib q filterStr exclude := by
  refine ⟨fun _ _ => transpileExcluding_ownOperands, fun b h => ?_, fun b h => ?_,
    fun _ _ _ => sameTexts⟩
  · rw [buildListQuery_eq] at h
    cases hcs : scopeConditions lib q "" with
    | error e => simp [hcs] at h
    | ok cs =>
      simp only [hcs, map_ok, Except.ok.injEq] at h
      subst h
      refine ⟨cs, rfl, ?_⟩
      simpa using list_disciplined q (cs ++ cursorConditions q.order q.cursor)
  · rw [buildScopeConditions_eq] at h
    cases hcs : scopeConditions lib q exclude with
    | error e => simp [hcs] at h
    | ok cs =>
      simp only [hcs, map_ok, Except.ok.injEq] at h
      subst h
      exact ⟨cs, rfl, fun columns column => facet_disciplined _ column columns cs⟩

end Pivox.Filter
