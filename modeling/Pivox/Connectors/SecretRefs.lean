import Mathlib.Data.List.Basic
import Mathlib.Data.List.TakeWhile

/-!
The names of secrets in the config of a connector: what the writing side finds in the text of a
header, and what either side makes of a name.
-/

namespace Pivox.Connectors

abbrev Text := List Char

/- A header's value is a CEL expression. -/
structure HttpConnector where
  baseUrl : Text
  headers : List (Text × Text)
  deriving DecidableEq, Repr

/- The oneof of a connector, which may be unset. -/
abbrev Config := Option HttpConnector

def isSpace (c : Char) : Bool :=
  c = ' ' || c = '\t' || c = '\n' || c = '\r' || c = Char.ofNat 12

/-- secretRefRe, secret\(\s*"([^"]+)"\s*\), at the head of a text: the name, and what is left. -/
def matchSecretRef (s : Text) : Option (Text × Text) :=
  match s.dropPrefix? "secret(".toList with
  | none => none
  | some call =>
    match call.dropWhile isSpace with
    | '"' :: quoted =>
      let name := quoted.takeWhile (· ≠ '"')
      if name = [] then none
      else
        match ((quoted.dropWhile (· ≠ '"')).drop 1).dropWhile isSpace with
        | ')' :: rest => some (name, rest)
        | _ => none
    | _ => none

/- The matches from left to right, none inside of another. -/
def findMatches : Nat → Text → List Text
  | 0, _ => []
  | _ + 1, [] => []
  | n + 1, c :: s =>
    match matchSecretRef (c :: s) with
    | some (name, rest) => name :: findMatches n rest
    | none => findMatches n s

def findAllSecretRefs (s : Text) : List Text := findMatches s.length s

def extractSecretRefs (config : Config) : List Text :=
  match config with
  | none => []
  | some http => (http.headers.flatMap fun h => findAllSecretRefs h.2).eraseDups

theorem mem_extractSecretRefs {name : Text} {config : Config} :
    name ∈ extractSecretRefs config ↔
      ∃ http ∈ config, ∃ h ∈ http.headers, name ∈ findAllSecretRefs h.2 := by
  cases config with
  | none => simp [extractSecretRefs]
  | some http => simp [extractSecretRefs, List.mem_eraseDups]

theorem matchSecretRef_length {s name rest : Text} (h : matchSecretRef s = some (name, rest)) :
    rest.length < s.length := by
  unfold matchSecretRef at h
  split at h
  · cases h
  · rename_i call hcall
    obtain ⟨p, rfl, -⟩ := List.dropPrefix?_eq_some_iff.mp hcall
    have hquoted := (List.dropWhile_suffix isSpace (l := call)).length_le
    split at h
    · rename_i quoted heq
      have hname := (List.dropWhile_suffix (fun c => decide (c ≠ '"')) (l := quoted)).length_le
      have hspace := (List.dropWhile_suffix isSpace
        (l := (quoted.dropWhile fun c => decide (c ≠ '"')).drop 1)).length_le
      rw [heq] at hquoted
      simp only [List.length_cons, List.length_drop, List.length_append] at *
      split_ifs at h
      split at h
      · rename_i hrest
        rw [hrest] at hspace
        simp only [List.length_cons] at hspace
        cases h
        omega
      · cases h
    · cases h

/-- The length of the text is enough fuel. -/
theorem findMatches_eq {n m : Nat} {s : Text} (hn : s.length ≤ n) (hm : s.length ≤ m) :
    findMatches n s = findMatches m s := by
  induction n generalizing m s with
  | zero =>
    obtain rfl := List.length_eq_zero_iff.mp (Nat.le_zero.mp hn)
    cases m <;> rfl
  | succ n ih =>
    cases s with
    | nil => cases m <;> rfl
    | cons c s =>
      cases m with
      | zero => simp at hm
      | succ m =>
        simp only [List.length_cons, Nat.add_le_add_iff_right] at hn hm
        unfold findMatches
        split
        · rename_i name rest hmatch
          have hlt := matchSecretRef_length hmatch
          simp only [List.length_cons] at hlt
          rw [ih (by omega) (show rest.length ≤ m by omega)]
        · exact ih hn hm

theorem findAllSecretRefs_cons (c : Char) (s : Text) : findAllSecretRefs (c :: s) =
    match matchSecretRef (c :: s) with
    | some (name, rest) => name :: findAllSecretRefs rest
    | none => findAllSecretRefs s := by
  unfold findAllSecretRefs
  rw [List.length_cons, findMatches]
  split
  · rename_i name rest hmatch
    have hlt := matchSecretRef_length hmatch
    rw [List.length_cons] at hlt
    rw [findMatches_eq (Nat.le_of_lt_succ hlt) (Nat.le_refl _)]
  · rfl

/-- The text of a match. -/
theorem matchSecretRef_eq_some {s name rest : Text} (h : matchSecretRef s = some (name, rest)) :
    ∃ before after, s = "secret(".toList ++ before ++ '"' :: name ++ '"' :: after ++ ')' :: rest ∧
      (∀ c ∈ before, isSpace c = true) ∧ (∀ c ∈ after, isSpace c = true) ∧ '"' ∉ name := by
  unfold matchSecretRef at h
  split at h
  · cases h
  · rename_i call hcall
    obtain ⟨p, rfl, hp⟩ := List.dropPrefix?_eq_some_iff.mp hcall
    obtain rfl := eq_of_beq hp
    split at h
    · rename_i quoted hquoted
      dsimp only at h
      split_ifs at h with hempty
      split at h
      · rename_i rest' hrest
        cases h
        have hcall' : call.takeWhile isSpace ++ '"' :: quoted = call := by
          rw [← hquoted, List.takeWhile_append_dropWhile]
        have hquoted' : quoted.takeWhile (· ≠ '"') ++ quoted.dropWhile (· ≠ '"') = quoted :=
          List.takeWhile_append_dropWhile
        cases hclose : quoted.dropWhile (· ≠ '"') with
        | nil =>
          rw [hclose] at hrest
          cases hrest
        | cons q tail =>
          obtain rfl : q = '"' := by
            have hhead := List.head?_dropWhile_not (fun c => decide (c ≠ '"')) quoted
            rw [hclose] at hhead
            simpa using hhead
          rw [hclose, List.drop_one, List.tail_cons] at hrest
          refine ⟨call.takeWhile isSpace, tail.takeWhile isSpace, ?_, ?_, ?_, ?_⟩
          · have htail : tail.takeWhile isSpace ++ ')' :: rest = tail := by
              rw [← hrest, List.takeWhile_append_dropWhile]
            conv_lhs => rw [← hcall', ← hquoted', hclose, ← htail]
            simp
          · exact fun c hc => List.mem_takeWhile_imp hc
          · exact fun c hc => List.mem_takeWhile_imp hc
          · intro hmem
            simpa using List.mem_takeWhile_imp hmem
      · cases h
    · cases h

/- A call of secret() on a literal in the quotation marks `q`. -/
def secretCall (q : Char) (name : Text) : Text := "secret(".toList ++ q :: (name ++ [q, ')'])

theorem secretCall_append (q : Char) (name after : Text) : secretCall q name ++ after =
    "secret(".toList ++ q :: (name ++ q :: ')' :: after) := by
  unfold secretCall
  rw [List.append_assoc, List.cons_append, List.append_assoc]
  rfl

theorem matchSecretRef_call {name : Text} (hne : name ≠ []) (hquote : '"' ∉ name) (after : Text) :
    matchSecretRef (secretCall '"' name ++ after) = some (name, after) := by
  have hcall : (secretCall '"' name ++ after).dropPrefix? "secret(".toList =
      some ('"' :: (name ++ '"' :: ')' :: after)) :=
    List.dropPrefix?_eq_some_iff.mpr ⟨_, secretCall_append _ _ _, beq_self_eq_true _⟩
  have hname : ∀ c ∈ name, decide (c ≠ '"') = true := by
    intro c hc
    simpa using fun h : c = '"' => hquote (h ▸ hc)
  have hspace : isSpace '"' = false := by decide
  have hclose : isSpace ')' = false := by decide
  have htake : (name ++ '"' :: ')' :: after).takeWhile (fun c => decide (c ≠ '"')) = name := by
    rw [List.takeWhile_append_of_pos hname]
    simp
  have hdrop : (name ++ '"' :: ')' :: after).dropWhile (fun c => decide (c ≠ '"')) =
      '"' :: ')' :: after := by
    rw [List.dropWhile_append_of_pos hname]
    simp
  unfold matchSecretRef
  rw [hcall]
  simp only [List.dropWhile_cons_of_neg (by simp [hspace] : ¬ isSpace '"' = true), htake, hdrop, hne,
    if_false, List.drop_one, List.tail_cons,
    List.dropWhile_cons_of_neg (by simp [hclose] : ¬ isSpace ')' = true)]

/- The first occurrence of a character is where it is. -/
theorem first_inj {c : Char} {p p' s s' : Text} (hp : c ∉ p) (hp' : c ∉ p')
    (h : p ++ c :: s = p' ++ c :: s') : p = p' ∧ s = s' := by
  obtain ⟨rest, rfl, hrest⟩ | ⟨rest, rfl, hrest⟩ := List.append_eq_append_iff.mp h
  · cases rest with
    | nil => exact ⟨(List.append_nil p).symm, (List.cons.inj hrest).2⟩
    | cons d rest =>
      obtain rfl := (List.cons.inj hrest).1
      exact absurd (List.mem_append_right _ List.mem_cons_self) hp'
  · cases rest with
    | nil => exact ⟨List.append_nil p', (List.cons.inj hrest).2.symm⟩
    | cons d rest =>
      obtain rfl := (List.cons.inj hrest).1
      exact absurd (List.mem_append_right _ List.mem_cons_self) hp

theorem secretText : "secret(".toList = 's' :: "ecret(".toList := by decide

/- Where a call is what a match goes on with, what is left of the match is a space, a quotation mark
or a parenthesis, or ends with its second quotation mark. -/
theorem call_inside {before found spaces spaces' inside : Text} (hbefore : before ≠ [])
    (hmatch : "secret(".toList ++ spaces ++ '"' :: found ++ '"' :: spaces' ++ [')'] =
      before ++ 's' :: inside)
    (hspaces : ∀ c ∈ spaces, isSpace c = true) (hblanks : ∀ c ∈ spaces', isSpace c = true)
    (hfound : '"' ∉ found) :
    ∃ tail, '"' ∉ tail ∧ 's' :: inside = tail ++ '"' :: (spaces' ++ [')']) := by
  have hnospace {c : Char} (h : isSpace c = true) : c ≠ 's' := by
    rintro rfl
    exact absurd h (by decide)
  have hparts : ("ecret(".toList ++ (spaces ++ ['"'])) ++ (found ++ '"' :: (spaces' ++ [')'])) =
      before.tail ++ 's' :: inside := by
    obtain ⟨b, before, rfl⟩ := List.exists_cons_of_ne_nil hbefore
    rw [secretText] at hmatch
    simpa using (List.cons.inj (by simpa using hmatch)).2
  have hfirst : 's' ∉ "ecret(".toList ++ (spaces ++ ['"']) := by
    intro hmem
    obtain hmem | hmem := List.mem_append.mp hmem
    · exact absurd hmem (by decide)
    · obtain hmem | hmem := List.mem_append.mp hmem
      · exact hnospace (hspaces _ hmem) rfl
      · simp at hmem
  obtain ⟨skipped, -, hrest⟩ | ⟨left, hleft, hrest⟩ := List.append_eq_append_iff.mp hparts
  · obtain ⟨skipped', -, hend⟩ | ⟨tail, htail, hend⟩ := List.append_eq_append_iff.mp hrest
    · have hmem : 's' ∈ '"' :: (spaces' ++ [')']) := by
        rw [hend]
        simp
      simp only [List.mem_cons, List.mem_append, List.not_mem_nil, or_false] at hmem
      obtain hmem | hmem | hmem := hmem
      · exact absurd hmem (by decide)
      · exact absurd rfl (hnospace (hblanks _ hmem))
      · exact absurd hmem (by decide)
    · exact ⟨tail, fun hmem => hfound (htail ▸ List.mem_append_right _ hmem), hend⟩
  · cases left with
    | nil => exact ⟨found, hfound, hrest⟩
    | cons c left =>
      obtain rfl := (List.cons.inj hrest).1
      exact absurd (hleft ▸ List.mem_append_right _ List.mem_cons_self) hfirst

/-- A match that begins before a call of secret() on a literal ends before it. -/
theorem matchSecretRef_before {before name after found rest : Text} (hbefore : before ≠ [])
    (hparen : ')' ∉ name)
    (h : matchSecretRef (before ++ (secretCall '"' name ++ after)) = some (found, rest)) :
    ∃ before', rest = before' ++ (secretCall '"' name ++ after) := by
  obtain ⟨spaces, spaces', htext, hspaces, hblanks, hfound⟩ := matchSecretRef_eq_some h
  have hsplit : before ++ (secretCall '"' name ++ after) =
      ("secret(".toList ++ spaces ++ '"' :: found ++ '"' :: spaces' ++ [')']) ++ rest := by
    rw [htext]
    simp only [List.append_assoc, List.cons_append, List.nil_append]
  obtain ⟨inside, hmatch, hcall⟩ | ⟨before', -, hrest⟩ := List.append_eq_append_iff.mp hsplit
  · cases inside with
    | nil => exact ⟨[], hcall.symm⟩
    | cons c inside =>
      -- The call would begin inside of the match, with an s that is not the first of the match.
      exfalso
      obtain rfl : c = 's' := by
        rw [secretCall_append, secretText, List.cons_append] at hcall
        exact (List.cons.inj hcall).1.symm
      obtain ⟨tail, htail, hinside⟩ := call_inside hbefore hmatch hspaces hblanks hfound
      rw [secretCall_append, hinside, List.append_assoc, List.cons_append, List.append_assoc] at hcall
      obtain ⟨-, hname⟩ := first_inj (by decide) htail hcall
      obtain ⟨left, hleft, hend⟩ | ⟨left, hleft, hend⟩ := List.append_eq_append_iff.mp hname
      · -- The quotation mark that closes the name would be a space or a parenthesis.
        cases left with
        | nil => exact absurd (List.cons.inj hend).1 (by decide)
        | cons d left =>
          obtain rfl := (List.cons.inj hend).1
          exact absurd (hblanks '"' (hleft ▸ List.mem_append_right _ List.mem_cons_self)) (by decide)
      · -- The parenthesis that closes the match would be a quotation mark or a part of the name.
        cases left with
        | nil => exact absurd (List.cons.inj hend).1 (by decide)
        | cons d left =>
          obtain rfl := (List.cons.inj hend).1
          exact hparen (hleft ▸ List.mem_append_right _ List.mem_cons_self)
  · exact ⟨before', hrest⟩

/-- Every call of secret() on a literal is found, wherever it stands. -/
theorem mem_findAllSecretRefs {name : Text} (hne : name ≠ []) (hquote : '"' ∉ name)
    (hparen : ')' ∉ name) (before after : Text) :
    name ∈ findAllSecretRefs (before ++ (secretCall '"' name ++ after)) := by
  generalize hn : before.length = n
  induction n using Nat.strongRecOn generalizing before with
  | ind n ih =>
    subst hn
    cases before with
    | nil =>
      have hfound := matchSecretRef_call hne hquote after
      obtain ⟨c, s, hs⟩ : ∃ c s, secretCall '"' name ++ after = c :: s := ⟨_, _, rfl⟩
      rw [hs] at hfound
      rw [List.nil_append, hs, findAllSecretRefs_cons, hfound]
      exact List.mem_cons_self
    | cons c before =>
      rw [List.cons_append, findAllSecretRefs_cons]
      split
      · rename_i found rest hmatch
        have hlt := matchSecretRef_length hmatch
        obtain ⟨before', rfl⟩ :=
          matchSecretRef_before (List.cons_ne_nil c before) hparen hmatch
        simp only [List.length_cons, List.length_append] at hlt
        exact List.mem_cons_of_mem _ (ih before'.length (by rw [List.length_cons]; omega) before' rfl)
      · exact ih before.length (Nat.lt_succ_self _) before rfl

/-! Names -/

/-- What the writing side takes: exactly a secret under the prefix of the connector. -/
def parseSecretRef (name connectorPrefix : Text) : Except String Text :=
  match name.dropPrefix? (connectorPrefix ++ "/secrets/".toList) with
  | none => .error "is not in the connector's scope"
  | some slug =>
    if slug = [] ∨ '/' ∈ slug then .error "is not a valid Secret resource name" else .ok slug

/-- What the broker takes: the last segment of any name. -/
def parseSecretLeaf (name : Text) : Except String Text :=
  let leaf := (name.reverse.takeWhile (· ≠ '/')).reverse
  if '/' ∉ name ∨ leaf = [] then .error "not a secret resource name" else .ok leaf

theorem parseSecretRef_ok {name connectorPrefix slug : Text} :
    parseSecretRef name connectorPrefix = .ok slug ↔
      name = connectorPrefix ++ "/secrets/".toList ++ slug ∧ slug ≠ [] ∧ '/' ∉ slug := by
  unfold parseSecretRef
  split
  · rename_i hnone
    refine ⟨nofun, ?_⟩
    rintro ⟨rfl, -⟩
    have hsome : (connectorPrefix ++ "/secrets/".toList ++ slug).dropPrefix?
        (connectorPrefix ++ "/secrets/".toList) = some slug :=
      List.dropPrefix?_eq_some_iff.mpr ⟨_, rfl, beq_self_eq_true _⟩
    cases hnone.symm.trans hsome
  · rename_i rest hrest
    obtain ⟨p, rfl, hp⟩ := List.dropPrefix?_eq_some_iff.mp hrest
    obtain rfl := eq_of_beq hp
    rw [List.append_right_inj]
    split_ifs with hbad
    · refine ⟨nofun, ?_⟩
      rintro ⟨rfl, hne, hslash⟩
      exact absurd hbad (by simp [hne, hslash])
    · rw [not_or] at hbad
      constructor
      · intro h
        cases h
        exact ⟨rfl, hbad⟩
      · rintro ⟨rfl, -⟩
        rfl

/-- A name that the writing side takes is to the broker the same secret. -/
theorem parseSecretLeaf_of_ref {name connectorPrefix slug : Text}
    (h : parseSecretRef name connectorPrefix = .ok slug) : parseSecretLeaf name = .ok slug := by
  obtain ⟨rfl, hne, hslash⟩ := parseSecretRef_ok.mp h
  have hsplit : connectorPrefix ++ "/secrets/".toList ++ slug =
      connectorPrefix ++ "/secrets".toList ++ '/' :: slug := by simp
  have hslug : ∀ c ∈ slug.reverse, decide (c ≠ '/') = true := by
    intro c hc
    simp only [ne_eq, decide_not, Bool.not_eq_eq_eq_not, Bool.not_true, decide_eq_false_iff_not]
    rintro rfl
    exact hslash (List.mem_reverse.mp hc)
  have hleaf : ((connectorPrefix ++ "/secrets".toList ++ '/' :: slug).reverse.takeWhile
      (· ≠ '/')).reverse = slug := by
    rw [List.reverse_append, List.reverse_cons, List.append_assoc, List.takeWhile_append_of_pos hslug]
    simp
  unfold parseSecretLeaf
  rw [hsplit, hleaf]
  simp [hne]

end Pivox.Connectors
