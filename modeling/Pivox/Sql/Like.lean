import Mathlib.Data.List.Infix

/-!
LIKE and ILIKE with a backslash as the escape character, patterns of `*` alone, and literal
substrings.
-/

namespace Pivox.Sql

def isSpecial (c : Char) : Bool := c = '\\' || c = '%' || c = '_'

/-- What lower-casing does to a character: of the pattern language it makes nothing else, and
nothing else into it. -/
structure CaseFold where
  fold : Char → Char
  special : ∀ c, isSpecial c = true → fold c = c
  plain : ∀ c, isSpecial c = false → isSpecial (fold c) = false

inductive LikeToken where
  | any
  | one
  | char (c : Char)
  deriving DecidableEq

/- A pattern must not end with the escape character. -/
def likeTokens : List Char → Option (List LikeToken)
  | [] => some []
  | ['\\'] => none
  | '\\' :: c :: rest => (likeTokens rest).map (.char c :: ·)
  | c :: rest =>
    (likeTokens rest).map ((if c = '%' then .any else if c = '_' then .one else .char c) :: ·)

def likeMatch : List LikeToken → List Char → Bool
  | [], s => s.isEmpty
  | .any :: ts, s => s.tails.any (likeMatch ts)
  | .one :: ts, s =>
    match s with
    | [] => false
    | _ :: s => likeMatch ts s
  | .char c :: ts, s =>
    match s with
    | [] => false
    | d :: s => decide (c = d) && likeMatch ts s

variable (f : CaseFold)

/- ILIKE folds the pattern and the text; a pattern that is none is an error. -/
def ilike (text pattern : List Char) : Option Bool :=
  (likeTokens (pattern.map f.fold)).map (likeMatch · (text.map f.fold))

/-- The texts of a pattern in which `*` stands for any text and the rest for itself. -/
inductive GlobMatches : List Char → List Char → Prop
  | nil : GlobMatches [] []
  | star {p s : List Char} (skipped : List Char) :
    GlobMatches p s → GlobMatches ('*' :: p) (skipped ++ s)
  | char {c d : Char} {p s : List Char} :
    c ≠ '*' → f.fold c = f.fold d → GlobMatches p s → GlobMatches (c :: p) (d :: s)

/-- The text has the other in it, but for case. -/
def ContainsFolded (text part : List Char) : Prop := part.map f.fold <:+: text.map f.fold

instance (text part : List Char) : Decidable (ContainsFolded f text part) :=
  inferInstanceAs (Decidable (part.map f.fold <:+: text.map f.fold))

/-! Tokens -/

def LikeToken.map (g : Char → Char) : LikeToken → LikeToken
  | .any => .any
  | .one => .one
  | .char c => .char (g c)

/- The tokens of a folded pattern. -/
def foldTokens (f : CaseFold) (ts : List LikeToken) : List LikeToken :=
  ts.map fun t => t.map f.fold

variable {f} {c : Char} {p rest s : List Char} {ts : List LikeToken}

theorem fold_special_iff (h : isSpecial c = true) (d : Char) : f.fold d = c ↔ d = c := by
  constructor
  · intro hd
    cases hspecial : isSpecial d with
    | true => rw [← hd, f.special d hspecial]
    | false =>
      have hplain := f.plain d hspecial
      rw [hd, h] at hplain
      cases hplain
  · rintro rfl
    exact f.special d h

section tokens
attribute [local simp] likeTokens

theorem likeTokens_escaped (c : Char) (rest : List Char) :
    likeTokens ('\\' :: c :: rest) = (likeTokens rest).map (.char c :: ·) := by
  rw [likeTokens]

theorem likeTokens_any (rest : List Char) :
    likeTokens ('%' :: rest) = (likeTokens rest).map (.any :: ·) := by
  cases rest <;> simp

theorem likeTokens_one (rest : List Char) :
    likeTokens ('_' :: rest) = (likeTokens rest).map (.one :: ·) := by
  cases rest <;> simp

theorem likeTokens_char (h : isSpecial c = false) (rest : List Char) :
    likeTokens (c :: rest) = (likeTokens rest).map (.char c :: ·) := by
  simp only [isSpecial, Bool.or_eq_false_iff, decide_eq_false_iff_not] at h
  obtain ⟨⟨hescape, hany⟩, hone⟩ := h
  rw [likeTokens]
  · simp [hany, hone]
  · exact fun hc => absurd hc hescape
  · exact fun _ _ hc => absurd hc hescape

/-- Folding a pattern folds its tokens. -/
theorem likeTokens_map (p : List Char) :
    likeTokens (p.map f.fold) = (likeTokens p).map (foldTokens f) := by
  induction p using likeTokens.induct with
  | case1 => rfl
  | case2 => simp [f.special '\\' rfl]
  | case3 c rest ih =>
    rw [List.map_cons, List.map_cons, f.special '\\' rfl, likeTokens_escaped, likeTokens_escaped, ih,
      Option.map_map, Option.map_map]
    rfl
  | case4 c rest hlone hescaped ih =>
    rw [List.map_cons]
    cases hspecial : isSpecial c with
    | true =>
      rw [f.special c hspecial]
      simp only [isSpecial, Bool.or_eq_true, decide_eq_true_eq] at hspecial
      obtain (rfl | rfl) | rfl := hspecial
      · cases rest with
        | nil => exact absurd rfl (hlone rfl)
        | cons d rest => exact absurd rfl (hescaped d rest rfl)
      · rw [likeTokens_any, likeTokens_any, ih, Option.map_map, Option.map_map]
        rfl
      · rw [likeTokens_one, likeTokens_one, ih, Option.map_map, Option.map_map]
        rfl
    | false =>
      rw [likeTokens_char hspecial, likeTokens_char (f.plain c hspecial), ih, Option.map_map,
        Option.map_map]
      rfl

end tokens

/-! Matching -/

section matching
attribute [local simp] likeMatch

theorem likeMatch_any : likeMatch (.any :: ts) s = true ↔
    ∃ skipped rest, s = skipped ++ rest ∧ likeMatch ts rest = true := by
  rw [likeMatch, List.any_eq_true]
  constructor
  · intro h
    obtain ⟨rest, hrest, hmatch⟩ := h
    obtain ⟨skipped, rfl⟩ := (List.mem_tails _ _).mp hrest
    exact ⟨skipped, rest, rfl, hmatch⟩
  · rintro ⟨skipped, rest, rfl, hmatch⟩
    exact ⟨rest, (List.mem_tails _ _).mpr (List.suffix_append skipped rest), hmatch⟩

theorem likeMatch_char : likeMatch (.char c :: ts) s = true ↔
    ∃ rest, s = c :: rest ∧ likeMatch ts rest = true := by
  cases s with
  | nil => simp
  | cons d s =>
    simp only [likeMatch, Bool.and_eq_true, decide_eq_true_eq, List.cons.injEq]
    constructor
    · intro h
      exact ⟨s, ⟨h.1.symm, rfl⟩, h.2⟩
    · rintro ⟨rest, ⟨rfl, rfl⟩, h⟩
      exact ⟨rfl, h⟩

theorem likeMatch_one : likeMatch (.one :: ts) s = true ↔
    ∃ d rest, s = d :: rest ∧ likeMatch ts rest = true := by
  cases s with
  | nil => simp
  | cons d s => simp

end matching

theorem likeMatch_chars : likeMatch (p.map .char ++ ts) s = true ↔
    ∃ rest, s = p ++ rest ∧ likeMatch ts rest = true := by
  induction p generalizing s with
  | nil => simp
  | cons c p ih =>
    rw [List.map_cons, List.cons_append, likeMatch_char]
    constructor
    · rintro ⟨rest, rfl, h⟩
      obtain ⟨rest', rfl, h'⟩ := ih.mp h
      exact ⟨rest', rfl, h'⟩
    · rintro ⟨rest, rfl, h⟩
      exact ⟨p ++ rest, rfl, ih.mpr ⟨rest, rfl, h⟩⟩

/-- `%p%`, with no special character in `p`, looks for `p` as it is. -/
theorem likeMatch_containing :
    likeMatch (.any :: (p.map .char ++ [LikeToken.any])) s = true ↔ p <:+: s := by
  have hrest : ∀ rest, likeMatch [.any] rest = true := fun rest =>
    likeMatch_any.mpr ⟨rest, [], (List.append_nil rest).symm, rfl⟩
  rw [likeMatch_any]
  constructor
  · rintro ⟨skipped, rest, rfl, h⟩
    obtain ⟨rest', rfl, -⟩ := likeMatch_chars.mp h
    exact ⟨skipped, rest', List.append_assoc _ _ _⟩
  · rintro ⟨skipped, rest, rfl⟩
    exact ⟨skipped, p ++ rest, List.append_assoc _ _ _,
      likeMatch_chars.mpr ⟨rest, rfl, hrest rest⟩⟩

/-! Patterns of stars -/

/- The tokens of a text in which only `*` is special. -/
def globTokens (p : List Char) : List LikeToken := p.map fun c => if c = '*' then .any else .char c

theorem globMatches_iff (p text : List Char) :
    likeMatch (foldTokens f (globTokens p)) (text.map f.fold) = true ↔ GlobMatches f p text := by
  induction p generalizing text with
  | nil =>
    cases text with
    | nil => exact iff_of_true rfl .nil
    | cons d text =>
      have hnil : likeMatch (foldTokens f (globTokens [])) ((d :: text).map f.fold) = false := rfl
      refine iff_of_false (by rw [hnil]; exact Bool.false_ne_true) fun h => ?_
      cases h
  | cons c p ih =>
    by_cases hstar : c = '*'
    · subst hstar
      have htokens : foldTokens f (globTokens ('*' :: p)) =
          .any :: foldTokens f (globTokens p) := rfl
      rw [htokens, likeMatch_any]
      constructor
      · rintro ⟨skipped, rest, heq, h⟩
        obtain ⟨skipped', rest', rfl, -, rfl⟩ := List.map_eq_append_iff.mp heq
        exact .star skipped' ((ih rest').mp h)
      · intro h
        cases h with
        | star skipped h => exact ⟨_, _, List.map_append, (ih _).mpr h⟩
        | char hne => exact absurd rfl hne
    · have htokens : foldTokens f (globTokens (c :: p)) =
          .char (f.fold c) :: foldTokens f (globTokens p) := by
        simp [foldTokens, globTokens, hstar, LikeToken.map]
      rw [htokens, likeMatch_char]
      constructor
      · rintro ⟨rest, heq, h⟩
        obtain ⟨d, text', rfl, hd, rfl⟩ := List.map_eq_cons_iff.mp heq
        exact .char hstar hd.symm ((ih text').mp h)
      · intro h
        cases h with
        | star => exact absurd rfl hstar
        | char hne hfold h => exact ⟨_, by rw [List.map_cons, hfold], (ih _).mpr h⟩

/-! Substrings -/

/-- No character of the text is special in a pattern. -/
def Plain (p : List Char) : Prop := ∀ c ∈ p, isSpecial c = false

instance (p : List Char) : Decidable (Plain p) :=
  inferInstanceAs (Decidable (∀ c ∈ p, isSpecial c = false))

theorem likeTokens_plain (h : Plain p) (rest : List Char) :
    likeTokens (p ++ rest) = (likeTokens rest).map (p.map .char ++ ·) := by
  induction p with
  | nil => simp
  | cons c p ih =>
    have ih := ih fun d hd => h d (List.mem_cons_of_mem c hd)
    rw [List.cons_append, likeTokens_char (h c List.mem_cons_self), ih, Option.map_map]
    rfl

theorem ilike_containing (h : Plain p) (text : List Char) :
    ilike f text ('%' :: p ++ ['%']) = some (decide (ContainsFolded f text p)) := by
  have hplain : Plain (p.map f.fold) := by
    intro c hc
    obtain ⟨d, hd, rfl⟩ := List.mem_map.mp hc
    exact f.plain d (h d hd)
  have htokens : likeTokens (('%' :: p ++ ['%']).map f.fold) =
      some (.any :: ((p.map f.fold).map .char ++ [LikeToken.any])) := by
    rw [List.map_append, List.map_cons, List.map_singleton, f.special '%' rfl, List.cons_append,
      likeTokens_any, likeTokens_plain hplain, likeTokens_any]
    rfl
  rw [ilike, htokens, Option.map_some, Option.some.injEq, Bool.eq_iff_iff, likeMatch_containing,
    decide_eq_true_iff]
  rfl

/- A text of the pattern, the shortest that it has. -/
def sample (ts : List LikeToken) : List Char :=
  ts.flatMap fun t =>
    match t with
    | .any => []
    | .one => ['a']
    | .char c => [c]

theorem likeMatch_sample (ts : List LikeToken) :
    likeMatch (foldTokens f ts) ((sample ts).map f.fold) = true := by
  induction ts with
  | nil => rfl
  | cons t ts ih =>
    cases t with
    | any => exact likeMatch_any.mpr ⟨[], _, rfl, ih⟩
    | one => exact likeMatch_one.mpr ⟨f.fold 'a', _, rfl, ih⟩
    | char c => exact likeMatch_char.mpr ⟨_, rfl, ih⟩

/-- With a special character in it, `%p%` has a text that is shorter than `p` or differs from it. -/
theorem sample_containing (p : List Char) : ∃ ts, likeTokens (p ++ ['%']) = some ts ∧
    (sample ts).length ≤ p.length ∧ ((sample ts).map f.fold = p.map f.fold → Plain p) := by
  induction p using likeTokens.induct with
  | case1 => exact ⟨[.any], rfl, Nat.le_refl 0, fun _ => by simp [Plain]⟩
  | case2 =>
    refine ⟨[.char '%'], rfl, Nat.le_refl 1, fun h => ?_⟩
    have hfold : f.fold '%' = f.fold '\\' := by simpa [sample] using h
    rw [f.special '%' rfl, f.special '\\' rfl] at hfold
    cases hfold
  | case3 c rest ih =>
    obtain ⟨ts, hts, hlength, -⟩ := ih
    have hle : (sample (.char c :: ts)).length ≤ rest.length + 1 := by
      simpa [sample] using hlength
    refine ⟨.char c :: ts, ?_, ?_, fun h => ?_⟩
    · rw [List.cons_append, List.cons_append, likeTokens_escaped, hts, Option.map_some]
    · rw [List.length_cons, List.length_cons]
      omega
    · have heq := congrArg List.length h
      simp only [List.length_map, List.length_cons] at heq
      omega
  | case4 c rest hlone hescaped ih =>
    obtain ⟨ts, hts, hlength, hplain⟩ := ih
    cases hspecial : isSpecial c with
    | true =>
      simp only [isSpecial, Bool.or_eq_true, decide_eq_true_eq] at hspecial
      obtain (rfl | rfl) | rfl := hspecial
      · cases rest with
        | nil => exact absurd rfl (hlone rfl)
        | cons d rest => exact absurd rfl (hescaped d rest rfl)
      · have hsample : sample (.any :: ts) = sample ts := rfl
        refine ⟨.any :: ts, ?_, ?_, fun h => ?_⟩
        · rw [List.cons_append, likeTokens_any, hts, Option.map_some]
        · rw [hsample, List.length_cons]
          omega
        · have heq := congrArg List.length h
          rw [hsample, List.length_map, List.length_map, List.length_cons] at heq
          omega
      · refine ⟨.one :: ts, ?_, ?_, fun h => ?_⟩
        · rw [List.cons_append, likeTokens_one, hts, Option.map_some]
        · simpa [sample] using hlength
        · have hfold : f.fold 'a' = '_' := by
            have hhead := (List.cons.inj h).1
            rwa [f.special '_' rfl] at hhead
          have ha := (fold_special_iff (f := f) (c := '_') rfl 'a').mp hfold
          cases ha
    | false =>
      refine ⟨.char c :: ts, ?_, ?_, fun h => ?_⟩
      · rw [List.cons_append, likeTokens_char hspecial, hts, Option.map_some]
      · simpa [sample] using hlength
      · have hrest : Plain rest := hplain (List.cons.inj h).2
        intro d hd
        obtain rfl | hd := List.mem_cons.mp hd
        · exact hspecial
        · exact hrest d hd

/-- A text for which `%p%` says something else than that `p` is in it. -/
theorem exists_not_containing (h : ¬ Plain p) :
    ∃ text, ilike f text ('%' :: p ++ ['%']) = some true ∧ ¬ ContainsFolded f text p := by
  obtain ⟨ts, hts, hlength, hplain⟩ := sample_containing (f := f) p
  have htokens : likeTokens (('%' :: p ++ ['%']).map f.fold) =
      some (.any :: foldTokens f ts) := by
    rw [likeTokens_map, List.cons_append, likeTokens_any, hts]
    rfl
  refine ⟨sample ts, ?_, fun hcontains => ?_⟩
  · rw [ilike, htokens, Option.map_some, Option.some.injEq]
    exact likeMatch_any.mpr ⟨[], _, rfl, likeMatch_sample ts⟩
  · obtain ⟨before, after, heq⟩ := hcontains
    have hlen := congrArg List.length heq
    simp only [List.length_append, List.length_map] at hlen
    have hbefore : before = [] := List.length_eq_zero_iff.mp (by omega)
    have hafter : after = [] := List.length_eq_zero_iff.mp (by omega)
    subst hbefore hafter
    rw [List.nil_append, List.append_nil] at heq
    exact h (hplain heq.symm)

end Pivox.Sql
