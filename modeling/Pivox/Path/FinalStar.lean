import Pivox.Path.Match

/-!
What a shell pattern matches that ends in a star, in terms of the pattern without it. Each piece of
a pattern takes the first place where it fits and no other is tried, so the pattern without the
star has to be read on every initial part of the name.
-/

namespace Path

/-! Tokens read exactly their number of characters -/

theorem consume_append {ts : List Token} {name rest : Text} (h : consume ts name = some rest)
    (b : Text) : consume ts (name ++ b) = some (rest ++ b) := by
  induction ts generalizing name with
  | nil =>
    simp only [consume, Option.some.injEq] at h
    simp [consume, h]
  | cons t ts ih =>
    cases name with
    | nil => simp [consume] at h
    | cons c name =>
      cases hc : t.accepts c with
      | false => simp [consume, hc] at h
      | true =>
        simp only [consume, hc, if_true] at h
        simpa [consume, hc] using ih h

theorem length_le_of_consume {ts : List Token} {name rest : Text}
    (h : consume ts name = some rest) : ts.length ≤ name.length := by
  induction ts generalizing name with
  | nil => simp
  | cons t ts ih =>
    cases name with
    | nil => simp [consume] at h
    | cons c name =>
      cases hc : t.accepts c with
      | false => simp [consume, hc] at h
      | true =>
        simp only [consume, hc, if_true] at h
        have hlen := ih h
        simp only [List.length_cons]
        omega

theorem consume_trim {ts : List Token} {name b rest : Text} (hlen : ts.length ≤ name.length)
    (h : consume ts (name ++ b) = some rest) :
    ∃ left, consume ts name = some left ∧ rest = left ++ b := by
  induction ts generalizing name with
  | nil => exact ⟨name, by simp [consume], by simpa [consume] using h.symm⟩
  | cons t ts ih =>
    cases name with
    | nil => simp at hlen
    | cons c name =>
      cases hc : t.accepts c with
      | false => simp [consume, hc] at h
      | true =>
        have hlen : ts.length ≤ name.length := by simpa using hlen
        simp only [List.cons_append, consume, hc, if_true] at h
        obtain ⟨left, hleft, heq⟩ := ih hlen h
        exact ⟨left, by simpa [consume, hc] using hleft, heq⟩

theorem exists_of_consume {ts : List Token} {name rest : Text}
    (h : consume ts name = some rest) :
    ∃ read, name = read ++ rest ∧ consume ts read = some [] := by
  induction ts generalizing name with
  | nil => exact ⟨[], by simpa [consume] using h, rfl⟩
  | cons t ts ih =>
    cases name with
    | nil => simp [consume] at h
    | cons c name =>
      cases hc : t.accepts c with
      | false => simp [consume, hc] at h
      | true =>
        simp only [consume, hc, if_true] at h
        obtain ⟨read, heq, hread⟩ := ih h
        exact ⟨c :: read, by simp [heq], by simpa [consume, hc] using hread⟩

/-! The first place where a piece fits -/

/- matchChunk and skip as one search. -/
def seek (last star : Bool) (ts : List Token) : Text → Option Text
  | [] => leaves last (consume ts [])
  | c :: name =>
    match leaves last (consume ts (c :: name)) with
    | some rest => some rest
    | none => if star ∧ c ≠ '/' then seek last star ts name else none

@[simp] theorem leaves_false (left : Option Text) : leaves false left = left := by
  cases left <;> simp [leaves]

theorem leaves_eq_some {last : Bool} {left : Option Text} {rest : Text} :
    leaves last left = some rest ↔ left = some rest ∧ (last = true → rest = []) := by
  cases left with
  | none => simp [leaves]
  | some text =>
    simp only [leaves]
    grind -linarith

theorem seek_of_leaves {last : Bool} {ts : List Token} {name rest : Text} (star : Bool)
    (h : leaves last (consume ts name) = some rest) : seek last star ts name = some rest := by
  cases name with
  | nil => exact h
  | cons c name => simp [seek, h]

theorem seek_no_star (last : Bool) (ts : List Token) (name : Text) :
    seek last false ts name = leaves last (consume ts name) := by
  cases name with
  | nil => rfl
  | cons c name =>
    simp only [seek]
    cases leaves last (consume ts (c :: name)) <;> simp

theorem seek_skip {last : Bool} {ts : List Token} {c : Char} {name : Text}
    (h : leaves last (consume ts (c :: name)) = none) (hc : c ≠ '/') :
    seek last true ts (c :: name) = seek last true ts name := by
  simp [seek, h, hc]

theorem seek_slash {last star : Bool} {ts : List Token} {c : Char} {name : Text}
    (h : leaves last (consume ts (c :: name)) = none) (hc : c = '/') :
    seek last star ts (c :: name) = none := by
  simp only [seek, h]
  simp [hc]

theorem length_le_of_seek {last star : Bool} {ts : List Token} {name rest : Text}
    (h : seek last star ts name = some rest) : ts.length ≤ name.length := by
  induction name with
  | nil => exact length_le_of_consume (leaves_eq_some.mp h).1
  | cons c name ih =>
    cases hl : leaves last (consume ts (c :: name)) with
    | some left => exact length_le_of_consume (leaves_eq_some.mp hl).1
    | none =>
      simp only [seek, hl] at h
      split at h
      · have hlen := ih h
        simp only [List.length_cons]
        omega
      · cases h

/- A piece that fits leaves no less of a longer name: the first place is still there. -/
theorem seek_append {last star : Bool} {ts : List Token} {name rest : Text}
    (h : seek last star ts name = some rest) (b : Text) :
    ∃ left, seek false star ts (name ++ b) = some (left ++ b) ∧ (last = false → left = rest) := by
  induction name with
  | nil =>
    have hconsume := consume_append (leaves_eq_some.mp h).1 b
    exact ⟨rest, seek_of_leaves star (by simpa using hconsume), fun _ => rfl⟩
  | cons c name ih =>
    have hlen := length_le_of_seek h
    cases hb : consume ts ((c :: name) ++ b) with
    | some left =>
      obtain ⟨left, hleft, rfl⟩ := consume_trim hlen hb
      refine ⟨left, seek_of_leaves star (by simpa using hb), ?_⟩
      rintro rfl
      have hseek : seek false star ts (c :: name) = some left :=
        seek_of_leaves star (by simpa using hleft)
      simpa [hseek] using h
    | none =>
      have hb : consume ts (c :: (name ++ b)) = none := hb
      have hnone : leaves last (consume ts (c :: name)) = none := by
        cases hc : consume ts (c :: name) with
        | none => rfl
        | some left =>
          have happend : consume ts (c :: (name ++ b)) = some (left ++ b) := consume_append hc b
          rw [hb] at happend
          cases happend
      simp only [seek, hnone] at h
      split at h
      · next hstar =>
        obtain ⟨left, hleft, hlast⟩ := ih h
        exact ⟨left, by simpa [seek, hb, hstar] using hleft, hlast⟩
      · cases h

/- And cut where a later reader stops, the name is still fitted in the same place. -/
theorem seek_trim {last star : Bool} {ts : List Token} {name a b : Text}
    (h : seek false star ts name = some (a ++ b)) (hlast : last = true → a = []) :
    ∃ read, name = read ++ (a ++ b) ∧ seek last star ts (read ++ a) = some a := by
  have hhere : ∀ name, consume ts name = some (a ++ b) →
      ∃ read, name = read ++ (a ++ b) ∧ seek last star ts (read ++ a) = some a := by
    intro name hname
    obtain ⟨read, heq, hread⟩ := exists_of_consume hname
    have ha : consume ts (read ++ a) = some a := by simpa using consume_append hread a
    exact ⟨read, heq, seek_of_leaves star (leaves_eq_some.mpr ⟨ha, hlast⟩)⟩
  induction name with
  | nil => exact hhere [] (by simpa [seek] using h)
  | cons c name ih =>
    cases hc : consume ts (c :: name) with
    | some left =>
      simp only [seek, hc, leaves_false, Option.some.injEq] at h
      exact hhere _ (by rw [hc, h])
    | none =>
      simp only [seek, hc, leaves_false] at h
      split at h
      · next hstar =>
        obtain ⟨read, rfl, hread⟩ := ih h
        have hnone : consume ts (c :: (read ++ a)) = none := by
          cases hr : consume ts (c :: (read ++ a)) with
          | none => rfl
          | some left =>
            have happend := consume_append hr b
            rw [List.cons_append, List.append_assoc, hc] at happend
            cases happend
        refine ⟨c :: read, rfl, ?_⟩
        simpa [seek, hnone, hstar, leaves] using hread
      · cases h

/-! The pieces before a final star -/

def Piece.tokens (p : Piece) : Option (List Token) := (lexemes p.chunk).bind Path.tokens

theorem skip_eq {last : Bool} {chunk : Text} {ts : List Token} {c : Char} {name : Text}
    (hts : (lexemes chunk).bind tokens = some ts)
    (hnone : leaves last (consume ts (c :: name)) = none) :
    skip last chunk (c :: name) = some (seek last true ts (c :: name)) := by
  by_cases hc : c = '/'
  · rw [seek_slash hnone hc, skip, if_pos hc]
  · rw [seek_skip hnone hc, skip, if_neg hc]
    simp only [matchChunk, hts, Option.map_some]
    cases hl : leaves last (consume ts name) with
    | some rest => rw [seek_of_leaves true hl]
    | none =>
      cases name with
      | nil => rw [seek, hl, skip]
      | cons c' name => exact skip_eq hts hl
termination_by name.length

theorem matchPieces_cons {p : Piece} {ps : List Piece} {ts : List Token} (hp : p.chunk ≠ [])
    (hts : p.tokens = some ts) (name : Text) :
    matchPieces (p :: ps) name = some true ↔
      ∃ rest, seek (ps = []) p.star ts name = some rest ∧ matchPieces ps rest = some true := by
  have hchunk : matchChunk p.chunk name = some (consume ts name) := by
    rw [matchChunk, ← Piece.tokens, hts, Option.map_some]
  cases hl : leaves (ps = []) (consume ts name) with
  | some rest => simp [matchPieces, hp, hchunk, hl, seek_of_leaves p.star hl]
  | none =>
    have hskip : (if p.star then skip (ps = []) p.chunk name else some none) =
        some (seek (ps = []) p.star ts name) := by
      cases name with
      | nil => cases p.star <;> simp [skip, seek, hl]
      | cons c name =>
        cases hstar : p.star with
        | true => simpa using skip_eq hts hl
        | false => simp [seek, hl]
    simp only [matchPieces, hp, and_false, if_false, hchunk, hl, hskip]
    cases seek (ps = []) p.star ts name with
    | some rest => simp
    | none => by_cases hw : wellFormed ps <;> simp [hw]

theorem matchPieces_of_tokens_none {p : Piece} {ps : List Piece} (hp : p.chunk ≠ [])
    (hts : p.tokens = none) (name : Text) : matchPieces (p :: ps) name = none := by
  have hchunk : matchChunk p.chunk name = none := by
    rw [matchChunk, ← Piece.tokens, hts, Option.map_none]
  simp [matchPieces, hp, hchunk]

/- What the pieces leave of a name, none of them as the last. -/
def leftover : List Piece → Text → Option Text
  | [], name => some name
  | p :: ps, name => p.tokens.bind fun ts => (seek false p.star ts name).bind (leftover ps)

theorem leftover_cons {p : Piece} {ps : List Piece} {name rest : Text} :
    leftover (p :: ps) name = some rest ↔
      ∃ ts, p.tokens = some ts ∧ ∃ left, seek false p.star ts name = some left ∧
        leftover ps left = some rest := by
  simp only [leftover, Option.bind_eq_some_iff]

theorem matchPieces_star {ps : List Piece} (hps : ∀ p ∈ ps, p.chunk ≠ []) (name : Text) :
    matchPieces (ps ++ [⟨true, []⟩]) name = some true ↔
      ∃ rest, leftover ps name = some rest ∧ '/' ∉ rest := by
  induction ps generalizing name with
  | nil => simp [matchPieces, leftover]
  | cons p ps ih =>
    have hp := hps p List.mem_cons_self
    have hps : ∀ p ∈ ps, p.chunk ≠ [] := fun p' hp' => hps p' (List.mem_cons_of_mem p hp')
    rw [List.cons_append]
    cases hts : p.tokens with
    | none => simp [matchPieces_of_tokens_none hp hts, leftover, hts]
    | some ts =>
      have hmore : decide (ps ++ [⟨true, []⟩] = []) = false := by simp
      rw [matchPieces_cons hp hts, hmore]
      constructor
      · rintro ⟨left, hseek, hleft⟩
        obtain ⟨rest, hrest, hslash⟩ := (ih hps left).mp hleft
        exact ⟨rest, leftover_cons.mpr ⟨ts, hts, left, hseek, hrest⟩, hslash⟩
      · rintro ⟨rest, hrest, hslash⟩
        obtain ⟨ts', hts', left, hseek, hrest⟩ := leftover_cons.mp hrest
        obtain rfl : ts = ts' := Option.some.inj (hts.symm.trans hts')
        exact ⟨left, hseek, (ih hps left).mpr ⟨rest, hrest, hslash⟩⟩

/- What is read before the rest is a match of the pieces. -/
theorem matchPieces_of_leftover {ps : List Piece} (hps : ∀ p ∈ ps, p.chunk ≠ []) {name rest : Text}
    (h : leftover ps name = some rest) :
    ∃ read, name = read ++ rest ∧ matchPieces ps read = some true := by
  induction ps generalizing name with
  | nil => exact ⟨[], by simpa [leftover] using h, rfl⟩
  | cons p ps ih =>
    obtain ⟨ts, hts, left, hseek, hleft⟩ := leftover_cons.mp h
    have hp := hps p List.mem_cons_self
    obtain ⟨more, rfl, hmore⟩ := ih (fun p' hp' => hps p' (List.mem_cons_of_mem p hp')) hleft
    have hlast : decide (ps = []) = true → more = [] := by
      intro hnil
      obtain rfl : ps = [] := of_decide_eq_true hnil
      simpa [matchPieces] using hmore
    obtain ⟨read, rfl, hread⟩ := seek_trim hseek hlast
    refine ⟨read ++ more, by simp, ?_⟩
    exact (matchPieces_cons hp hts _).mpr ⟨more, hread, hmore⟩

/- A match of the beginning of a name leaves no less than what follows it. -/
theorem leftover_of_matchPieces {ps : List Piece} (hps : ∀ p ∈ ps, p.chunk ≠ []) {name : Text}
    (h : matchPieces ps name = some true) (b : Text) :
    ∃ left, leftover ps (name ++ b) = some (left ++ b) := by
  induction ps generalizing name with
  | nil =>
    have hname : name = [] := by simpa [matchPieces] using h
    exact ⟨[], by simp [leftover, hname]⟩
  | cons p ps ih =>
    have hp := hps p List.mem_cons_self
    cases hts : p.tokens with
    | none => simp [matchPieces_of_tokens_none hp hts] at h
    | some ts =>
      obtain ⟨rest, hseek, hrest⟩ := (matchPieces_cons hp hts name).mp h
      obtain ⟨left, hleft, hmore⟩ := seek_append hseek b
      by_cases hnil : ps = []
      · subst hnil
        exact ⟨left, leftover_cons.mpr ⟨ts, hts, left ++ b, hleft, rfl⟩⟩
      · obtain rfl : left = rest := hmore (by simpa using hnil)
        obtain ⟨left', hleft'⟩ := ih (fun p' hp' => hps p' (List.mem_cons_of_mem p hp')) hrest
        exact ⟨left', leftover_cons.mpr ⟨ts, hts, left ++ b, hleft, hleft'⟩⟩

/-! Brackets: scanChunk and matchChunk see the same classes -/

/- Whether a class is open after the character. -/
def Lexeme.range (inRange : Bool) : Lexeme → Bool
  | .plain c => if c = '[' then true else if c = ']' then false else inRange
  | .escaped _ => inRange

def rangeAfter (inRange : Bool) (ls : List Lexeme) : Bool := ls.foldl Lexeme.range inRange

theorem Lexeme.range_of_bound {l : Lexeme} {c : Char} (h : l.bound = some c) :
    l.range true = true := by
  cases l with
  | escaped c => rfl
  | plain c =>
    have hc : c ≠ ']' := by
      rintro rfl
      simp [Lexeme.bound] at h
    simp [Lexeme.range, hc]

theorem ne_backslash {c : Char} {rest : Text} (hlast : c = '\\' → rest = [] → False)
    (hnext : ∀ c' rest', c = '\\' → rest = c' :: rest' → False) : c ≠ '\\' := by
  rintro rfl
  cases rest with
  | nil => exact hlast rfl rfl
  | cons c' rest => exact hnext c' rest rfl rfl

theorem lexemes_append {chunk text : Text} {ls ms : List Lexeme} (h : lexemes chunk = some ls)
    (htext : lexemes text = some ms) : lexemes (chunk ++ text) = some (ls ++ ms) := by
  induction chunk using lexemes.induct generalizing ls with
  | case1 =>
    obtain rfl : [] = ls := by simpa [lexemes] using h
    exact htext
  | case2 => simp [lexemes] at h
  | case3 c rest ih =>
    simp only [lexemes, Option.map_eq_some_iff] at h
    obtain ⟨ls, hls, rfl⟩ := h
    simp [lexemes, ih hls]
  | case4 c rest hlast hnext ih =>
    have hc : c ≠ '\\' := ne_backslash hlast hnext
    rw [lexemes.eq_4 c rest hlast hnext, Option.map_eq_some_iff] at h
    obtain ⟨ls, hls, rfl⟩ := h
    rw [List.cons_append, lexemes.eq_4 c (rest ++ text) (fun hc' => absurd hc' hc)
      (fun _ _ hc' => absurd hc' hc), ih hls]
    rfl

/- A class that is not closed is malformed. -/
theorem rangeAfter_of_tokens :
    (∀ ls ts, tokens ls = some ts → rangeAfter false ls = false) ∧
      ∀ negated rs ls ts, classTokens negated rs ls = some ts → rangeAfter true ls = false := by
  apply tokens.mutual_induct
    (fun ls => ∀ ts, tokens ls = some ts → rangeAfter false ls = false)
    (fun negated rs ls => ∀ ts, classTokens negated rs ls = some ts → rangeAfter true ls = false)
  -- outside a class
  · intro ts h
    rfl
  · intro rest ih ts h
    exact ih ts (by simpa [tokens] using h)
  · intro rest hcaret ih ts h
    exact ih ts (by rwa [tokens.eq_3 rest hcaret] at h)
  · intro rest ih ts h
    obtain ⟨ts', hts', -⟩ : ∃ ts', tokens rest = some ts' ∧ .any :: ts' = ts := by
      simpa [tokens] using h
    exact ih ts' hts'
  · intro c rest hcaret hopen hany ih ts h
    obtain ⟨ts', hts', -⟩ : ∃ ts', tokens rest = some ts' ∧ .char c :: ts' = ts := by
      simpa [tokens, hopen, hany] using h
    have hc : Lexeme.range false (.plain c) = false := by simp [Lexeme.range, show c ≠ '[' from hopen]
    simpa [rangeAfter, hc] using ih ts' hts'
  · intro c rest ih ts h
    obtain ⟨ts', hts', -⟩ : ∃ ts', tokens rest = some ts' ∧ .char c :: ts' = ts := by
      simpa [tokens] using h
    exact ih ts' hts'
  -- within one
  · intro negated rs ts h
    simp [classTokens] at h
  · intro negated rest ts h
    simp [classTokens] at h
  · intro negated rs rest hrs ih ts h
    obtain ⟨ts', hts', -⟩ :
        ∃ ts', tokens rest = some ts' ∧ .charClass negated rs :: ts' = ts := by
      simpa [classTokens, hrs] using h
    exact ih ts' hts'
  · intro negated rs lo hi rest hclose lo' hi' hhi hlo ih ts h
    have hrest : classTokens negated (rs ++ [(lo', hi')]) rest = some ts := by
      simpa [classTokens, hlo, hhi] using h
    have hdash : Lexeme.range true (.plain '-') = true := rfl
    simpa [rangeAfter, Lexeme.range_of_bound hlo, Lexeme.range_of_bound hhi, hdash] using
      ih ts hrest
  · intro negated rs lo hi rest hclose hbounds ts h
    rw [classTokens.eq_3 negated rs lo hi rest hclose] at h
    split at h
    · next lo' hi' hlo hhi => exact (hbounds lo' hi' hlo hhi).elim
    · cases h
  · intro negated rs lo rest hclose hdash lo' hlo ih ts h
    have hrest : classTokens negated (rs ++ [(lo', lo')]) rest = some ts := by
      rw [classTokens.eq_4 negated rs lo rest hclose hdash] at h
      simpa [hlo] using h
    simpa [rangeAfter, Lexeme.range_of_bound hlo] using ih ts hrest
  · intro negated rs lo rest hclose hdash hlo ts h
    rw [classTokens.eq_4 negated rs lo rest hclose hdash] at h
    simp [hlo] at h

theorem tokens_none_of_rangeAfter {star : Bool} {chunk : Text} {ls : List Lexeme}
    (hls : lexemes chunk = some ls) (h : rangeAfter false ls = true) :
    (Piece.mk star chunk).tokens = none := by
  cases hts : (Piece.mk star chunk).tokens with
  | none => rfl
  | some ts =>
    simp only [Piece.tokens, hls, Option.bind_some] at hts
    simp [rangeAfter_of_tokens.1 ls ts hts] at h

/- How the pieces of a pattern `ps` go on in those of the pattern with a star after it. -/
def StarAfter (ps qs : List Piece) : Prop :=
  qs = ps ++ [⟨true, []⟩] ∨
    ∃ (front : List Piece) (last last' : Piece), ps = front ++ [last] ∧ qs = front ++ [last'] ∧
      last.tokens = none ∧ last'.tokens = none ∧ last'.chunk ≠ []

theorem StarAfter.cons {ps qs : List Piece} (h : StarAfter ps qs) (p : Piece) :
    StarAfter (p :: ps) (p :: qs) := by
  obtain rfl | ⟨front, last, last', rfl, rfl, hlast, hlast', hne⟩ := h
  · exact .inl rfl
  · exact .inr ⟨p :: front, last, last', rfl, rfl, hlast, hlast', hne⟩

theorem scan_star (star : Bool) {chunk : Text} {ls : List Lexeme} (hls : lexemes chunk = some ls)
    (hchunk : chunk ≠ []) :
    StarAfter (scan star (rangeAfter false ls) chunk [])
      (scan star (rangeAfter false ls) chunk ['*']) := by
  cases hr : rangeAfter false ls with
  | false => exact .inl (by simp [scan, hchunk])
  | true =>
    have hstar : lexemes (chunk ++ ['*']) = some (ls ++ [Lexeme.plain '*']) := lexemes_append hls rfl
    have hrange : rangeAfter false (ls ++ [Lexeme.plain '*']) = true := by
      simpa [rangeAfter, Lexeme.range] using hr
    exact .inr ⟨[], ⟨star, chunk⟩, ⟨star, chunk ++ ['*']⟩, by simp [scan, hchunk], by simp [scan],
      tokens_none_of_rangeAfter hls hr, tokens_none_of_rangeAfter hstar hrange, by simp⟩

theorem scan_slash_star (start : Text) (star : Bool) {chunk : Text} {ls : List Lexeme}
    (hls : lexemes chunk = some ls) :
    StarAfter (scan star (rangeAfter false ls) chunk (start ++ ['/']))
        (scan star (rangeAfter false ls) chunk (start ++ ['/', '*'])) ∧
      ∀ p ∈ scan star (rangeAfter false ls) chunk (start ++ ['/']), p.chunk ≠ [] := by
  induction start using lexemes.induct generalizing star chunk ls with
  | case1 =>
    have hchunk := lexemes_append hls (show lexemes ['/'] = some [.plain '/'] from rfl)
    have hrange : rangeAfter false (ls ++ [Lexeme.plain '/']) = rangeAfter false ls := by
      simp [rangeAfter, Lexeme.range]
    have hscan := scan_star star hchunk (by simp)
    rw [hrange] at hscan
    exact ⟨by simpa [scan] using hscan, by simp [scan]⟩
  | case2 =>
    have hchunk := lexemes_append hls (show lexemes ['\\', '/'] = some [.escaped '/'] from rfl)
    have hrange : rangeAfter false (ls ++ [Lexeme.escaped '/']) = rangeAfter false ls := by
      simp [rangeAfter, Lexeme.range]
    have hscan := scan_star star hchunk (by simp)
    rw [hrange] at hscan
    exact ⟨by simpa [scan] using hscan, by simp [scan]⟩
  | case3 c rest ih =>
    have hchunk := lexemes_append hls (show lexemes ['\\', c] = some [.escaped c] from rfl)
    have hrange : rangeAfter false (ls ++ [Lexeme.escaped c]) = rangeAfter false ls := by
      simp [rangeAfter, Lexeme.range]
    have hscan := ih star hchunk
    rw [hrange] at hscan
    simpa [scan] using hscan
  | case4 c rest hlast hnext ih =>
    have hc : c ≠ '\\' := ne_backslash hlast hnext
    have hplain : ∀ text, scan star (rangeAfter false ls) chunk (c :: text) =
        if c = '*' ∧ rangeAfter false ls = false then
          if chunk = [] then scan true false [] text else ⟨star, chunk⟩ :: scan true false [] text
        else scan star (Lexeme.range (rangeAfter false ls) (.plain c)) (chunk ++ [c]) text :=
      fun text => scan.eq_3 _ _ _ _ _ fun _ _ hc' => absurd hc' hc
    rw [List.cons_append, List.cons_append, hplain, hplain]
    by_cases hstar : c = '*' ∧ rangeAfter false ls = false
    · have hscan := ih true (show lexemes [] = some [] from rfl)
      rw [if_pos hstar, if_pos hstar]
      by_cases hchunk : chunk = []
      · rw [if_pos hchunk, if_pos hchunk]
        exact hscan
      · rw [if_neg hchunk, if_neg hchunk]
        refine ⟨hscan.1.cons _, ?_⟩
        intro p hp
        obtain rfl | hp := List.mem_cons.mp hp
        · exact hchunk
        · exact hscan.2 p hp
    · have hcs : lexemes [c] = some [.plain c] := by simp [lexemes, hc]
      have hscan := ih star (lexemes_append hls hcs)
      have hrange : rangeAfter false (ls ++ [Lexeme.plain c]) =
          Lexeme.range (rangeAfter false ls) (.plain c) := by simp [rangeAfter]
      rw [if_neg hstar, if_neg hstar, ← hrange]
      exact hscan

theorem not_matchPieces_of_tokens_none {front : List Piece} {last : Piece}
    (hfront : ∀ p ∈ front, p.chunk ≠ []) (hlast : last.tokens = none) (hne : last.chunk ≠ [])
    (name : Text) : matchPieces (front ++ [last]) name ≠ some true := by
  induction front generalizing name with
  | nil => simp [matchPieces_of_tokens_none hne hlast]
  | cons p front ih =>
    have hp := hfront p List.mem_cons_self
    intro h
    cases hts : p.tokens with
    | none => simp [matchPieces_of_tokens_none hp hts] at h
    | some ts =>
      obtain ⟨rest, -, hrest⟩ := (matchPieces_cons hp hts name).mp h
      exact ih (fun p' hp' => hfront p' (List.mem_cons_of_mem p hp')) rest hrest

/-- Some beginning of the name that the pattern matches is followed by a last segment, and none
is followed by more than that. -/
def MatchesDir (pattern name : Text) : Prop :=
  (∃ dir base, name = dir ++ base ∧ '/' ∉ base ∧ pathMatch pattern dir = some true) ∧
    ∀ dir rest, name = dir ++ rest → '/' ∈ rest → pathMatch pattern dir ≠ some true

/-- What `start/*` matches, for any pattern `start`. -/
theorem pathMatch_slash_star (start name : Text) :
    pathMatch (start ++ ['/', '*']) name = some true ↔ MatchesDir (start ++ ['/']) name := by
  obtain ⟨hscan, hne⟩ := scan_slash_star start false (show lexemes [] = some [] from rfl)
  have hne : ∀ p ∈ pieces (start ++ ['/']), p.chunk ≠ [] := hne
  have hscan : StarAfter (pieces (start ++ ['/'])) (pieces (start ++ ['/', '*'])) := hscan
  unfold MatchesDir pathMatch
  obtain hstar | ⟨front, last, last', hps, hqs, hlast, hlast', hne'⟩ := hscan
  · rw [hstar, matchPieces_star hne]
    constructor
    · rintro ⟨base, hbase, hslash⟩
      obtain ⟨dir, hname, hdir⟩ := matchPieces_of_leftover hne hbase
      refine ⟨⟨dir, base, hname, hslash, hdir⟩, ?_⟩
      intro dir' rest hname' hrest hdir'
      obtain ⟨left, hleft⟩ := leftover_of_matchPieces hne hdir' rest
      rw [← hname', hbase, Option.some.injEq] at hleft
      exact hslash (hleft ▸ List.mem_append_right left hrest)
    · rintro ⟨⟨dir, base, rfl, hslash, hdir⟩, hmore⟩
      obtain ⟨left, hleft⟩ := leftover_of_matchPieces hne hdir base
      refine ⟨left ++ base, hleft, ?_⟩
      intro hmem
      obtain ⟨read, hread, hmatch⟩ := matchPieces_of_leftover hne hleft
      exact hmore read _ hread hmem hmatch
  · have hfront : ∀ p ∈ front, p.chunk ≠ [] := by
      intro p hp
      exact hne p (hps ▸ List.mem_append_left [last] hp)
    have hlastne : last.chunk ≠ [] := hne last (by simp [hps])
    rw [hps, hqs]
    constructor
    · intro h
      exact absurd h (not_matchPieces_of_tokens_none hfront hlast' hne' name)
    · rintro ⟨⟨dir, base, -, -, hdir⟩, -⟩
      exact absurd hdir (not_matchPieces_of_tokens_none hfront hlast hlastne dir)

/-! A pattern without any sign of its own -/

def Literal (c : Char) : Prop := c ≠ '*' ∧ c ≠ '?' ∧ c ≠ '[' ∧ c ≠ '\\'

theorem scan_literal {chunk text : Text} (h : chunk ++ text ≠ []) (htext : ∀ c ∈ text, Literal c)
    (inRange : Bool) : scan false inRange chunk text = [⟨false, chunk ++ text⟩] := by
  induction text generalizing chunk inRange with
  | nil =>
    have hchunk : chunk ≠ [] := by simpa using h
    simp [scan, hchunk]
  | cons c text ih =>
    obtain ⟨hstar, -, -, hescape⟩ := htext c List.mem_cons_self
    have hrest : ∀ c ∈ text, Literal c := fun c' hc' => htext c' (List.mem_cons_of_mem c hc')
    rw [scan.eq_3 _ _ _ _ _ fun _ _ hc => absurd hc hescape, if_neg fun hc => hstar hc.1,
      ih (by simp) hrest, List.append_assoc]
    rfl

theorem tokens_literal {text : Text} (htext : ∀ c ∈ text, Literal c) :
    (lexemes text).bind tokens = some (text.map .char) := by
  have hlexemes : lexemes text = some (text.map .plain) := by
    induction text with
    | nil => rfl
    | cons c text ih =>
      obtain ⟨-, -, -, hescape⟩ := htext c List.mem_cons_self
      have hrest := ih fun c' hc' => htext c' (List.mem_cons_of_mem c hc')
      rw [lexemes.eq_4 c text (fun hc => absurd hc hescape) (fun _ _ hc => absurd hc hescape), hrest]
      rfl
  rw [hlexemes, Option.bind_some]
  induction text with
  | nil => simp [tokens]
  | cons c text ih =>
    obtain ⟨-, hany, hopen, hescape⟩ := htext c List.mem_cons_self
    have hrest : ∀ c ∈ text, Literal c := fun c' hc' => htext c' (List.mem_cons_of_mem c hc')
    have htail : lexemes text = some (text.map .plain) := by
      rw [lexemes.eq_4 c text (fun hc => absurd hc hescape) (fun _ _ hc => absurd hc hescape)] at hlexemes
      simpa [Function.Injective.eq_iff] using hlexemes
    simp [tokens, hopen, ih hrest htail]

/-- A literal pattern matches itself and nothing else. -/
theorem pathMatch_literal {text : Text} (h : text ≠ []) (htext : ∀ c ∈ text, Literal c)
    (name : Text) : pathMatch text name = some true ↔ name = text := by
  have hpieces : pieces text = [⟨false, text⟩] := scan_literal (by simpa using h) htext false
  have hts : (Piece.mk false text).tokens = some (text.map .char) := tokens_literal htext
  rw [pathMatch, hpieces, matchPieces_cons h hts]
  constructor
  · rintro ⟨rest, hseek, hrest⟩
    have hnil : rest = [] := by simpa [matchPieces] using hrest
    subst hnil
    rw [seek_no_star] at hseek
    simpa using consume_char.mp (leaves_eq_some.mp hseek).1
  · rintro rfl
    have hconsume : consume (name.map .char) name = some [] := consume_char.mpr (by simp)
    exact ⟨[], seek_of_leaves false (leaves_eq_some.mpr ⟨hconsume, fun _ => rfl⟩), rfl⟩

/-- What stands one segment below a literal directory. -/
theorem matchesDir_literal {start : Text} (hstart : ∀ c ∈ start, Literal c) (name : Text) :
    MatchesDir (start ++ ['/']) name ↔ ∃ base, name = start ++ ['/'] ++ base ∧ '/' ∉ base := by
  have hslash : ∀ c ∈ start ++ ['/'], Literal c := by
    intro c hc
    obtain hc | hc := List.mem_append.mp hc
    · exact hstart c hc
    · obtain rfl := List.mem_singleton.mp hc
      unfold Literal
      decide
  have hmatch : ∀ dir, pathMatch (start ++ ['/']) dir = some true ↔ dir = start ++ ['/'] :=
    pathMatch_literal (by simp) hslash
  simp only [MatchesDir, hmatch]
  constructor
  · rintro ⟨⟨dir, base, rfl, hbase, rfl⟩, -⟩
    exact ⟨base, rfl, hbase⟩
  · rintro ⟨base, rfl, hbase⟩
    refine ⟨⟨_, base, rfl, hbase, rfl⟩, ?_⟩
    intro dir rest heq hrest hdir
    obtain rfl := (hmatch dir).mp hdir
    obtain rfl := List.append_cancel_left heq
    exact hbase hrest

end Path
