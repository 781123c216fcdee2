/-!
Shell patterns as Go's path.Match reads them: `*` and `?` stop at a slash, `[..]` is a class, a
backslash takes the next character as it is, and a malformed pattern is an error.
-/

namespace Path

abbrev Text := List Char

/- A character of a pattern, with or without a backslash before it. -/
inductive Lexeme where
  | plain (c : Char)
  | escaped (c : Char)
  deriving DecidableEq

def lexemes : Text → Option (List Lexeme)
  | [] => some []
  | ['\\'] => none
  | '\\' :: c :: rest => (lexemes rest).map (.escaped c :: ·)
  | c :: rest => (lexemes rest).map (.plain c :: ·)

/- One end of a range: neither a dash nor the closing bracket, unless escaped. -/
def Lexeme.bound : Lexeme → Option Char
  | .plain c => if c = '-' ∨ c = ']' then none else some c
  | .escaped c => some c

inductive Token where
  | char (c : Char)
  | any
  | charClass (negated : Bool) (ranges : List (Char × Char))
  deriving DecidableEq

mutual
/-- The tokens of a chunk of a pattern. -/
def tokens : List Lexeme → Option (List Token)
  | [] => some []
  | .plain '[' :: .plain '^' :: rest => classTokens true [] rest
  | .plain '[' :: rest => classTokens false [] rest
  | .plain '?' :: rest => (tokens rest).map (.any :: ·)
  | .plain c :: rest => (tokens rest).map (.char c :: ·)
  | .escaped c :: rest => (tokens rest).map (.char c :: ·)

/- The same within a class, of which the ranges `rs` have been read: a class is not empty. -/
def classTokens (negated : Bool) (rs : List (Char × Char)) : List Lexeme → Option (List Token)
  | [] => none
  | .plain ']' :: rest =>
    if rs = [] then none else (tokens rest).map (.charClass negated rs :: ·)
  | lo :: .plain '-' :: hi :: rest =>
    match lo.bound, hi.bound with
    | some lo, some hi => classTokens negated (rs ++ [(lo, hi)]) rest
    | _, _ => none
  | lo :: rest =>
    match lo.bound with
    | some lo => classTokens negated (rs ++ [(lo, lo)]) rest
    | none => none
end

def Token.accepts (c : Char) : Token → Bool
  | .char c' => c = c'
  | .any => c ≠ '/'
  | .charClass negated ranges => (ranges.any fun r => r.1 ≤ c && c ≤ r.2) != negated

/- What the tokens leave of a name. -/
def consume : List Token → Text → Option Text
  | [], name => some name
  | _ :: _, [] => none
  | t :: ts, c :: name => if t.accepts c then consume ts name else none

/- matchChunk: the outer failure is ErrBadPattern, which it reports on a name that fails, too. -/
def matchChunk (chunk name : Text) : Option (Option Text) :=
  ((lexemes chunk).bind tokens).map (consume · name)

/- A star, or none, and the pattern up to the next star. -/
structure Piece where
  star : Bool
  chunk : Text
  deriving DecidableEq

/- scanChunk, over the whole pattern: a star within brackets is no star. -/
def scan (star inRange : Bool) (chunk : Text) : Text → List Piece
  | [] => if star ∨ chunk ≠ [] then [⟨star, chunk⟩] else []
  | '\\' :: c :: rest => scan star inRange (chunk ++ ['\\', c]) rest
  | c :: rest =>
    if c = '*' ∧ inRange = false then
      if chunk = [] then scan true false [] rest else ⟨star, chunk⟩ :: scan true false [] rest
    else scan star (if c = '[' then true else if c = ']' then false else inRange) (chunk ++ [c]) rest

def pieces (pattern : Text) : List Piece := scan false false [] pattern

/- Of the last piece nothing of the name may be left. -/
def leaves (last : Bool) : Option Text → Option Text
  | some rest => if last ∧ rest ≠ [] then none else some rest
  | none => none

/- What a star may skip, one more character at a time and never a slash. -/
def skip (last : Bool) (chunk : Text) : Text → Option (Option Text)
  | [] => some none
  | c :: name =>
    if c = '/' then some none
    else
      match matchChunk chunk name with
      | none => none
      | some left =>
        match leaves last left with
        | some rest => some (some rest)
        | none => skip last chunk name

def wellFormed (ps : List Piece) : Bool := ps.all fun p => (matchChunk p.chunk []).isSome

def matchPieces : List Piece → Text → Option Bool
  | [], name => some (name = [])
  | p :: ps, name =>
    if p.star ∧ p.chunk = [] then some ('/' ∉ name)
    else
      match matchChunk p.chunk name with
      | none => none
      | some left =>
        match leaves (ps = []) left with
        | some rest => matchPieces ps rest
        | none =>
          match (if p.star then skip (ps = []) p.chunk name else some none) with
          | none => none
          | some (some rest) => matchPieces ps rest
          | some none => if wellFormed ps then some false else none

/-- path.Match: `none` is ErrBadPattern. -/
def pathMatch (pattern name : Text) : Option Bool := matchPieces (pieces pattern) name

/-- A backslash before each character. -/
def escape : Text → Text
  | [] => []
  | c :: text => '\\' :: c :: escape text

theorem escape_ne_nil {text : Text} (h : text ≠ []) : escape text ≠ [] := by
  cases text with
  | nil => exact absurd rfl h
  | cons c text => simp [escape]

theorem scan_escape (chunk text : Text) (h : chunk ++ escape text ≠ []) :
    scan false false chunk (escape text) = [⟨false, chunk ++ escape text⟩] := by
  induction text generalizing chunk with
  | nil =>
    have hchunk : chunk ≠ [] := by simpa [escape] using h
    simp [escape, scan, hchunk]
  | cons c text ih =>
    have hchunk : (chunk ++ ['\\', c]) ++ escape text ≠ [] := by simp
    rw [escape, scan, ih _ hchunk, List.append_assoc]
    rfl

theorem lexemes_escape (text : Text) : lexemes (escape text) = some (text.map .escaped) := by
  induction text with
  | nil => rfl
  | cons c text ih => simp [escape, lexemes, ih]

theorem tokens_escaped (text : Text) :
    tokens (text.map .escaped) = some (text.map .char) := by
  induction text with
  | nil => simp [tokens]
  | cons c text ih => simp [tokens, ih]

theorem consume_char {text name rest : Text} :
    consume (text.map .char) name = some rest ↔ name = text ++ rest := by
  induction text generalizing name with
  | nil => simp [consume, eq_comm]
  | cons c text ih =>
    cases name with
    | nil => simp [consume]
    | cons c' name =>
      by_cases h : c' = c
      · simp [consume, Token.accepts, h, ih]
      · simp [consume, Token.accepts, h]

theorem matchChunk_escape (text name : Text) :
    matchChunk (escape text) name = some (consume (text.map .char) name) := by
  simp [matchChunk, lexemes_escape, tokens_escaped]

/-- An escaped name matches itself and nothing else. -/
theorem pathMatch_escape {text : Text} (h : text ≠ []) (name : Text) :
    pathMatch (escape text) name = some (decide (name = text)) := by
  have hne : escape text ≠ [] := escape_ne_nil h
  have hpieces : pieces (escape text) = [⟨false, escape text⟩] := scan_escape [] text (by simpa using hne)
  simp only [pathMatch, hpieces, matchPieces, hne, matchChunk_escape]
  cases hc : consume (text.map .char) name with
  | none =>
    have hname : name ≠ text := by
      rintro rfl
      simp [consume_char.mpr (List.append_nil name).symm] at hc
    simp [leaves, wellFormed, hname]
  | some rest =>
    obtain rfl := consume_char.mp hc
    cases rest with
    | nil => simp [leaves]
    | cons c rest => simp [leaves, wellFormed]

end Path
