import Mathlib.Tactic.IntervalCases

/-!
JSON of a list of strings as Go's encoding/json writes and reads it: control characters, the
characters of HTML and the line separators are escaped, and a nil slice is null.
-/

namespace Json

abbrev Text := List Char

def hexDigit (n : Nat) : Char := if n < 10 then Char.ofNat (48 + n) else Char.ofNat (87 + n)

def hexValue (c : Char) : Option Nat :=
  if '0' ≤ c ∧ c ≤ '9' then some (c.toNat - 48)
  else if 'a' ≤ c ∧ c ≤ 'f' then some (c.toNat - 87)
  else if 'A' ≤ c ∧ c ≤ 'F' then some (c.toNat - 55)
  else none

def hex4 (a b c d : Char) : Option Nat := do
  let a ← hexValue a
  let b ← hexValue b
  let c ← hexValue c
  let d ← hexValue d
  pure (((a * 16 + b) * 16 + c) * 16 + d)

def escapeUnicode (c : Char) : Text :=
  ['\\', 'u', hexDigit (c.toNat / 4096 % 16), hexDigit (c.toNat / 256 % 16),
    hexDigit (c.toNat / 16 % 16), hexDigit (c.toNat % 16)]

/- The letters of the short escapes. -/
def shortEscape : Char → Option Char
  | '"' => some '"'
  | '\\' => some '\\'
  | '\x08' => some 'b'
  | '\x0c' => some 'f'
  | '\n' => some 'n'
  | '\r' => some 'r'
  | '\t' => some 't'
  | _ => none

def unescape : Char → Option Char
  | '"' => some '"'
  | '\\' => some '\\'
  | '/' => some '/'
  | 'b' => some '\x08'
  | 'f' => some '\x0c'
  | 'n' => some '\n'
  | 'r' => some '\r'
  | 't' => some '\t'
  | _ => none

def escaped (c : Char) : Bool :=
  c < ' ' || c = '<' || c = '>' || c = '&' || c.toNat = 0x2028 || c.toNat = 0x2029

def encodeChar (c : Char) : Text :=
  match shortEscape c with
  | some e => ['\\', e]
  | none => if escaped c then escapeUnicode c else [c]

def encodeString (s : Text) : Text := '"' :: (s.flatMap encodeChar ++ ['"'])

def encodeItems : List Text → Text
  | [] => []
  | [s] => encodeString s
  | s :: rest => encodeString s ++ ',' :: encodeItems rest

/-- json.Marshal of a []string. -/
def marshal : Option (List Text) → Text
  | none => ['n', 'u', 'l', 'l']
  | some items => '[' :: (encodeItems items ++ [']'])

inductive Token where
  | open | close | comma | null
  | string (s : Text)
  deriving DecidableEq

def replacement : Char := Char.ofNat 0xfffd

def isHigh (n : Nat) : Bool := 0xd800 ≤ n && n < 0xdc00
def isLow (n : Nat) : Bool := 0xdc00 ≤ n && n < 0xe000

def pair (hi lo : Nat) : Char := Char.ofNat ((hi - 0xd800) * 0x400 + (lo - 0xdc00) + 0x10000)

/- The string after an escaped code unit, and the high surrogate that waits for its low one: a
   surrogate that stays alone is replaced. -/
def addUnit (acc : Text) (hi : Option Nat) (n : Nat) : Text × Option Nat :=
  match hi with
  | some h =>
    if isLow n then (acc ++ [pair h n], none)
    else if isHigh n then (acc ++ [replacement], some n)
    else (acc ++ [replacement, Char.ofNat n], none)
  | none =>
    if isHigh n then (acc, some n)
    else if isLow n then (acc ++ [replacement], none)
    else (acc ++ [Char.ofNat n], none)

def settle (acc : Text) : Option Nat → Text
  | some _ => acc ++ [replacement]
  | none => acc

mutual
/- What is left of a text, as tokens. -/
def tokens : Text → Option (List Token)
  | [] => some []
  | 'n' :: 'u' :: 'l' :: 'l' :: rest => (tokens rest).map (.null :: ·)
  | c :: rest =>
    if c = '"' then stringTokens [] none rest
    else if c = '[' then (tokens rest).map (.open :: ·)
    else if c = ']' then (tokens rest).map (.close :: ·)
    else if c = ',' then (tokens rest).map (.comma :: ·)
    else if c = ' ' ∨ c = '\t' ∨ c = '\n' ∨ c = '\r' then tokens rest
    else none

/- The same within a string, of which `acc` has been read. -/
def stringTokens (acc : Text) (hi : Option Nat) : Text → Option (List Token)
  | [] => none
  | c :: rest =>
    if c = '"' then (tokens rest).map (.string (settle acc hi) :: ·)
    else if c = '\\' then
      match rest with
      | [] => none
      | 'u' :: a :: b :: c :: d :: rest =>
        match hex4 a b c d with
        | none => none
        | some n => stringTokens (addUnit acc hi n).1 (addUnit acc hi n).2 rest
      | e :: rest =>
        match unescape e with
        | some c => stringTokens (settle acc hi ++ [c]) none rest
        | none => none
    else if c < ' ' then none
    else stringTokens (settle acc hi ++ [c]) none rest
end

/- The items of an array, up to its bracket; a null leaves the zero value. -/
def items : List Token → Option (List Text)
  | .string s :: .comma :: rest => (items rest).map (s :: ·)
  | .null :: .comma :: rest => (items rest).map ([] :: ·)
  | [.string s, .close] => some [s]
  | [.null, .close] => some [[]]
  | _ => none

/-- json.Unmarshal into a []string. -/
def unmarshal (text : Text) : Option (Option (List Text)) :=
  match tokens text with
  | some [.null] => some none
  | some [.open, .close] => some (some [])
  | some (.open :: ts) => (items ts).map some
  | _ => none

theorem hexValue_hexDigit {n : Nat} (h : n < 16) : hexValue (hexDigit n) = some n := by
  interval_cases n <;> rfl

theorem hex4_toNat {n : Nat} (h : n < 0x10000) :
    hex4 (hexDigit (n / 4096 % 16)) (hexDigit (n / 256 % 16)) (hexDigit (n / 16 % 16))
      (hexDigit (n % 16)) = some n := by
  simp only [hex4, hexValue_hexDigit (Nat.mod_lt _ (by omega : 16 > 0)), bind, Option.bind, pure]
  congr 1
  omega

theorem unescape_of_shortEscape {c e : Char} (h : shortEscape c = some e) :
    unescape e = some c ∧ e ≠ 'u' := by
  unfold shortEscape at h
  split at h <;> cases h <;> decide

theorem plain_of_shortEscape {c : Char} (h : shortEscape c = none) : c ≠ '"' ∧ c ≠ '\\' := by
  constructor
  · rintro rfl
    cases h
  · rintro rfl
    cases h

theorem toNat_of_escaped {c : Char} (h : escaped c = true) : c.toNat < 0xd800 := by
  simp only [escaped, Bool.or_eq_true, decide_eq_true_eq] at h
  obtain ((((h | rfl) | rfl) | rfl) | h) | h := h
  · have hlt : c.toNat < ' '.toNat := h
    exact hlt.trans (by decide)
  · decide
  · decide
  · decide
  · omega
  · omega

theorem addUnit_of_lt (acc : Text) {n : Nat} (h : n < 0xd800) :
    addUnit acc none n = (acc ++ [Char.ofNat n], none) := by
  have hhigh : isHigh n = false := by simp [isHigh, h]
  have hlow : isLow n = false := by
    have hlt : ¬ 0xdc00 ≤ n := by omega
    simp [isLow, hlt]
  simp [addUnit, hhigh, hlow]

theorem stringTokens_quote (acc : Text) (hi : Option Nat) (rest : Text) :
    stringTokens acc hi ('"' :: rest) = (tokens rest).map (.string (settle acc hi) :: ·) := by
  rw [stringTokens.eq_def]
  rfl

theorem stringTokens_plain {c : Char} (hquote : c ≠ '"') (hback : c ≠ '\\') (hctl : ¬ c < ' ')
    (acc : Text) (hi : Option Nat) (rest : Text) :
    stringTokens acc hi (c :: rest) = stringTokens (settle acc hi ++ [c]) none rest := by
  rw [stringTokens.eq_def]
  simp [hquote, hback, hctl]

/-- One character of a string, written and read back. -/
theorem stringTokens_encodeChar (acc rest : Text) (c : Char) :
    stringTokens acc none (encodeChar c ++ rest) = stringTokens (acc ++ [c]) none rest := by
  unfold encodeChar
  cases hshort : shortEscape c with
  | some e =>
    obtain ⟨hunescape, hu⟩ := unescape_of_shortEscape hshort
    simp [stringTokens, hu, hunescape, settle]
  | none =>
    obtain ⟨hquote, hback⟩ := plain_of_shortEscape hshort
    cases hesc : escaped c with
    | true =>
      have hlt := toNat_of_escaped hesc
      have hhex := hex4_toNat (hlt.trans (by omega : 0xd800 < 0x10000))
      simp [escapeUnicode, stringTokens, hhex, addUnit_of_lt acc hlt]
    | false =>
      have hctl : ¬ c < ' ' := by
        intro hlt
        simp [escaped, hlt] at hesc
      exact stringTokens_plain hquote hback hctl acc none rest

theorem stringTokens_encode (acc s rest : Text) :
    stringTokens acc none (s.flatMap encodeChar ++ '"' :: rest) =
      (tokens rest).map (.string (acc ++ s) :: ·) := by
  induction s generalizing acc with
  | nil => simp [stringTokens_quote, settle]
  | cons c s ih =>
    rw [List.flatMap_cons, List.append_assoc, stringTokens_encodeChar, ih, List.append_assoc,
      List.singleton_append]

theorem tokens_encodeString (s rest : Text) :
    tokens (encodeString s ++ rest) = (tokens rest).map (.string s :: ·) := by
  simpa [encodeString, tokens] using stringTokens_encode [] s rest

/- The tokens of a list of strings. -/
def itemTokens : List Text → List Token
  | [] => []
  | [s] => [.string s]
  | s :: rest => .string s :: .comma :: itemTokens rest

theorem tokens_encodeItems (ss : List Text) :
    tokens (encodeItems ss ++ [']']) = some (itemTokens ss ++ [Token.close]) := by
  induction ss with
  | nil => simp [encodeItems, itemTokens, tokens]
  | cons s ss ih =>
    cases ss with
    | nil => simp [encodeItems, itemTokens, tokens_encodeString, tokens]
    | cons s' ss =>
      rw [encodeItems, List.append_assoc, tokens_encodeString, List.cons_append, tokens, if_neg (by simp),
        if_neg (by simp), if_neg (by simp), if_pos rfl, ih]
      · rfl
      · simp
      · simp

theorem items_itemTokens {ss : List Text} (h : ss ≠ []) :
    items (itemTokens ss ++ [Token.close]) = some ss := by
  induction ss with
  | nil => exact absurd rfl h
  | cons s ss ih =>
    cases ss with
    | nil => rfl
    | cons s' ss =>
      have ih := ih (by simp)
      simp [itemTokens, items, ih]

/-- What Marshal writes, Unmarshal reads back. -/
theorem unmarshal_marshal (ss : Option (List Text)) : unmarshal (marshal ss) = some ss := by
  cases ss with
  | none => rfl
  | some ss =>
    have htokens : tokens (marshal (some ss)) = some (.open :: (itemTokens ss ++ [Token.close])) := by
      simp [marshal, tokens, tokens_encodeItems]
    cases ss with
    | nil => simp [unmarshal, htokens, itemTokens]
    | cons s ss =>
      have hitems := items_itemTokens (List.cons_ne_nil s ss)
      cases ss with
      | nil => simpa [unmarshal, htokens, itemTokens] using hitems
      | cons s' ss => simpa [unmarshal, htokens, itemTokens] using hitems

example : unmarshal (marshal (some ["/a\n<".toList, []])) = some (some ["/a\n<".toList, []]) := by
  decide

end Json
