import Pivox.Json.Strings

/-!
Percent-encoding as encodeURIComponent and decodeURIComponent do it, of strings that may have
surrogates outside of a pair.
-/

namespace Pivox.Js

inductive JsChar where
  | scalar (c : Char)
  | surrogate (u : UInt16)
  deriving DecidableEq

abbrev JsString := List JsChar

def isUnreserved (c : Char) : Bool :=
  c.isAlphanum || ['-', '_', '.', '!', '~', '*', '\'', '(', ')'].contains c

def hexDigit (n : Nat) : Char := if n < 10 then Char.ofNat (48 + n) else Char.ofNat (55 + n)

def percentByte (b : UInt8) : List Char := ['%', hexDigit (b.toNat / 16), hexDigit (b.toNat % 16)]

def encodeChar (c : Char) : List Char :=
  if isUnreserved c then [c] else (String.utf8EncodeChar c).flatMap percentByte

/- A surrogate outside of a pair makes it throw. -/
def encodeURIComponent : JsString → Option (List Char)
  | [] => some []
  | .scalar c :: s => (encodeURIComponent s).map (encodeChar c ++ ·)
  | .surrogate _ :: _ => none

/- The characters of bytes that are UTF-8. -/
def decodeBytes (bytes : List UInt8) : Option JsString :=
  bytes.toByteArray.utf8Decode?.map fun cs => cs.toList.map .scalar

/- The bytes are those of the escapes just before the text. -/
def decodeFrom (bytes : List UInt8) : List Char → Option JsString
  | [] => decodeBytes bytes
  | '%' :: high :: low :: rest => do
    let high ← Json.hexValue high
    let low ← Json.hexValue low
    decodeFrom (bytes ++ [UInt8.ofNat (high * 16 + low)]) rest
  | c :: rest =>
    if c = '%' then none
    else do
      let before ← decodeBytes bytes
      let s ← decodeFrom [] rest
      some (before ++ .scalar c :: s)

def decodeURIComponent (text : List Char) : Option JsString := decodeFrom [] text

variable {c : Char} {s : JsString} {text rest : List Char} {bytes : List UInt8} {cs : List Char}

theorem hexValue_hexDigit {n : Nat} (h : n < 16) : Json.hexValue (hexDigit n) = some n := by
  interval_cases n <;> rfl

theorem hexDigit_ne {n : Nat} (h : n < 16) : hexDigit n ≠ ';' := by
  interval_cases n <;> decide

/-- No semicolon in what is encoded, so that it can stand in a list of cookies. -/
theorem semicolon_notMem_encode (h : encodeURIComponent s = some text) : ';' ∉ text := by
  induction s generalizing text with
  | nil =>
    cases h
    exact List.not_mem_nil
  | cons x s ih =>
    cases x with
    | surrogate u => cases h
    | scalar c =>
      obtain ⟨rest, hrest, rfl⟩ := Option.map_eq_some_iff.mp h
      rw [List.mem_append]
      rintro (hmem | hmem)
      · rw [encodeChar] at hmem
        split at hmem
        · rename_i hc
          obtain rfl := List.mem_singleton.mp hmem
          revert hc
          decide
        · obtain ⟨b, -, hb⟩ := List.mem_flatMap.mp hmem
          have hlt := b.toNat_lt
          simp only [percentByte, List.mem_cons, List.not_mem_nil, or_false] at hb
          obtain hb | hb | hb := hb
          · revert hb
            decide
          · exact hexDigit_ne (by omega) hb.symm
          · exact hexDigit_ne (by omega) hb.symm
      · exact ih hrest hmem

end Pivox.Js
