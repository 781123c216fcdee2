import Pivox.Path.Clean

/-!
Percent-encoded paths, as Go's net/url decodes them into the bytes of a text.
-/

namespace Path

def hexDigit (c : Char) : Option Nat :=
  if '0' ≤ c ∧ c ≤ '9' then some (c.toNat - '0'.toNat)
  else if 'a' ≤ c ∧ c ≤ 'f' then some (c.toNat - 'a'.toNat + 10)
  else if 'A' ≤ c ∧ c ≤ 'F' then some (c.toNat - 'A'.toNat + 10)
  else none

/- The UTF-8 of a text. -/
def bytes (p : Text) : List UInt8 := p.flatMap String.utf8EncodeChar

/- `%XX` is a byte, any other character is itself; none where no two digits follow a percent. -/
def unescape : Text → Option (List UInt8)
  | [] => some []
  | '%' :: a :: b :: p =>
    match hexDigit a, hexDigit b with
    | some x, some y => (unescape p).map (UInt8.ofNat (16 * x + y) :: ·)
    | _, _ => none
  | c :: p => if c = '%' then none else (unescape p).map (String.utf8EncodeChar c ++ ·)

variable {p q rest : Text} {bs bs' : List UInt8}

@[simp] theorem bytes_nil : bytes [] = [] := rfl

theorem bytes_cons (c : Char) (p : Text) : bytes (c :: p) = String.utf8EncodeChar c ++ bytes p :=
  List.flatMap_cons

theorem utf8EncodeChar_slash : String.utf8EncodeChar '/' = [0x2f] := by decide

theorem unescape_slash (p : Text) : unescape ('/' :: p) = (unescape p).map (0x2f :: ·) := by
  rw [unescape, if_neg (by decide), utf8EncodeChar_slash]
  · rfl
  · simp

/-- A slash that stands for itself separates what is before it from what is behind it. -/
theorem unescape_append_slash (h : unescape p = some bs) :
    unescape (p ++ '/' :: rest) = (unescape rest).map (bs ++ 0x2f :: ·) := by
  induction p using unescape.induct generalizing bs with
  | case1 =>
    cases h
    exact unescape_slash rest
  | case2 a b p x y hx hy ih =>
    simp only [unescape, hx, hy, Option.map_eq_some_iff] at h
    obtain ⟨tail, htail, rfl⟩ := h
    simp [unescape, hx, hy, ih htail, Function.comp_def]
  | case3 a b p hnone =>
    cases ha : hexDigit a with
    | none => simp [unescape, ha] at h
    | some x =>
      cases hb : hexDigit b with
      | none => simp [unescape, ha, hb] at h
      | some y => exact (hnone x y ha hb).elim
  | case4 p hshort =>
    simp [unescape] at h
  | case5 c p hshort hne ih =>
    rw [unescape, if_neg hne] at h
    · obtain ⟨tail, htail, rfl⟩ := Option.map_eq_some_iff.mp h
      rw [List.cons_append, unescape, if_neg hne, ih htail]
      · simp [Function.comp_def]
      · intro a b q hq
        exact absurd hq hne
    · exact hshort

theorem utf8EncodeChar_ascii {c : Char} (h : c.toNat < 128) :
    String.utf8EncodeChar c = [UInt8.ofNat c.toNat] :=
  if_pos (by change c.toNat ≤ 127; omega)

/-- A byte below 128 stands for a character on its own. -/
theorem utf8EncodeChar_eq_cons {c : Char} {b : UInt8} (h : String.utf8EncodeChar c = b :: bs)
    (hb : b.toNat < 128) : c.toNat = b.toNat ∧ bs = [] := by
  obtain hc | hc := Nat.lt_or_ge c.toNat 128
  · rw [utf8EncodeChar_ascii hc] at h
    injection h with hhead htail
    refine ⟨?_, htail.symm⟩
    rw [← hhead, UInt8.toNat_ofNat']
    omega
  · -- The first byte of a longer sequence is at least 192.
    have hlead : 192 ≤ b.toNat := by
      unfold String.utf8EncodeChar at h
      dsimp only at h
      rw [if_neg (by change ¬ c.toNat ≤ 127; omega)] at h
      split at h
      · injection h with hhead
        rw [← hhead, UInt8.toNat_ofNat']
        omega
      · split at h
        · injection h with hhead
          rw [← hhead, UInt8.toNat_ofNat']
          omega
        · injection h with hhead
          rw [← hhead, UInt8.toNat_ofNat']
          omega
    omega

/-- A text whose bytes begin with those of an ASCII text begins with that text. -/
theorem prefix_of_bytes (hascii : ∀ c ∈ q, c.toNat < 128) (h : bytes p = bytes q ++ bs) :
    ∃ rest, p = q ++ rest := by
  induction q generalizing p with
  | nil => exact ⟨p, rfl⟩
  | cons c q ih =>
    have hc : c.toNat < 128 := hascii c List.mem_cons_self
    rw [bytes_cons, utf8EncodeChar_ascii hc] at h
    cases p with
    | nil => cases h
    | cons d p =>
      rw [bytes_cons] at h
      cases hd : String.utf8EncodeChar d with
      | nil => exact absurd hd String.utf8EncodeChar_ne_nil
      | cons b tail =>
        rw [hd] at h
        injection h with hhead hrest
        have hbyte : b.toNat = c.toNat := by
          rw [hhead, UInt8.toNat_ofNat']
          omega
        obtain ⟨hdc, rfl⟩ := utf8EncodeChar_eq_cons hd (by omega)
        obtain ⟨rest, rfl⟩ := ih (fun x hx => hascii x (List.mem_cons_of_mem c hx)) hrest
        obtain rfl : d = c := Char.toNat_inj.mp (hdc.trans hbyte)
        exact ⟨rest, rfl⟩

end Path
