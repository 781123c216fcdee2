import Mathlib.Algebra.Order.GroupWithZero.Basic
import Mathlib.Algebra.Order.Ring.Nat
import Mathlib.Data.List.Infix
import Mathlib.Tactic.IntervalCases

/-!
The numbers of JavaScript that decimal digits denote: doubles, exact below 2^53, and the texts that
they are written as.
-/

namespace Pivox.Js

inductive Number where
  | finite (value : ℕ)
  | infinity
  deriving DecidableEq

def exact : ℕ := 2 ^ 53

def overflow : ℕ := 2 ^ 1024

/- The double nearest to a natural number; of two that are as near, the even one. -/
def nearest (n : ℕ) : ℕ :=
  let unit := 2 ^ (n.log2 - 52)
  let low := n / unit
  let past := n % unit
  if unit < 2 * past ∨ (unit = 2 * past ∧ low % 2 = 1) then (low + 1) * unit else low * unit

def Number.ofNat (n : ℕ) : Number := if nearest n < overflow then .finite (nearest n) else .infinity

/- The digits by which `finite n` is told from other numbers, at most `k` fewer than all, and the
   power of ten that they are taken at: Number::toString takes the fewest. -/
def significant (n : ℕ) : ℕ → ℕ × ℕ
  | 0 => (n, 0)
  | k + 1 =>
    let low := n / 10 ^ (k + 1)
    let isLow := Number.ofNat (low * 10 ^ (k + 1)) = .finite n
    let isHigh := Number.ofNat ((low + 1) * 10 ^ (k + 1)) = .finite n
    if isHigh ∧ (¬ isLow ∨ 10 ^ (k + 1) < 2 * (n % 10 ^ (k + 1))) then (low + 1, k + 1)
    else if isLow then (low, k + 1)
    else significant n k

/- Below 2^53 these are all digits of the number; from 21 digits on there is an exponent. -/
def Number.text : Number → String
  | .infinity => "Infinity"
  | .finite n =>
    if n < exact then toString n
    else
      let (s, zeros) := significant n (Nat.toDigits 10 n).length
      let digits := Nat.toDigits 10 s
      if digits.length + zeros ≤ 21 then toString (s * 10 ^ zeros)
      else
        let point := if digits.length = 1 then [] else '.' :: digits.tail
        String.ofList (digits.take 1 ++ point) ++ "e+" ++ toString (digits.length + zeros - 1)

theorem exact_lt_overflow : exact < overflow := by
  unfold exact overflow
  exact pow_lt_pow_right₀ (by decide) (by decide)

theorem nearest_of_lt {n : ℕ} (h : n < exact) : nearest n = n := by
  have hlog : n.log2 - 52 = 0 := by
    by_cases hn : n = 0
    · rw [hn, Nat.log2_zero]
    · have hlt : n.log2 < 53 := (Nat.log2_lt hn).mpr h
      omega
  simp [nearest, hlog, Nat.mod_one]

theorem Number.ofNat_of_lt {n : ℕ} (h : n < exact) : Number.ofNat n = .finite n := by
  have hlt : n < overflow := Nat.lt_trans h exact_lt_overflow
  rw [Number.ofNat, nearest_of_lt h, if_pos hlt]

theorem Number.text_ofNat {n : ℕ} (h : n < exact) : (Number.ofNat n).text = toString n := by
  rw [Number.ofNat_of_lt h, Number.text, if_pos h]

/-! Leading zeros -/

/- A text without the zeros that start one of its numbers and that another digit follows. -/
def dropZeros : Bool → List Char → List Char
  | _, [] => []
  | inNumber, c :: cs =>
    if inNumber = false ∧ c = '0' ∧ (cs.head?.any Char.isDigit) = true then dropZeros false cs
    else c :: dropZeros c.isDigit cs

def withoutLeadingZeros (s : String) : String := String.ofList (dropZeros false s.toList)

/- The numbers that the digits from any place of a text on make. -/
def numbersIn (s : List Char) : List ℕ :=
  s.tails.map fun rest => Nat.ofDigitChars 10 (rest.takeWhile Char.isDigit) 0

variable {digits rest : List Char}

theorem digitChar_toNat {c : Char} (h : c.isDigit = true) :
    c.toNat - '0'.toNat < 10 ∧ Nat.digitChar (c.toNat - '0'.toNat) = c := by
  have hbounds : 48 ≤ c.toNat ∧ c.toNat ≤ 57 := by
    simp only [Char.isDigit, Bool.and_eq_true, decide_eq_true_eq] at h
    exact h
  have hc : c = Char.ofNat c.toNat := (Char.ofNat_toNat c).symm
  have hdigit : ∀ k, 48 ≤ k → k ≤ 57 →
      k - '0'.toNat < 10 ∧ Nat.digitChar (k - '0'.toNat) = Char.ofNat k := by
    intro k hlow hhigh
    interval_cases k <;> decide
  have hdigit := hdigit c.toNat hbounds.1 hbounds.2
  rwa [← hc] at hdigit

theorem toDigits_ofDigitChars {m : ℕ} (hm : 0 < m) (h : ∀ c ∈ digits, c.isDigit = true) :
    Nat.toDigits 10 (Nat.ofDigitChars 10 digits m) = Nat.toDigits 10 m ++ digits := by
  induction digits generalizing m with
  | nil => simp
  | cons c digits ih =>
    obtain ⟨hlt, hchar⟩ := digitChar_toNat (h c List.mem_cons_self)
    have hpos : 0 < 10 * m + (c.toNat - '0'.toNat) := by
      omega
    rw [Nat.ofDigitChars_cons, ih hpos fun d hd => h d (List.mem_cons_of_mem c hd),
      ← Nat.toDigits_append_toDigits (by decide) hm hlt, Nat.toDigits_of_lt_base hlt, hchar,
      List.append_assoc, List.singleton_append]

theorem dropZeros_digits (h : ∀ c ∈ digits, c.isDigit = true) :
    dropZeros true (digits ++ rest) = digits ++ dropZeros true rest := by
  induction digits with
  | nil => rfl
  | cons c digits ih =>
    have hc := h c List.mem_cons_self
    have ih := ih fun d hd => h d (List.mem_cons_of_mem c hd)
    simp [dropZeros, hc, ih]

/-- The digits of a number are kept but for its leading zeros: what is left is its decimal text. -/
theorem dropZeros_number {close : Char} (hclose : close.isDigit = false) (hne : digits ≠ [])
    (h : ∀ c ∈ digits, c.isDigit = true) :
    dropZeros false (digits ++ close :: rest) =
      Nat.toDigits 10 (Nat.ofDigitChars 10 digits 0) ++ close :: dropZeros false rest := by
  have hend : ∀ b, dropZeros b (close :: rest) = close :: dropZeros false rest := by
    intro b
    have hzero : close ≠ '0' := by
      rintro rfl
      cases hclose
    simp [dropZeros, hzero, hclose]
  induction digits with
  | nil => exact absurd rfl hne
  | cons c digits ih =>
    have hc := h c List.mem_cons_self
    have hall : ∀ d ∈ digits, d.isDigit = true := fun d hd => h d (List.mem_cons_of_mem c hd)
    have hkept : dropZeros false (c :: digits ++ close :: rest) =
        c :: dropZeros true (digits ++ close :: rest) →
        Nat.toDigits 10 (Nat.ofDigitChars 10 (c :: digits) 0) = c :: digits →
        dropZeros false (c :: digits ++ close :: rest) =
          Nat.toDigits 10 (Nat.ofDigitChars 10 (c :: digits) 0) ++ close :: dropZeros false rest := by
      intro hdrop hdigits
      rw [hdrop, dropZeros_digits hall, hend, hdigits, List.cons_append]
    obtain ⟨hlt, hchar⟩ := digitChar_toNat hc
    by_cases hzero : c = '0'
    · subst hzero
      cases digits with
      | nil =>
        apply hkept
        · simp [dropZeros, hclose, hc]
        · decide
      | cons d digits =>
        have hd := hall d List.mem_cons_self
        have hdrop : dropZeros false ('0' :: d :: digits ++ close :: rest) =
            dropZeros false (d :: digits ++ close :: rest) := by
          simp [dropZeros, hd]
        rw [hdrop, ih (List.cons_ne_nil d digits) hall]
        rfl
    · apply hkept
      · simp [dropZeros, hzero, hc]
      · have hpos : 0 < c.toNat - '0'.toNat := by
          apply Nat.pos_of_ne_zero
          intro hnil
          rw [hnil] at hchar
          exact hzero hchar.symm
        rw [Nat.ofDigitChars_cons, Nat.mul_zero, Nat.zero_add, toDigits_ofDigitChars hpos hall,
          Nat.toDigits_of_lt_base hlt, hchar, List.singleton_append]

theorem dropZeros_text {text : List Char} (h : ∀ c ∈ text, c.isDigit = false) :
    dropZeros false (text ++ rest) = text ++ dropZeros false rest := by
  induction text with
  | nil => rfl
  | cons c text ih =>
    have hc := h c List.mem_cons_self
    have hzero : c ≠ '0' := by
      rintro rfl
      cases hc
    have ih := ih fun d hd => h d (List.mem_cons_of_mem c hd)
    simp [dropZeros, hzero, hc, ih]

theorem numbersIn_suffix {s t : List Char} (h : t <:+ s) : ∀ n ∈ numbersIn t, n ∈ numbersIn s := by
  intro n hn
  obtain ⟨rest, hrest, rfl⟩ := List.mem_map.mp hn
  exact List.mem_map_of_mem ((List.mem_tails _ _).mpr (((List.mem_tails _ _).mp hrest).trans h))

theorem number_mem_numbersIn {close : Char} (hclose : close.isDigit = false)
    (h : ∀ c ∈ digits, c.isDigit = true) :
    Nat.ofDigitChars 10 digits 0 ∈ numbersIn (digits ++ close :: rest) := by
  have htake : (digits ++ close :: rest).takeWhile Char.isDigit = digits := by
    rw [List.takeWhile_append_of_pos h, List.takeWhile_cons_of_neg (by simp [hclose]),
      List.append_nil]
  rw [numbersIn, List.mem_map]
  exact ⟨_, (List.mem_tails _ _).mpr (List.suffix_refl _), by rw [htake]⟩

end Pivox.Js
