import Mathlib.Data.Multiset.Basic

/-!
A traversal in no fixed order that ends with the first error: when what it comes to does not depend
on the order.
-/

namespace Traversal
variable {α β ε : Type} {f : α → Except ε β} {l l' : List α} {e : ε}

/-- What a traversal comes to, whatever the order of its values. -/
def unordered : Except ε (List β) → Except ε (Multiset β) :=
  Except.map fun values => (values : Multiset β)

theorem mapM_cons_error {a : α} (h : f a = .error e) : (a :: l).mapM f = .error e := by
  rw [List.mapM_cons, h]
  rfl

theorem mapM_cons_ok {a : α} {b : β} (h : f a = .ok b) :
    (a :: l).mapM f = (l.mapM f).map (b :: ·) := by
  rw [List.mapM_cons, h]
  cases l.mapM f <;> rfl

theorem mapM_ok (h : ∀ a ∈ l, ∃ b, f a = .ok b) :
    l.mapM f = .ok (l.filterMap fun a => (f a).toOption) := by
  induction l with
  | nil => rfl
  | cons a l ih =>
    obtain ⟨b, hb⟩ := h a List.mem_cons_self
    have htail : ∀ a' ∈ l, ∃ b', f a' = .ok b' := fun a' ha' => h a' (List.mem_cons_of_mem a ha')
    have hhead : (f a).toOption = some b := by rw [hb]; rfl
    rw [mapM_cons_ok hb, ih htail, Except.map,
      List.filterMap_cons_some (f := fun a => (f a).toOption) hhead]

/- Where all that fail do so with the same error, that is what comes of the whole. -/
theorem mapM_error (hmem : ∃ a ∈ l, ∃ e', f a = .error e')
    (hsame : ∀ a ∈ l, ∀ e', f a = .error e' → e' = e) : l.mapM f = .error e := by
  induction l with
  | nil =>
    obtain ⟨a, ha, -⟩ := hmem
    cases ha
  | cons a l ih =>
    cases hfa : f a with
    | error e' =>
      rw [mapM_cons_error hfa, hsame a List.mem_cons_self e' hfa]
    | ok b =>
      have htail : ∃ a' ∈ l, ∃ e', f a' = .error e' := by
        obtain ⟨a', ha', e', he'⟩ := hmem
        obtain rfl | ha' := List.mem_cons.mp ha'
        · cases hfa.symm.trans he'
        · exact ⟨a', ha', e', he'⟩
      rw [mapM_cons_ok hfa, ih htail fun a' ha' => hsame a' (List.mem_cons_of_mem a ha')]
      rfl

/- Anything that fails may be met first. -/
theorem exists_perm_error {a : α} (ha : a ∈ l) (h : f a = .error e) :
    ∃ l' : List α, l'.Perm l ∧ l'.mapM f = .error e := by
  obtain ⟨before, after, rfl⟩ := List.append_of_mem ha
  exact ⟨a :: (before ++ after), List.perm_middle.symm, mapM_cons_error h⟩

/-- The order makes no difference if and only if all that fail do so with one error. -/
theorem unordered_mapM_iff : (∀ l₁ l₂ : List α, l₁.Perm l → l₂.Perm l →
      unordered (l₁.mapM f) = unordered (l₂.mapM f)) ↔
    ∀ a ∈ l, ∀ b ∈ l, ∀ e e', f a = .error e → f b = .error e' → e = e' := by
  constructor
  · intro h a ha b hb e e' hfa hfb
    obtain ⟨l₁, hl₁, heq₁⟩ := exists_perm_error ha hfa
    obtain ⟨l₂, hl₂, heq₂⟩ := exists_perm_error hb hfb
    have heq := h l₁ l₂ hl₁ hl₂
    rw [heq₁, heq₂] at heq
    cases heq
    rfl
  · intro h l₁ l₂ hl₁ hl₂
    by_cases hfails : ∃ a ∈ l, ∃ e, f a = .error e
    · obtain ⟨a, ha, e, hfa⟩ := hfails
      have hall : ∀ l' : List α, l'.Perm l → l'.mapM f = .error e := by
        intro l' hl'
        apply mapM_error
        · exact ⟨a, hl'.mem_iff.mpr ha, e, hfa⟩
        · intro b hb e' hfb
          exact h b (hl'.mem_iff.mp hb) a ha e' e hfb hfa
      rw [hall l₁ hl₁, hall l₂ hl₂]
    · have hvalues : ∀ a ∈ l, ∃ b, f a = .ok b := by
        intro a ha
        cases hfa : f a with
        | ok b => exact ⟨b, rfl⟩
        | error e => exact absurd ⟨a, ha, e, hfa⟩ hfails
      have hall : ∀ l' : List α, l'.Perm l → l'.mapM f = .ok (l'.filterMap fun a => (f a).toOption) :=
        fun l' hl' => mapM_ok fun a ha => hvalues a (hl'.mem_iff.mp ha)
      rw [hall l₁ hl₁, hall l₂ hl₂]
      exact congrArg Except.ok (Quot.sound ((hl₁.trans hl₂.symm).filterMap _))

/-- Where there are two errors, all that fail do so with one if and only if the other does not come
up. -/
theorem alike_iff {e₁ e₂ : ε} (hne : e₁ ≠ e₂)
    (htwo : ∀ a ∈ l, ∀ e, f a = .error e → e = e₁ ∨ e = e₂) :
    (∀ a ∈ l, ∀ b ∈ l, ∀ e e', f a = .error e → f b = .error e' → e = e') ↔
      (∀ a ∈ l, f a ≠ .error e₁) ∨ ∀ a ∈ l, f a ≠ .error e₂ := by
  constructor
  · intro h
    by_cases hfirst : ∃ a ∈ l, f a = .error e₁
    · obtain ⟨a, ha, hfa⟩ := hfirst
      exact .inr fun b hb hfb => hne (h a ha b hb e₁ e₂ hfa hfb)
    · exact .inl fun a ha hfa => hfirst ⟨a, ha, hfa⟩
  · intro h a ha b hb e e' hfa hfb
    have hsame {e₀ : ε} (hall : ∀ c ∈ l, ∀ e, f c = .error e → e = e₀) : e = e' :=
      (hall a ha e hfa).trans (hall b hb e' hfb).symm
    obtain hnone | hnone := h
    · refine hsame fun c hc e hfc => (htwo c hc e hfc).resolve_left ?_
      rintro rfl
      exact hnone c hc hfc
    · refine hsame fun c hc e hfc => (htwo c hc e hfc).resolve_right ?_
      rintro rfl
      exact hnone c hc hfc

end Traversal
