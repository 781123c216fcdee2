import Pivox.Path.FinalStar
import Pivox.StorageAgent.Sessions

/-!
One pattern granted and denied. A grant of `start/*` reaches down any number of segments, the same
pattern denied is a shell pattern and reaches one.
-/

namespace Pivox.StorageAgent
open Path

theorem cutSuffix_eq_some {s suffix start : Text} :
    cutSuffix s suffix = some start ↔ s = start ++ suffix := by
  constructor
  · intro h
    simp only [cutSuffix] at h
    split at h
    · next hsuffix =>
      obtain ⟨before, rfl⟩ := List.isSuffixOf_iff_suffix.mp hsuffix
      have hbefore : before = start := by simpa using h
      rw [hbefore]
    · cases h
  · rintro rfl
    simp [cutSuffix, List.isSuffixOf_iff_suffix]

/- At the path before the slash, or below it. -/
def AtOrBelow (start path : Text) : Prop := path = start ∨ (start ++ ['/']) <+: path

theorem matchPattern_recursive (start path : Text) :
    matchPattern (start ++ ['/', '*']) path = true ↔ AtOrBelow start path := by
  have hcut : cutSuffix (start ++ ['/', '*']) ['/', '*'] = some start := cutSuffix_eq_some.mpr rfl
  rw [matchPattern, hcut]
  simp [AtOrBelow, or_comm]

theorem matchPattern_of_not_recursive {pattern : Text}
    (h : ∀ start, pattern ≠ start ++ ['/', '*']) (path : Text) :
    matchPattern pattern path = decide (pathMatch pattern path = some true) := by
  have hcut : cutSuffix pattern ['/', '*'] = none := by
    cases hc : cutSuffix pattern ['/', '*'] with
    | none => rfl
    | some start => exact absurd (cutSuffix_eq_some.mp hc) (h start)
  rw [matchPattern, hcut]

/-- A session of one pattern authorizes the path at some time. -/
def GrantedBy (pattern path : Text) : Prop :=
  ∃ (st : AgentState) (now expiry : Time) (token : Token),
    st.sessions.lookup token = some ⟨some [pattern], expiry⟩ ∧ authorize st now token path = true

/-- So does every denied set with the pattern in it deny the path. -/
def DeniedBy (pattern path : Text) : Prop :=
  ∀ st : AgentState, pattern ∈ st.denied → isDenied st path = true

theorem grantedBy_iff {pattern path : Text} :
    GrantedBy pattern path ↔ matchPattern pattern path = true := by
  constructor
  · rintro ⟨st, now, expiry, token, hsession, hauthorized⟩
    simp only [authorize, hsession, Option.any_some, Session.authorizes, Option.getD_some,
      List.any_cons, List.any_nil, Bool.or_false, Bool.and_eq_true] at hauthorized
    exact hauthorized.2
  · intro h
    obtain ⟨sessions, hlookup⟩ :
        ∃ sessions : Sessions, sessions.lookup [] = some ⟨some [pattern], 0⟩ :=
      ⟨AList.insert [] ⟨some [pattern], 0⟩ ∅, AList.lookup_insert ∅⟩
    refine ⟨⟨sessions, [], none⟩, 0, 0, [], hlookup, ?_⟩
    simp [authorize, hlookup, Session.authorizes, h]

theorem deniedBy_iff {pattern path : Text} :
    DeniedBy pattern path ↔ pathMatch pattern path = some true := by
  constructor
  · intro h
    simpa [isDenied] using h ⟨∅, [pattern], none⟩ (by simp)
  · intro h st hmem
    simp only [isDenied, List.any_eq_true]
    exact ⟨pattern, hmem, by simp [h]⟩

/-- What one pattern grants it denies, if it is not recursive. A recursive one denies of the paths
that it grants those that the pattern before its star reaches with their last segment left. -/
theorem denied_of_granted_iff (pattern path : Text) :
    (GrantedBy pattern path → DeniedBy pattern path) ↔
      ∀ start, pattern = start ++ ['/', '*'] → AtOrBelow start path →
        MatchesDir (start ++ ['/']) path := by
  rw [grantedBy_iff, deniedBy_iff]
  by_cases hrecursive : ∃ start, pattern = start ++ ['/', '*']
  · obtain ⟨start, rfl⟩ := hrecursive
    rw [matchPattern_recursive, pathMatch_slash_star]
    constructor
    · intro h start' heq
      obtain rfl : start = start' := List.append_cancel_right heq
      exact h
    · intro h
      exact h start rfl
  · have hplain : ∀ start, pattern ≠ start ++ ['/', '*'] := fun start heq => hrecursive ⟨start, heq⟩
    rw [matchPattern_of_not_recursive hplain]
    constructor
    · intro _ start heq
      exact absurd heq (hplain start)
    · intro _ hmatch
      exact of_decide_eq_true hmatch

/-- Where nothing before the `/*` is a sign of a shell pattern, that is one segment below it. -/
theorem recursive_denied_iff {start : Text} (hstart : ∀ c ∈ start, Literal c) (path : Text) :
    DeniedBy (start ++ ['/', '*']) path ↔ ∃ base, path = start ++ ['/'] ++ base ∧ '/' ∉ base := by
  rw [deniedBy_iff, pathMatch_slash_star, matchesDir_literal hstart]

/- The denied space keeps what lies deeper than one segment. -/
theorem denied_below_granted : ¬ ∀ pattern path, GrantedBy pattern path → DeniedBy pattern path := by
  intro h
  have hgranted : GrantedBy "/spaces/dead/*".toList "/spaces/dead/assets/file.mp4".toList :=
    grantedBy_iff.mpr (by decide)
  have hdenied := deniedBy_iff.mp (h _ _ hgranted)
  revert hdenied
  decide

end Pivox.StorageAgent
