import Mathlib.Data.List.TakeWhile
import Pivox.Js.Numbers
import Pivox.WorkflowGraph.Ids

/-!
Step paths and their ids, with the numbers that JavaScript has for the indices: what is read back
from an id, and what an id that was read is written as.
-/

namespace Pivox.WorkflowGraph
open Js PathTree

inductive NumberRegion where
  | tryBody
  | tryCatch
  | conditionBranch (branch : Number)
  | conditionOtherwise
  | parallelBranch (branch : Number)
  deriving DecidableEq

structure NumberFrame where
  index : Number
  into : Option NumberRegion
  deriving DecidableEq

/- The StepPath of the source. -/
structure NumberPath where
  root : RootKind
  frames : List NumberFrame
  deriving DecidableEq

def NumberRegion.suffix : NumberRegion → String
  | .tryBody => ".try.body"
  | .tryCatch => ".try.catch"
  | .conditionBranch branch => ".condition.branches[" ++ branch.text ++ "].then"
  | .conditionOtherwise => ".condition.otherwise"
  | .parallelBranch branch => ".parallel.branches[" ++ branch.text ++ "]"

def NumberFrame.format (id : String) (frame : NumberFrame) : String :=
  let id := id ++ ".steps[" ++ frame.index.text ++ "]"
  match frame.into with
  | none => id
  | some region => id ++ region.suffix

def NumberPath.format (path : NumberPath) : String :=
  path.frames.foldl NumberFrame.format path.root.text

def Region.number : Region → NumberRegion
  | .tryBody => .tryBody
  | .tryCatch => .tryCatch
  | .conditionBranch branch => .conditionBranch (.ofNat branch)
  | .conditionOtherwise => .conditionOtherwise
  | .parallelBranch branch => .parallelBranch (.ofNat branch)

def numberFrame (frame : PathFrame) : NumberFrame :=
  ⟨.ofNat frame.index, frame.into.map Region.number⟩

def StepPath.number (path : StepPath) : NumberPath := ⟨path.root, path.frames.map numberFrame⟩

/- parseStepPath with Number of each run of digits: no branch of the parser looks at the number. -/
def parseNumberPath (id : String) : Except String NumberPath := (parseStepPath id).map StepPath.number

/-! Paths whose numbers are exact -/

def isExact : Number → Bool
  | .finite n => n < exact
  | .infinity => false

def NumberRegion.isExact : NumberRegion → Bool
  | .conditionBranch branch => WorkflowGraph.isExact branch
  | .parallelBranch branch => WorkflowGraph.isExact branch
  | _ => true

def NumberFrame.isExact (frame : NumberFrame) : Bool :=
  WorkflowGraph.isExact frame.index && frame.into.all NumberRegion.isExact

def NumberPath.isExact (path : NumberPath) : Bool := path.frames.all NumberFrame.isExact

/- The numbers of a path, in natural numbers. -/
def Region.numbers : Region → List ℕ
  | .conditionBranch branch => [branch]
  | .parallelBranch branch => [branch]
  | _ => []

def frameNumbers (frame : PathFrame) : List ℕ :=
  frame.index :: (frame.into.map Region.numbers).getD []

theorem suffix_number {region : Region} (h : ∀ n ∈ region.numbers, n < exact) :
    region.number.suffix = regionSuffix region := by
  unfold Region.number NumberRegion.suffix regionSuffix
  cases region with
  | conditionBranch branch =>
    have hbranch : branch < exact := h branch (by simp [Region.numbers])
    dsimp only
    rw [Number.text_ofNat hbranch]
  | parallelBranch branch =>
    have hbranch : branch < exact := h branch (by simp [Region.numbers])
    dsimp only
    rw [Number.text_ofNat hbranch]
  | _ => rfl

theorem format_numberFrame {frame : PathFrame} (h : ∀ n ∈ frameNumbers frame, n < exact)
    (id : String) : NumberFrame.format id (numberFrame frame) = formatFrame id frame := by
  obtain ⟨index, into⟩ := frame
  have hindex : (Number.ofNat index).text = toString index :=
    Number.text_ofNat (h index List.mem_cons_self)
  cases into with
  | none => simp only [NumberFrame.format, numberFrame, formatFrame, hindex, Option.map_none]
  | some region =>
    have hregion : region.number.suffix = regionSuffix region :=
      suffix_number fun n hn => h n (List.mem_cons_of_mem _ hn)
    simp only [NumberFrame.format, numberFrame, formatFrame, hindex, Option.map_some, hregion]

/-- Below 2^53 a path has the same id, whichever numbers its indices are. -/
theorem format_number {path : StepPath}
    (h : ∀ frame ∈ path.frames, ∀ n ∈ frameNumbers frame, n < exact) :
    path.number.format = formatStepPath path := by
  obtain ⟨kind, frames⟩ := path
  have hfold : ∀ id : String, (frames.map numberFrame).foldl NumberFrame.format id =
      frames.foldl formatFrame id := by
    induction frames with
    | nil => exact fun _ => rfl
    | cons frame frames ih =>
      intro id
      rw [List.map_cons, List.foldl_cons, List.foldl_cons,
        format_numberFrame (h frame List.mem_cons_self),
        ih fun frame' hframe => h frame' (List.mem_cons_of_mem frame hframe)]
  exact hfold kind.text

theorem isExact_eq {x : Number} (h : isExact x = true) : ∃ n, n < exact ∧ Number.ofNat n = x := by
  cases x with
  | finite n =>
    have hn : n < exact := of_decide_eq_true h
    exact ⟨n, hn, Number.ofNat_of_lt hn⟩
  | infinity => cases h

theorem NumberRegion.isExact_eq {region : NumberRegion} (h : region.isExact = true) :
    ∃ r : Region, (∀ n ∈ r.numbers, n < exact) ∧ r.number = region := by
  cases region with
  | tryBody => exact ⟨.tryBody, by simp [Region.numbers], rfl⟩
  | tryCatch => exact ⟨.tryCatch, by simp [Region.numbers], rfl⟩
  | conditionBranch branch =>
    obtain ⟨n, hn, rfl⟩ := WorkflowGraph.isExact_eq h
    exact ⟨.conditionBranch n, by simpa [Region.numbers] using hn, rfl⟩
  | conditionOtherwise => exact ⟨.conditionOtherwise, by simp [Region.numbers], rfl⟩
  | parallelBranch branch =>
    obtain ⟨n, hn, rfl⟩ := WorkflowGraph.isExact_eq h
    exact ⟨.parallelBranch n, by simpa [Region.numbers] using hn, rfl⟩

theorem NumberFrame.isExact_eq {frame : NumberFrame} (h : frame.isExact = true) :
    ∃ f : PathFrame, (∀ n ∈ frameNumbers f, n < exact) ∧ numberFrame f = frame := by
  obtain ⟨index, into⟩ := frame
  simp only [NumberFrame.isExact, Bool.and_eq_true] at h
  obtain ⟨n, hn, rfl⟩ := WorkflowGraph.isExact_eq h.1
  cases into with
  | none => exact ⟨⟨n, none⟩, by simpa [frameNumbers] using hn, rfl⟩
  | some region =>
    have hregion : region.isExact = true := by simpa using h.2
    obtain ⟨r, hr, rfl⟩ := NumberRegion.isExact_eq hregion
    exact ⟨⟨n, some r⟩, by simpa [frameNumbers, hn] using hr, rfl⟩

theorem NumberPath.isExact_eq {path : NumberPath} (h : path.isExact = true) :
    ∃ p : StepPath, (∀ frame ∈ p.frames, ∀ n ∈ frameNumbers frame, n < exact) ∧
      p.number = path := by
  obtain ⟨kind, frames⟩ := path
  suffices hframes : ∃ fs : List PathFrame,
      (∀ frame ∈ fs, ∀ n ∈ frameNumbers frame, n < exact) ∧ fs.map numberFrame = frames by
    obtain ⟨fs, hfs, rfl⟩ := hframes
    exact ⟨⟨kind, fs⟩, hfs, rfl⟩
  induction frames with
  | nil => exact ⟨[], by simp, rfl⟩
  | cons frame frames ih =>
    simp only [NumberPath.isExact, List.all_cons, Bool.and_eq_true] at h
    obtain ⟨f, hf, rfl⟩ := NumberFrame.isExact_eq h.1
    obtain ⟨fs, hfs, rfl⟩ := ih h.2
    exact ⟨f :: fs, by simpa using ⟨hf, hfs⟩, rfl⟩

theorem parse_format {path : NumberPath} (h : path.isExact = true) :
    parseNumberPath path.format = .ok path := by
  obtain ⟨p, hp, rfl⟩ := NumberPath.isExact_eq h
  rw [parseNumberPath, format_number hp, parseStepPath_formatStepPath]
  rfl

/-! Ids read and written again -/

variable {rest rest' : List Char}

/-- What a part of an id was read from: its own text but for the leading zeros of its number. -/
structure ReadFrom (rest rest' text : List Char) (numbers : List ℕ) : Prop where
  dropZeros : dropZeros false rest = text ++ dropZeros false rest'
  numbers : ∀ n ∈ numbers, n ∈ numbersIn rest
  suffix : rest' <:+ rest

theorem noDigit {cs : List Char} (h : cs.all fun c => !c.isDigit) : ∀ c ∈ cs, c.isDigit = false := by
  simpa using h

theorem readFrom_text {text : String} (htext : ∀ c ∈ text.toList, c.isDigit = false)
    (h : matchText text rest = some rest') : ReadFrom rest rest' text.toList [] := by
  obtain rfl := dropText_eq_some_iff.mp h
  exact ⟨dropZeros_text htext, by simp, List.suffix_append _ _⟩

theorem readFrom_index {before after : String} {cs : List Char} {n : ℕ}
    (hbefore : ∀ c ∈ before.toList, c.isDigit = false) (hafter : after.toList = ']' :: cs)
    (hcs : ∀ c ∈ cs, c.isDigit = false) (h : matchIndex before after rest = some (n, rest')) :
    ReadFrom rest rest' (before.toList ++ (Nat.toDigits 10 n ++ after.toList)) [n] := by
  simp only [matchIndex, Option.bind_eq_bind, Option.bind_eq_some_iff] at h
  obtain ⟨rest₁, hrest, h⟩ := h
  obtain rfl := dropText_eq_some_iff.mp hrest
  split at h
  · cases h
  · rename_i hne
    simp only [Option.bind_eq_some_iff, Option.some.injEq, Prod.mk.injEq] at h
    obtain ⟨rest₂, hclose, rfl, rfl⟩ := h
    have hclose := dropText_eq_some_iff.mp hclose
    have hdigits : ∀ c ∈ rest₁.takeWhile Char.isDigit, c.isDigit = true := fun c hc =>
      List.mem_takeWhile_imp hc
    have hsplit : rest₁.takeWhile Char.isDigit ++ ']' :: (cs ++ rest₂) = rest₁ := by
      rw [← List.cons_append, ← hafter, ← hclose, List.takeWhile_append_dropWhile]
    generalize rest₁.takeWhile Char.isDigit = digits at *
    subst hsplit
    have hbracket : Char.isDigit ']' = false := by
      decide
    refine ⟨?_, ?_, ?_⟩
    · rw [dropZeros_text hbefore, dropZeros_number hbracket hne hdigits, dropZeros_text hcs, hafter]
      simp only [List.append_assoc, List.cons_append]
    · intro n hn
      obtain rfl := List.mem_singleton.mp hn
      exact numbersIn_suffix (List.suffix_append _ _) _ (number_mem_numbersIn hbracket hdigits)
    · exact ⟨before.toList ++ (digits ++ ']' :: cs), by simp only [List.append_assoc, List.cons_append]⟩

theorem readFrom_step {index : ℕ} (h : matchStep rest = some (index, rest')) :
    ReadFrom rest rest' (".steps[".toList ++ (Nat.toDigits 10 index ++ "]".toList)) [index] := by
  have hbefore : ∀ c ∈ ".steps[".toList, c.isDigit = false :=
    noDigit (by decide)
  unfold matchStep at h
  exact readFrom_index hbefore toList_close (fun _ hc => absurd hc List.not_mem_nil) h

theorem readFrom_region {region : Region} (h : matchRegion rest = some (region, rest')) :
    ReadFrom rest rest' (regionSuffix region).toList region.numbers := by
  simp only [matchRegion, Option.orElse_eq_orElse, Option.orElse_eq_or, Option.or_eq_some_iff] at h
  obtain h | ⟨-, h | ⟨-, h | ⟨-, h | ⟨-, h⟩⟩⟩⟩ := h
  · obtain ⟨rest₁, hmatch, heq⟩ := Option.map_eq_some_iff.mp h
    cases heq
    exact readFrom_text (noDigit (by decide)) hmatch
  · obtain ⟨rest₁, hmatch, heq⟩ := Option.map_eq_some_iff.mp h
    cases heq
    exact readFrom_text (noDigit (by decide)) hmatch
  · obtain ⟨⟨branch, rest₁⟩, hmatch, heq⟩ := Option.map_eq_some_iff.mp h
    cases heq
    have hbefore : ∀ c ∈ ".condition.branches[".toList, c.isDigit = false :=
      noDigit (by decide)
    have hread := readFrom_index hbefore toList_then (noDigit (by decide)) hmatch
    unfold regionSuffix
    dsimp only
    rw [String.toList_append, String.toList_append, Nat.toString_eq_repr,
      Nat.toList_repr, List.append_assoc]
    exact hread
  · obtain ⟨rest₁, hmatch, heq⟩ := Option.map_eq_some_iff.mp h
    cases heq
    exact readFrom_text (noDigit (by decide)) hmatch
  · obtain ⟨⟨branch, rest₁⟩, hmatch, heq⟩ := Option.map_eq_some_iff.mp h
    cases heq
    have hbefore : ∀ c ∈ ".parallel.branches[".toList, c.isDigit = false :=
      noDigit (by decide)
    have hread := readFrom_index hbefore toList_close (fun _ hc => absurd hc List.not_mem_nil) hmatch
    unfold regionSuffix
    dsimp only
    rw [String.toList_append, String.toList_append, Nat.toString_eq_repr,
      Nat.toList_repr, List.append_assoc]
    exact hread

theorem ReadFrom.append {rest'' text text' : List Char} {numbers numbers' : List ℕ}
    (h : ReadFrom rest rest' text numbers) (h' : ReadFrom rest' rest'' text' numbers') :
    ReadFrom rest rest'' (text ++ text') (numbers ++ numbers') where
  dropZeros := by rw [h.dropZeros, h'.dropZeros, List.append_assoc]
  numbers := by
    intro n hn
    obtain hn | hn := List.mem_append.mp hn
    · exact h.numbers n hn
    · exact numbersIn_suffix h.suffix n (h'.numbers n hn)
  suffix := h'.suffix.trans h.suffix

/-- Induction over the parser's loop: the frames that it has read spell the text, and their numbers
are numbers of the text. -/
theorem readFrom_frames {frames : List PathFrame} (h : parseFrames rest = .ok frames) :
    ReadFrom rest [] (frames.flatMap frameText) (frames.flatMap frameNumbers) := by
  induction hn : rest.length using Nat.strong_induction_on generalizing rest frames with
  | _ n ih =>
    subst hn
    rw [parseFrames.eq_def] at h
    split at h
    · cases h
      exact ⟨rfl, by simp, List.suffix_refl _⟩
    · split at h
      · cases h
      · rename_i index rest₁ hstep
        have hlength := matchIndex_length hstep
        have hread := readFrom_step hstep
        split at h
        · rename_i hregion
          cases hframes : parseFrames rest₁ with
          | error e =>
            rw [hframes] at h
            cases h
          | ok fs =>
            rw [hframes] at h
            cases h
            have hall := hread.append (ih _ (by omega) hframes rfl)
            rw [List.flatMap_cons, List.flatMap_cons, frameText_append, intoText, Option.map_none,
              Option.getD_none, List.nil_append, ← List.append_assoc _ "]".toList,
              ← List.append_assoc ".steps[".toList]
            exact hall
        · rename_i region rest₂ hregion
          have hlength' := matchRegion_length hregion
          cases hframes : parseFrames rest₂ with
          | error e =>
            rw [hframes] at h
            cases h
          | ok fs =>
            rw [hframes] at h
            cases h
            have hall := hread.append ((readFrom_region hregion).append (ih _ (by omega) hframes rfl))
            rw [List.flatMap_cons, List.flatMap_cons, frameText_append, intoText, Option.map_some,
              Option.getD_some, ← List.append_assoc _ "]".toList, ← List.append_assoc ".steps[".toList]
            exact hall

theorem parseFrames_nil : parseFrames [] = .ok [] := by
  rw [parseFrames]

theorem parseStepPath_eq {s : String} {path : StepPath} (h : parseStepPath s = .ok path) :
    ∃ rest, s.toList = path.root.text.toList ++ rest ∧ parseFrames rest = .ok path.frames := by
  have hunder : ∀ kind : RootKind, kind.Starts s → parseUnder kind s = .ok path →
      ∃ rest, s.toList = path.root.text.toList ++ rest ∧ parseFrames rest = .ok path.frames := by
    intro kind hstarts hparse
    have hprefix : ∃ rest, s.toList = kind.text.toList ++ rest := by
      obtain rfl | hpre := hstarts
      · exact ⟨[], by simp⟩
      · obtain ⟨rest, hrest⟩ := hpre
        rw [String.toList_append, List.append_assoc] at hrest
        exact ⟨_, hrest.symm⟩
    obtain ⟨rest, hrest⟩ := hprefix
    rw [parseUnder, hrest, List.drop_left] at hparse
    cases hframes : parseFrames rest with
    | error e =>
      rw [hframes] at hparse
      cases hparse
    | ok frames =>
      rw [hframes] at hparse
      cases hparse
      exact ⟨rest, hrest, hframes⟩
  unfold parseStepPath at h
  split at h
  · rename_i hstarts
    exact hunder .root hstarts h
  · split at h
    · rename_i hstarts
      exact hunder .error hstarts h
    · cases h

theorem format_parse {s : String} {path : NumberPath} (hs : ∀ n ∈ numbersIn s.toList, n < exact)
    (h : parseNumberPath s = .ok path) : path.format = withoutLeadingZeros s := by
  rw [parseNumberPath] at h
  cases hparse : parseStepPath s with
  | error e =>
    rw [hparse] at h
    cases h
  | ok p =>
    rw [hparse] at h
    cases h
    obtain ⟨rest, hrest, hframes⟩ := parseStepPath_eq hparse
    have hread := readFrom_frames hframes
    have hsuffix : rest <:+ s.toList := ⟨_, hrest.symm⟩
    have hexact : ∀ frame ∈ p.frames, ∀ n ∈ frameNumbers frame, n < exact := fun frame hframe n hn =>
      hs n (numbersIn_suffix hsuffix n (hread.numbers n (List.mem_flatMap.mpr ⟨frame, hframe, hn⟩)))
    have hroot : ∀ c ∈ p.root.text.toList, c.isDigit = false := by
      cases p.root <;> exact noDigit (by decide)
    rw [format_number hexact, withoutLeadingZeros, hrest, dropZeros_text hroot, hread.dropZeros,
      dropZeros, List.append_nil, ← toList_formatStepPath, String.ofList_toList]

/-- Below 2^53 a path is read back from its id, so that no two paths share one; and an id in which
each run of digits is below 2^53 either is no path's, or is that of the path read from it, but for
leading zeros. -/
theorem step_path_ids :
    (∀ path : NumberPath, path.isExact = true → parseNumberPath path.format = .ok path) ∧
    (∀ path path' : NumberPath, path.isExact = true → path'.isExact = true →
      path.format = path'.format → path = path') ∧
    ∀ (s : String) (path : NumberPath), (∀ n ∈ numbersIn s.toList, n < exact) →
      parseNumberPath s = .ok path → path.format = withoutLeadingZeros s := by
  refine ⟨fun path h => parse_format h, fun path path' h h' heq => ?_, fun s path hs h =>
    format_parse hs h⟩
  have hparse := parse_format h
  rw [heq, parse_format h'] at hparse
  exact (Except.ok.inj hparse).symm

/- A step under a branch, and its id with a zero too many. -/
def branchPath : NumberPath :=
  ⟨.error, [⟨.finite 12, some (.conditionBranch (.finite 3))⟩, ⟨.finite 0, none⟩]⟩

def branchId : String := "error.steps[012].condition.branches[3].then.steps[0]"

theorem parse_branchId : parseNumberPath branchId = .ok branchPath := by
  have hlast : parseFrames ".steps[0]".toList = .ok [⟨0, none⟩] := by
    have hstep : matchStep ".steps[0]".toList = some (0, []) := by
      decide
    exact parseFrames_place hstep matchRegion_nil parseFrames_nil
  have hfirst : parseFrames ".steps[012].condition.branches[3].then.steps[0]".toList =
      .ok [⟨12, some (.conditionBranch 3)⟩, ⟨0, none⟩] := by
    have hstep : matchStep ".steps[012].condition.branches[3].then.steps[0]".toList =
        some (12, ".condition.branches[3].then.steps[0]".toList) := by
      decide
    have hregion : matchRegion ".condition.branches[3].then.steps[0]".toList =
        some (.conditionBranch 3, ".steps[0]".toList) := by
      decide
    exact parseFrames_into hstep hregion hlast
  have hdrop : branchId.toList.drop RootKind.error.text.toList.length =
      ".steps[012].condition.branches[3].then.steps[0]".toList := by
    decide
  have hstarts : ¬ RootKind.root.Starts branchId ∧ RootKind.error.Starts branchId := by
    decide
  have hnumbers : StepPath.number ⟨.error, [⟨12, some (.conditionBranch 3)⟩, ⟨0, none⟩]⟩ =
      branchPath := by
    have htwelve : Number.ofNat 12 = .finite 12 := Number.ofNat_of_lt (by decide)
    have hthree : Number.ofNat 3 = .finite 3 := Number.ofNat_of_lt (by decide)
    have hzero : Number.ofNat 0 = .finite 0 := Number.ofNat_of_lt (by decide)
    simp only [StepPath.number, numberFrame, List.map_cons, List.map_nil, Option.map_some,
      Option.map_none, Region.number, htwelve, hthree, hzero, branchPath]
  rw [parseNumberPath, parseStepPath, if_neg hstarts.1, if_pos hstarts.2, parseUnder, hdrop, hfirst]
  exact congrArg Except.ok hnumbers

def otherPath : NumberPath :=
  ⟨.error, [⟨.finite 1, some (.conditionBranch (.finite 23))⟩, ⟨.finite 0, none⟩]⟩

theorem step_path_ids_branch :
    parseNumberPath branchPath.format = .ok branchPath ∧ branchPath.format ≠ otherPath.format ∧
      branchPath.format = withoutLeadingZeros branchId := by
  refine ⟨step_path_ids.1 branchPath (by decide), fun h => ?_,
    step_path_ids.2.2 branchId branchPath (by decide) parse_branchId⟩
  have hsame := step_path_ids.2.1 branchPath otherPath (by decide) (by decide) h
  cases hsame

/-- 2^53 + 1 is read as 2^53, so that one of the two is not written as it was. -/
theorem step_path_ids_inexact : ¬ ∀ (s : String) (path : NumberPath),
    parseNumberPath s = .ok path → path.format = withoutLeadingZeros s := by
  intro h
  have hnearest : nearest 9007199254740993 = nearest 9007199254740992 := by
    decide
  have hnumber : Number.ofNat 9007199254740993 = Number.ofNat 9007199254740992 := by
    unfold Number.ofNat
    rw [hnearest]
  have hparse : ∀ n, parseNumberPath (formatStepPath ⟨.root, [⟨n, none⟩]⟩) =
      .ok ⟨.root, [⟨.ofNat n, none⟩]⟩ := by
    intro n
    rw [parseNumberPath, parseStepPath_formatStepPath]
    rfl
  have hsame : withoutLeadingZeros (formatStepPath ⟨.root, [⟨9007199254740992, none⟩]⟩) =
      withoutLeadingZeros (formatStepPath ⟨.root, [⟨9007199254740993, none⟩]⟩) := by
    rw [← h _ _ (hparse 9007199254740992), ← h _ _ (hparse 9007199254740993), hnumber]
  have hother : withoutLeadingZeros (formatStepPath ⟨.root, [⟨9007199254740992, none⟩]⟩) ≠
      withoutLeadingZeros (formatStepPath ⟨.root, [⟨9007199254740993, none⟩]⟩) := by
    decide
  exact hother hsame

end Pivox.WorkflowGraph
