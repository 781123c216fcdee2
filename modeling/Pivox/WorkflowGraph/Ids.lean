import Pivox.PathTree

/-!
The ids of the nodes of a workflow graph: they spell the paths of the steps and of the regions, and
can be read back.
-/

namespace Pivox.WorkflowGraph
open PathTree

inductive RootKind where
  | root
  | error
  deriving DecidableEq

inductive Region where
  | tryBody
  | tryCatch
  | conditionBranch (branch : ℕ)
  | conditionOtherwise
  | parallelBranch (branch : ℕ)
  deriving DecidableEq

abbrev PathFrame := Frame Region

structure StepPath where
  root : RootKind
  frames : List PathFrame
  deriving DecidableEq

def ROOT := "root"

def ERROR_ROOT := "error"

def START := "start"

def RootKind.text : RootKind → String
  | .root => ROOT
  | .error => ERROR_ROOT

def childStepId (regionId : String) (index : ℕ) : String :=
  regionId ++ ".steps[" ++ toString index ++ "]"

def tryBodyRegionId (stepId : String) : String := stepId ++ ".try.body"

def tryCatchRegionId (stepId : String) : String := stepId ++ ".try.catch"

def conditionBranchRegionId (stepId : String) (branch : ℕ) : String :=
  stepId ++ ".condition.branches[" ++ toString branch ++ "].then"

def conditionOtherwiseRegionId (stepId : String) : String := stepId ++ ".condition.otherwise"

def parallelBranchRegionId (stepId : String) (branch : ℕ) : String :=
  stepId ++ ".parallel.branches[" ++ toString branch ++ "]"

def regionSuffix : Region → String
  | .tryBody => ".try.body"
  | .tryCatch => ".try.catch"
  | .conditionBranch branch => ".condition.branches[" ++ toString branch ++ "].then"
  | .conditionOtherwise => ".condition.otherwise"
  | .parallelBranch branch => ".parallel.branches[" ++ toString branch ++ "]"

def formatFrame (id : String) (frame : PathFrame) : String :=
  let id := id ++ ".steps[" ++ toString frame.index ++ "]"
  match frame.into with
  | none => id
  | some region => id ++ regionSuffix region

def formatStepPath (path : StepPath) : String :=
  path.frames.foldl formatFrame path.root.text

def dropText : List Char → List Char → Option (List Char)
  | [], rest => some rest
  | _ :: _, [] => none
  | c :: text, d :: rest => if c = d then dropText text rest else none

/- The regular expression of a fixed text, at the start. -/
def matchText (text : String) (rest : List Char) : Option (List Char) :=
  dropText text.toList rest

/- That of decimal digits between two texts. -/
def matchIndex (before after : String) (rest : List Char) : Option (ℕ × List Char) := do
  let rest ← matchText before rest
  let digits := rest.takeWhile Char.isDigit
  if digits = [] then none
  else
    let rest ← matchText after (rest.dropWhile Char.isDigit)
    some (Nat.ofDigitChars 10 digits 0, rest)

def matchStep : List Char → Option (ℕ × List Char) := matchIndex ".steps[" "]"

/- The expressions of the regions in turn. -/
def matchRegion (rest : List Char) : Option (Region × List Char) :=
  (matchText ".try.body" rest).map (Prod.mk Region.tryBody) <|>
  (matchText ".try.catch" rest).map (Prod.mk Region.tryCatch) <|>
  (matchIndex ".condition.branches[" "].then" rest).map (Prod.map Region.conditionBranch id) <|>
  (matchText ".condition.otherwise" rest).map (Prod.mk Region.conditionOtherwise) <|>
  (matchIndex ".parallel.branches[" "]" rest).map (Prod.map Region.parallelBranch id)

theorem dropText_eq_some_iff {text rest rest' : List Char} :
    dropText text rest = some rest' ↔ rest = text ++ rest' := by
  induction text generalizing rest with
  | nil => simp [dropText]
  | cons c text ih =>
    cases rest with
    | nil => simp [dropText]
    | cons d rest =>
      by_cases hcd : c = d
      · simp [dropText, hcd, ih]
      · simp [dropText, hcd, Ne.symm hcd]

theorem matchText_length {text : String} {rest rest' : List Char}
    (h : matchText text rest = some rest') : rest'.length + text.toList.length = rest.length := by
  rw [dropText_eq_some_iff.mp h, List.length_append]
  omega

theorem matchIndex_length {before after : String} {rest rest' : List Char} {n : ℕ}
    (h : matchIndex before after rest = some (n, rest')) :
    rest'.length + before.toList.length + after.toList.length < rest.length := by
  simp only [matchIndex, Option.bind_eq_bind, Option.bind_eq_some_iff] at h
  obtain ⟨rest₁, hbefore, h⟩ := h
  split at h
  · cases h
  · rename_i hdigits
    simp only [Option.bind_eq_some_iff, Option.some.injEq, Prod.mk.injEq] at h
    obtain ⟨rest₂, hafter, -, rfl⟩ := h
    have hlength := matchText_length hbefore
    have hlength' := matchText_length hafter
    have hsplit : rest₁.takeWhile Char.isDigit ++ rest₁.dropWhile Char.isDigit = rest₁ :=
      List.takeWhile_append_dropWhile
    have hpos := List.length_pos_iff.mpr hdigits
    have htotal := congrArg List.length hsplit
    rw [List.length_append] at htotal
    omega

theorem matchRegion_length {rest rest' : List Char} {region : Region}
    (h : matchRegion rest = some (region, rest')) : rest'.length ≤ rest.length := by
  have htext : ∀ (text : String) (region' : Region),
      (matchText text rest).map (Prod.mk region') = some (region, rest') →
      rest'.length ≤ rest.length := by
    intro text region' hmatch
    obtain ⟨rest'', hrest, heq⟩ := Option.map_eq_some_iff.mp hmatch
    cases heq
    have hlength := matchText_length hrest
    omega
  have hindex : ∀ (before after : String) (region' : ℕ → Region),
      (matchIndex before after rest).map (Prod.map region' id) = some (region, rest') →
      rest'.length ≤ rest.length := by
    intro before after region' hmatch
    obtain ⟨⟨n, rest''⟩, hrest, heq⟩ := Option.map_eq_some_iff.mp hmatch
    cases heq
    have hlength := matchIndex_length hrest
    simp only [id_eq]
    omega
  simp only [matchRegion, Option.orElse_eq_orElse, Option.orElse_eq_or, Option.or_eq_some_iff] at h
  obtain h | ⟨-, h | ⟨-, h | ⟨-, h | ⟨-, h⟩⟩⟩⟩ := h
  · exact htext _ _ h
  · exact htext _ _ h
  · exact hindex _ _ _ h
  · exact htext _ _ h
  · exact hindex _ _ _ h

def parseFrames (rest : List Char) : Except String (List PathFrame) :=
  match rest with
  | [] => .ok []
  | c :: cs =>
    match _hstep : matchStep (c :: cs) with
    | none => .error ("invalid step path segment: " ++ String.ofList (c :: cs))
    | some (index, rest) =>
      match _hregion : matchRegion rest with
      | none => do
        let frames ← parseFrames rest
        .ok (⟨index, none⟩ :: frames)
      | some (region, rest') => do
        let frames ← parseFrames rest'
        .ok (⟨index, some region⟩ :: frames)
termination_by rest.length
decreasing_by
  · have hlength := matchIndex_length _hstep
    omega
  · have hlength := matchIndex_length _hstep
    have hlength' := matchRegion_length _hregion
    omega

def RootKind.Starts (kind : RootKind) (id : String) : Prop :=
  id = kind.text ∨ (kind.text ++ ".").toList <+: id.toList

instance (kind : RootKind) (id : String) : Decidable (kind.Starts id) :=
  inferInstanceAs (Decidable (id = kind.text ∨ (kind.text ++ ".").toList <+: id.toList))

def parseUnder (kind : RootKind) (id : String) : Except String StepPath := do
  let frames ← parseFrames (id.toList.drop kind.text.toList.length)
  .ok ⟨kind, frames⟩

def parseStepPath (id : String) : Except String StepPath :=
  if RootKind.root.Starts id then parseUnder .root id
  else if RootKind.error.Starts id then parseUnder .error id
  else .error ("invalid step path: " ++ id)

/-! Ids read back -/

variable {rest : List Char} {text : String} {path : StepPath}

theorem matchText_append : matchText text (text.toList ++ rest) = some rest :=
  dropText_eq_some_iff.mpr rfl

theorem matchIndex_append {before after : String} {cs : List Char} (hafter : after.toList = ']' :: cs)
    (n : ℕ) : matchIndex before after
      (before.toList ++ (Nat.toDigits 10 n ++ (after.toList ++ rest))) = some (n, rest) := by
  have hdigits : ∀ c ∈ Nat.toDigits 10 n, c.isDigit = true := fun c hc =>
    Nat.isDigit_of_mem_toDigits (by decide) (by decide) hc
  have hclose : Char.isDigit ']' = false := by
    decide
  have htake : (Nat.toDigits 10 n ++ (after.toList ++ rest)).takeWhile Char.isDigit =
      Nat.toDigits 10 n := by
    rw [List.takeWhile_append_of_pos hdigits, hafter]
    simp [hclose]
  have hdrop : (Nat.toDigits 10 n ++ (after.toList ++ rest)).dropWhile Char.isDigit =
      after.toList ++ rest := by
    rw [List.dropWhile_append_of_pos hdigits, hafter]
    simp [hclose]
  simp only [matchIndex, matchText_append, Option.bind_eq_bind, Option.bind_some, htake, hdrop,
    Nat.toDigits_ne_nil, if_false, Nat.ofDigitChars_ten_toDigits]

/- Neither of the texts starts with the other. -/
def Clash (text text' : String) : Prop :=
  ¬ text.toList <+: text'.toList ∧ ¬ text'.toList <+: text.toList

instance (text text' : String) : Decidable (Clash text text') :=
  inferInstanceAs (Decidable (¬ text.toList <+: text'.toList ∧ ¬ text'.toList <+: text.toList))

variable {text' : String}

theorem matchText_clash (h : Clash text text') : matchText text (text'.toList ++ rest) = none := by
  rw [Option.eq_none_iff_forall_ne_some]
  intro rest' hmatch
  have heq := dropText_eq_some_iff.mp hmatch
  have hpre : text.toList <+: text'.toList ++ rest := ⟨rest', heq.symm⟩
  obtain h' | h' := List.prefix_or_prefix_of_prefix hpre (List.prefix_append _ _)
  · exact h.1 h'
  · exact h.2 h'

theorem matchIndex_clash {after : String} (h : Clash text text') :
    matchIndex text after (text'.toList ++ rest) = none := by
  simp only [matchIndex, matchText_clash h, Option.bind_eq_bind, Option.bind_none]

theorem orElse_some {α : Type} (a : α) (o : Option α) : (some a <|> o) = some a := rfl

theorem orElse_none {α : Type} (o : Option α) : (none <|> o) = o := by
  cases o <;> rfl

theorem toList_close : "]".toList = ']' :: [] := by
  simp

theorem toList_then : "].then".toList = ']' :: ['.', 't', 'h', 'e', 'n'] := by
  simp

theorem matchRegion_append (region : Region) :
    matchRegion ((regionSuffix region).toList ++ rest) = some (region, rest) := by
  unfold matchRegion regionSuffix
  cases region with
  | tryBody =>
    have hmatch : matchText ".try.body" (".try.body".toList ++ rest) = some rest := matchText_append
    dsimp only
    rw [hmatch, Option.map_some, orElse_some]
  | tryCatch =>
    have hmatch : matchText ".try.catch" (".try.catch".toList ++ rest) = some rest :=
      matchText_append
    have hbody : Clash ".try.body" ".try.catch" := by
      decide
    dsimp only
    rw [matchText_clash hbody, hmatch, Option.map_none, Option.map_some, orElse_none, orElse_some]
  | conditionBranch branch =>
    have hmatch : matchIndex ".condition.branches[" "].then" _ = some (branch, rest) :=
      matchIndex_append toList_then branch
    have hbody : Clash ".try.body" ".condition.branches[" := by
      decide
    have hcatch : Clash ".try.catch" ".condition.branches[" := by
      decide
    dsimp only
    rw [String.toList_append, String.toList_append, Nat.toString_eq_repr, Nat.toList_repr,
      List.append_assoc, List.append_assoc, matchText_clash hbody, matchText_clash hcatch, hmatch,
      Option.map_none, Option.map_none, Option.map_some, orElse_none, orElse_none, orElse_some]
    rfl
  | conditionOtherwise =>
    have hmatch : matchText ".condition.otherwise" (".condition.otherwise".toList ++ rest) =
        some rest := matchText_append
    have hbody : Clash ".try.body" ".condition.otherwise" := by
      decide
    have hcatch : Clash ".try.catch" ".condition.otherwise" := by
      decide
    have hbranch : Clash ".condition.branches[" ".condition.otherwise" := by
      decide
    dsimp only
    rw [matchText_clash hbody, matchText_clash hcatch, matchIndex_clash hbranch, hmatch,
      Option.map_none, Option.map_none, Option.map_none, Option.map_some, orElse_none, orElse_none,
      orElse_none, orElse_some]
  | parallelBranch branch =>
    have hmatch : matchIndex ".parallel.branches[" "]" _ = some (branch, rest) :=
      matchIndex_append toList_close branch
    have hbody : Clash ".try.body" ".parallel.branches[" := by
      decide
    have hcatch : Clash ".try.catch" ".parallel.branches[" := by
      decide
    have hbranch : Clash ".condition.branches[" ".parallel.branches[" := by
      decide
    have hotherwise : Clash ".condition.otherwise" ".parallel.branches[" := by
      decide
    dsimp only
    rw [String.toList_append, String.toList_append, Nat.toString_eq_repr, Nat.toList_repr,
      List.append_assoc, List.append_assoc, matchText_clash hbody, matchText_clash hcatch,
      matchIndex_clash hbranch, matchText_clash hotherwise, hmatch, Option.map_none, Option.map_none,
      Option.map_none, Option.map_none, Option.map_some, orElse_none, orElse_none, orElse_none,
      orElse_none]
    rfl

theorem matchRegion_step : matchRegion (".steps[".toList ++ rest) = none := by
  have hbody : Clash ".try.body" ".steps[" := by
    decide
  have hcatch : Clash ".try.catch" ".steps[" := by
    decide
  have hbranch : Clash ".condition.branches[" ".steps[" := by
    decide
  have hotherwise : Clash ".condition.otherwise" ".steps[" := by
    decide
  have hlane : Clash ".parallel.branches[" ".steps[" := by
    decide
  unfold matchRegion
  rw [matchText_clash hbody, matchText_clash hcatch, matchIndex_clash hbranch,
    matchText_clash hotherwise, matchIndex_clash hlane]
  rfl

theorem matchText_nil (h : text.toList ≠ []) : matchText text [] = none := by
  unfold matchText
  obtain ⟨c, cs, hcons⟩ := List.exists_cons_of_ne_nil h
  rw [hcons, dropText]

theorem matchIndex_nil {after : String} (h : text.toList ≠ []) : matchIndex text after [] = none := by
  simp only [matchIndex, matchText_nil h, Option.bind_eq_bind, Option.bind_none]

theorem matchRegion_nil : matchRegion [] = none := by
  unfold matchRegion
  rw [matchText_nil (by simp), matchText_nil (by simp), matchIndex_nil (by simp),
    matchText_nil (by simp), matchIndex_nil (by simp)]
  rfl

def frameText (frame : PathFrame) : List Char :=
  ".steps[".toList ++ (Nat.toDigits 10 frame.index ++ ("]".toList ++
    (frame.into.map fun region => (regionSuffix region).toList).getD []))

theorem toList_formatFrame (id : String) (frame : PathFrame) :
    (formatFrame id frame).toList = id.toList ++ frameText frame := by
  obtain ⟨index, into⟩ := frame
  unfold formatFrame frameText
  cases into with
  | none =>
    dsimp only
    rw [String.toList_append, String.toList_append, String.toList_append, Nat.toString_eq_repr,
      Nat.toList_repr, List.append_assoc, List.append_assoc, Option.map_none, Option.getD_none,
      List.append_nil]
  | some region =>
    dsimp only
    rw [String.toList_append, String.toList_append, String.toList_append, String.toList_append,
      Nat.toString_eq_repr, Nat.toList_repr, List.append_assoc, List.append_assoc,
      List.append_assoc, Option.map_some, Option.getD_some]

theorem toList_formatStepPath (path : StepPath) :
    (formatStepPath path).toList = path.root.text.toList ++ path.frames.flatMap frameText := by
  obtain ⟨kind, frames⟩ := path
  have hfold : ∀ id : String, (frames.foldl formatFrame id).toList =
      id.toList ++ frames.flatMap frameText := by
    induction frames with
    | nil => simp
    | cons frame frames ih =>
      intro id
      rw [List.foldl_cons, ih, toList_formatFrame, List.flatMap_cons, List.append_assoc]
  exact hfold kind.text

def intoText (into : Option Region) : List Char :=
  (into.map fun region => (regionSuffix region).toList).getD []

theorem frameText_append (frame : PathFrame) (rest : List Char) :
    frameText frame ++ rest = ".steps[".toList ++
    (Nat.toDigits 10 frame.index ++ ("]".toList ++ (intoText frame.into ++ rest))) := by
  unfold frameText intoText
  simp only [List.append_assoc]

theorem matchRegion_frames (frames : List PathFrame) :
    matchRegion (frames.flatMap frameText) = none := by
  cases frames with
  | nil => exact matchRegion_nil
  | cons frame frames =>
    have heq := frameText_append frame (frames.flatMap frameText)
    exact (congrArg matchRegion (List.flatMap_cons.trans heq)).trans matchRegion_step

theorem matchStep_frame (frame : PathFrame) (rest : List Char) :
    matchStep (frameText frame ++ rest) = some (frame.index, intoText frame.into ++ rest) :=
  (congrArg matchStep (frameText_append frame rest)).trans (matchIndex_append toList_close frame.index)

theorem parseFrames_place {rest' : List Char} {index : ℕ} {frames : List PathFrame}
    (hstep : matchStep rest = some (index, rest')) (hregion : matchRegion rest' = none)
    (hframes : parseFrames rest' = .ok frames) : parseFrames rest = .ok (⟨index, none⟩ :: frames) := by
  cases rest with
  | nil =>
    rw [matchStep, matchIndex_nil (by simp)] at hstep
    cases hstep
  | cons c cs =>
    rw [parseFrames]
    split
    · rename_i hnone
      cases hstep.symm.trans hnone
    · rename_i hsome
      cases hstep.symm.trans hsome
      split
      · rw [hframes]
        rfl
      · rename_i hsome'
        cases hregion.symm.trans hsome'

theorem parseFrames_into {rest' rest'' : List Char} {index : ℕ} {region : Region}
    {frames : List PathFrame} (hstep : matchStep rest = some (index, rest'))
    (hregion : matchRegion rest' = some (region, rest''))
    (hframes : parseFrames rest'' = .ok frames) :
    parseFrames rest = .ok (⟨index, some region⟩ :: frames) := by
  cases rest with
  | nil =>
    rw [matchStep, matchIndex_nil (by simp)] at hstep
    cases hstep
  | cons c cs =>
    rw [parseFrames]
    split
    · rename_i hnone
      cases hstep.symm.trans hnone
    · rename_i hsome
      cases hstep.symm.trans hsome
      split
      · rename_i hnone'
        cases hregion.symm.trans hnone'
      · rename_i hsome'
        cases hregion.symm.trans hsome'
        rw [hframes]
        rfl

theorem parseFrames_flatMap (frames : List PathFrame) :
    parseFrames (frames.flatMap frameText) = .ok frames := by
  induction frames with
  | nil => rw [List.flatMap_nil, parseFrames]
  | cons frame frames ih =>
    obtain ⟨index, into⟩ := frame
    have hstep := matchStep_frame ⟨index, into⟩ (frames.flatMap frameText)
    rw [List.flatMap_cons]
    cases into with
    | none => exact parseFrames_place hstep (matchRegion_frames frames) ih
    | some region => exact parseFrames_into hstep (matchRegion_append region) ih

theorem starts_formatStepPath (path : StepPath) : path.root.Starts (formatStepPath path) := by
  obtain ⟨kind, frames⟩ := path
  cases frames with
  | nil => exact .inl rfl
  | cons frame frames =>
    right
    rw [toList_formatStepPath, String.toList_append, List.prefix_append_right_inj,
      List.flatMap_cons, frameText_append]
    exact ⟨_, rfl⟩

theorem not_starts_root {frames : List PathFrame} :
    ¬ RootKind.root.Starts (formatStepPath ⟨.error, frames⟩) := by
  have htext := toList_formatStepPath ⟨.error, frames⟩
  rintro (heq | hpre)
  · rw [heq] at htext
    simp [RootKind.text, ROOT, ERROR_ROOT] at htext
  · rw [htext] at hpre
    simp [RootKind.text, ROOT, ERROR_ROOT] at hpre

/-- parseStepPath is the inverse of formatStepPath. -/
theorem parseStepPath_formatStepPath (path : StepPath) :
    parseStepPath (formatStepPath path) = .ok path := by
  have hunder : parseUnder path.root (formatStepPath path) = .ok path := by
    rw [parseUnder, toList_formatStepPath, List.drop_left, parseFrames_flatMap]
    rfl
  have hstarts := starts_formatStepPath path
  obtain ⟨kind, frames⟩ := path
  unfold parseStepPath
  cases kind with
  | root => rw [if_pos hstarts, hunder]
  | error => rw [if_neg not_starts_root, if_pos hstarts, hunder]

theorem formatStepPath_injective : Function.Injective formatStepPath := by
  intro path path' heq
  have hparse := parseStepPath_formatStepPath path
  rw [heq, parseStepPath_formatStepPath path'] at hparse
  cases hparse
  rfl

theorem formatStepPath_ne_start (path : StepPath) : formatStepPath path ≠ START := by
  intro heq
  have htext := congrArg String.toList heq
  rw [toList_formatStepPath] at htext
  obtain ⟨kind, frames⟩ := path
  cases kind <;> simp [RootKind.text, ROOT, ERROR_ROOT, START] at htext

/-! The ids of the walk -/

variable {kind : RootKind} {frames : List PathFrame} {index : ℕ}

theorem childStepId_format : childStepId (formatStepPath ⟨kind, frames⟩) index =
    formatStepPath ⟨kind, frames ++ [⟨index, none⟩]⟩ := by
  simp only [formatStepPath, List.foldl_append, List.foldl_cons, List.foldl_nil]
  rfl

theorem region_format (region : Region) :
    formatStepPath ⟨kind, frames ++ [⟨index, none⟩]⟩ ++ regionSuffix region =
      formatStepPath ⟨kind, frames ++ [⟨index, some region⟩]⟩ := by
  simp only [formatStepPath, List.foldl_append, List.foldl_cons, List.foldl_nil]
  rfl

theorem conditionBranchRegionId_eq (stepId : String) (branch : ℕ) :
    conditionBranchRegionId stepId branch = stepId ++ regionSuffix (.conditionBranch branch) :=
  (String.append_assoc.trans String.append_assoc).trans
    (congrArg (stepId ++ ·) String.append_assoc.symm)

theorem parallelBranchRegionId_eq (stepId : String) (branch : ℕ) :
    parallelBranchRegionId stepId branch = stepId ++ regionSuffix (.parallelBranch branch) :=
  (String.append_assoc.trans String.append_assoc).trans
    (congrArg (stepId ++ ·) String.append_assoc.symm)

end Pivox.WorkflowGraph
