import Pivox.WorkflowGraph.AstToGraph

/-!
The steps of a sequence as trees, where a path leads in them, and the walk of a sequence as the walk
of its trees.
-/

namespace Pivox.WorkflowGraph
open PathTree

variable {K : Type} {kind : RootKind} {path frames : List PathFrame} {index : ℕ}
variable {parent : Option (List PathFrame)} {steps : List (Step K)} {step : Step K}

namespace Step

/-- The sequence of a region of a step. -/
def region (step : Step K) : Region → Option (Sequence (Step K))
  | .tryBody => step.try.map Try.body
  | .tryCatch => step.try.bind Try.catch
  | .conditionBranch branch => step.condition.bind fun condition =>
    condition.branches[branch]?.map Branch.then
  | .conditionOtherwise => step.condition.bind Condition.otherwise
  | .parallelBranch branch => step.parallel.bind fun parallel => parallel.branches[branch]?

/-- The kind of the node of a region. -/
def regionKind : Region → RegionKind
  | .tryBody => .tryBody
  | .tryCatch => .tryCatch
  | .conditionBranch _ => .branch
  | .conditionOtherwise => .otherwise
  | .parallelBranch _ => .lane

/-- The guard of a branch. -/
def regionWhen (step : Step K) : Region → Option String
  | .conditionBranch branch => step.condition.bind fun condition =>
    condition.branches[branch]?.map Branch.when
  | _ => none

/-- A step has one of an activity, a condition, a parallel and a try, and an activity has a kind. -/
def HasOneKind (step : Step K) : Prop :=
  step.activity.toList.length + step.condition.toList.length + step.parallel.toList.length +
    step.try.toList.length = 1 ∧
  ∀ activity ∈ step.activity, (activity.http.isSome ∨ activity.set.isSome ∨
    activity.runWorkflow.isSome ∨ activity.fail.isSome ∨ activity.end.isSome)

end Step

/-- A step with one kind whose steps, at any depth, have one each. -/
inductive OneKind : Step K → Prop where
  | mk {step : Step K} (hkind : step.HasOneKind)
      (hsteps : ∀ region sequence, step.region region = some sequence →
        ∀ step' ∈ sequence.steps, OneKind step') : OneKind step

/-- Where the frames of a path lead from a sequence of steps. -/
def stepAt : List PathFrame → List (Step K) → Option (Step K)
  | [], _ => none
  | [⟨index, none⟩], steps => steps[index]?
  | ⟨_, none⟩ :: _ :: _, _ => none
  | ⟨index, some region⟩ :: frames, steps =>
    (steps[index]?.bind fun step => step.region region).bind fun sequence =>
      stepAt frames sequence.steps

inductive Item (K : Type) where
  | step (step : Step K)
  | region (kind : RegionKind) (when : Option String)

abbrev StepTree (K : Type) := Tree Region (Item K)

mutual

def Step.children : Step K → List (Region × Item K × List (StepTree K))
  | ⟨_, some _, _, _, _⟩ => []
  | ⟨_, none, some ⟨branches, otherwise⟩, _, _⟩ =>
    branchTrees 0 branches ++ optionalTrees .conditionOtherwise .otherwise otherwise
  | ⟨_, none, none, some ⟨branches⟩, _⟩ => laneTrees 0 branches
  | ⟨_, none, none, none, some ⟨⟨body⟩, «catch», _⟩⟩ =>
    (.tryBody, .region .tryBody none, stepTrees body) :: optionalTrees .tryCatch .tryCatch «catch»
  | ⟨_, none, none, none, none⟩ => []

def stepTrees : List (Step K) → List (StepTree K)
  | [] => []
  | step :: steps => .node (.step step) step.children :: stepTrees steps

def branchTrees (k : ℕ) : List (Branch (Step K)) → List (Region × Item K × List (StepTree K))
  | [] => []
  | ⟨when, ⟨steps⟩⟩ :: branches =>
    (.conditionBranch k, .region .branch (some when), stepTrees steps) :: branchTrees (k + 1) branches

def laneTrees (k : ℕ) : List (Sequence (Step K)) → List (Region × Item K × List (StepTree K))
  | [] => []
  | ⟨steps⟩ :: lanes =>
    (.parallelBranch k, .region .lane none, stepTrees steps) :: laneTrees (k + 1) lanes

def optionalTrees (region : Region) (kind : RegionKind) :
    Option (Sequence (Step K)) → List (Region × Item K × List (StepTree K))
  | none => []
  | some ⟨steps⟩ => [(region, .region kind none, stepTrees steps)]

end

/-! The trees of the regions -/

variable {region : Region} {item : Item K} {below : List (StepTree K)}

theorem mem_branchTrees {branches : List (Branch (Step K))} {k : ℕ} :
    (region, item, below) ∈ branchTrees k branches ↔ ∃ i branch, branches[i]? = some branch ∧
      region = .conditionBranch (k + i) ∧ item = .region .branch (some branch.when) ∧
      below = stepTrees branch.then.steps := by
  induction branches generalizing k with
  | nil => simp [branchTrees]
  | cons branch branches ih =>
    obtain ⟨when, ⟨steps⟩⟩ := branch
    rw [branchTrees, List.mem_cons, ih]
    constructor
    · rintro (heq | ⟨i, branch, hbranch, rfl, rfl, rfl⟩)
      · cases heq
        exact ⟨0, _, rfl, rfl, rfl, rfl⟩
      · refine ⟨i + 1, branch, hbranch, ?_, rfl, rfl⟩
        rw [Nat.add_right_comm, Nat.add_assoc]
    · rintro ⟨i, branch, hbranch, rfl, rfl, rfl⟩
      cases i with
      | zero =>
        cases hbranch
        exact .inl rfl
      | succ i =>
        refine .inr ⟨i, branch, hbranch, ?_, rfl, rfl⟩
        rw [Nat.add_right_comm, Nat.add_assoc]

theorem mem_laneTrees {lanes : List (Sequence (Step K))} {k : ℕ} :
    (region, item, below) ∈ laneTrees k lanes ↔ ∃ i lane, lanes[i]? = some lane ∧
      region = .parallelBranch (k + i) ∧ item = .region .lane none ∧
      below = stepTrees lane.steps := by
  induction lanes generalizing k with
  | nil => simp [laneTrees]
  | cons lane lanes ih =>
    obtain ⟨steps⟩ := lane
    rw [laneTrees, List.mem_cons, ih]
    constructor
    · rintro (heq | ⟨i, lane, hlane, rfl, rfl, rfl⟩)
      · cases heq
        exact ⟨0, _, rfl, rfl, rfl, rfl⟩
      · refine ⟨i + 1, lane, hlane, ?_, rfl, rfl⟩
        rw [Nat.add_right_comm, Nat.add_assoc]
    · rintro ⟨i, lane, hlane, rfl, rfl, rfl⟩
      cases i with
      | zero =>
        cases hlane
        exact .inl rfl
      | succ i =>
        refine .inr ⟨i, lane, hlane, ?_, rfl, rfl⟩
        rw [Nat.add_right_comm, Nat.add_assoc]

theorem mem_optionalTrees {sequence : Option (Sequence (Step K))} {region' : Region}
    {kind : RegionKind} : (region, item, below) ∈ optionalTrees region' kind sequence ↔
      ∃ sequence', sequence = some sequence' ∧ region = region' ∧ item = .region kind none ∧
        below = stepTrees sequence'.steps := by
  cases sequence with
  | none => simp [optionalTrees]
  | some sequence => simp [optionalTrees]

theorem nodup_branchTrees {branches : List (Branch (Step K))} {k : ℕ} :
    ((branchTrees k branches).map Prod.fst).Nodup := by
  induction branches generalizing k with
  | nil => exact List.nodup_nil
  | cons branch branches ih =>
    obtain ⟨when, ⟨steps⟩⟩ := branch
    rw [branchTrees, List.map_cons, List.nodup_cons]
    refine ⟨?_, ih⟩
    rw [List.mem_map]
    rintro ⟨⟨region, item, below⟩, hmem, rfl⟩
    obtain ⟨i, branch, -, heq, -⟩ := mem_branchTrees.1 hmem
    simp only [Region.conditionBranch.injEq] at heq
    omega

theorem nodup_laneTrees {lanes : List (Sequence (Step K))} {k : ℕ} :
    ((laneTrees k lanes).map Prod.fst).Nodup := by
  induction lanes generalizing k with
  | nil => exact List.nodup_nil
  | cons lane lanes ih =>
    obtain ⟨steps⟩ := lane
    rw [laneTrees, List.map_cons, List.nodup_cons]
    refine ⟨?_, ih⟩
    rw [List.mem_map]
    rintro ⟨⟨region, item, below⟩, hmem, rfl⟩
    obtain ⟨i, lane, -, heq, -⟩ := mem_laneTrees.1 hmem
    simp only [Region.parallelBranch.injEq] at heq
    omega

/-- A step with one kind is one of four. -/
theorem Step.HasOneKind.cases (h : step.HasOneKind) :
    (∃ id activity, step = ⟨id, some activity, none, none, none⟩) ∨
    (∃ id condition, step = ⟨id, none, some condition, none, none⟩) ∨
    (∃ id parallel, step = ⟨id, none, none, some parallel, none⟩) ∨
    ∃ id attempt, step = ⟨id, none, none, none, some attempt⟩ := by
  obtain ⟨id, activity, condition, parallel, attempt⟩ := step
  have hcount := h.1
  cases activity <;> cases condition <;> cases parallel <;> cases attempt <;>
    simp [Step.activity, Step.condition, Step.parallel, Step.try] at hcount ⊢

/-- The children of a step with one kind are its regions. -/
theorem mem_children (h : step.HasOneKind) : (region, item, below) ∈ step.children ↔
    ∃ sequence, step.region region = some sequence ∧
      item = .region (Step.regionKind region) (step.regionWhen region) ∧
      below = stepTrees sequence.steps := by
  obtain ⟨id, activity, rfl⟩ | ⟨id, ⟨branches, otherwise⟩, rfl⟩ | ⟨id, ⟨branches⟩, rfl⟩ |
    ⟨id, ⟨⟨body⟩, «catch», rethrow⟩, rfl⟩ := h.cases
  · cases region <;> simp [Step.children, Step.region, Step.condition, Step.parallel, Step.try]
  · rw [Step.children, List.mem_append, mem_branchTrees, mem_optionalTrees]
    cases region <;>
      simp [Step.region, Step.regionKind, Step.regionWhen, Step.condition, Step.parallel, Step.try]
    constructor
    · rintro ⟨branch, hbranch, rfl, rfl⟩
      exact ⟨branch, hbranch, by rw [hbranch, Option.map_some], rfl⟩
    · rintro ⟨branch, hbranch, rfl, rfl⟩
      exact ⟨branch, hbranch, by rw [hbranch, Option.map_some], rfl⟩
  · rw [Step.children, mem_laneTrees]
    cases region <;>
      simp [Step.region, Step.regionKind, Step.regionWhen, Step.condition, Step.parallel, Step.try]
  · rw [Step.children, List.mem_cons, mem_optionalTrees]
    cases region <;>
      simp [Step.region, Step.regionKind, Step.regionWhen, Step.condition, Step.parallel, Step.try]

theorem nodup_children (h : step.HasOneKind) : (step.children.map Prod.fst).Nodup := by
  obtain ⟨id, activity, rfl⟩ | ⟨id, ⟨branches, otherwise⟩, rfl⟩ | ⟨id, ⟨branches⟩, rfl⟩ |
    ⟨id, ⟨⟨body⟩, «catch», rethrow⟩, rfl⟩ := h.cases
  · exact List.nodup_nil
  · rw [Step.children, List.map_append, List.nodup_append]
    refine ⟨nodup_branchTrees, ?_, ?_⟩
    · cases otherwise <;> simp [optionalTrees]
    · simp only [List.mem_map]
      rintro _ ⟨⟨region, item, below⟩, hmem, rfl⟩ _ ⟨⟨region', item', below'⟩, hmem', rfl⟩
      obtain ⟨i, branch, -, rfl, -⟩ := mem_branchTrees.1 hmem
      obtain ⟨sequence, -, rfl, -⟩ := mem_optionalTrees.1 hmem'
      simp
  · exact nodup_laneTrees
  · cases «catch» <;> simp [Step.children, optionalTrees]

theorem OneKind.hasOneKind (h : OneKind step) : step.HasOneKind := by
  cases h
  assumption

theorem distinct_of_children (h : ∀ step ∈ steps, step.HasOneKind ∧
    ∀ child ∈ step.children, Distinct child.2.2) : Distinct (stepTrees steps) := by
  induction steps with
  | nil => exact .nil
  | cons step steps ih =>
    obtain ⟨hkind, hchildren⟩ := h step List.mem_cons_self
    rw [stepTrees]
    exact .cons (nodup_children hkind) hchildren
      (ih fun step' hstep' => h step' (List.mem_cons_of_mem _ hstep'))

theorem OneKind.distinct (h : OneKind step) : ∀ child ∈ step.children, Distinct child.2.2 := by
  induction h with
  | mk hkind hsteps ih =>
    rintro ⟨region, item, below⟩ hchild
    obtain ⟨sequence, hsequence, -, rfl⟩ := (mem_children hkind).1 hchild
    exact distinct_of_children fun step' hstep' =>
      ⟨(hsteps region sequence hsequence step' hstep').hasOneKind,
        ih region sequence hsequence step' hstep'⟩

/-- The labels of the trees are distinct. -/
theorem distinct_stepTrees (h : ∀ step ∈ steps, OneKind step) : Distinct (stepTrees steps) :=
  distinct_of_children fun step hstep => ⟨(h step hstep).hasOneKind, (h step hstep).distinct⟩

/-! Where a path leads -/

theorem getElem?_stepTrees {i : ℕ} : (stepTrees steps)[i]? =
    steps[i]?.map fun step => .node (.step step) step.children := by
  induction steps generalizing i with
  | nil => simp [stepTrees]
  | cons step steps ih =>
    rw [stepTrees]
    cases i with
    | zero => rfl
    | succ i => exact ih

theorem at_stepTrees_iff {address : List PathFrame} : At 0 (stepTrees steps) address item ↔
    ∃ (i : ℕ) (step : Step K), steps[i]? = some step ∧
      (address = [⟨i, none⟩] ∧ item = .step step ∨
        ∃ region item' below, (region, item', below) ∈ step.children ∧
          (address = [⟨i, some region⟩] ∧ item = item' ∨
            ∃ address', address = ⟨i, some region⟩ :: address' ∧ At 0 below address' item)) := by
  rw [at_iff]
  constructor
  · rintro ⟨i, item₀, children, htree, hplace⟩
    rw [getElem?_stepTrees, Option.map_eq_some_iff] at htree
    obtain ⟨step, hstep, heq⟩ := htree
    cases heq
    rw [Nat.zero_add] at hplace
    exact ⟨i, step, hstep, hplace⟩
  · rintro ⟨i, step, hstep, hplace⟩
    refine ⟨i, .step step, step.children, ?_, ?_⟩
    · rw [getElem?_stepTrees, hstep, Option.map_some]
    · rwa [Nat.zero_add]

theorem stepAt_into {region : Region} {sequence : Sequence (Step K)}
    (hstep : steps[index]? = some step) (hregion : step.region region = some sequence) :
    stepAt (⟨index, some region⟩ :: frames) steps = stepAt frames sequence.steps := by
  rw [stepAt, hstep, Option.bind_some, hregion, Option.bind_some]

theorem stepAt_into_eq_some {region : Region} {step' : Step K}
    (h : stepAt (⟨index, some region⟩ :: frames) steps = some step') :
    ∃ step sequence, steps[index]? = some step ∧ step.region region = some sequence ∧
      stepAt frames sequence.steps = some step' := by
  rw [stepAt] at h
  obtain ⟨sequence, hsequence, hstep'⟩ := Option.bind_eq_some_iff.mp h
  obtain ⟨step, hstep, hregion⟩ := Option.bind_eq_some_iff.mp hsequence
  exact ⟨step, sequence, hstep, hregion, hstep'⟩

theorem OneKind.nested {region : Region} {sequence : Sequence (Step K)} (h : OneKind step)
    (hregion : step.region region = some sequence) : ∀ step' ∈ sequence.steps, OneKind step' := by
  cases h with
  | mk hkind hsteps => exact hsteps region sequence hregion

/-- A step stands where its path leads. -/
theorem at_step_iff (h : ∀ step ∈ steps, OneKind step) :
    At 0 (stepTrees steps) frames (.step step) ↔ stepAt frames steps = some step := by
  induction frames generalizing steps with
  | nil =>
    rw [at_stepTrees_iff]
    simp [stepAt]
  | cons frame frames ih =>
    obtain ⟨index, into⟩ := frame
    rw [at_stepTrees_iff]
    constructor
    · rintro ⟨i, step₀, hstep₀, ⟨heq, hitem⟩ | ⟨region, item', below, hchild, ⟨heq, rfl⟩ |
        ⟨address', heq, hat⟩⟩⟩
      · cases heq
        cases hitem
        exact hstep₀
      · have hkind := (h step₀ (List.mem_of_getElem? hstep₀)).hasOneKind
        obtain ⟨sequence, -, hitem, -⟩ := (mem_children hkind).1 hchild
        cases hitem
      · cases heq
        have hone := h step₀ (List.mem_of_getElem? hstep₀)
        obtain ⟨sequence, hregion, -, rfl⟩ := (mem_children hone.hasOneKind).1 hchild
        rw [stepAt_into hstep₀ hregion]
        exact (ih (hone.nested hregion)).1 hat
    · intro hstep
      cases into with
      | none =>
        cases frames with
        | nil => exact ⟨index, step, hstep, .inl ⟨rfl, rfl⟩⟩
        | cons frame frames => cases hstep
      | some region =>
        obtain ⟨step₀, sequence, hstep₀, hregion, hstep⟩ := stepAt_into_eq_some hstep
        have hone := h step₀ (List.mem_of_getElem? hstep₀)
        refine ⟨index, step₀, hstep₀, .inr ⟨region, _, _, (mem_children hone.hasOneKind).2
          ⟨sequence, hregion, rfl, rfl⟩, .inr ⟨frames, rfl, (ih (hone.nested hregion)).2 hstep⟩⟩⟩

/-- A region stands under the step of its path. -/
theorem at_region_iff {regionKind : RegionKind} {when : Option String}
    (h : ∀ step ∈ steps, OneKind step) :
    At 0 (stepTrees steps) frames (.region regionKind when) ↔
      ∃ path index region step sequence, frames = path ++ [⟨index, some region⟩] ∧
        stepAt (path ++ [⟨index, none⟩]) steps = some step ∧
        step.region region = some sequence ∧ regionKind = Step.regionKind region ∧
        when = step.regionWhen region := by
  induction frames generalizing steps with
  | nil =>
    rw [at_stepTrees_iff]
    simp
  | cons frame frames ih =>
    obtain ⟨index, into⟩ := frame
    rw [at_stepTrees_iff]
    constructor
    · rintro ⟨i, step₀, hstep₀, ⟨heq, hitem⟩ | ⟨region, item', below, hchild, ⟨heq, rfl⟩ |
        ⟨address', heq, hat⟩⟩⟩
      · cases hitem
      · cases heq
        have hone := h step₀ (List.mem_of_getElem? hstep₀)
        obtain ⟨sequence, hregion, hitem, rfl⟩ := (mem_children hone.hasOneKind).1 hchild
        cases hitem
        exact ⟨[], index, region, step₀, sequence, rfl, hstep₀, hregion, rfl, rfl⟩
      · cases heq
        have hone := h step₀ (List.mem_of_getElem? hstep₀)
        obtain ⟨sequence, hregion, -, rfl⟩ := (mem_children hone.hasOneKind).1 hchild
        obtain ⟨path, index', region', step, sequence', rfl, hstep, hregion', hkind, hwhen⟩ :=
          (ih (hone.nested hregion)).1 hat
        refine ⟨⟨index, some region⟩ :: path, index', region', step, sequence', rfl, ?_, hregion',
          hkind, hwhen⟩
        rw [List.cons_append, stepAt_into hstep₀ hregion]
        exact hstep
    · rintro ⟨path, index', region', step, sequence', heq, hstep, hregion', rfl, rfl⟩
      cases path with
      | nil =>
        cases heq
        have hone := h step (List.mem_of_getElem? hstep)
        exact ⟨index, step, hstep, .inr ⟨region', _, _, (mem_children hone.hasOneKind).2
          ⟨sequence', hregion', rfl, rfl⟩, .inl ⟨rfl, rfl⟩⟩⟩
      | cons frame path =>
        cases heq
        cases into with
        | none =>
          rw [List.cons_append] at hstep
          obtain ⟨frame', frames', hcons⟩ : ∃ frame' frames',
              path ++ [⟨index', none⟩] = frame' :: frames' :=
            List.exists_cons_of_ne_nil (by simp)
          rw [hcons] at hstep
          cases hstep
        | some region =>
          obtain ⟨step₀, sequence, hstep₀, hregion, hstep⟩ := stepAt_into_eq_some hstep
          have hone := h step₀ (List.mem_of_getElem? hstep₀)
          exact ⟨index, step₀, hstep₀, .inr ⟨region, _, _, (mem_children hone.hasOneKind).2
            ⟨sequence, hregion, rfl, rfl⟩, .inr ⟨_, rfl, (ih (hone.nested hregion)).2
              ⟨path, index', region', step, sequence', rfl, hstep, hregion', rfl, rfl⟩⟩⟩⟩

end Pivox.WorkflowGraph
