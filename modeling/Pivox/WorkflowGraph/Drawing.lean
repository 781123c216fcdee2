import Pivox.WorkflowGraph.Trees

/-!
The walk of a sequence draws one node for each visit of its trees, and one edge for each visit of a
step that is not the first of its sequence.
-/

namespace Pivox.WorkflowGraph
open PathTree

variable {K : Type} {kind : RootKind} {path : List PathFrame} {index : ℕ}
variable {parent : Option (List PathFrame)} {steps : List (Step K)} {step : Step K}
variable {g g' : Graph K} {v : Visit Region (Item K)} {vs vs' : List (Visit Region (Item K))}

/-- The node of a step. -/
def stepNode (stepId : String) (parentId : Option String) :
    Step K → Except String (WorkflowNode K)
  | ⟨id, some activity, _, _, _⟩ =>
    (activityConfig activity).map (activityNode id stepId parentId)
  | ⟨id, none, some _, _, _⟩ => .ok (containerNode .condition id stepId parentId none)
  | ⟨id, none, none, some _, _⟩ => .ok (containerNode .parallel id stepId parentId none)
  | ⟨id, none, none, none, some attempt⟩ =>
    .ok (containerNode .try id stepId parentId (some (attempt.rethrow.getD false)))
  | ⟨id, none, none, none, none⟩ => .error ("step " ++ id ++ " has no kind set")

def Item.node (id : String) (parentId : Option String) : Item K → Except String (WorkflowNode K)
  | .step step => stepNode id parentId step
  | .region kind when => .ok (regionNode kind when id parentId)

def pathId (kind : RootKind) (frames : List PathFrame) : String := formatStepPath ⟨kind, frames⟩

theorem pathId_region (region : Region) :
    pathId kind (path ++ [⟨index, none⟩]) ++ regionSuffix region =
      pathId kind (path ++ [⟨index, some region⟩]) :=
  region_format region

def visitNode (kind : RootKind) (v : Visit Region (Item K)) : Except String (WorkflowNode K) :=
  v.item.node (pathId kind v.address) (v.parent.map (pathId kind))

def edge (source target : String) (kind : EdgeKind) : WorkflowEdge :=
  ⟨kind.text ++ ":" ++ source ++ "=>" ++ target, source, target, kind⟩

/- The path of the step before. -/
def previous : List PathFrame → Option (List PathFrame)
  | [] => none
  | [⟨index + 1, none⟩] => some [⟨index, none⟩]
  | [_] => none
  | frame :: frames => (previous frames).map (frame :: ·)

def visitEdge (kind : RootKind) (v : Visit Region (Item K)) : Option WorkflowEdge :=
  (previous v.address).map fun frames => edge (pathId kind frames) (pathId kind v.address) .sequence

theorem previous_cons {frame : PathFrame} {frames : List PathFrame} (h : frames ≠ []) :
    previous (frame :: frames) = (previous frames).map (frame :: ·) := by
  obtain ⟨frame', frames', rfl⟩ := List.exists_cons_of_ne_nil h
  obtain ⟨i, into⟩ := frame
  cases i <;> cases into <;> rfl

@[simp] theorem previous_first : previous (path ++ [⟨0, none⟩]) = none := by
  induction path with
  | nil => rfl
  | cons frame path ih => rw [List.cons_append, previous_cons (by simp), ih, Option.map_none]

@[simp] theorem previous_next :
    previous (path ++ [⟨index + 1, none⟩]) = some (path ++ [⟨index, none⟩]) := by
  induction path with
  | nil => rfl
  | cons frame path ih =>
    rw [List.cons_append, previous_cons (by simp), ih, Option.map_some, List.cons_append]

@[simp] theorem previous_region {region : Region} :
    previous (path ++ [⟨index, some region⟩]) = none := by
  induction path with
  | nil => cases index <;> rfl
  | cons frame path ih => rw [List.cons_append, previous_cons (by simp), ih, Option.map_none]

structure Draws (kind : RootKind) (g : Graph K) (vs : List (Visit Region (Item K))) : Prop where
  nodes : g.nodes.map Except.ok = vs.map (visitNode kind)
  edges : g.edges.Perm (vs.filterMap (visitEdge kind))

theorem Draws.empty : Draws kind (Graph.empty : Graph K) [] := ⟨rfl, .refl _⟩

theorem Draws.append (h : Draws kind g vs) (h' : Draws kind g' vs') :
    Draws kind (g ++ g') (vs ++ vs') where
  nodes := by
    rw [List.map_append, ← h.nodes, ← h'.nodes]
    exact List.map_append
  edges := by
    rw [List.filterMap_append]
    exact h.edges.append h'.edges

/- The node of a region with what is drawn of its sequence. -/
def regionGraph (kind : RootKind) (path : List PathFrame) (index : ℕ) (region : Region)
    (kind' : RegionKind) (when : Option String) (g : Graph K) : Graph K :=
  .ofNode (regionNode kind' when (pathId kind (path ++ [⟨index, some region⟩]))
    (some (pathId kind (path ++ [⟨index, none⟩])))) ++ g

theorem Draws.region {kind' : RegionKind} {when : Option String} {region : Region}
    (h : Draws kind g vs) : Draws kind (regionGraph kind path index region kind' when g)
      (⟨path ++ [⟨index, some region⟩], some (path ++ [⟨index, none⟩]), .region kind' when⟩ :: vs) where
  nodes := congrArg (List.cons _) h.nodes
  edges := by
    have hnone : visitEdge kind ⟨path ++ [⟨index, some region⟩],
        some (path ++ [⟨index, none⟩]), Item.region (K := K) kind' when⟩ = none := by
      simp [visitEdge]
    rw [List.filterMap_cons_none hnone]
    exact h.edges

/- What walkStep draws of a step: the edge to it is drawn by the walk of its sequence. -/
def StepDrawn (step : Step K) : Prop :=
  ∀ (kind : RootKind) (path : List PathFrame) (parent : Option (List PathFrame)) (index : ℕ),
    ∃ g, walkStep (pathId kind (path ++ [⟨index, none⟩])) (parent.map (pathId kind)) step = .ok g ∧
      g.nodes.map Except.ok = (visitTree path parent index
        (.node (.step step) step.children)).map (visitNode kind) ∧
      g.edges.Perm ((visitChildren path index step.children).filterMap (visitEdge kind))

/- The id of the step before the one of the given index. -/
def previousId (kind : RootKind) (path : List PathFrame) : ℕ → Option String
  | 0 => none
  | index + 1 => some (pathId kind (path ++ [⟨index, none⟩]))

/- With the edge to a step, what is drawn of it. -/
theorem draws_step (hnodes : g.nodes.map Except.ok = (visitTree path parent index
      (.node (.step step) step.children)).map (visitNode kind))
    (hedges : g.edges.Perm ((visitChildren path index step.children).filterMap (visitEdge kind))) :
    Draws kind (g ++ ((previousId kind path index).map fun previousId =>
        addEdge previousId (pathId kind (path ++ [⟨index, none⟩])) .sequence).getD .empty)
      (visitTree path parent index (.node (.step step) step.children)) := by
  cases index with
  | zero =>
    refine ⟨?_, ?_⟩
    · rw [← hnodes]
      exact congrArg _ (List.append_nil g.nodes)
    · have hnone : visitEdge kind ⟨path ++ [⟨0, none⟩], parent, .step step⟩ = none := by
        simp [visitEdge]
      rw [visitTree, List.filterMap_cons_none hnone]
      exact List.perm_append_comm.trans hedges
  | succ index =>
    refine ⟨?_, ?_⟩
    · rw [← hnodes]
      exact congrArg _ (List.append_nil g.nodes)
    · have hsome : visitEdge kind ⟨path ++ [⟨index + 1, none⟩], parent, .step step⟩ = some (edge
          (pathId kind (path ++ [⟨index, none⟩])) (pathId kind (path ++ [⟨index + 1, none⟩]))
          .sequence) := by
        simp [visitEdge]
      rw [visitTree, List.filterMap_cons_some hsome]
      exact List.perm_append_comm.trans (hedges.cons _)

theorem walkSequence_draws (kind : RootKind) (path : List PathFrame)
    (parent : Option (List PathFrame)) (index : ℕ) (h : ∀ step ∈ steps, StepDrawn step) :
    ∃ g, walkSequence (pathId kind path) (parent.map (pathId kind)) index
      (previousId kind path index) steps = .ok g ∧
      Draws kind g (visitForest path parent index (stepTrees steps)) := by
  induction steps generalizing index with
  | nil => exact ⟨.empty, rfl, .empty⟩
  | cons step steps ih =>
    obtain ⟨g, hwalk, hnodes, hedges⟩ := h step List.mem_cons_self kind path parent index
    obtain ⟨rest, hrest, hdraws⟩ := ih (index + 1) fun step' hstep' =>
      h step' (List.mem_cons_of_mem _ hstep')
    have hid : childStepId (pathId kind path) index = pathId kind (path ++ [⟨index, none⟩]) :=
      childStepId_format
    have hseq : walkSequence (pathId kind path) (parent.map (pathId kind)) index
        (previousId kind path index) (step :: steps) = .ok (g ++ ((previousId kind path index).map
          fun previousId => addEdge previousId (pathId kind (path ++ [⟨index, none⟩])) .sequence).getD
          .empty ++ rest) := by
      rw [walkSequence, hid, hwalk]
      exact congrArg (Except.map _) hrest
    refine ⟨_, hseq, ?_⟩
    rw [stepTrees, visitForest]
    exact (draws_step hnodes hedges).append hdraws

/- The node of a region and the walk of its sequence from the first step. -/
theorem walkRegion_draws (kind : RootKind) (path : List PathFrame) (index : ℕ) (region : Region)
    (kind' : RegionKind) (when : Option String) (h : ∀ step ∈ steps, StepDrawn step) :
    ∃ g, walkSequence (pathId kind (path ++ [⟨index, some region⟩]))
      (some (pathId kind (path ++ [⟨index, some region⟩]))) 0 none steps = .ok g ∧
      Draws kind (regionGraph kind path index region kind' when g)
        (⟨path ++ [⟨index, some region⟩], some (path ++ [⟨index, none⟩]), .region kind' when⟩ ::
          visitForest (path ++ [⟨index, some region⟩]) (some (path ++ [⟨index, some region⟩])) 0
            (stepTrees steps)) := by
  obtain ⟨g, hwalk, hdraws⟩ := walkSequence_draws kind (path ++ [⟨index, some region⟩])
    (some (path ++ [⟨index, some region⟩])) 0 h
  exact ⟨g, hwalk, hdraws.region⟩

theorem walkOptional_draws (kind : RootKind) (path : List PathFrame) (index : ℕ) (region : Region)
    (kind' : RegionKind) {sequence : Option (Sequence (Step K))}
    (h : ∀ sequence' ∈ sequence, ∀ step ∈ sequence'.steps, StepDrawn step) :
    ∃ g, walkOptional kind' (pathId kind (path ++ [⟨index, some region⟩]))
      (pathId kind (path ++ [⟨index, none⟩])) sequence = .ok g ∧
      Draws kind g (visitChildren path index (optionalTrees region kind' sequence)) := by
  cases sequence with
  | none => exact ⟨.empty, rfl, .empty⟩
  | some sequence =>
    obtain ⟨g, hwalk, hdraws⟩ := walkRegion_draws kind path index region kind' none (h sequence rfl)
    refine ⟨regionGraph kind path index region kind' none g, ?_, ?_⟩
    · rw [walkOptional, hwalk]
      rfl
    · rw [optionalTrees, visitChildren, visitChildren, List.append_nil]
      exact hdraws

theorem walkBranches_draws (kind : RootKind) (path : List PathFrame) (index k : ℕ)
    {branches : List (Branch (Step K))}
    (h : ∀ branch ∈ branches, ∀ step ∈ branch.then.steps, StepDrawn step) :
    ∃ g, walkBranches (pathId kind (path ++ [⟨index, none⟩])) k branches = .ok g ∧
      Draws kind g (visitChildren path index (branchTrees k branches)) := by
  induction branches generalizing k with
  | nil => exact ⟨.empty, rfl, .empty⟩
  | cons branch branches ih =>
    obtain ⟨when, ⟨steps⟩⟩ := branch
    obtain ⟨rest, hrest, hdraws⟩ := ih (k + 1) fun branch hbranch =>
      h branch (List.mem_cons_of_mem _ hbranch)
    obtain ⟨g, hwalk, hdraws'⟩ := walkRegion_draws kind path index (.conditionBranch k) .branch
      (some when) (h _ List.mem_cons_self)
    have hid : conditionBranchRegionId (pathId kind (path ++ [⟨index, none⟩])) k =
        pathId kind (path ++ [⟨index, some (.conditionBranch k)⟩]) :=
      (conditionBranchRegionId_eq _ k).trans (pathId_region _)
    refine ⟨regionGraph kind path index (.conditionBranch k) .branch (some when) g ++ rest, ?_, ?_⟩
    · rw [walkBranches, hid, hwalk, hrest]
      rfl
    · rw [branchTrees, visitChildren]
      exact hdraws'.append hdraws

theorem walkLanes_draws (kind : RootKind) (path : List PathFrame) (index k : ℕ)
    {lanes : List (Sequence (Step K))} (h : ∀ lane ∈ lanes, ∀ step ∈ lane.steps, StepDrawn step) :
    ∃ g, walkLanes (pathId kind (path ++ [⟨index, none⟩])) k lanes = .ok g ∧
      Draws kind g (visitChildren path index (laneTrees k lanes)) := by
  induction lanes generalizing k with
  | nil => exact ⟨.empty, rfl, .empty⟩
  | cons lane lanes ih =>
    obtain ⟨steps⟩ := lane
    obtain ⟨rest, hrest, hdraws⟩ := ih (k + 1) fun lane hlane =>
      h lane (List.mem_cons_of_mem _ hlane)
    obtain ⟨g, hwalk, hdraws'⟩ := walkRegion_draws kind path index (.parallelBranch k) .lane none
      (h _ List.mem_cons_self)
    have hid : parallelBranchRegionId (pathId kind (path ++ [⟨index, none⟩])) k =
        pathId kind (path ++ [⟨index, some (.parallelBranch k)⟩]) :=
      (parallelBranchRegionId_eq _ k).trans (pathId_region _)
    refine ⟨regionGraph kind path index (.parallelBranch k) .lane none g ++ rest, ?_, ?_⟩
    · rw [walkLanes, hid, hwalk, hrest]
      rfl
    · rw [laneTrees, visitChildren]
      exact hdraws'.append hdraws

theorem activityConfig_ok {activity : Activity K} (h : activity.http.isSome ∨ activity.set.isSome ∨
    activity.runWorkflow.isSome ∨ activity.fail.isSome ∨ activity.end.isSome) :
    ∃ config, activityConfig activity = .ok config := by
  obtain ⟨http, set, runWorkflow, fail, «end»⟩ := activity
  cases http <;> cases set <;> cases runWorkflow <;> cases fail <;> cases «end» <;>
    simp [activityConfig] at h ⊢

/- The node of a container, then what its regions draw. -/
theorem draws_container {node : WorkflowNode K}
    (hnode : stepNode (pathId kind (path ++ [⟨index, none⟩])) (parent.map (pathId kind)) step =
      .ok node)
    (h : Draws kind g (visitChildren path index step.children)) :
    (Graph.ofNode node ++ g).nodes.map Except.ok = (visitTree path parent index
      (.node (.step step) step.children)).map (visitNode kind) ∧
    (Graph.ofNode node ++ g).edges.Perm
      ((visitChildren path index step.children).filterMap (visitEdge kind)) := by
  refine ⟨?_, h.edges⟩
  rw [visitTree, List.map_cons, ← h.nodes, visitNode, Item.node, hnode]
  rfl

theorem walkStep_condition {branches : List (Branch (Step K))}
    {otherwise : Option (Sequence (Step K))} {id stepId : String} {parentId : Option String}
    (hbranches : walkBranches stepId 0 branches = .ok g)
    (hotherwise : walkOptional .otherwise (conditionOtherwiseRegionId stepId) stepId otherwise =
      .ok g') :
    walkStep stepId parentId ⟨id, none, some ⟨branches, otherwise⟩, none, none⟩ =
      .ok (.ofNode (containerNode .condition id stepId parentId none) ++ (g ++ g')) := by
  rw [walkStep, hbranches, ← Graph.append_assoc]
  exact congrArg (Except.map _) hotherwise

theorem walkStep_parallel {branches : List (Sequence (Step K))} {id stepId : String}
    {parentId : Option String} (hlanes : walkLanes stepId 0 branches = .ok g) :
    walkStep stepId parentId ⟨id, none, none, some ⟨branches⟩, none⟩ =
      .ok (.ofNode (containerNode .parallel id stepId parentId none) ++ g) := by
  rw [walkStep, hlanes]
  rfl

theorem walkStep_try {body : List (Step K)} {«catch» : Option (Sequence (Step K))}
    {rethrow : Option Bool} {id stepId : String} {parentId : Option String}
    (hbody : walkSequence (tryBodyRegionId stepId) (some (tryBodyRegionId stepId)) 0 none body =
      .ok g)
    (hcatch : walkOptional .tryCatch (tryCatchRegionId stepId) stepId «catch» = .ok g') :
    walkStep stepId parentId ⟨id, none, none, none, some ⟨⟨body⟩, «catch», rethrow⟩⟩ =
      .ok (.ofNode (containerNode .try id stepId parentId (some (rethrow.getD false))) ++
        (.ofNode (regionNode .tryBody none (tryBodyRegionId stepId) (some stepId)) ++ g ++ g')) := by
  rw [walkStep]
  simp only [hbody, ← Graph.append_assoc]
  exact congrArg (Except.map _) hcatch

theorem OneKind.drawn (h : OneKind step) : StepDrawn step := by
  induction h with
  | @mk step hkind hsteps ih =>
    intro kind path parent index
    have hotherwise : conditionOtherwiseRegionId (pathId kind (path ++ [⟨index, none⟩])) =
        pathId kind (path ++ [⟨index, some .conditionOtherwise⟩]) :=
      pathId_region .conditionOtherwise
    have hbody : tryBodyRegionId (pathId kind (path ++ [⟨index, none⟩])) =
        pathId kind (path ++ [⟨index, some .tryBody⟩]) := pathId_region .tryBody
    have hcatch : tryCatchRegionId (pathId kind (path ++ [⟨index, none⟩])) =
        pathId kind (path ++ [⟨index, some .tryCatch⟩]) := pathId_region .tryCatch
    obtain ⟨id, activity, rfl⟩ | ⟨id, ⟨branches, otherwise⟩, rfl⟩ | ⟨id, ⟨branches⟩, rfl⟩ |
      ⟨id, ⟨⟨body⟩, «catch», rethrow⟩, rfl⟩ := hkind.cases
    · obtain ⟨config, hconfig⟩ := activityConfig_ok (hkind.2 activity rfl)
      refine ⟨.ofNode (activityNode id (pathId kind (path ++ [⟨index, none⟩]))
        (parent.map (pathId kind)) config), ?_, ?_, .refl _⟩
      · rw [walkStep, hconfig]
        rfl
      · simp [visitTree, Step.children, visitChildren, Graph.ofNode, visitNode, Item.node, stepNode,
          hconfig, Except.map]
    · obtain ⟨g, hwalk, hdraws⟩ : ∃ g, _ = Except.ok g ∧ Draws kind g
          (visitChildren path index (branchTrees 0 branches)) := by
        apply walkBranches_draws kind path index 0
        intro branch hbranch
        obtain ⟨i, hi⟩ := List.mem_iff_getElem?.mp hbranch
        exact ih (.conditionBranch i) branch.then (by simp [Step.region, Step.condition, hi])
      obtain ⟨g', hwalk', hdraws'⟩ := walkOptional_draws kind path index .conditionOtherwise
        .otherwise fun sequence hsequence => ih .conditionOtherwise sequence hsequence
      rw [← hotherwise] at hwalk'
      refine ⟨_, walkStep_condition hwalk hwalk', draws_container rfl ?_⟩
      rw [Step.children, visitChildren_append]
      exact hdraws.append hdraws'
    · obtain ⟨g, hwalk, hdraws⟩ : ∃ g, _ = Except.ok g ∧ Draws kind g
          (visitChildren path index (laneTrees 0 branches)) := by
        apply walkLanes_draws kind path index 0
        intro lane hlane
        obtain ⟨i, hi⟩ := List.mem_iff_getElem?.mp hlane
        exact ih (.parallelBranch i) lane (by simp [Step.region, Step.parallel, hi])
      exact ⟨_, walkStep_parallel hwalk, draws_container rfl hdraws⟩
    · obtain ⟨g, hwalk, hdraws⟩ := walkRegion_draws kind path index .tryBody .tryBody none
        (ih .tryBody ⟨body⟩ rfl)
      obtain ⟨g', hwalk', hdraws'⟩ := walkOptional_draws kind path index .tryCatch .tryCatch
        fun sequence hsequence => ih .tryCatch sequence hsequence
      rw [← hbody] at hwalk
      rw [← hcatch] at hwalk'
      refine ⟨_, walkStep_try hwalk hwalk', draws_container rfl ?_⟩
      rw [hbody, Step.children, visitChildren]
      exact hdraws.append hdraws'

end Pivox.WorkflowGraph
