import Pivox.WorkflowGraph.Drawing

/-!
The graph of a workflow version has a node for each of its steps and regions, found back by the id,
and an edge for each pair of consecutive steps.
-/

namespace Pivox.WorkflowGraph
open PathTree

variable {K : Type} {kind : RootKind} {path frames : List PathFrame} {index : ℕ}
variable {step : Step K} {g : Graph K} {node : WorkflowNode K}
variable {version : WorkflowVersion K} {v : Visit Region (Item K)}
variable {vs : List (Visit Region (Item K))}

namespace WorkflowVersion

def steps (version : WorkflowVersion K) : RootKind → List (Step K)
  | .root => version.root.steps
  | .error => sequenceSteps version.errorSequence

/-- The step that a path leads to. -/
def stepAt (version : WorkflowVersion K) (path : StepPath) : Option (Step K) :=
  WorkflowGraph.stepAt path.frames (version.steps path.root)

/-- Every step, at any depth, has one kind. -/
def OneKind (version : WorkflowVersion K) : Prop :=
  ∀ kind, ∀ step ∈ version.steps kind, WorkflowGraph.OneKind step

end WorkflowVersion

/-- A node for each step, found back by parsing its id, and for each region of a step, with a start
and an error node where there are steps; a parent comes before what is in it; and an edge from each
step to the next of its sequence, besides the one from the start. -/
structure Faithful (version : WorkflowVersion K) (graph : Graph K) : Prop where
  step_node : ∀ path step, version.stepAt path = some step → ∃ node ∈ graph.nodes,
    node.id = formatStepPath path ∧ stepNode node.id node.parentId step = .ok node
  region_node : ∀ kind frames index region step sequence,
    version.stepAt ⟨kind, frames ++ [⟨index, none⟩]⟩ = some step →
    step.region region = some sequence →
    regionNode (Step.regionKind region) (step.regionWhen region)
      (formatStepPath ⟨kind, frames ++ [⟨index, some region⟩]⟩)
      (some (formatStepPath ⟨kind, frames ++ [⟨index, none⟩]⟩)) ∈ graph.nodes
  start_node : startNode ∈ graph.nodes ↔ version.root.steps ≠ []
  error_node : regionNode .error none ERROR_ROOT none ∈ graph.nodes ↔ version.steps .error ≠ []
  only : ∀ node ∈ graph.nodes, node = startNode ∨ node = regionNode .error none ERROR_ROOT none ∨
    (∃ path step, parseStepPath node.id = .ok path ∧ version.stepAt path = some step ∧
      stepNode node.id node.parentId step = .ok node) ∨
    ∃ kind frames index region step sequence,
      version.stepAt ⟨kind, frames ++ [⟨index, none⟩]⟩ = some step ∧
      step.region region = some sequence ∧
      node = regionNode (Step.regionKind region) (step.regionWhen region)
        (formatStepPath ⟨kind, frames ++ [⟨index, some region⟩]⟩)
        (some (formatStepPath ⟨kind, frames ++ [⟨index, none⟩]⟩))
  ids : (graph.nodes.map WorkflowNode.id).Nodup
  parents : ∀ before (node : WorkflowNode K) after, graph.nodes = before ++ node :: after →
    ∀ parentId ∈ node.parentId, ∃ node' ∈ before, node'.id = parentId
  edge_iff : ∀ e, e ∈ graph.edges ↔
    version.root.steps ≠ [] ∧ e = edge START (childStepId ROOT 0) .start ∨
    ∃ kind frames index, version.stepAt ⟨kind, frames ++ [⟨index, none⟩]⟩ ≠ none ∧
      version.stepAt ⟨kind, frames ++ [⟨index + 1, none⟩]⟩ ≠ none ∧
      e = edge (formatStepPath ⟨kind, frames ++ [⟨index, none⟩]⟩)
        (formatStepPath ⟨kind, frames ++ [⟨index + 1, none⟩]⟩) .sequence
  edges_nodup : graph.edges.Nodup
  edge_parents : ∀ e ∈ graph.edges, ∃ source ∈ graph.nodes, ∃ target ∈ graph.nodes,
    source.id = e.source ∧ target.id = e.target ∧ source.parentId = target.parentId

/-! What is visited of a version -/

def errorVisit : Visit Region (Item K) := ⟨[], none, .region .error none⟩

/- What the top sequence of a kind is in. -/
def outer : RootKind → Option (List PathFrame)
  | .root => none
  | .error => some []

def WorkflowVersion.visits (version : WorkflowVersion K) :
    RootKind → List (Visit Region (Item K))
  | .root => visitForest [] none 0 (stepTrees (version.steps .root))
  | .error =>
    if version.steps .error = [] then []
    else errorVisit :: visitForest [] (some []) 0 (stepTrees (version.steps .error))

theorem mem_visits : v ∈ version.visits kind ↔
    (kind = .error ∧ version.steps .error ≠ [] ∧ v = errorVisit) ∨
    ∃ frames item, At 0 (stepTrees (version.steps kind)) frames item ∧
      v = visitAt [] (outer kind) frames item := by
  cases kind with
  | root => simp [WorkflowVersion.visits, mem_visitForest, outer]
  | error =>
    by_cases hnil : version.steps .error = []
    · rw [WorkflowVersion.visits, if_pos hnil, hnil, stepTrees]
      simp only [List.not_mem_nil, ne_eq, not_true_eq_false, false_and, and_false, false_or,
        false_iff]
      rintro ⟨frames, item, hat, -⟩
      cases hat
    · rw [WorkflowVersion.visits, if_neg hnil, List.mem_cons, mem_visitForest]
      simp only [ne_eq, hnil, not_false_eq_true, true_and, outer]

theorem nodup_visits (kind : RootKind) (h : version.OneKind) :
    ((version.visits kind).map Visit.address).Nodup := by
  cases kind with
  | root => exact nodup_visitForest (distinct_stepTrees (h .root))
  | error =>
    rw [WorkflowVersion.visits]
    split
    · exact List.nodup_nil
    · rw [List.map_cons, List.nodup_cons]
      refine ⟨?_, nodup_visitForest (distinct_stepTrees (h .error))⟩
      rw [List.mem_map]
      rintro ⟨v, hv, heq⟩
      obtain ⟨frames, item, hat, rfl⟩ := mem_visitForest.1 hv
      exact hat.ne_nil heq

theorem parentsFirst_visits : ParentsFirst (fun _ => False) (version.visits kind) := by
  cases kind with
  | root =>
    apply parentsFirst_visitForest
    rintro p ⟨⟩
  | error =>
    rw [WorkflowVersion.visits]
    split
    · trivial
    · refine ⟨?_, parentsFirst_visitForest ?_⟩
      · rintro p ⟨⟩
      · rintro p ⟨⟩
        exact .inl rfl

/-! What is drawn of a version -/

def startGraph (version : WorkflowVersion K) : Graph K :=
  if 0 < version.root.steps.length then
    Graph.ofNode startNode ++ addEdge START (childStepId ROOT 0) .start
  else .empty

theorem astToGraph_draws (h : version.OneKind) : ∃ root error,
    astToGraph version = .ok (startGraph version ++ root ++ error) ∧
    Draws .root root (version.visits .root) ∧ Draws .error error (version.visits .error) := by
  obtain ⟨root, hroot, hdraws⟩ := walkSequence_draws .root [] none 0 fun step hstep =>
    (h .root step hstep).drawn
  obtain ⟨error, herror, hdraws'⟩ := walkSequence_draws .error [] (some []) 0 fun step hstep =>
    (h .error step hstep).drawn
  have hroot : walkSequence ROOT none 0 none version.root.steps = .ok root := hroot
  have herror : walkSequence ERROR_ROOT (some ERROR_ROOT) 0 none
      (sequenceSteps version.errorSequence) = .ok error := herror
  by_cases hnil : version.steps .error = []
  · refine ⟨root, .empty, ?_, hdraws, ?_⟩
    · have hlength : ¬ 0 < (sequenceSteps version.errorSequence).length := by
        simpa [WorkflowVersion.steps] using hnil
      simp only [astToGraph, hroot, bind, Except.bind, if_neg hlength, startGraph]
      rw [Graph.append_empty]
    · rw [WorkflowVersion.visits, if_pos hnil]
      exact .empty
  · refine ⟨root, .ofNode (regionNode .error none ERROR_ROOT none) ++ error, ?_, hdraws, ?_⟩
    · have hlength : 0 < (sequenceSteps version.errorSequence).length := by
        simpa [WorkflowVersion.steps, List.length_pos_iff] using hnil
      simp only [astToGraph, hroot, herror, bind, Except.bind, if_pos hlength, startGraph]
      rw [← Graph.append_assoc]
    · rw [WorkflowVersion.visits, if_neg hnil]
      exact ⟨congrArg (List.cons _) hdraws'.nodes, hdraws'.edges⟩

theorem stepNode_ids {id : String} {parentId : Option String}
    (h : stepNode id parentId step = .ok node) : node.id = id ∧ node.parentId = parentId := by
  unfold stepNode at h
  split at h
  · rename_i activity _ _ _
    cases hconfig : activityConfig activity with
    | error e =>
      rw [hconfig] at h
      cases h
    | ok config =>
      rw [hconfig] at h
      cases h
      exact ⟨rfl, rfl⟩
  · cases h
    exact ⟨rfl, rfl⟩
  · cases h
    exact ⟨rfl, rfl⟩
  · cases h
    exact ⟨rfl, rfl⟩
  · cases h

theorem visitNode_ids (h : visitNode kind v = .ok node) :
    node.id = pathId kind v.address ∧ node.parentId = v.parent.map (pathId kind) := by
  obtain ⟨address, parent, item⟩ := v
  cases item with
  | step step => exact stepNode_ids h
  | region kind' when =>
    cases h
    exact ⟨rfl, rfl⟩

theorem ids_of_nodes {nodes : List (WorkflowNode K)}
    (h : nodes.map Except.ok = vs.map (visitNode kind)) :
    nodes.map WorkflowNode.id = vs.map fun v => pathId kind v.address := by
  induction vs generalizing nodes with
  | nil =>
    rw [List.map_nil, List.map_eq_nil_iff] at h
    rw [h]
    rfl
  | cons v vs ih =>
    rw [List.map_cons, List.map_eq_cons_iff] at h
    obtain ⟨node, nodes', rfl, hnode, hnodes'⟩ := h
    rw [List.map_cons, List.map_cons, (visitNode_ids hnode.symm).1, ih hnodes']

theorem pathId_injective (kind : RootKind) : Function.Injective (pathId kind) := by
  intro frames frames' heq
  cases formatStepPath_injective heq
  rfl

theorem pathId_root_ne_error {frames frames' : List PathFrame} :
    pathId .root frames ≠ pathId .error frames' := by
  intro heq
  cases formatStepPath_injective heq

namespace Draws

theorem mem_nodes (h : Draws kind g vs) :
    node ∈ g.nodes ↔ ∃ v ∈ vs, visitNode kind v = .ok node := by
  rw [← List.mem_map (f := visitNode kind), ← h.nodes, List.mem_map]
  simp

theorem ids (h : Draws kind g vs) :
    g.nodes.map WorkflowNode.id = vs.map fun v => pathId kind v.address :=
  ids_of_nodes h.nodes

theorem parents (h : Draws kind g vs) (hparents : ParentsFirst (fun _ => False) vs)
    {before after : List (WorkflowNode K)} (hsplit : g.nodes = before ++ node :: after) :
    ∀ parentId ∈ node.parentId, ∃ node' ∈ before, node'.id = parentId := by
  intro parentId hparent
  have hnodes := h.nodes
  rw [hsplit, List.map_append, List.map_cons, eq_comm, List.map_eq_append_iff] at hnodes
  obtain ⟨vs₁, vs₂, rfl, hbefore, hrest⟩ := hnodes
  obtain ⟨v, vs₃, rfl, hv, -⟩ := List.map_eq_cons_iff.mp hrest
  rw [(visitNode_ids hv).2] at hparent
  obtain ⟨p, hp, rfl⟩ := Option.map_eq_some_iff.mp hparent
  obtain hfalse | hmem := hparents.split p hp
  · exact hfalse.elim
  · obtain ⟨w, hw, rfl⟩ := List.mem_map.mp hmem
    have hmem' : visitNode kind w ∈ before.map Except.ok := hbefore ▸ List.mem_map_of_mem hw
    obtain ⟨node', hnode', heq⟩ := List.mem_map.mp hmem'
    exact ⟨node', hnode', (visitNode_ids heq.symm).1⟩

theorem mem_edges (h : Draws kind g vs) {e : WorkflowEdge} :
    e ∈ g.edges ↔ ∃ v ∈ vs, visitEdge kind v = some e := by
  rw [h.edges.mem_iff, List.mem_filterMap]

theorem nodup_edges (h : Draws kind g vs) (hnodup : (vs.map Visit.address).Nodup) :
    g.edges.Nodup := by
  rw [h.edges.nodup_iff]
  have hsub : ∀ vs : List (Visit Region (Item K)),
      ((vs.filterMap (visitEdge kind)).map WorkflowEdge.target).Sublist
        (vs.map fun v => pathId kind v.address) := by
    intro vs
    induction vs with
    | nil => exact .slnil
    | cons v vs ih =>
      cases hedge : visitEdge kind v with
      | none =>
        rw [List.filterMap_cons_none hedge]
        exact ih.cons _
      | some e =>
        rw [List.filterMap_cons_some hedge, List.map_cons, List.map_cons]
        have htarget : e.target = pathId kind v.address := by
          obtain ⟨p, -, rfl⟩ := Option.map_eq_some_iff.mp hedge
          rfl
        rw [htarget]
        exact ih.cons_cons _
  have htargets : (vs.map fun v => pathId kind v.address).Nodup := by
    have hmap := hnodup.map (pathId_injective kind)
    rwa [List.map_map] at hmap
  exact ((hsub vs).nodup htargets).of_map _

end Draws

theorem split_append {α : Type} {l l' before after : List α} {a : α}
    (h : l ++ l' = before ++ a :: after) : (∃ after', l = before ++ a :: after') ∨
    ∃ before', before = l ++ before' ∧ l' = before' ++ a :: after := by
  obtain ⟨before', hbefore, hl'⟩ | ⟨after', hl, hafter⟩ := List.append_eq_append_iff.mp h
  · exact .inr ⟨before', hbefore, hl'⟩
  · cases after' with
    | nil =>
      rw [List.append_nil] at hl
      exact .inr ⟨[], by rw [hl, List.append_nil], hafter.symm⟩
    | cons b after' =>
      cases hafter
      exact .inl ⟨after', hl⟩

structure Drawn (version : WorkflowVersion K) (graph : Graph K) : Prop where
  mem_nodes : ∀ node, node ∈ graph.nodes ↔ version.root.steps ≠ [] ∧ node = startNode ∨
    ∃ kind, ∃ v ∈ version.visits kind, visitNode kind v = .ok node
  ids : (graph.nodes.map WorkflowNode.id).Nodup
  parents : ∀ before (node : WorkflowNode K) after, graph.nodes = before ++ node :: after →
    ∀ parentId ∈ node.parentId, ∃ node' ∈ before, node'.id = parentId
  mem_edges : ∀ e, e ∈ graph.edges ↔
    version.root.steps ≠ [] ∧ e = edge START (childStepId ROOT 0) .start ∨
    ∃ kind, ∃ v ∈ version.visits kind, visitEdge kind v = some e
  edges_nodup : graph.edges.Nodup

theorem mem_startGraph_nodes : node ∈ (startGraph version).nodes ↔
    version.root.steps ≠ [] ∧ node = startNode := by
  unfold startGraph
  rw [← List.length_pos_iff]
  split <;> simp_all [Graph.ofNode, addEdge, Graph.empty]

theorem mem_startGraph_edges {e : WorkflowEdge} : e ∈ (startGraph version).edges ↔
    version.root.steps ≠ [] ∧ e = edge START (childStepId ROOT 0) .start := by
  unfold startGraph
  rw [← List.length_pos_iff]
  split <;> simp_all [Graph.ofNode, addEdge, Graph.empty, edge]

theorem exists_kind {P : RootKind → Prop} : (∃ kind, P kind) ↔ P .root ∨ P .error := by
  constructor
  · rintro ⟨kind, h⟩
    cases kind with
    | root => exact .inl h
    | error => exact .inr h
  · rintro (h | h)
    · exact ⟨_, h⟩
    · exact ⟨_, h⟩

theorem nodup_startGraph_ids : ((startGraph version).nodes.map WorkflowNode.id).Nodup := by
  unfold startGraph
  split <;> simp [Graph.ofNode, addEdge, Graph.empty]

theorem nodup_startGraph_edges : (startGraph version).edges.Nodup := by
  unfold startGraph
  split <;> simp [Graph.ofNode, addEdge, Graph.empty]

/- The ids of the two top sequences are distinct, and none is the start's. -/
theorem nodup_ids {root error : Graph K} (h : version.OneKind)
    (hroot : Draws .root root (version.visits .root))
    (herror : Draws .error error (version.visits .error)) :
    ((startGraph version ++ root ++ error).nodes.map WorkflowNode.id).Nodup := by
  have hrootIds := (nodup_visits .root h).map (pathId_injective .root)
  have herrorIds := (nodup_visits .error h).map (pathId_injective .error)
  rw [List.map_map] at hrootIds herrorIds
  have hstart : ∀ id ∈ (startGraph version).nodes.map WorkflowNode.id, id = START := by
    intro id hid
    obtain ⟨node, hnode, rfl⟩ := List.mem_map.mp hid
    rw [(mem_startGraph_nodes.1 hnode).2]
    rfl
  simp only [Graph.nodes_append, List.map_append, hroot.ids, herror.ids]
  rw [List.nodup_append, List.nodup_append]
  refine ⟨⟨nodup_startGraph_ids, hrootIds, ?_⟩, herrorIds, ?_⟩
  · intro id hid id' hid' heq
    obtain ⟨v, -, rfl⟩ := List.mem_map.mp hid'
    exact formatStepPath_ne_start _ (heq.symm.trans (hstart id hid))
  · intro id hid id' hid' heq
    obtain ⟨v, -, rfl⟩ := List.mem_map.mp hid'
    obtain hid | hid := List.mem_append.mp hid
    · exact formatStepPath_ne_start _ (heq.symm.trans (hstart id hid))
    · obtain ⟨w, -, rfl⟩ := List.mem_map.mp hid
      exact pathId_root_ne_error heq

theorem nodup_edges {root error : Graph K} (h : version.OneKind)
    (hroot : Draws .root root (version.visits .root))
    (herror : Draws .error error (version.visits .error)) :
    (startGraph version ++ root ++ error).edges.Nodup := by
  have hstart : ∀ e ∈ (startGraph version).edges, e.kind = .start := by
    intro e he
    rw [(mem_startGraph_edges.1 he).2]
    rfl
  have hsequence : ∀ (kind : RootKind) (v : Visit Region (Item K)) (e : WorkflowEdge),
      visitEdge kind v = some e → e.kind = .sequence ∧ e.target = pathId kind v.address := by
    intro kind v e he
    obtain ⟨p, -, rfl⟩ := Option.map_eq_some_iff.mp he
    exact ⟨rfl, rfl⟩
  simp only [Graph.edges_append]
  rw [List.nodup_append, List.nodup_append]
  refine ⟨⟨nodup_startGraph_edges, hroot.nodup_edges (nodup_visits _ h), ?_⟩,
    herror.nodup_edges (nodup_visits _ h), ?_⟩
  · intro e he e' he' heq
    obtain ⟨v, -, hv⟩ := hroot.mem_edges.1 he'
    have hkind := hstart e he
    rw [heq, (hsequence .root v e' hv).1] at hkind
    cases hkind
  · intro e he e' he' heq
    obtain ⟨v, -, hv⟩ := herror.mem_edges.1 he'
    obtain he | he := List.mem_append.mp he
    · have hkind := hstart e he
      rw [heq, (hsequence .error v e' hv).1] at hkind
      cases hkind
    · obtain ⟨w, -, hw⟩ := hroot.mem_edges.1 he
      have htarget := (hsequence .root w e hw).2
      rw [heq, (hsequence .error v e' hv).2] at htarget
      exact pathId_root_ne_error htarget.symm

theorem drawn_append {root error : Graph K} (h : version.OneKind)
    (hroot : Draws .root root (version.visits .root))
    (herror : Draws .error error (version.visits .error)) :
    Drawn version (startGraph version ++ root ++ error) := by
  constructor
  case mem_nodes =>
    intro node
    rw [exists_kind, ← hroot.mem_nodes, ← herror.mem_nodes, ← mem_startGraph_nodes]
    simp
  case ids => exact nodup_ids h hroot herror
  case parents =>
    intro before node after hsplit parentId hparent
    obtain ⟨after₁, hleft⟩ | ⟨before₁, rfl, hright⟩ := split_append hsplit
    · obtain ⟨after₂, hstart⟩ | ⟨before₂, rfl, hmiddle⟩ := split_append hleft
      · have hmem : node ∈ (startGraph version).nodes := by
          rw [hstart]
          exact List.mem_append_right _ List.mem_cons_self
        rw [(mem_startGraph_nodes.1 hmem).2] at hparent
        cases hparent
      · obtain ⟨node', hnode', hid⟩ := hroot.parents parentsFirst_visits hmiddle parentId hparent
        exact ⟨node', List.mem_append_right _ hnode', hid⟩
    · obtain ⟨node', hnode', hid⟩ := herror.parents parentsFirst_visits hright parentId hparent
      exact ⟨node', List.mem_append_right _ hnode', hid⟩
  case mem_edges =>
    intro e
    rw [exists_kind, ← hroot.mem_edges, ← herror.mem_edges, ← mem_startGraph_edges]
    simp
  case edges_nodup => exact nodup_edges h hroot herror

theorem WorkflowVersion.OneKind.drawn (h : version.OneKind) :
    ∃ graph, astToGraph version = .ok graph ∧ Drawn version graph := by
  obtain ⟨root, error, heq, hroot, herror⟩ := astToGraph_draws h
  exact ⟨_, heq, drawn_append h hroot herror⟩

/-! The nodes and edges of what is visited -/

theorem stepAt_previous {steps : List (Step K)}
    (h : stepAt (frames ++ [⟨index + 1, none⟩]) steps ≠ none) :
    stepAt (frames ++ [⟨index, none⟩]) steps ≠ none := by
  induction frames generalizing steps with
  | nil =>
    simp only [List.nil_append, stepAt, ne_eq, List.getElem?_eq_none_iff] at h ⊢
    omega
  | cons frame frames ih =>
    obtain ⟨i, into⟩ := frame
    cases into with
    | none =>
      obtain ⟨frame', frames', hcons⟩ := List.exists_cons_of_ne_nil
        (show frames ++ [⟨index + 1, none⟩] ≠ ([] : List PathFrame) by simp)
      rw [List.cons_append, hcons] at h
      exact absurd rfl h
    | some region =>
      obtain ⟨step, hstep⟩ := Option.ne_none_iff_exists'.mp h
      obtain ⟨step₀, sequence, hstep₀, hregion, hstep⟩ := stepAt_into_eq_some hstep
      rw [List.cons_append, stepAt_into hstep₀ hregion]
      exact ih (Option.ne_none_iff_exists'.mpr ⟨step, hstep⟩)

theorem previous_eq_some {frames' : List PathFrame} (h : previous frames = some frames') :
    ∃ path index, frames = path ++ [⟨index + 1, none⟩] ∧ frames' = path ++ [⟨index, none⟩] := by
  obtain rfl | ⟨path, ⟨i, into⟩, rfl⟩ := List.eq_nil_or_concat' frames
  · cases h
  · cases into with
    | some region => simp at h
    | none =>
      cases i with
      | zero => simp at h
      | succ i =>
        simp only [previous_next, Option.some.injEq] at h
        exact ⟨path, i, rfl, h.symm⟩

/- A path leads to a step by the place of the step in its sequence. -/
theorem place_of_stepAt {steps : List (Step K)} (h : stepAt frames steps = some step) :
    ∃ path index, frames = path ++ [⟨index, none⟩] := by
  induction frames generalizing steps with
  | nil => cases h
  | cons frame frames ih =>
    obtain ⟨i, into⟩ := frame
    cases into with
    | none =>
      cases frames with
      | nil => exact ⟨[], i, rfl⟩
      | cons frame frames => cases h
    | some region =>
      obtain ⟨step₀, sequence, -, -, hstep⟩ := stepAt_into_eq_some h
      obtain ⟨path, index, rfl⟩ := ih hstep
      exact ⟨⟨i, some region⟩ :: path, index, rfl⟩

def stepVisit (kind : RootKind) (path : List PathFrame) (index : ℕ) (step : Step K) :
    Visit Region (Item K) :=
  ⟨path ++ [⟨index, none⟩], if path = [] then outer kind else some path, .step step⟩

def regionVisit (path : List PathFrame) (index : ℕ) (region : Region) (step : Step K) :
    Visit Region (Item K) :=
  ⟨path ++ [⟨index, some region⟩], some (path ++ [⟨index, none⟩]),
    .region (Step.regionKind region) (step.regionWhen region)⟩

theorem visitAt_place {item : Item K} :
    visitAt [] (outer kind) (path ++ [⟨index, none⟩]) item =
      ⟨path ++ [⟨index, none⟩], if path = [] then outer kind else some path, item⟩ := by
  rw [visitAt, above_append_place]
  rfl

theorem visitAt_label {item : Item K} {region : Region} :
    visitAt [] (outer kind) (path ++ [⟨index, some region⟩]) item =
      ⟨path ++ [⟨index, some region⟩], some (path ++ [⟨index, none⟩]), item⟩ := by
  rw [visitAt, above_append_label]
  rfl

/-- What is visited is the error sequence, each step and each region of a step. -/
theorem mem_visits_iff (h : version.OneKind) : v ∈ version.visits kind ↔
    (kind = .error ∧ version.steps .error ≠ [] ∧ v = errorVisit) ∨
    (∃ path index step, version.stepAt ⟨kind, path ++ [⟨index, none⟩]⟩ = some step ∧
      v = stepVisit kind path index step) ∨
    ∃ path index region step sequence,
      version.stepAt ⟨kind, path ++ [⟨index, none⟩]⟩ = some step ∧
      step.region region = some sequence ∧ v = regionVisit path index region step := by
  rw [mem_visits]
  apply or_congr_right
  constructor
  · rintro ⟨frames, item, hat, rfl⟩
    cases item with
    | step step =>
      have hstep := (at_step_iff (h kind)).1 hat
      obtain ⟨path, index, rfl⟩ := place_of_stepAt hstep
      exact .inl ⟨path, index, step, hstep, visitAt_place⟩
    | region regionKind when =>
      obtain ⟨path, index, region, step, sequence, rfl, hstep, hregion, rfl, rfl⟩ :=
        (at_region_iff (h kind)).1 hat
      exact .inr ⟨path, index, region, step, sequence, hstep, hregion, visitAt_label⟩
  · rintro (⟨path, index, step, hstep, rfl⟩ |
      ⟨path, index, region, step, sequence, hstep, hregion, rfl⟩)
    · exact ⟨_, _, (at_step_iff (h kind)).2 hstep, visitAt_place.symm⟩
    · exact ⟨_, _, (at_region_iff (h kind)).2
        ⟨path, index, region, step, sequence, rfl, hstep, hregion, rfl, rfl⟩, visitAt_label.symm⟩

theorem activityNode_ok (h : step.HasOneKind) (id : String) (parentId : Option String) :
    ∃ node, stepNode id parentId step = .ok node := by
  obtain ⟨id', activity, rfl⟩ | ⟨id', condition, rfl⟩ | ⟨id', parallel, rfl⟩ | ⟨id', attempt, rfl⟩ :=
    h.cases
  · obtain ⟨config, hconfig⟩ := activityConfig_ok (h.2 activity rfl)
    exact ⟨activityNode id' id parentId config, by rw [stepNode, hconfig]; rfl⟩
  · exact ⟨_, rfl⟩
  · exact ⟨_, rfl⟩
  · exact ⟨_, rfl⟩

theorem stepAt_oneKind {steps : List (Step K)} (h : ∀ step ∈ steps, OneKind step)
    (hstep : stepAt frames steps = some step) : OneKind step := by
  induction frames generalizing steps with
  | nil => cases hstep
  | cons frame frames ih =>
    obtain ⟨i, into⟩ := frame
    cases into with
    | none =>
      cases frames with
      | nil => exact h step (List.mem_of_getElem? hstep)
      | cons frame frames => cases hstep
    | some region =>
      obtain ⟨step₀, sequence, hstep₀, hregion, hstep⟩ := stepAt_into_eq_some hstep
      exact ih ((h step₀ (List.mem_of_getElem? hstep₀)).nested hregion) hstep

namespace Drawn
variable {graph : Graph K}

theorem visited (hdrawn : Drawn version graph) (hv : v ∈ version.visits kind)
    (hnode : visitNode kind v = .ok node) : node ∈ graph.nodes :=
  (hdrawn.mem_nodes node).2 (.inr ⟨kind, v, hv, hnode⟩)

/- The node of a step. -/
theorem step_node (h : version.OneKind) (hdrawn : Drawn version graph)
    (hstep : version.stepAt ⟨kind, path ++ [⟨index, none⟩]⟩ = some step) :
    ∃ node ∈ graph.nodes, node.id = pathId kind (path ++ [⟨index, none⟩]) ∧
      node.parentId = (if path = [] then outer kind else some path).map (pathId kind) ∧
      stepNode node.id node.parentId step = .ok node := by
  have hone : OneKind step := stepAt_oneKind (h kind) hstep
  obtain ⟨node, hnode⟩ := activityNode_ok hone.hasOneKind (pathId kind (path ++ [⟨index, none⟩]))
    ((if path = [] then outer kind else some path).map (pathId kind))
  obtain ⟨hid, hparent⟩ := stepNode_ids hnode
  have hvisit : stepVisit kind path index step ∈ version.visits kind :=
    (mem_visits_iff h).2 (.inr (.inl ⟨path, index, step, hstep, rfl⟩))
  refine ⟨node, hdrawn.visited hvisit hnode, hid, hparent, ?_⟩
  rw [hid, hparent]
  exact hnode

theorem visitNode_ne_start : visitNode kind v ≠ .ok startNode := by
  intro hnode
  exact formatStepPath_ne_start _ (visitNode_ids hnode).1.symm

theorem error_node (h : version.OneKind) (hdrawn : Drawn version graph) :
    regionNode .error none ERROR_ROOT none ∈ graph.nodes ↔ version.steps .error ≠ [] := by
  constructor
  · intro hmem
    obtain ⟨-, heq⟩ | ⟨kind, v, hv, hnode⟩ := (hdrawn.mem_nodes _).1 hmem
    · exact absurd (congrArg WorkflowNode.id heq) (formatStepPath_ne_start ⟨.error, []⟩)
    · have hid : pathId .error [] = pathId kind v.address := (visitNode_ids hnode).1
      have haddress : [] = v.address := congrArg StepPath.frames (formatStepPath_injective hid)
      obtain ⟨-, hne, -⟩ | ⟨path, index, step, -, rfl⟩ |
        ⟨path, index, region, step, sequence, -, -, rfl⟩ := (mem_visits_iff h).1 hv
      · exact hne
      · simp [stepVisit] at haddress
      · simp [regionVisit] at haddress
  · intro hne
    exact hdrawn.visited (((mem_visits_iff h).2 (.inl ⟨rfl, hne, rfl⟩) :
      errorVisit ∈ version.visits .error)) rfl

theorem only (h : version.OneKind) (hdrawn : Drawn version graph) (hmem : node ∈ graph.nodes) :
    node = startNode ∨ node = regionNode .error none ERROR_ROOT none ∨
    (∃ path step, parseStepPath node.id = .ok path ∧ version.stepAt path = some step ∧
      stepNode node.id node.parentId step = .ok node) ∨
    ∃ kind frames index region step sequence,
      version.stepAt ⟨kind, frames ++ [⟨index, none⟩]⟩ = some step ∧
      step.region region = some sequence ∧
      node = regionNode (Step.regionKind region) (step.regionWhen region)
        (formatStepPath ⟨kind, frames ++ [⟨index, some region⟩]⟩)
        (some (formatStepPath ⟨kind, frames ++ [⟨index, none⟩]⟩)) := by
  obtain ⟨-, rfl⟩ | ⟨kind, v, hv, hnode⟩ := (hdrawn.mem_nodes node).1 hmem
  · exact .inl rfl
  · obtain ⟨rfl, -, rfl⟩ | ⟨path, index, step, hstep, rfl⟩ |
      ⟨path, index, region, step, sequence, hstep, hregion, rfl⟩ := (mem_visits_iff h).1 hv
    · cases hnode
      exact .inr (.inl rfl)
    · obtain ⟨hid, hparent⟩ := visitNode_ids hnode
      refine .inr (.inr (.inl ⟨⟨kind, path ++ [⟨index, none⟩]⟩, step, ?_, hstep, ?_⟩))
      · rw [hid]
        exact parseStepPath_formatStepPath _
      · rw [hid, hparent]
        exact hnode
    · cases hnode
      exact .inr (.inr (.inr ⟨kind, path, index, region, step, sequence, hstep, hregion, rfl⟩))

theorem edge_iff (h : version.OneKind) (hdrawn : Drawn version graph) (e : WorkflowEdge) :
    e ∈ graph.edges ↔ version.root.steps ≠ [] ∧ e = edge START (childStepId ROOT 0) .start ∨
    ∃ kind frames index, version.stepAt ⟨kind, frames ++ [⟨index, none⟩]⟩ ≠ none ∧
      version.stepAt ⟨kind, frames ++ [⟨index + 1, none⟩]⟩ ≠ none ∧
      e = edge (formatStepPath ⟨kind, frames ++ [⟨index, none⟩]⟩)
        (formatStepPath ⟨kind, frames ++ [⟨index + 1, none⟩]⟩) .sequence := by
  rw [hdrawn.mem_edges]
  apply or_congr_right
  constructor
  · rintro ⟨kind, v, hv, hedge⟩
    obtain ⟨frames', hprevious, rfl⟩ := Option.map_eq_some_iff.mp hedge
    obtain ⟨path, index, haddress, rfl⟩ := previous_eq_some hprevious
    have hstep : version.stepAt ⟨kind, path ++ [⟨index + 1, none⟩]⟩ ≠ none := by
      obtain ⟨-, -, rfl⟩ | ⟨path', index', step, hstep, rfl⟩ |
        ⟨path', index', region, step, sequence, -, -, rfl⟩ := (mem_visits_iff h).1 hv
      · exact absurd haddress.symm (by simp [errorVisit])
      · rw [stepVisit] at haddress
        dsimp only at haddress
        rw [← haddress, hstep]
        simp
      · rw [regionVisit] at haddress
        dsimp only at haddress
        have hlast := congrArg List.getLast? haddress
        simp at hlast
    exact ⟨kind, path, index, stepAt_previous hstep, hstep, by rw [haddress]; rfl⟩
  · rintro ⟨kind, path, index, -, hnext, rfl⟩
    obtain ⟨step, hstep⟩ := Option.ne_none_iff_exists'.mp hnext
    refine ⟨kind, stepVisit kind path (index + 1) step,
      (mem_visits_iff h).2 (.inr (.inl ⟨path, index + 1, step, hstep, rfl⟩)), ?_⟩
    rw [visitEdge, stepVisit, previous_next]
    rfl

theorem edge_parents (h : version.OneKind) (hdrawn : Drawn version graph) {e : WorkflowEdge}
    (he : e ∈ graph.edges) : ∃ source ∈ graph.nodes, ∃ target ∈ graph.nodes,
    source.id = e.source ∧ target.id = e.target ∧ source.parentId = target.parentId := by
  obtain ⟨hne, rfl⟩ | ⟨kind, path, index, hstep, hnext, rfl⟩ := (hdrawn.edge_iff h e).1 he
  · have hfirst : version.stepAt ⟨.root, [] ++ [⟨0, none⟩]⟩ =
        some (version.root.steps.head hne) := by
      rw [List.head_eq_getElem hne]
      exact List.getElem?_eq_getElem (List.length_pos_iff.mpr hne)
    obtain ⟨target, htarget, hid, hparent, -⟩ := hdrawn.step_node h hfirst
    exact ⟨startNode, (hdrawn.mem_nodes _).2 (.inl ⟨hne, rfl⟩), target, htarget, rfl, hid,
      hparent.symm⟩
  · obtain ⟨step, hstep⟩ := Option.ne_none_iff_exists'.mp hstep
    obtain ⟨step', hnext⟩ := Option.ne_none_iff_exists'.mp hnext
    obtain ⟨source, hsource, hsourceId, hsourceParent, -⟩ := hdrawn.step_node h hstep
    obtain ⟨target, htarget, htargetId, htargetParent, -⟩ := hdrawn.step_node h hnext
    exact ⟨source, hsource, target, htarget, hsourceId, htargetId,
      hsourceParent.trans htargetParent.symm⟩

theorem faithful (h : version.OneKind) (hdrawn : Drawn version graph) : Faithful version graph where
  step_node path step hstep := by
    obtain ⟨kind, frames⟩ := path
    obtain ⟨path, index, rfl⟩ := place_of_stepAt hstep
    obtain ⟨node, hmem, hid, -, hnode⟩ := hdrawn.step_node h hstep
    exact ⟨node, hmem, hid, hnode⟩
  region_node kind frames index region step sequence hstep hregion :=
    hdrawn.visited ((mem_visits_iff h).2 (.inr (.inr
      ⟨frames, index, region, step, sequence, hstep, hregion, rfl⟩))) rfl
  start_node := by
    rw [hdrawn.mem_nodes]
    constructor
    · rintro (⟨hne, -⟩ | ⟨kind, v, -, hnode⟩)
      · exact hne
      · exact absurd hnode visitNode_ne_start
    · intro hne
      exact .inl ⟨hne, rfl⟩
  error_node := hdrawn.error_node h
  only _ hmem := hdrawn.only h hmem
  ids := hdrawn.ids
  parents := hdrawn.parents
  edge_iff := hdrawn.edge_iff h
  edges_nodup := hdrawn.edges_nodup
  edge_parents _ he := hdrawn.edge_parents h he

end Drawn

/-- The graph of a version whose steps have one kind each is faithful to it. -/
theorem ast_to_graph_faithful (h : version.OneKind) :
    ∃ graph, astToGraph version = .ok graph ∧ Faithful version graph := by
  obtain ⟨graph, heq, hdrawn⟩ := h.drawn
  exact ⟨graph, heq, hdrawn.faithful h⟩

section Lanes

private def activity (id message : String) : Step String :=
  ⟨id, some ⟨some message, none, none, none, none⟩, none, none, none⟩

private def lanes : Step String :=
  ⟨"lanes", none, none, some ⟨[⟨[activity "a" "get"]⟩, ⟨[]⟩]⟩, none⟩

/- A request, then two lanes in a try, and a report of errors. -/
private def guardedLanes : WorkflowVersion String where
  root := ⟨[activity "fetch" "get",
    ⟨"guard", none, none, none, some ⟨⟨[lanes]⟩, some ⟨[activity "undo" "delete"]⟩, some true⟩⟩]⟩
  errorSequence := some ⟨[activity "report" "post"]⟩

private theorem oneKind_activity (id message : String) : OneKind (activity id message) := by
  constructor
  · simp [Step.HasOneKind, activity, Step.activity, Step.condition, Step.parallel, Step.try]
  · intro region sequence hregion
    cases region <;> cases hregion

private theorem oneKind_lanes : OneKind lanes := by
  constructor
  · simp [Step.HasOneKind, lanes, Step.activity, Step.condition, Step.parallel, Step.try]
  · intro region sequence hregion step hstep
    cases region with
    | parallelBranch branch =>
      obtain rfl | rfl | hbranch : branch = 0 ∨ branch = 1 ∨ 2 ≤ branch := by omega
      · cases hregion
        rw [List.mem_singleton.mp hstep]
        exact oneKind_activity "a" "get"
      · cases hregion
        cases hstep
      · have hnone : lanes.region (.parallelBranch branch) = none :=
          List.getElem?_eq_none hbranch
        rw [hnone] at hregion
        cases hregion
    | _ => cases hregion

private theorem oneKind_guardedLanes : guardedLanes.OneKind := by
  intro kind step hstep
  cases kind with
  | root =>
    obtain rfl | hstep := List.mem_cons.mp hstep
    · exact oneKind_activity "fetch" "get"
    · rw [List.mem_singleton.mp hstep]
      constructor
      · simp [Step.HasOneKind, Step.activity, Step.condition, Step.parallel, Step.try]
      · intro region sequence hregion step' hstep'
        cases region with
        | tryBody =>
          cases hregion
          rw [List.mem_singleton.mp hstep']
          exact oneKind_lanes
        | tryCatch =>
          cases hregion
          rw [List.mem_singleton.mp hstep']
          exact oneKind_activity "undo" "delete"
        | _ => cases hregion
  | error =>
    rw [List.mem_singleton.mp hstep]
    exact oneKind_activity "report" "post"

theorem ast_to_graph_faithful_lanes :
    ∃ graph, astToGraph guardedLanes = .ok graph ∧ Faithful guardedLanes graph :=
  ast_to_graph_faithful oneKind_guardedLanes

end Lanes

end Pivox.WorkflowGraph
