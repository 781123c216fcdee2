import Pivox.WorkflowGraph.Ids

/-!
The walk of a workflow version that draws it as a graph of nodes and edges.
-/

namespace Pivox.WorkflowGraph
open PathTree

/- `K` are the messages that an activity carries. -/
variable {K : Type}

structure Activity (K : Type) where
  http : Option K
  set : Option K
  runWorkflow : Option K
  fail : Option K
  «end» : Option K

structure Sequence (S : Type) where
  steps : List S

structure Branch (S : Type) where
  when : String
  «then» : Sequence S

structure Condition (S : Type) where
  branches : List (Branch S)
  otherwise : Option (Sequence S)

structure Parallel (S : Type) where
  branches : List (Sequence S)

structure Try (S : Type) where
  body : Sequence S
  «catch» : Option (Sequence S)
  rethrow : Option Bool

inductive Step (K : Type) where
  | mk (id : String) (activity : Option (Activity K)) (condition : Option (Condition (Step K)))
    (parallel : Option (Parallel (Step K))) («try» : Option (Try (Step K)))

namespace Step

def id : Step K → String
  | mk id _ _ _ _ => id

def activity : Step K → Option (Activity K)
  | mk _ activity _ _ _ => activity

def condition : Step K → Option (Condition (Step K))
  | mk _ _ condition _ _ => condition

def parallel : Step K → Option (Parallel (Step K))
  | mk _ _ _ parallel _ => parallel

def «try» : Step K → Option (Try (Step K))
  | mk _ _ _ _ attempt => attempt

end Step

structure WorkflowVersion (K : Type) where
  root : Sequence (Step K)
  errorSequence : Option (Sequence (Step K))

inductive ActivityKind where
  | http
  | set
  | runWorkflow
  | fail
  | «end»
  deriving DecidableEq

inductive ContainerKind where
  | condition
  | parallel
  | «try»
  deriving DecidableEq

inductive RegionKind where
  | branch
  | otherwise
  | lane
  | tryBody
  | tryCatch
  | error
  deriving DecidableEq

inductive EdgeKind where
  | start
  | sequence
  deriving DecidableEq

def ActivityKind.text : ActivityKind → String
  | .http => "http"
  | .set => "set"
  | .runWorkflow => "run_workflow"
  | .fail => "fail"
  | .end => "end"

def ContainerKind.text : ContainerKind → String
  | .condition => "condition"
  | .parallel => "parallel"
  | .try => "try"

def RegionKind.text : RegionKind → String
  | .branch => "branch"
  | .otherwise => "otherwise"
  | .lane => "lane"
  | .tryBody => "try-body"
  | .tryCatch => "try-catch"
  | .error => "error"

def EdgeKind.text : EdgeKind → String
  | .start => "start"
  | .sequence => "sequence"

structure ActivityConfig (K : Type) where
  kind : ActivityKind
  config : K

inductive NodeData (K : Type) where
  | activity (stepId path : String) (activity : ActivityConfig K)
  | container (kind : ContainerKind) (stepId path : String) (rethrow : Option Bool)
  | region (kind : RegionKind) (when : Option String)
  | start

structure WorkflowNode (K : Type) where
  id : String
  type : String
  parentId : Option String
  width : Option ℕ
  height : Option ℕ
  data : NodeData K

structure WorkflowEdge where
  id : String
  source : String
  target : String
  kind : EdgeKind
  deriving DecidableEq

structure Graph (K : Type) where
  nodes : List (WorkflowNode K)
  edges : List WorkflowEdge

def Graph.append (g g' : Graph K) : Graph K := ⟨g.nodes ++ g'.nodes, g.edges ++ g'.edges⟩

instance : Append (Graph K) := ⟨Graph.append⟩

def Graph.empty : Graph K := ⟨[], []⟩

@[simp] theorem Graph.nodes_append (g g' : Graph K) : (g ++ g').nodes = g.nodes ++ g'.nodes := rfl

@[simp] theorem Graph.edges_append (g g' : Graph K) : (g ++ g').edges = g.edges ++ g'.edges := rfl

theorem Graph.append_assoc (g g' g'' : Graph K) : g ++ g' ++ g'' = g ++ (g' ++ g'') :=
  congrArg₂ Graph.mk (List.append_assoc _ _ _) (List.append_assoc _ _ _)

theorem Graph.append_empty (g : Graph K) : g ++ .empty = g :=
  congrArg₂ Graph.mk (List.append_nil _) (List.append_nil _)

def Graph.ofNode (node : WorkflowNode K) : Graph K := ⟨[node], []⟩

def GRID := 20

def NODE_WIDTH := 20 * GRID

def HEADER_ROW := 2 * GRID

def CONTENT_ROW := 2 * GRID

def ACTIVITY_NODE_HEIGHT := HEADER_ROW + CONTENT_ROW

def ACTIVITY_NODE_HEIGHT_COMPACT := HEADER_ROW

def START_WIDTH := 6 * GRID

def START_HEIGHT := 2 * GRID

def activityConfig (activity : Activity K) : Except String (ActivityConfig K) :=
  match activity with
  | ⟨some config, _, _, _, _⟩ => .ok ⟨.http, config⟩
  | ⟨none, some config, _, _, _⟩ => .ok ⟨.set, config⟩
  | ⟨none, none, some config, _, _⟩ => .ok ⟨.runWorkflow, config⟩
  | ⟨none, none, none, some config, _⟩ => .ok ⟨.fail, config⟩
  | ⟨none, none, none, none, some config⟩ => .ok ⟨.end, config⟩
  | ⟨none, none, none, none, none⟩ => .error "activity has no kind set"

def addEdge (source target : String) (kind : EdgeKind) : Graph K :=
  ⟨[], [⟨kind.text ++ ":" ++ source ++ "=>" ++ target, source, target, kind⟩]⟩

def activityNode (id stepId : String) (parentId : Option String) (activity : ActivityConfig K) :
    WorkflowNode K where
  id := stepId
  type := activity.kind.text
  parentId := parentId
  width := some NODE_WIDTH
  height := some (if activity.kind = .end then ACTIVITY_NODE_HEIGHT_COMPACT else ACTIVITY_NODE_HEIGHT)
  data := .activity id stepId activity

def containerNode (kind : ContainerKind) (id stepId : String) (parentId : Option String)
    (rethrow : Option Bool) : WorkflowNode K where
  id := stepId
  type := kind.text
  parentId := parentId
  width := none
  height := none
  data := .container kind id stepId rethrow

def regionNode (kind : RegionKind) (when : Option String) (regionId : String)
    (parentId : Option String) : WorkflowNode K where
  id := regionId
  type := kind.text
  parentId := parentId
  width := none
  height := none
  data := .region kind when

mutual

def walkStep (stepId : String) (parentId : Option String) : Step K → Except String (Graph K)
  | ⟨id, some activity, _, _, _⟩ => do
    let activity ← activityConfig activity
    .ok (.ofNode (activityNode id stepId parentId activity))
  | ⟨id, none, some ⟨branches, otherwise⟩, _, _⟩ => do
    let branches ← walkBranches stepId 0 branches
    let otherwise ← walkOptional .otherwise (conditionOtherwiseRegionId stepId) stepId otherwise
    .ok (.ofNode (containerNode .condition id stepId parentId none) ++ branches ++ otherwise)
  | ⟨id, none, none, some ⟨branches⟩, _⟩ => do
    let lanes ← walkLanes stepId 0 branches
    .ok (.ofNode (containerNode .parallel id stepId parentId none) ++ lanes)
  | ⟨id, none, none, none, some ⟨⟨body⟩, «catch», rethrow⟩⟩ => do
    let bodyRegion := tryBodyRegionId stepId
    let body ← walkSequence bodyRegion (some bodyRegion) 0 none body
    let «catch» ← walkOptional .tryCatch (tryCatchRegionId stepId) stepId «catch»
    .ok (.ofNode (containerNode .try id stepId parentId (some (rethrow.getD false))) ++
      .ofNode (regionNode .tryBody none bodyRegion (some stepId)) ++ body ++ «catch»)
  | ⟨id, none, none, none, none⟩ => .error ("step " ++ id ++ " has no kind set")

/- The rest of a sequence, from the step of the given index; the last step before it, if any, has
the given id. -/
def walkSequence (regionId : String) (parentId : Option String) (index : ℕ)
    (previousId : Option String) : List (Step K) → Except String (Graph K)
  | [] => .ok .empty
  | step :: steps => do
    let stepId := childStepId regionId index
    let graph ← walkStep stepId parentId step
    let edge := (previousId.map fun previousId => addEdge previousId stepId .sequence).getD .empty
    let rest ← walkSequence regionId parentId (index + 1) (some stepId) steps
    .ok (graph ++ edge ++ rest)

def walkBranches (stepId : String) (k : ℕ) : List (Branch (Step K)) → Except String (Graph K)
  | [] => .ok .empty
  | ⟨when, ⟨steps⟩⟩ :: branches => do
    let branchRegion := conditionBranchRegionId stepId k
    let branch ← walkSequence branchRegion (some branchRegion) 0 none steps
    let rest ← walkBranches stepId (k + 1) branches
    .ok (.ofNode (regionNode .branch (some when) branchRegion (some stepId)) ++ branch ++ rest)

def walkLanes (stepId : String) (k : ℕ) : List (Sequence (Step K)) → Except String (Graph K)
  | [] => .ok .empty
  | ⟨steps⟩ :: lanes => do
    let laneRegion := parallelBranchRegionId stepId k
    let lane ← walkSequence laneRegion (some laneRegion) 0 none steps
    let rest ← walkLanes stepId (k + 1) lanes
    .ok (.ofNode (regionNode .lane none laneRegion (some stepId)) ++ lane ++ rest)

/- The region of an `otherwise` or a `catch`. -/
def walkOptional (kind : RegionKind) (regionId stepId : String) :
    Option (Sequence (Step K)) → Except String (Graph K)
  | none => .ok .empty
  | some ⟨steps⟩ => do
    let region ← walkSequence regionId (some regionId) 0 none steps
    .ok (.ofNode (regionNode kind none regionId (some stepId)) ++ region)

end

def sequenceSteps (sequence : Option (Sequence (Step K))) : List (Step K) :=
  (sequence.map Sequence.steps).getD []

def startNode : WorkflowNode K where
  id := START
  type := "start"
  parentId := none
  width := some START_WIDTH
  height := some START_HEIGHT
  data := .start

def astToGraph (version : WorkflowVersion K) : Except String (Graph K) := do
  let start : Graph K :=
    if 0 < version.root.steps.length then
      Graph.ofNode startNode ++ addEdge START (childStepId ROOT 0) .start
    else .empty
  let root ← walkSequence ROOT none 0 none version.root.steps
  let errorSteps := sequenceSteps version.errorSequence
  if 0 < errorSteps.length then
    let error ← walkSequence ERROR_ROOT (some ERROR_ROOT) 0 none errorSteps
    .ok (start ++ root ++ .ofNode (regionNode .error none ERROR_ROOT none) ++ error)
  else .ok (start ++ root)

end Pivox.WorkflowGraph
