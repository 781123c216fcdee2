import Pivox.BoxGrid
import Pivox.Hierarchy
import Pivox.WorkflowGraph.AstToGraph

/-!
The layout of a drawn workflow: the tree of its nodes that is given to the layout engine, and the
boxes that come back, snapped to the grid.
-/

namespace Pivox.WorkflowGraph
open BoxGrid Hierarchy

/- `K` are the messages that an activity carries, `R` the numbers of a layout. -/
variable {K R : Type}

def LABEL_ROW := GRID

def PAD := GRID

def V_GAP := 3 * GRID

def H_GAP := 2 * GRID

def CROSS_GAP := 2 * GRID

def CONTAINER_TOP := HEADER_ROW + PAD

def REGION_TOP := LABEL_ROW + PAD

def ERROR_GAP := 4 * GRID

abbrev LayoutOptions := List (String × String)

def paddingText (top : ℕ) : String :=
  "[top=" ++ toString top ++ ",left=" ++ toString PAD ++ ",bottom=" ++ toString PAD ++
    ",right=" ++ toString PAD ++ "]"

def VERTICAL_OPTIONS : LayoutOptions :=
  [("elk.algorithm", "layered"), ("elk.direction", "DOWN"),
    ("elk.layered.spacing.nodeNodeBetweenLayers", toString V_GAP),
    ("elk.spacing.nodeNode", toString CROSS_GAP)]

def REGION_LAYOUT_OPTIONS : LayoutOptions :=
  VERTICAL_OPTIONS ++ [("elk.padding", paddingText REGION_TOP)]

def CONTAINER_LAYOUT_OPTIONS : LayoutOptions :=
  [("elk.algorithm", "layered"), ("elk.direction", "RIGHT"),
    ("elk.layered.spacing.nodeNodeBetweenLayers", toString H_GAP),
    ("elk.spacing.nodeNode", toString CROSS_GAP), ("elk.padding", paddingText CONTAINER_TOP)]

def ROOT_ID := "__root__"

structure ElkExtendedEdge where
  id : String
  sources : List String
  targets : List String

/- Without layout options or edges, the key is not there. -/
structure ElkNode (R : Type) where
  id : String
  layoutOptions : LayoutOptions
  edges : List ElkExtendedEdge
  x : Option R
  y : Option R
  width : Option R
  height : Option R

/-- A node as it is drawn; of its style, the width and the height. -/
structure FlowNode (K R : Type) where
  id : String
  type : String
  parentId : Option String
  position : R × R
  width : Option R
  height : Option R
  style : Option (R × R)
  data : NodeData K

structure FlowGraph (K R : Type) where
  nodes : List (FlowNode K R)
  edges : List WorkflowEdge

/- Nodes are drawn without a position or a style. -/
def WorkflowNode.flow (R : Type) [Zero R] [NatCast R] (node : WorkflowNode K) : FlowNode K R where
  id := node.id
  type := node.type
  parentId := node.parentId
  position := (0, 0)
  width := node.width.map Nat.cast
  height := node.height.map Nat.cast
  style := none
  data := node.data

def Graph.flow (R : Type) [Zero R] [NatCast R] (graph : Graph K) : FlowGraph K R :=
  ⟨graph.nodes.map (WorkflowNode.flow R), graph.edges⟩

namespace FlowGraph
variable (graph : FlowGraph K R)

/- The later of two nodes with one id is the one that is found. -/
def nodeById (id : String) : Option (FlowNode K R) := graph.nodes.reverse.find? fun node => node.id = id

def childIds (id : String) : List String :=
  keysUnder FlowNode.id FlowNode.parentId graph.nodes (some id)

def roots : List String := keysUnder FlowNode.id FlowNode.parentId graph.nodes none

def parentOf (id : String) : Option String := (graph.nodeById id).bind FlowNode.parentId

/-- The edges between siblings, under the container of both. -/
def edgesByContainer (container : String) : List ElkExtendedEdge :=
  (graph.edges.filter fun edge => graph.parentOf edge.source = graph.parentOf edge.target ∧
      (graph.parentOf edge.source).getD ROOT_ID = container).map
    fun edge => ⟨edge.id, [edge.source], [edge.target]⟩

def orderingEdges (containerId : String) : List ElkExtendedEdge :=
  let regions := graph.childIds containerId
  List.zipWith (fun region next => ⟨"__order__:" ++ region ++ "=>" ++ next, [region], [next]⟩)
    regions regions.tail

def isContainer (id : String) : Bool :=
  match (graph.nodeById id).map FlowNode.data with
  | some (.container ..) => true
  | _ => false

/-- What the engine is told of a node besides its children; only one without any has a size. -/
def elkNode (id : String) : ElkNode R :=
  match graph.childIds id with
  | [] => ⟨id, [], graph.edgesByContainer id, none, none, (graph.nodeById id).bind FlowNode.width,
      (graph.nodeById id).bind FlowNode.height⟩
  | _ :: _ =>
    if graph.isContainer id then
      ⟨id, CONTAINER_LAYOUT_OPTIONS, graph.orderingEdges id, none, none, none, none⟩
    else
      ⟨id, REGION_LAYOUT_OPTIONS, graph.edgesByContainer id, none, none, none, none⟩

/-- The fuel bounds the depth; a node deeper than there are nodes is above itself, and the source
never returns. -/
def toElkNode : ℕ → String → Option (Rose (ElkNode R))
  | 0, _ => none
  | fuel + 1, id => ((graph.childIds id).mapM (toElkNode fuel)).map (.node (graph.elkNode id))

def elkRoot : Option (Rose (ElkNode R)) :=
  (graph.roots.mapM (graph.toElkNode graph.nodes.length)).map
    (.node ⟨ROOT_ID, VERTICAL_OPTIONS, graph.edgesByContainer ROOT_ID, none, none, none, none⟩)

end FlowGraph

/-- A map from ids to boxes. -/
abbrev Positioned (R : Type) := String → Option (Box R)

def Positioned.set (positioned : Positioned R) (id : String) (box : Box R) : Positioned R :=
  fun id' => if id' = id then some box else positioned id'

variable [Field R] [LinearOrder R]

def ElkNode.box (node : ElkNode R) : Box R :=
  ⟨node.x.getD 0, node.y.getD 0, node.width.getD 0, node.height.getD 0⟩

mutual

def collect : Rose (ElkNode R) → Positioned R → Positioned R
  | .node _ children, positioned => collectAll children positioned

def collectAll : List (Rose (ElkNode R)) → Positioned R → Positioned R
  | [], positioned => positioned
  | child :: children, positioned =>
    collectAll children (collect child (positioned.set child.value.id child.value.box))

end

namespace Positioned
variable (positioned : Positioned R)

def snap [FloorRing R] : Positioned R := fun id => (positioned id).map (Box.snap (GRID : R))

/-- The boxes of the main flow, of those at the top. -/
def mainFlow (roots : List String) : List (Box R) :=
  (roots.filter fun id => id ≠ ERROR_ROOT).filterMap positioned

def mainRight (roots : List String) : R :=
  (positioned.mainFlow roots).foldl (fun right box => max right (box.x + box.width)) 0

/- None for infinity. -/
def mainTop (roots : List String) : Option R :=
  (positioned.mainFlow roots).foldl (fun top box => some ((top.map (min · box.y)).getD box.y)) none

/-- The region of the error sequence goes to the right of the main flow, at its top. -/
def pin (roots : List String) : Positioned R :=
  match positioned ERROR_ROOT with
  | none => positioned
  | some errorBox => positioned.set ERROR_ROOT
      ⟨positioned.mainRight roots + (ERROR_GAP : R), (positioned.mainTop roots).getD errorBox.y,
        errorBox.width, errorBox.height⟩

end Positioned

namespace FlowNode

def place (positioned : Positioned R) (node : FlowNode K R) : FlowNode K R :=
  match positioned node.id with
  | none => node
  | some box =>
    { node with
      position := (box.x, box.y)
      width := some box.width
      height := some box.height
      style := some (box.width, box.height) }

def box (node : FlowNode K R) : Box R :=
  ⟨node.position.1, node.position.2, node.width.getD 0, node.height.getD 0⟩

end FlowNode

/-- `elk` is the layout engine. -/
def layoutGraph [FloorRing R] (elk : Rose (ElkNode R) → Rose (ElkNode R)) (graph : FlowGraph K R) :
    Option (FlowGraph K R) :=
  graph.elkRoot.map fun root =>
    let positioned := ((collect (elk root) fun _ => none).snap).pin graph.roots
    ⟨graph.nodes.map (FlowNode.place positioned), graph.edges⟩

end Pivox.WorkflowGraph
