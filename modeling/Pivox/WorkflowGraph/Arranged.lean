import Mathlib.Data.Rat.Floor
import Pivox.WorkflowGraph.Faithful
import Pivox.WorkflowGraph.Layout

/-!
The layout of a drawn workflow keeps the boxes in their parents and apart from their siblings, where
the layout engine leaves the margins and the gaps it is told to.
-/

namespace Pivox.WorkflowGraph
open BoxGrid Hierarchy

variable {K R : Type} {graph : FlowGraph K R}

/-- A parent before what is in it, each id once, and the region of the error sequence in nothing. -/
structure FlowGraph.WellFormed (graph : FlowGraph K R) : Prop where
  parentsFirst : ParentsFirst FlowNode.id FlowNode.parentId graph.nodes
  error_top : ∀ node ∈ graph.nodes, node.id = ERROR_ROOT → node.parentId = none

/-- What a workflow version is drawn as can be laid out. -/
theorem Drawn.wellFormed (R : Type) [Zero R] [NatCast R] {version : WorkflowVersion K} {drawn : Graph K}
    (hkind : version.OneKind) (h : Drawn version drawn) : (drawn.flow R).WellFormed := by
  have hfaithful := faithful hkind h
  have hparse : parseStepPath ERROR_ROOT = .ok ⟨.error, []⟩ := parseStepPath_formatStepPath ⟨.error, []⟩
  constructor
  · constructor
    · have hids := hfaithful.ids
      rw [Graph.flow, List.map_map]
      exact hids
    · intro before node after hnodes p hp
      obtain ⟨before', rest, hsplit, rfl, hrest⟩ := List.map_eq_append_iff.mp hnodes
      obtain ⟨node', after', rfl, rfl, rfl⟩ := List.map_eq_cons_iff.mp hrest
      obtain ⟨node'', hmem, hid⟩ := hfaithful.parents before' node' after' hsplit p hp
      exact ⟨node''.flow R, List.mem_map_of_mem hmem, hid⟩
  · intro node hmem hid
    obtain ⟨node', hmem', rfl⟩ := List.mem_map.mp hmem
    replace hid : node'.id = ERROR_ROOT := hid
    obtain rfl | rfl | ⟨path, step, hpath, hstep, -⟩ | ⟨kind, frames, index, region, step, steps, -, -, rfl⟩ :=
      hfaithful.only node' hmem'
    · rfl
    · rfl
    · rw [hid, hparse] at hpath
      cases hpath
      cases hstep
    · have hformat : formatStepPath ⟨kind, frames ++ [⟨index, some region⟩]⟩ = ERROR_ROOT := hid
      rw [← hformat, parseStepPath_formatStepPath] at hparse
      cases frames <;> cases hparse

section Tree

theorem map_mapM {α β γ : Type} (f : α → Option β) (g : β → γ) (l : List α) :
    (l.mapM f).map (List.map g) = l.mapM fun a => (f a).map g := by
  induction l with
  | nil => rfl
  | cons a l ih =>
    rw [List.mapM_cons, List.mapM_cons, ← ih]
    cases f a with
    | none => rfl
    | some b => cases l.mapM f <;> rfl

theorem id_elkNode (graph : FlowGraph K R) (id : String) : (graph.elkNode id).id = id := by
  unfold FlowGraph.elkNode
  split
  · rfl
  · split <;> rfl

/- Of the tree that the engine is given, the ids. -/
theorem toElkNode_ids (graph : FlowGraph K R) (fuel : ℕ) (id : String) :
    (graph.toElkNode fuel id).map (Rose.map ElkNode.id) =
      grow FlowNode.id FlowNode.parentId graph.nodes fuel id := by
  induction fuel generalizing id with
  | zero => rfl
  | succ fuel ih =>
    have hchildren : ((graph.childIds id).mapM (graph.toElkNode fuel)).map
        (List.map (Rose.map ElkNode.id)) =
          (graph.childIds id).mapM (grow FlowNode.id FlowNode.parentId graph.nodes fuel) := by
      rw [map_mapM]
      simp only [ih]
    have hnode : ∀ children, Rose.map ElkNode.id (.node (graph.elkNode id) children) =
        .node id (children.map (Rose.map ElkNode.id)) := by
      intro children
      rw [Rose.map, id_elkNode, Rose.mapAll_eq]
    rw [FlowGraph.toElkNode, grow, Option.map_map]
    rw [show keysUnder FlowNode.id FlowNode.parentId graph.nodes (some id) = graph.childIds id from rfl,
      ← hchildren, Option.map_map]
    exact Option.map_congr fun children _ => hnode children

/-- The engine is given a tree, with the ids of the graph under those of their parents. -/
theorem FlowGraph.WellFormed.elkRoot (h : graph.WellFormed) : ∃ root, graph.elkRoot = some root ∧
    (root.map ElkNode.id).children.map Rose.value = graph.roots ∧
      ∀ tree ∈ (root.map ElkNode.id).children,
        Follows FlowNode.id FlowNode.parentId graph.nodes tree := by
  obtain ⟨trees, htrees, hroots, hfollows⟩ := h.parentsFirst.grow_roots
  have hids : (graph.roots.mapM (graph.toElkNode graph.nodes.length)).map
      (List.map (Rose.map ElkNode.id)) = some trees := by
    rw [map_mapM]
    simp only [toElkNode_ids]
    exact htrees
  obtain ⟨children, hchildren, rfl⟩ := Option.map_eq_some_iff.mp hids
  refine ⟨.node _ children, by rw [FlowGraph.elkRoot, hchildren]; rfl, ?_⟩
  rw [Rose.children_map]
  exact ⟨hroots, hfollows⟩

end Tree

section Place

theorem FlowNode.id_place (positioned : Positioned R) (node : FlowNode K R) :
    (node.place positioned).id = node.id := by
  unfold FlowNode.place
  split <;> rfl

theorem FlowNode.parentId_place (positioned : Positioned R) (node : FlowNode K R) :
    (node.place positioned).parentId = node.parentId := by
  unfold FlowNode.place
  split <;> rfl

theorem le_foldl_max {α β : Type} [LinearOrder β] (f : α → β) (l : List α) (init : β) :
    init ≤ l.foldl (fun right a => max right (f a)) init ∧
      ∀ a ∈ l, f a ≤ l.foldl (fun right a => max right (f a)) init := by
  induction l generalizing init with
  | nil => exact ⟨le_rfl, nofun⟩
  | cons a l ih =>
    obtain ⟨hinit, hall⟩ := ih (max init (f a))
    refine ⟨(le_max_left _ _).trans hinit, List.forall_mem_cons.mpr ⟨?_, hall⟩⟩
    exact (le_max_right _ _).trans hinit

end Place

variable [Field R]

theorem FlowNode.box_place {positioned : Positioned R} {node : FlowNode K R} {box : Box R}
    (h : positioned node.id = some box) : (node.place positioned).box = box := by
  unfold FlowNode.place
  rw [h]
  rfl

section Collect

def setBox (positioned : Positioned R) (tree : Rose (ElkNode R)) : Positioned R :=
  positioned.set tree.value.id tree.value.box

mutual

theorem collect_eq : ∀ (tree : Rose (ElkNode R)) (positioned : Positioned R),
    collect tree positioned = tree.within.foldl setBox positioned
  | .node _ children, positioned => collectAll_eq children positioned

theorem collectAll_eq : ∀ (trees : List (Rose (ElkNode R))) (positioned : Positioned R),
    collectAll trees positioned = (Rose.withinAll trees).foldl setBox positioned
  | [], _ => rfl
  | tree :: trees, positioned => by
    rw [collectAll, Rose.withinAll, List.foldl_append, List.foldl_cons, collectAll_eq trees,
      collect_eq tree]
    rfl

end

theorem foldl_setBox_of_notMem {trees : List (Rose (ElkNode R))} {id : String}
    (h : ∀ tree ∈ trees, tree.value.id ≠ id) (positioned : Positioned R) :
    trees.foldl setBox positioned id = positioned id := by
  induction trees generalizing positioned with
  | nil => rfl
  | cons tree trees ih =>
    rw [List.foldl_cons, ih fun tree' hmem => h tree' (List.mem_cons_of_mem _ hmem)]
    exact if_neg (h tree List.mem_cons_self).symm

theorem foldl_setBox_of_mem {trees : List (Rose (ElkNode R))} {tree : Rose (ElkNode R)}
    (hnodup : (trees.map fun tree => tree.value.id).Nodup) (hmem : tree ∈ trees)
    (positioned : Positioned R) :
    trees.foldl setBox positioned tree.value.id = some tree.value.box := by
  induction trees generalizing positioned with
  | nil => cases hmem
  | cons tree' trees ih =>
    rw [List.map_cons, List.nodup_cons] at hnodup
    rw [List.foldl_cons]
    obtain rfl | hmem := List.mem_cons.mp hmem
    · rw [foldl_setBox_of_notMem]
      · exact if_pos rfl
      · intro tree' hmem' heq
        exact hnodup.1 (List.mem_map.mpr ⟨tree', hmem', heq⟩)
    · exact ih hnodup.2 hmem _

end Collect

variable [LinearOrder R]

/-- The boxes of a graph stay in their parents, and none overlaps another of the same parent; the
region of the error sequence stands to the right of the main flow. -/
structure Arranged (graph : FlowGraph K R) : Prop where
  contained : ∀ node ∈ graph.nodes, ∀ parent ∈ graph.nodes, node.parentId = some parent.id →
    node.box.Inside 0 0 0 0 parent.box
  siblings : ∀ node ∈ graph.nodes, ∀ node' ∈ graph.nodes, node.parentId = node'.parentId →
    node.id ≠ node'.id → ¬ node.box.Overlap node'.box
  error : ∀ node ∈ graph.nodes, ∀ region ∈ graph.nodes, node.parentId = none →
    node.id ≠ ERROR_ROOT → region.id = ERROR_ROOT →
      node.box.x + node.box.width + ERROR_GAP ≤ region.box.x

/-- What the layout engine makes of the tree it is given: the same tree, with the padding to the
left, the right and the bottom of every child, and two grid cells between siblings on one of the
axes. Where the region of the error sequence comes to stand next to the main flow is left open. -/
structure Spaced (root laidOut : Rose (ElkNode R)) : Prop where
  ids : laidOut.map ElkNode.id = root.map ElkNode.id
  margins : ∀ parent ∈ laidOut.within, ∀ child ∈ parent.children,
    child.value.box.Inside (PAD : R) 0 (PAD : R) (PAD : R) parent.value.box
  gaps : ∀ parent ∈ laidOut.within, ∀ child ∈ parent.children, ∀ child' ∈ parent.children,
    child.value.id ≠ child'.value.id → child.value.box.Apart ((2 * GRID : ℕ) : R) child'.value.box
  rootGaps : ∀ child ∈ laidOut.children, ∀ child' ∈ laidOut.children,
    child.value.id ≠ child'.value.id → child.value.id ≠ ERROR_ROOT → child'.value.id ≠ ERROR_ROOT →
      child.value.box.Apart ((2 * GRID : ℕ) : R) child'.value.box

section LaidOut
variable {root laidOut : Rose (ElkNode R)}

/-- Every node of the graph is once in the tree that comes back. -/
theorem Spaced.perm (hgraph : graph.WellFormed) (hroot : graph.elkRoot = some root)
    (h : Spaced root laidOut) :
    (laidOut.within.map fun tree => tree.value.id).Perm (graph.nodes.map FlowNode.id) := by
  obtain ⟨root', hroot', hroots, hfollows⟩ := hgraph.elkRoot
  obtain rfl : root = root' := Option.some.inj (hroot.symm.trans hroot')
  rw [← h.ids] at hroots hfollows
  have hperm := hgraph.parentsFirst.perm_withinAll hroots hfollows
  rw [← Rose.within_eq, Rose.within_map, List.map_map] at hperm
  have hvalue : Rose.value ∘ Rose.map ElkNode.id = fun tree : Rose (ElkNode R) => tree.value.id := by
    funext tree
    exact Rose.value_map ElkNode.id tree
  rwa [hvalue] at hperm

theorem Spaced.collected (hgraph : graph.WellFormed) (hroot : graph.elkRoot = some root)
    (h : Spaced root laidOut) {tree : Rose (ElkNode R)} (hmem : tree ∈ laidOut.within)
    (positioned : Positioned R) : collect laidOut positioned tree.value.id = some tree.value.box := by
  have hnodup := (h.perm hgraph hroot).nodup_iff.mpr hgraph.parentsFirst.nodup
  rw [collect_eq, foldl_setBox_of_mem hnodup hmem]

theorem Spaced.exists_tree (hgraph : graph.WellFormed) (hroot : graph.elkRoot = some root)
    (h : Spaced root laidOut) {node : FlowNode K R} (hmem : node ∈ graph.nodes) :
    ∃ tree ∈ laidOut.within, tree.value.id = node.id := by
  have hid : node.id ∈ graph.nodes.map FlowNode.id := List.mem_map_of_mem hmem
  exact List.mem_map.mp ((h.perm hgraph hroot).mem_iff.mpr hid)

/- The children of a tree have the ids of the nodes with its own as their parent. -/
theorem Spaced.exists_child (hgraph : graph.WellFormed) (hroot : graph.elkRoot = some root)
    (h : Spaced root laidOut) {node : FlowNode K R} (hmem : node ∈ graph.nodes)
    {tree : Rose (ElkNode R)} (htree : tree ∈ laidOut.within)
    (hparent : node.parentId = some tree.value.id) :
    ∃ child ∈ tree.children, child.value.id = node.id := by
  obtain ⟨root', hroot', -, hfollows⟩ := hgraph.elkRoot
  obtain rfl : root = root' := Option.some.inj (hroot.symm.trans hroot')
  rw [← h.ids] at hfollows
  have hwithin : tree.map ElkNode.id ∈ Rose.withinAll (laidOut.map ElkNode.id).children := by
    rw [← Rose.within_eq, Rose.within_map]
    exact List.mem_map_of_mem htree
  have hkeys := (Follows.withinAll hfollows _ hwithin).keys
  rw [Rose.children_map, Rose.value_map, List.map_map] at hkeys
  have hin : node.id ∈ tree.children.map (Rose.value ∘ Rose.map ElkNode.id) := by
    rw [hkeys]
    exact mem_keysUnder.mpr ⟨node, hmem, hparent, rfl⟩
  obtain ⟨child, hchild, hid⟩ := List.mem_map.mp hin
  exact ⟨child, hchild, (Rose.value_map ElkNode.id child).symm.trans hid⟩

theorem Spaced.exists_root (hgraph : graph.WellFormed) (hroot : graph.elkRoot = some root)
    (h : Spaced root laidOut) {node : FlowNode K R} (hmem : node ∈ graph.nodes)
    (hparent : node.parentId = none) : ∃ child ∈ laidOut.children, child.value.id = node.id := by
  obtain ⟨root', hroot', hroots, -⟩ := hgraph.elkRoot
  obtain rfl : root = root' := Option.some.inj (hroot.symm.trans hroot')
  rw [← h.ids, Rose.children_map, List.map_map] at hroots
  have hin : node.id ∈ laidOut.children.map (Rose.value ∘ Rose.map ElkNode.id) := by
    rw [hroots]
    exact mem_keysUnder.mpr ⟨node, hmem, hparent, rfl⟩
  obtain ⟨child, hchild, hid⟩ := List.mem_map.mp hin
  exact ⟨child, hchild, (Rose.value_map ElkNode.id child).symm.trans hid⟩

end LaidOut

section Pin
variable {positioned : Positioned R} {roots : List String} {id : String} {box : Box R}

theorem Positioned.le_mainRight (hmem : id ∈ roots) (hid : id ≠ ERROR_ROOT)
    (hbox : positioned id = some box) : box.x + box.width ≤ positioned.mainRight roots := by
  apply (le_foldl_max (fun box : Box R => box.x + box.width) _ 0).2
  have hfilter : id ∈ roots.filter fun id => id ≠ ERROR_ROOT :=
    List.mem_filter.mpr ⟨hmem, decide_eq_true hid⟩
  exact List.mem_filterMap.mpr ⟨id, hfilter, hbox⟩

theorem Positioned.pin_of_ne (hid : id ≠ ERROR_ROOT) : positioned.pin roots id = positioned id := by
  cases herror : positioned ERROR_ROOT with
  | none => simp only [Positioned.pin, herror]
  | some errorBox =>
    simp only [Positioned.pin, herror]
    exact if_neg hid

theorem Positioned.pin_error (hbox : positioned ERROR_ROOT = some box) :
    positioned.pin roots ERROR_ROOT = some ⟨positioned.mainRight roots + (ERROR_GAP : R),
      (positioned.mainTop roots).getD box.y, box.width, box.height⟩ := by
  simp only [Positioned.pin, hbox]
  exact if_pos rfl

end Pin

theorem GRID_pos [IsStrictOrderedRing R] : (0 : R) < GRID := Nat.cast_pos.mpr (by decide)

section Layout
variable [FloorRing R] {root laidOut : Rose (ElkNode R)}
variable {elk : Rose (ElkNode R) → Rose (ElkNode R)}

/-- The boxes of the nodes in the end. -/
def boxes (graph : FlowGraph K R) (laidOut : Rose (ElkNode R)) : Positioned R :=
  ((collect laidOut fun _ => none).snap).pin graph.roots

section Boxes
variable (hgraph : graph.WellFormed) (hroot : graph.elkRoot = some root) (h : Spaced root laidOut)
variable {tree : Rose (ElkNode R)} {node node' parent region : FlowNode K R}
include hgraph hroot h

theorem boxes_snapped (htree : tree ∈ laidOut.within) :
    (collect laidOut fun _ => none).snap tree.value.id = some (tree.value.box.snap (GRID : R)) := by
  unfold Positioned.snap
  rw [h.collected hgraph hroot htree]
  rfl

theorem boxes_of_ne (htree : tree ∈ laidOut.within) (hid : tree.value.id ≠ ERROR_ROOT) :
    boxes graph laidOut tree.value.id = some (tree.value.box.snap (GRID : R)) := by
  unfold boxes
  rw [Positioned.pin_of_ne hid, boxes_snapped hgraph hroot h htree]

/- Pinning a box leaves its size. -/
theorem boxes_size (htree : tree ∈ laidOut.within) : ∃ box, boxes graph laidOut tree.value.id = some box ∧
    box.width = (tree.value.box.snap (GRID : R)).width ∧
      box.height = (tree.value.box.snap (GRID : R)).height := by
  by_cases hid : tree.value.id = ERROR_ROOT
  · have hbox := boxes_snapped hgraph hroot h htree
    rw [hid] at hbox ⊢
    exact ⟨_, Positioned.pin_error hbox, rfl, rfl⟩
  · exact ⟨_, boxes_of_ne hgraph hroot h htree hid, rfl, rfl⟩

variable [IsStrictOrderedRing R]

theorem contained (hmem : node ∈ graph.nodes) (hmem' : parent ∈ graph.nodes)
    (hparent : node.parentId = some parent.id) :
    (node.place (boxes graph laidOut)).box.Inside 0 0 0 0 (parent.place (boxes graph laidOut)).box := by
  obtain ⟨tree, htree, hid⟩ := h.exists_tree hgraph hroot hmem'
  rw [← hid] at hparent
  obtain ⟨child, hchild, hchildId⟩ := h.exists_child hgraph hroot hmem htree hparent
  have hne : child.value.id ≠ ERROR_ROOT := by
    intro heq
    have htop := hgraph.error_top node hmem (hchildId.symm.trans heq)
    exact Option.some_ne_none _ (hparent.symm.trans htop)
  have hchildBox := boxes_of_ne hgraph hroot h (Rose.mem_within_of_mem_within htree hchild) hne
  obtain ⟨box, hbox, hwidth, hheight⟩ := boxes_size hgraph hroot h htree
  rw [hchildId] at hchildBox
  rw [hid] at hbox
  rw [FlowNode.box_place hchildBox, FlowNode.box_place hbox]
  have hinside := (h.margins tree htree child hchild).snap GRID_pos GRID_pos.le le_rfl
  constructor
  · exact hinside.left
  · exact hinside.top
  · rw [hwidth]
    exact hinside.right
  · rw [hheight]
    exact hinside.bottom

theorem error_right (hmem : node ∈ graph.nodes) (hregion : region ∈ graph.nodes)
    (hparent : node.parentId = none) (hid : node.id ≠ ERROR_ROOT) (herror : region.id = ERROR_ROOT) :
    (node.place (boxes graph laidOut)).box.x + (node.place (boxes graph laidOut)).box.width +
      (ERROR_GAP : R) ≤ (region.place (boxes graph laidOut)).box.x := by
  obtain ⟨tree, htree, htreeId⟩ := h.exists_tree hgraph hroot hmem
  obtain ⟨tree', htree', htreeId'⟩ := h.exists_tree hgraph hroot hregion
  have hbox := boxes_snapped hgraph hroot h htree
  have hbox' := boxes_snapped hgraph hroot h htree'
  rw [htreeId] at hbox
  rw [htreeId', herror] at hbox'
  have hroots : node.id ∈ graph.roots := mem_keysUnder.mpr ⟨node, hmem, hparent, rfl⟩
  have hright := Positioned.le_mainRight hroots hid hbox
  have hplaced : boxes graph laidOut node.id = some (tree.value.box.snap (GRID : R)) := by
    unfold boxes
    rw [Positioned.pin_of_ne hid, hbox]
  obtain ⟨box, hplaced', hx⟩ : ∃ box, boxes graph laidOut region.id = some box ∧
      box.x = ((collect laidOut fun _ => none).snap.mainRight graph.roots) + (ERROR_GAP : R) := by
    unfold boxes
    rw [herror]
    exact ⟨_, Positioned.pin_error hbox', rfl⟩
  rw [FlowNode.box_place hplaced, FlowNode.box_place hplaced', hx]
  exact add_le_add_left hright _

/- The gap between two siblings may be on either axis. -/
theorem apart_siblings (hmem : node ∈ graph.nodes) (hmem' : node' ∈ graph.nodes)
    (hparent : node.parentId = node'.parentId) (hne : node.id ≠ node'.id) (hid : node.id ≠ ERROR_ROOT)
    (hid' : node'.id ≠ ERROR_ROOT) : (node.place (boxes graph laidOut)).box.Apart (GRID : R)
      (node'.place (boxes graph laidOut)).box := by
  have hapart : ∃ child ∈ laidOut.within, ∃ child' ∈ laidOut.within, child.value.id = node.id ∧
      child'.value.id = node'.id ∧ child.value.box.Apart ((2 * GRID : ℕ) : R) child'.value.box := by
    cases hp : node.parentId with
    | none =>
      obtain ⟨child, hchild, hchildId⟩ := h.exists_root hgraph hroot hmem hp
      obtain ⟨child', hchild', hchildId'⟩ := h.exists_root hgraph hroot hmem' (hparent ▸ hp)
      refine ⟨child, Rose.mem_within_of_mem_children hchild, child',
        Rose.mem_within_of_mem_children hchild', hchildId, hchildId', ?_⟩
      rw [← hchildId] at hne hid
      rw [← hchildId'] at hne hid'
      exact h.rootGaps child hchild child' hchild' hne hid hid'
    | some p =>
      obtain ⟨parent, hparentMem, rfl⟩ := hgraph.parentsFirst.parent_mem hmem hp
      obtain ⟨tree, htree, htreeId⟩ := h.exists_tree hgraph hroot hparentMem
      rw [← htreeId] at hp
      obtain ⟨child, hchild, hchildId⟩ := h.exists_child hgraph hroot hmem htree hp
      obtain ⟨child', hchild', hchildId'⟩ := h.exists_child hgraph hroot hmem' htree (hparent ▸ hp)
      refine ⟨child, Rose.mem_within_of_mem_within htree hchild, child',
        Rose.mem_within_of_mem_within htree hchild', hchildId, hchildId', ?_⟩
      rw [← hchildId, ← hchildId'] at hne
      exact h.gaps tree htree child hchild child' hchild' hne
  obtain ⟨child, hchild, child', hchild', hchildId, hchildId', hapart⟩ := hapart
  have hbox := boxes_of_ne hgraph hroot h hchild (hchildId ▸ hid)
  have hbox' := boxes_of_ne hgraph hroot h hchild' (hchildId' ▸ hid')
  rw [hchildId] at hbox
  rw [hchildId'] at hbox'
  rw [FlowNode.box_place hbox, FlowNode.box_place hbox']
  rw [Nat.cast_mul, Nat.cast_ofNat] at hapart
  exact hapart.snap GRID_pos

theorem arranged : Arranged (⟨graph.nodes.map (FlowNode.place (boxes graph laidOut)), graph.edges⟩ :
    FlowGraph K R) := by
  have hright : ∀ node ∈ graph.nodes, ∀ region ∈ graph.nodes, node.parentId = none →
      node.id ≠ ERROR_ROOT → region.id = ERROR_ROOT →
        (node.place (boxes graph laidOut)).box.Apart (ERROR_GAP : R)
          (region.place (boxes graph laidOut)).box := fun node hmem region hregion hparent hid herror =>
    ⟨.horizontal, .inl (error_right hgraph hroot h hmem hregion hparent hid herror)⟩
  have hgap : (0 : R) < ERROR_GAP := Nat.cast_pos.mpr (by decide)
  refine ⟨List.forall_mem_map.mpr ?_, List.forall_mem_map.mpr ?_, List.forall_mem_map.mpr ?_⟩
  · intro node hmem
    refine List.forall_mem_map.mpr fun parent hmem' hparent => ?_
    rw [FlowNode.parentId_place, FlowNode.id_place] at hparent
    exact contained hgraph hroot h hmem hmem' hparent
  · intro node hmem
    refine List.forall_mem_map.mpr fun node' hmem' hparent hne => ?_
    rw [FlowNode.parentId_place, FlowNode.parentId_place] at hparent
    rw [FlowNode.id_place, FlowNode.id_place] at hne
    by_cases hid : node.id = ERROR_ROOT
    · have hp' := hparent.symm.trans (hgraph.error_top node hmem hid)
      have hid' : node'.id ≠ ERROR_ROOT := fun heq => hne (hid.trans heq.symm)
      exact (hright node' hmem' node hmem hp' hid' hid).symm.not_overlap hgap
    · by_cases hid' : node'.id = ERROR_ROOT
      · have hp := hparent.trans (hgraph.error_top node' hmem' hid')
        exact (hright node hmem node' hmem' hp hid hid').not_overlap hgap
      · exact (apart_siblings hgraph hroot h hmem hmem' hparent hne hid hid').not_overlap GRID_pos
  · intro node hmem
    refine List.forall_mem_map.mpr fun region hregion hparent hid herror => ?_
    rw [FlowNode.parentId_place] at hparent
    rw [FlowNode.id_place] at hid herror
    exact error_right hgraph hroot h hmem hregion hparent hid herror

end Boxes

/-- Where the engine keeps the tree, the margins and the gaps, the layout ends, with every node of
the graph, and each in its parent and apart from its siblings. -/
theorem layout_arranged [IsStrictOrderedRing R] (hgraph : graph.WellFormed)
    (helk : ∀ root, graph.elkRoot = some root → Spaced root (elk root)) :
    ∃ laid, layoutGraph elk graph = some laid ∧ laid.edges = graph.edges ∧
      laid.nodes.map FlowNode.id = graph.nodes.map FlowNode.id ∧
        laid.nodes.map FlowNode.parentId = graph.nodes.map FlowNode.parentId ∧ Arranged laid := by
  obtain ⟨root, hroot, -⟩ := hgraph.elkRoot
  have hlaid : layoutGraph elk graph =
      some ⟨graph.nodes.map (FlowNode.place (boxes graph (elk root))), graph.edges⟩ := by
    rw [layoutGraph, hroot]
    rfl
  refine ⟨_, hlaid, rfl, ?_, ?_, arranged hgraph hroot (helk root hroot)⟩
  · rw [List.map_map]
    exact List.map_congr_left fun node _ => FlowNode.id_place _ node
  · rw [List.map_map]
    exact List.map_congr_left fun node _ => FlowNode.parentId_place _ node

end Layout

section Lanes

private def flowNode (id : String) (parentId : Option String) (size : Option (ℚ × ℚ))
    (data : NodeData String) : FlowNode String ℚ :=
  ⟨id, "node", parentId, (0, 0), size.map Prod.fst, size.map Prod.snd, none, data⟩

/- The start, two lanes of which one is empty, and a report of errors. -/
private def laneNodes : List (FlowNode String ℚ) :=
  [flowNode "start" none (some (120, 40)) .start,
    flowNode "root.steps[0]" none none (.container .parallel "lanes" "root.steps[0]" none),
    flowNode "lane" (some "root.steps[0]") none (.region .lane none),
    flowNode "fetch" (some "lane") (some (400, 80)) (.activity "fetch" "fetch" ⟨.http, "get"⟩),
    flowNode ERROR_ROOT none none (.region .error none),
    flowNode "report" (some ERROR_ROOT) (some (400, 80)) (.activity "report" "report" ⟨.http, "get"⟩)]

/- Off the grid by up to half a cell. -/
private def laneBox (id : String) : Box ℚ :=
  if id = "start" then ⟨12, 12, 120, 40⟩
  else if id = "root.steps[0]" then ⟨12, 112, 490, 220⟩
  else if id = "lane" then ⟨30, 60, 440, 140⟩
  else if id = ERROR_ROOT then ⟨150, 400, 440, 140⟩
  else ⟨20, 40, 400, 80⟩

private def laneEngine : Rose (ElkNode ℚ) → Rose (ElkNode ℚ) :=
  Rose.map fun node => { node with
    x := some (laneBox node.id).x
    y := some (laneBox node.id).y
    width := some (laneBox node.id).width
    height := some (laneBox node.id).height }

private def laneGraph : FlowGraph String ℚ := ⟨laneNodes, []⟩

private theorem wellFormed_laneGraph : laneGraph.WellFormed := by
  constructor
  · refine ((((((ParentsFirst.nil).concat ?_ ?_).concat ?_ ?_).concat ?_ ?_).concat ?_ ?_).concat
      ?_ ?_).concat ?_ ?_
    all_goals decide
  · decide

private def laneRoot : Rose (ElkNode ℚ) :=
  .node ⟨ROOT_ID, VERTICAL_OPTIONS, [], none, none, none, none⟩
    [.node ⟨"start", [], [], none, none, some 120, some 40⟩ [],
      .node ⟨"root.steps[0]", CONTAINER_LAYOUT_OPTIONS, [], none, none, none, none⟩
        [.node ⟨"lane", REGION_LAYOUT_OPTIONS, [], none, none, none, none⟩
          [.node ⟨"fetch", [], [], none, none, some 400, some 80⟩ []]],
      .node ⟨ERROR_ROOT, REGION_LAYOUT_OPTIONS, [], none, none, none, none⟩
        [.node ⟨"report", [], [], none, none, some 400, some 80⟩ []]]

private theorem elkRoot_laneGraph : laneGraph.elkRoot = some laneRoot := by
  rfl

private theorem spaced_laneRoot : Spaced laneRoot (laneEngine laneRoot) := by
  constructor
  · rfl
  · decide +kernel
  · decide +kernel
  · decide +kernel

theorem layout_arranged_lanes : ∃ laid, layoutGraph laneEngine laneGraph = some laid ∧
    laid.edges = laneGraph.edges ∧
      laid.nodes.map FlowNode.id = laneGraph.nodes.map FlowNode.id ∧
        laid.nodes.map FlowNode.parentId = laneGraph.nodes.map FlowNode.parentId ∧ Arranged laid :=
  layout_arranged wellFormed_laneGraph fun _ hroot =>
    Option.some.inj (elkRoot_laneGraph.symm.trans hroot) ▸ spaced_laneRoot

end Lanes

end Pivox.WorkflowGraph
