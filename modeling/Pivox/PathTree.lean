import Mathlib.Data.List.Nodup

/-!
Sequences of trees with labelled sequences of trees under them, the addresses of what is in them, and
the walk that visits each address once and what stands above it first.
-/

namespace PathTree
variable {L A : Type}

inductive Tree (L A : Type) where
  | node (item : A) (children : List (L × A × List (Tree L A)))

/- A place of a sequence, or the sequence under that place by the label. -/
structure Frame (L : Type) where
  index : ℕ
  into : Option L
  deriving DecidableEq

abbrev Address (L : Type) := List (Frame L)

structure Visit (L A : Type) where
  address : Address L
  parent : Option (Address L)
  item : A

mutual

def visitTree (path : Address L) (parent : Option (Address L)) (index : ℕ) :
    Tree L A → List (Visit L A)
  | .node item children =>
    ⟨path ++ [⟨index, none⟩], parent, item⟩ :: visitChildren path index children

def visitChildren (path : Address L) (index : ℕ) :
    List (L × A × List (Tree L A)) → List (Visit L A)
  | [] => []
  | (label, item, trees) :: children =>
    ⟨path ++ [⟨index, some label⟩], some (path ++ [⟨index, none⟩]), item⟩ ::
      visitForest (path ++ [⟨index, some label⟩]) (some (path ++ [⟨index, some label⟩])) 0 trees ++
      visitChildren path index children

def visitForest (path : Address L) (parent : Option (Address L)) (index : ℕ) :
    List (Tree L A) → List (Visit L A)
  | [] => []
  | tree :: trees => visitTree path parent index tree ++ visitForest path parent (index + 1) trees

end

/-- What stands at an address of a sequence whose first place has the given index. -/
inductive At : ℕ → List (Tree L A) → Address L → A → Prop where
  | here {index : ℕ} {item : A} {children : List (L × A × List (Tree L A))}
      {trees : List (Tree L A)} : At index (.node item children :: trees) [⟨index, none⟩] item
  | child {index : ℕ} {item item' : A} {children : List (L × A × List (Tree L A))}
      {trees below : List (Tree L A)} {label : L} (hchild : (label, item', below) ∈ children) :
      At index (.node item children :: trees) [⟨index, some label⟩] item'
  | into {index : ℕ} {item item' item'' : A} {children : List (L × A × List (Tree L A))}
      {trees below : List (Tree L A)} {label : L} {address : Address L}
      (hchild : (label, item', below) ∈ children) (hat : At 0 below address item'') :
      At index (.node item children :: trees) (⟨index, some label⟩ :: address) item''
  | next {index : ℕ} {item : A} {tree : Tree L A} {trees : List (Tree L A)} {address : Address L}
      (hat : At (index + 1) trees address item) : At index (tree :: trees) address item

/- The labels under every tree are distinct. -/
inductive Distinct : List (Tree L A) → Prop where
  | nil : Distinct []
  | cons {item : A} {children : List (L × A × List (Tree L A))} {trees : List (Tree L A)}
      (hlabels : (children.map Prod.fst).Nodup) (hbelow : ∀ child ∈ children, Distinct child.2.2)
      (htrees : Distinct trees) : Distinct (.node item children :: trees)

/- What stands above an address below `path`. -/
def above (path : Address L) (parent : Option (Address L)) : Address L → Option (Address L)
  | [] => parent
  | [⟨_, none⟩] => parent
  | [⟨index, some _⟩] => some (path ++ [⟨index, none⟩])
  | frame :: address => above (path ++ [frame]) (some (path ++ [frame])) address

def visitAt (path : Address L) (parent : Option (Address L)) (address : Address L) (item : A) :
    Visit L A :=
  ⟨path ++ address, above path parent address, item⟩

variable {path address : Address L} {parent : Option (Address L)} {index : ℕ} {item : A}
variable {trees : List (Tree L A)} {children : List (L × A × List (Tree L A))} {v : Visit L A}

theorem visitForest_node : visitForest path parent index (.node item children :: trees) =
    ⟨path ++ [⟨index, none⟩], parent, item⟩ :: (visitChildren path index children ++
      visitForest path parent (index + 1) trees) := by
  rw [visitForest, visitTree, List.cons_append]

theorem visitChildren_append {children' : List (L × A × List (Tree L A))} :
    visitChildren path index (children ++ children') =
      visitChildren path index children ++ visitChildren path index children' := by
  induction children with
  | nil => rfl
  | cons child children ih =>
    obtain ⟨label, item, below⟩ := child
    simp only [List.cons_append, visitChildren, ih, List.append_assoc]

mutual

/-- Induction over a sequence of trees and the sequences under them. -/
theorem forest_induction {P : List (Tree L A) → Prop} (hnil : P [])
    (hcons : ∀ item children trees, (∀ child ∈ children, P child.2.2) → P trees →
      P (.node item children :: trees)) : ∀ trees, P trees
  | [] => hnil
  | .node item children :: trees => hcons item children trees
    (children_induction hnil hcons children) (forest_induction hnil hcons trees)

theorem children_induction {P : List (Tree L A) → Prop} (hnil : P [])
    (hcons : ∀ item children trees, (∀ child ∈ children, P child.2.2) → P trees →
      P (.node item children :: trees)) :
    ∀ children : List (L × A × List (Tree L A)), ∀ child ∈ children, P child.2.2
  | [], child, hchild => absurd hchild List.not_mem_nil
  | (_, _, trees) :: children, child, hchild => by
    obtain heq | hchild := List.mem_cons.mp hchild
    · rw [heq]
      exact forest_induction hnil hcons trees
    · exact children_induction hnil hcons children child hchild

end

/-! What is visited -/

theorem mem_visitChildren (parent : Option (Address L)) : v ∈ visitChildren path index children ↔
    ∃ label item below, (label, item, below) ∈ children ∧
      (v = visitAt path parent [⟨index, some label⟩] item ∨
        v ∈ visitForest (path ++ [⟨index, some label⟩]) (some (path ++ [⟨index, some label⟩])) 0
          below) := by
  induction children with
  | nil => simp [visitChildren]
  | cons child children ih =>
    obtain ⟨label, item, below⟩ := child
    simp only [visitChildren, List.cons_append, List.mem_cons, List.mem_append, ih]
    constructor
    · rintro (hv | hv | ⟨label', item', below', hchild, hv⟩)
      · exact ⟨label, item, below, .inl rfl, .inl hv⟩
      · exact ⟨label, item, below, .inl rfl, .inr hv⟩
      · exact ⟨label', item', below', .inr hchild, hv⟩
    · rintro ⟨label', item', below', hchild | hchild, hv⟩
      · cases hchild
        exact hv.elim .inl fun hv => .inr (.inl hv)
      · exact .inr (.inr ⟨label', item', below', hchild, hv⟩)

theorem At.ne_nil (h : At index trees address item) : address ≠ [] := by
  induction h with
  | next hat ih => exact ih
  | _ => simp

theorem visitAt_cons {frame : Frame L} (hne : address ≠ []) :
    visitAt path parent (frame :: address) item =
      visitAt (path ++ [frame]) (some (path ++ [frame])) address item := by
  obtain ⟨frame', address', rfl⟩ := List.exists_cons_of_ne_nil hne
  obtain ⟨index, into⟩ := frame
  cases into <;> simp [visitAt, above]

/-- A visit to everything that stands at some address, and no other. -/
theorem mem_visitForest : v ∈ visitForest path parent index trees ↔
    ∃ address item, At index trees address item ∧ v = visitAt path parent address item := by
  induction trees using forest_induction generalizing path parent index with
  | hnil =>
    simp only [visitForest, List.not_mem_nil, false_iff]
    rintro ⟨address, item, hat, -⟩
    cases hat
  | hcons item children trees ihbelow ihtrees =>
    rw [visitForest_node, List.mem_cons, List.mem_append, mem_visitChildren parent,
      ihtrees]
    constructor
    · rintro (hv | ⟨label, item', below, hchild, hv | hv⟩ | ⟨address, item', hat, hv⟩)
      · exact ⟨_, _, .here, hv⟩
      · exact ⟨_, _, .child hchild, hv⟩
      · obtain ⟨address, item'', hat, hv⟩ := (ihbelow _ hchild).1 hv
        exact ⟨_, _, .into hchild hat, hv.trans (visitAt_cons hat.ne_nil).symm⟩
      · exact ⟨address, item', .next hat, hv⟩
    · rintro ⟨address, item', hat, hv⟩
      cases hat with
      | here => exact .inl hv
      | child hchild => exact .inr (.inl ⟨_, _, _, hchild, .inl hv⟩)
      | into hchild hat =>
        rw [visitAt_cons hat.ne_nil] at hv
        exact .inr (.inl ⟨_, _, _, hchild, .inr ((ihbelow _ hchild).2 ⟨_, _, hat, hv⟩)⟩)
      | next hat => exact .inr (.inr ⟨_, _, hat, hv⟩)

/- A place of a sequence stands right below what the sequence stands below. -/
theorem above_append_place : above path parent (address ++ [⟨index, none⟩]) =
    if address = [] then parent else some (path ++ address) := by
  induction address generalizing path parent with
  | nil => simp [above]
  | cons frame address ih =>
    obtain ⟨frame', address', hcons⟩ :=
      List.exists_cons_of_ne_nil (List.append_ne_nil_of_right_ne_nil address
        (List.cons_ne_nil (Frame.mk index (none : Option L)) []))
    have habove : above path parent (frame :: (address ++ [⟨index, none⟩])) =
        above (path ++ [frame]) (some (path ++ [frame])) (address ++ [⟨index, none⟩]) := by
      rw [hcons]
      obtain ⟨index', into⟩ := frame
      cases into <;> rfl
    rw [List.cons_append, habove, ih]
    by_cases hnil : address = [] <;> simp [hnil]

/- What is under a tree by a label stands right below the tree. -/
theorem above_append_label {label : L} : above path parent (address ++ [⟨index, some label⟩]) =
    some (path ++ address ++ [⟨index, none⟩]) := by
  induction address generalizing path parent with
  | nil => simp [above]
  | cons frame address ih =>
    obtain ⟨frame', address', hcons⟩ :=
      List.exists_cons_of_ne_nil (List.append_ne_nil_of_right_ne_nil address
        (List.cons_ne_nil (Frame.mk index (some label)) []))
    have habove : above path parent (frame :: (address ++ [⟨index, some label⟩])) =
        above (path ++ [frame]) (some (path ++ [frame])) (address ++ [⟨index, some label⟩]) := by
      rw [hcons]
      obtain ⟨index', into⟩ := frame
      cases into <;> rfl
    rw [List.cons_append, habove, ih, List.append_assoc path, List.singleton_append]

/-- What stands at an address is a tree, or is under it by one of its labels. -/
theorem at_iff : At index trees address item ↔
    ∃ (i : ℕ) (item₀ : A) (children : List (L × A × List (Tree L A))),
      trees[i]? = some (.node item₀ children) ∧
      (address = [⟨index + i, none⟩] ∧ item = item₀ ∨
        ∃ label item' below, (label, item', below) ∈ children ∧
          (address = [⟨index + i, some label⟩] ∧ item = item' ∨
            ∃ address', address = ⟨index + i, some label⟩ :: address' ∧ At 0 below address' item)) := by
  constructor
  · intro hat
    induction hat with
    | here => exact ⟨0, _, _, rfl, .inl ⟨rfl, rfl⟩⟩
    | child hchild => exact ⟨0, _, _, rfl, .inr ⟨_, _, _, hchild, .inl ⟨rfl, rfl⟩⟩⟩
    | into hchild hat => exact ⟨0, _, _, rfl, .inr ⟨_, _, _, hchild, .inr ⟨_, rfl, hat⟩⟩⟩
    | next hat ih =>
      obtain ⟨i, item₀, children, htree, hplace⟩ := ih
      refine ⟨i + 1, item₀, children, htree, ?_⟩
      rwa [Nat.add_right_comm, Nat.add_assoc] at hplace
  · rintro ⟨i, item₀, children, htree, hplace⟩
    induction i generalizing index trees with
    | zero =>
      obtain ⟨tree, trees', rfl⟩ := List.exists_cons_of_ne_nil (l := trees) (by
        rintro rfl
        cases htree)
      cases htree
      obtain ⟨rfl, rfl⟩ | ⟨label, item', below, hchild, ⟨rfl, rfl⟩ | ⟨address', rfl, hat⟩⟩ := hplace
      · exact .here
      · exact .child hchild
      · exact .into hchild hat
    | succ i ih =>
      cases trees with
      | nil => cases htree
      | cons tree trees =>
        apply At.next
        apply ih htree
        rwa [Nat.add_right_comm, Nat.add_assoc]

/-! No address is visited twice -/

/- The first index of an address is at least that of the sequence. -/
theorem At.index_le (h : At index trees address item) :
    ∃ frame address', address = frame :: address' ∧ index ≤ frame.index := by
  induction h with
  | next hat ih =>
    obtain ⟨frame, address', heq, hle⟩ := ih
    exact ⟨frame, address', heq, by omega⟩
  | _ => exact ⟨_, _, rfl, Nat.le_refl _⟩

/- What is under a tree has the tree's index and a label in its first frame. -/
theorem address_of_mem_visitChildren (hv : v ∈ visitChildren path index children) :
    ∃ label address', label ∈ children.map Prod.fst ∧
      v.address = path ++ ⟨index, some label⟩ :: address' := by
  obtain ⟨label, item, below, hchild, hv | hv⟩ := (mem_visitChildren none).1 hv
  · exact ⟨label, [], List.mem_map_of_mem (f := Prod.fst) hchild, by rw [hv, visitAt]⟩
  · obtain ⟨address, item', -, hv⟩ := mem_visitForest.1 hv
    exact ⟨label, address, List.mem_map_of_mem (f := Prod.fst) hchild, by simp [hv, visitAt]⟩

theorem nodup_visitChildren (hlabels : (children.map Prod.fst).Nodup)
    (hbelow : ∀ child ∈ children, ∀ path : Address L,
      ((visitForest path (some path) 0 child.2.2).map Visit.address).Nodup) :
    ((visitChildren path index children).map Visit.address).Nodup := by
  induction children with
  | nil => exact List.nodup_nil
  | cons child children ih =>
    obtain ⟨label, item, below⟩ := child
    rw [List.map_cons, List.nodup_cons] at hlabels
    have ih' := ih hlabels.2 fun child hchild => hbelow child (List.mem_cons_of_mem _ hchild)
    have hbelow' := hbelow _ List.mem_cons_self (path ++ [⟨index, some label⟩])
    simp only [visitChildren, List.cons_append, List.map_cons, List.map_append, List.nodup_cons,
      List.nodup_append, List.mem_append, List.mem_map, not_or, not_exists, not_and]
    -- The sequence of a label comes before what is in it, and other labels have other addresses.
    have hfirst : ∀ v ∈ visitChildren path index children, ∀ address' : Address L,
        v.address ≠ path ++ ⟨index, some label⟩ :: address' := by
      intro v hv address' heq
      obtain ⟨label', address'', hlabel', heq'⟩ := address_of_mem_visitChildren hv
      rw [heq, List.append_cancel_left_eq, List.cons.injEq] at heq'
      cases heq'.1
      exact hlabels.1 hlabel'
    have hinner : ∀ v ∈ visitForest (path ++ [⟨index, some label⟩])
        (some (path ++ [⟨index, some label⟩])) 0 below, ∃ address', address' ≠ [] ∧
          v.address = path ++ ⟨index, some label⟩ :: address' := by
      intro v hv
      obtain ⟨address', item', hat, hv⟩ := mem_visitForest.1 hv
      exact ⟨address', hat.ne_nil, by simp [hv, visitAt]⟩
    refine ⟨⟨fun v hv heq => ?_, fun v hv => ?_⟩, hbelow', ih', ?_⟩
    · obtain ⟨address', hne, heq'⟩ := hinner v hv
      rw [heq', List.append_cancel_left_eq, List.cons.injEq] at heq
      exact hne heq.2
    · exact hfirst v hv []
    · rintro _ ⟨v, hv, rfl⟩ _ ⟨w, hw, rfl⟩ heq
      obtain ⟨address', -, heq'⟩ := hinner v hv
      exact hfirst w hw address' (heq.symm.trans heq')

/-- No address is visited twice if labels are distinct. -/
theorem nodup_visitForest (h : Distinct trees) :
    ((visitForest path parent index trees).map Visit.address).Nodup := by
  induction h generalizing path parent index with
  | nil => exact List.nodup_nil
  | @cons item children trees hlabels hbelow htrees ihbelow ihtrees =>
    have hchildren : ((visitChildren path index children).map Visit.address).Nodup :=
      nodup_visitChildren hlabels fun child hchild path => ihbelow child hchild
    have hlater : ∀ v ∈ visitForest path parent (index + 1) trees, ∀ into address',
        v.address ≠ path ++ ⟨index, into⟩ :: address' := by
      intro v hv into address' heq
      obtain ⟨address, item', hat, hv⟩ := mem_visitForest.1 hv
      obtain ⟨frame, address'', rfl, hle⟩ := hat.index_le
      rw [hv, visitAt, List.append_cancel_left_eq, List.cons.injEq] at heq
      rw [heq.1] at hle
      exact Nat.not_succ_le_self index hle
    simp only [visitForest_node, List.map_cons, List.map_append, List.nodup_cons,
      List.nodup_append, List.mem_append, List.mem_map, not_or, not_exists, not_and]
    refine ⟨⟨fun v hv heq => ?_, fun v hv => hlater v hv none []⟩, hchildren, ihtrees, ?_⟩
    · obtain ⟨label, address', -, heq'⟩ := address_of_mem_visitChildren hv
      rw [heq', List.append_cancel_left_eq, List.cons.injEq] at heq
      cases heq.1
    · rintro _ ⟨v, hv, rfl⟩ _ ⟨w, hw, rfl⟩ heq
      obtain ⟨label, address', -, heq'⟩ := address_of_mem_visitChildren hv
      exact hlater w hw (some label) address' (heq.symm.trans heq')

/-! What stands above is visited first -/

def ParentsFirst (outer : Address L → Prop) : List (Visit L A) → Prop
  | [] => True
  | v :: vs => (∀ p ∈ v.parent, outer p) ∧ ParentsFirst (fun p => p = v.address ∨ outer p) vs

namespace ParentsFirst
variable {outer outer' : Address L → Prop} {vs ws : List (Visit L A)}

theorem mono (hsub : ∀ p, outer p → outer' p) (h : ParentsFirst outer vs) :
    ParentsFirst outer' vs := by
  induction vs generalizing outer outer' with
  | nil => trivial
  | cons v vs ih => exact ⟨fun p hp => hsub p (h.1 p hp), ih (fun p hp => hp.imp_right (hsub p)) h.2⟩

theorem append (h : ParentsFirst outer vs) (h' : ParentsFirst outer ws) :
    ParentsFirst outer (vs ++ ws) := by
  induction vs generalizing outer with
  | nil => exact h'
  | cons v vs ih => exact ⟨h.1, ih h.2 (h'.mono fun p hp => .inr hp)⟩

theorem split (h : ParentsFirst outer (vs ++ v :: ws)) :
    ∀ p ∈ v.parent, outer p ∨ p ∈ vs.map Visit.address := by
  induction vs generalizing outer with
  | nil =>
    intro p hp
    exact .inl (h.1 p hp)
  | cons w vs ih =>
    intro p hp
    obtain (rfl | hp) | hp := ih h.2 p hp
    · exact .inr List.mem_cons_self
    · exact .inl hp
    · exact .inr (List.mem_cons_of_mem _ hp)

end ParentsFirst

theorem parentsFirst_visitChildren {outer : Address L → Prop}
    (htree : outer (path ++ [⟨index, none⟩]))
    (hbelow : ∀ child ∈ children, ∀ (path : Address L) (outer : Address L → Prop), outer path →
      ParentsFirst outer (visitForest path (some path) 0 child.2.2)) :
    ParentsFirst outer (visitChildren path index children) := by
  induction children generalizing outer with
  | nil => trivial
  | cons child children ih =>
    obtain ⟨label, item, below⟩ := child
    simp only [visitChildren, List.cons_append]
    refine ⟨?_, .append ?_ ?_⟩
    · rintro p ⟨⟩
      exact htree
    · exact hbelow _ List.mem_cons_self _ _ (.inl rfl)
    · exact ih (.inr htree) fun child hchild => hbelow child (List.mem_cons_of_mem _ hchild)

theorem parentsFirst_visitForest {outer : Address L → Prop} (hparent : ∀ p ∈ parent, outer p) :
    ParentsFirst outer (visitForest path parent index trees) := by
  induction trees using forest_induction generalizing path parent index outer with
  | hnil => trivial
  | hcons item children trees ihbelow ihtrees =>
    rw [visitForest_node]
    refine ⟨hparent, .append ?_ (ihtrees fun p hp => .inr (hparent p hp))⟩
    apply parentsFirst_visitChildren (.inl rfl)
    intro child hchild path outer hpath
    apply ihbelow child hchild
    rintro p ⟨⟩
    exact hpath

end PathTree
