import Mathlib.Algebra.BigOperators.Group.List.Basic
import Mathlib.Algebra.Order.Group.Multiset
import Mathlib.Data.List.Nodup
import Mathlib.Tactic.Abel

/-!
Lists of entries that name their parents, each after the one it names, and the trees grown from them:
the growth ends, and has every entry once.
-/

namespace Hierarchy

inductive Rose (α : Type) where
  | node (value : α) (children : List (Rose α))

namespace Rose
variable {α β : Type}

def value : Rose α → α
  | node value _ => value

def children : Rose α → List (Rose α)
  | node _ children => children

mutual

/- The trees strictly in a tree, each before those in it. -/
def within : Rose α → List (Rose α)
  | node _ children => withinAll children

def withinAll : List (Rose α) → List (Rose α)
  | [] => []
  | tree :: trees => tree :: within tree ++ withinAll trees

end

mutual

def map (f : α → β) : Rose α → Rose β
  | node value children => node (f value) (mapAll f children)

def mapAll (f : α → β) : List (Rose α) → List (Rose β)
  | [] => []
  | tree :: trees => map f tree :: mapAll f trees

end

theorem mapAll_eq (f : α → β) (trees : List (Rose α)) : mapAll f trees = trees.map (map f) := by
  induction trees with
  | nil => rfl
  | cons tree trees ih => exact congrArg (map f tree :: ·) ih

@[simp] theorem value_map (f : α → β) (tree : Rose α) : (tree.map f).value = f tree.value := by
  cases tree
  rfl

@[simp] theorem children_map (f : α → β) (tree : Rose α) :
    (tree.map f).children = tree.children.map (map f) := by
  cases tree
  exact mapAll_eq f _

theorem within_eq (tree : Rose α) : tree.within = withinAll tree.children := by
  cases tree
  rfl

mutual

theorem within_map (f : α → β) : ∀ tree : Rose α, (tree.map f).within = tree.within.map (map f)
  | node _ children => withinAll_map f children

theorem withinAll_map (f : α → β) : ∀ trees : List (Rose α),
    withinAll (mapAll f trees) = (withinAll trees).map (map f)
  | [] => rfl
  | tree :: trees => by
    have htree := within_map f tree
    have htrees := withinAll_map f trees
    simp only [mapAll, withinAll, htree, htrees, List.map_append, List.map_cons]

end

mutual

/-- What is in a tree is its children and their children, at any depth. -/
theorem within_perm : ∀ tree : Rose α,
    tree.within.Perm (tree.children ++ tree.within.flatMap children)
  | node _ children => withinAll_perm children

theorem withinAll_perm : ∀ trees : List (Rose α),
    (withinAll trees).Perm (trees ++ (withinAll trees).flatMap children)
  | [] => .refl _
  | tree :: trees => by
    have htree := Multiset.coe_eq_coe.mpr (within_perm tree)
    have htrees := Multiset.coe_eq_coe.mpr (withinAll_perm trees)
    apply Multiset.coe_eq_coe.mp
    simp only [withinAll, List.flatMap_cons, List.flatMap_append, List.cons_append,
      ← Multiset.cons_coe, ← Multiset.coe_add] at htree htrees ⊢
    rw [htree, htrees]
    simp only [← Multiset.singleton_add]
    abel

end

theorem mem_within_of_mem_children {tree child : Rose α} (h : child ∈ tree.children) :
    child ∈ tree.within :=
  (within_perm tree).mem_iff.mpr (List.mem_append_left _ h)

theorem mem_within_of_mem_within {tree tree' child : Rose α} (htree : tree' ∈ tree.within)
    (h : child ∈ tree'.children) : child ∈ tree.within :=
  (within_perm tree).mem_iff.mpr (List.mem_append_right _ (List.mem_flatMap.mpr ⟨tree', htree, h⟩))

end Rose

section Entries
variable {ι κ : Type} (key : ι → κ) (parent : ι → Option κ) (entries : List ι)

/-- No key twice, and an entry after the one it has as its parent. -/
structure ParentsFirst : Prop where
  nodup : (entries.map key).Nodup
  parents : ∀ before entry after, entries = before ++ entry :: after →
    ∀ p ∈ parent entry, ∃ entry' ∈ before, key entry' = p

namespace ParentsFirst
variable {key parent entries}

theorem eq_of_key (h : ParentsFirst key parent entries) {entry entry' : ι} (he : entry ∈ entries)
    (he' : entry' ∈ entries) (hkey : key entry = key entry') : entry = entry' :=
  List.inj_on_of_nodup_map h.nodup he he' hkey

theorem parent_mem (h : ParentsFirst key parent entries) {entry : ι} (he : entry ∈ entries) {p : κ}
    (hp : p ∈ parent entry) : ∃ entry' ∈ entries, key entry' = p := by
  obtain ⟨before, after, hentries⟩ := List.append_of_mem he
  obtain ⟨entry', he', hkey⟩ := h.parents before entry after hentries p hp
  exact ⟨entry', by rw [hentries]; exact List.mem_append_left _ he', hkey⟩

theorem nil : ParentsFirst key parent [] := by
  constructor
  · exact List.nodup_nil
  · intro before entry after h
    cases before <;> cases h

/- An entry is added after its parent. -/
theorem concat (h : ParentsFirst key parent entries) {entry : ι}
    (hnew : key entry ∉ entries.map key) (hparent : ∀ p ∈ parent entry, p ∈ entries.map key) :
    ParentsFirst key parent (entries ++ [entry]) := by
  constructor
  · rw [List.map_append, List.nodup_append]
    refine ⟨h.nodup, List.nodup_singleton _, ?_⟩
    rintro k hk k' hk' rfl
    exact hnew (List.mem_singleton.mp hk' ▸ hk)
  · intro before entry' after heq p hp
    obtain ⟨rest, rfl, hlast⟩ | ⟨rest, hentries, hlast⟩ := List.append_eq_append_iff.mp heq
    · obtain ⟨rfl, hlast⟩ | ⟨-, hlast⟩ := List.singleton_eq_append_iff.mp hlast
      · cases hlast
        obtain ⟨entry'', hmem, hkey⟩ := List.mem_map.mp (hparent p hp)
        exact ⟨entry'', List.mem_append_left _ hmem, hkey⟩
      · cases hlast
    · cases rest with
      | nil =>
        cases hlast
        rw [List.append_nil] at hentries
        exact hentries ▸ List.mem_map.mp (hparent p hp)
      | cons entry'' rest =>
        cases hlast
        exact h.parents before entry' rest hentries p hp

end ParentsFirst

variable [DecidableEq κ]

/-- The keys of the entries with the given parent, in their order. -/
def keysUnder (p : Option κ) : List κ :=
  (entries.filter fun entry => decide (parent entry = p)).map key

/-- The children of every tree in it are the entries under its value. -/
inductive Follows : Rose κ → Prop where
  | node {k : κ} {children : List (Rose κ)}
      (hkeys : children.map Rose.value = keysUnder key parent entries (some k))
      (hchildren : ∀ child ∈ children, Follows child) : Follows (.node k children)

/-- The tree under a key, to at most the depth of the fuel. -/
def grow : ℕ → κ → Option (Rose κ)
  | 0, _ => none
  | fuel + 1, k => ((keysUnder key parent entries (some k)).mapM (grow fuel)).map (.node k)

variable {key parent entries}

theorem mem_keysUnder {p : Option κ} {k : κ} :
    k ∈ keysUnder key parent entries p ↔ ∃ entry ∈ entries, parent entry = p ∧ key entry = k := by
  simp only [keysUnder, List.mem_map, List.mem_filter, decide_eq_true_eq, and_assoc]

theorem keysUnder_subset {p : Option κ} {k : κ} (h : k ∈ keysUnder key parent entries p) :
    k ∈ entries.map key := by
  obtain ⟨entry, hentry, -, hk⟩ := mem_keysUnder.mp h
  exact List.mem_map.mpr ⟨entry, hentry, hk⟩

namespace ParentsFirst

theorem nodup_keysUnder (h : ParentsFirst key parent entries) (p : Option κ) :
    (keysUnder key parent entries p).Nodup :=
  h.nodup.sublist (List.filter_sublist.map key)

/- Each key stands under the one parent of its entry. -/
theorem count_keysUnder (h : ParentsFirst key parent entries) {entry : ι} (he : entry ∈ entries)
    (p : Option κ) :
    (keysUnder key parent entries p).count (key entry) = if p = parent entry then 1 else 0 := by
  split
  · rename_i hp
    have hmem : key entry ∈ keysUnder key parent entries p :=
      mem_keysUnder.mpr ⟨entry, he, hp.symm, rfl⟩
    exact List.count_eq_one_of_mem (h.nodup_keysUnder p) hmem
  · rename_i hp
    apply List.count_eq_zero_of_not_mem
    intro hmem
    obtain ⟨entry', he', hparent, hkey⟩ := mem_keysUnder.mp hmem
    rw [h.eq_of_key he' he hkey] at hparent
    exact hp hparent.symm

theorem parent_lt (h : ParentsFirst key parent entries) {entry : ι} (he : entry ∈ entries) {p : κ}
    (hp : p ∈ parent entry) :
    (entries.map key).idxOf p < (entries.map key).idxOf (key entry) := by
  obtain ⟨before, after, hentries⟩ := List.append_of_mem he
  obtain ⟨entry', he', hkey⟩ := h.parents before entry after hentries p hp
  have hnodup := h.nodup
  rw [hentries, List.map_append, List.map_cons] at hnodup ⊢
  have hmem : p ∈ before.map key := List.mem_map.mpr ⟨entry', he', hkey⟩
  have hnot : key entry ∉ before.map key := by
    intro hin
    exact List.disjoint_of_nodup_append hnodup hin List.mem_cons_self
  rw [List.idxOf_append_of_mem hmem, List.idxOf_append_of_notMem hnot]
  have hlt := List.idxOf_lt_length_of_mem hmem
  omega

/-- From any entry up to one without a parent. -/
theorem induct (h : ParentsFirst key parent entries) {P : ι → Prop}
    (hroot : ∀ entry ∈ entries, parent entry = none → P entry)
    (hchild : ∀ entry ∈ entries, ∀ entry' ∈ entries, parent entry = some (key entry') → P entry' →
      P entry) : ∀ entry ∈ entries, P entry := by
  intro entry he
  induction hn : (entries.map key).idxOf (key entry) using Nat.strong_induction_on
    generalizing entry with
  | _ n ih =>
    cases hparent : parent entry with
    | none => exact hroot entry he hparent
    | some p =>
      obtain ⟨entry', he', rfl⟩ := h.parent_mem he hparent
      have hlt := h.parent_lt he hparent
      exact hchild entry he entry' he' hparent (ih _ (hn ▸ hlt) entry' he' rfl)

theorem count_flatMap (h : ParentsFirst key parent entries) {entry : ι} (he : entry ∈ entries)
    (keys : List κ) :
    (keys.flatMap fun k => keysUnder key parent entries (some k)).count (key entry) =
      keys.countP fun k => decide (some k = parent entry) := by
  induction keys with
  | nil => rfl
  | cons k keys ih =>
    rw [List.flatMap_cons, List.count_append, ih, h.count_keysUnder he, List.countP_cons, add_comm]
    simp only [decide_eq_true_eq]

/-- Where the roots and, for each key there, those under it are all that is there, each entry is
there once. -/
theorem perm_of_closed (h : ParentsFirst key parent entries) {keys : List κ}
    (hkeys : keys.Perm (keysUnder key parent entries none ++
      keys.flatMap fun k => keysUnder key parent entries (some k))) :
    keys.Perm (entries.map key) := by
  have hcount : ∀ entry ∈ entries, keys.count (key entry) = 1 := by
    apply h.induct (P := fun entry => keys.count (key entry) = 1)
    · intro entry he hroot
      have hnone : keys.countP (fun k => decide (some k = parent entry)) = 0 := by
        rw [hroot]
        exact List.countP_eq_zero.mpr fun k _ => by simp
      rw [hkeys.count_eq, List.count_append, h.count_flatMap he, h.count_keysUnder he, hnone,
        if_pos hroot.symm]
    · intro entry he entry' he' hparent ih
      have hsame : keys.countP (fun k => decide (some k = parent entry)) = keys.count (key entry') := by
        rw [hparent, List.count]
        apply List.countP_congr
        intro k _
        simp
      rw [hkeys.count_eq, List.count_append, h.count_flatMap he, h.count_keysUnder he, hsame, ih,
        if_neg (by rw [hparent]; exact nofun)]
  have hsubset : ∀ k ∈ keys, k ∈ entries.map key := by
    intro k hk
    obtain hk | hk := List.mem_append.mp (hkeys.mem_iff.mp hk)
    · exact keysUnder_subset hk
    · obtain ⟨k', -, hk⟩ := List.mem_flatMap.mp hk
      exact keysUnder_subset hk
  have hnodup : keys.Nodup := by
    rw [List.nodup_iff_count_eq_one]
    intro k hk
    obtain ⟨entry, he, rfl⟩ := List.mem_map.mp (hsubset k hk)
    exact hcount entry he
  apply (List.perm_ext_iff_of_nodup hnodup h.nodup).mpr
  intro k
  refine ⟨hsubset k, ?_⟩
  intro hk
  obtain ⟨entry, he, rfl⟩ := List.mem_map.mp hk
  exact List.count_pos_iff.mp (by rw [hcount entry he]; exact Nat.one_pos)

end ParentsFirst

namespace Follows
variable {tree : Rose κ} {trees : List (Rose κ)}

theorem keys (h : Follows key parent entries tree) :
    tree.children.map Rose.value = keysUnder key parent entries (some tree.value) := by
  cases h with
  | node hkeys _ => exact hkeys

mutual

theorem within : ∀ {tree : Rose κ}, Follows key parent entries tree →
    ∀ tree' ∈ tree.within, Follows key parent entries tree'
  | .node _ _, .node _ hchildren => withinAll hchildren

theorem withinAll : ∀ {trees : List (Rose κ)}, (∀ tree ∈ trees, Follows key parent entries tree) →
    ∀ tree' ∈ Rose.withinAll trees, Follows key parent entries tree'
  | [], _, _, hmem => nomatch hmem
  | tree :: trees, h, tree', hmem => by
    have htree := h tree List.mem_cons_self
    have htrees : ∀ tree ∈ trees, Follows key parent entries tree :=
      fun tree hin => h tree (List.mem_cons_of_mem _ hin)
    rw [Rose.withinAll, List.mem_append, List.mem_cons] at hmem
    obtain (rfl | hmem) | hmem := hmem
    · exact htree
    · exact within htree tree' hmem
    · exact withinAll htrees tree' hmem

end

end Follows

namespace ParentsFirst

/-- Trees that follow the entries from those without a parent have every entry once. -/
theorem perm_withinAll (h : ParentsFirst key parent entries) {trees : List (Rose κ)}
    (hroots : trees.map Rose.value = keysUnder key parent entries none)
    (hfollows : ∀ tree ∈ trees, Follows key parent entries tree) :
    ((Rose.withinAll trees).map Rose.value).Perm (entries.map key) := by
  have hchildren : ((Rose.withinAll trees).flatMap Rose.children).map Rose.value =
      ((Rose.withinAll trees).map Rose.value).flatMap
        fun k => keysUnder key parent entries (some k) := by
    rw [List.map_flatMap, List.flatMap_map]
    apply List.flatMap_congr
    intro tree hmem
    exact (Follows.withinAll hfollows tree hmem).keys
  apply h.perm_of_closed
  rw [← hroots, ← hchildren, ← List.map_append]
  exact (Rose.withinAll_perm trees).map Rose.value

theorem mapM_follows {f : κ → Option (Rose κ)} {ks : List κ}
    (hf : ∀ k ∈ ks, ∃ tree, f k = some tree ∧ tree.value = k ∧ Follows key parent entries tree) :
    ∃ trees, ks.mapM f = some trees ∧ trees.map Rose.value = ks ∧
      ∀ tree ∈ trees, Follows key parent entries tree := by
  induction ks with
  | nil => exact ⟨[], rfl, rfl, nofun⟩
  | cons k ks ih =>
    obtain ⟨tree, htree, rfl, hfollows⟩ := hf k List.mem_cons_self
    obtain ⟨trees, htrees, rfl, hall⟩ := ih fun k' hk' => hf k' (List.mem_cons_of_mem _ hk')
    refine ⟨tree :: trees, ?_, rfl, List.forall_mem_cons.mpr ⟨hfollows, hall⟩⟩
    rw [List.mapM_cons, htree, htrees]
    rfl

/- The later a key stands, the less deep is what is under it. -/
theorem grow_follows (h : ParentsFirst key parent entries) {fuel : ℕ} {k : κ}
    (hk : k ∈ entries.map key) (hfuel : entries.length ≤ (entries.map key).idxOf k + fuel) :
    ∃ tree, grow key parent entries fuel k = some tree ∧ tree.value = k ∧
      Follows key parent entries tree := by
  induction fuel generalizing k with
  | zero =>
    have hlt := List.idxOf_lt_length_of_mem hk
    rw [List.length_map] at hlt
    omega
  | succ fuel ih =>
    have hchildren : ∀ k' ∈ keysUnder key parent entries (some k),
        ∃ tree, grow key parent entries fuel k' = some tree ∧ tree.value = k' ∧
          Follows key parent entries tree := by
      intro k' hk'
      obtain ⟨entry, he, hparent, rfl⟩ := mem_keysUnder.mp hk'
      have hlt := h.parent_lt he hparent
      exact ih (keysUnder_subset hk') (by omega)
    obtain ⟨trees, htrees, hkeys, hfollows⟩ := mapM_follows hchildren
    refine ⟨.node k trees, ?_, rfl, .node hkeys hfollows⟩
    rw [grow, htrees]
    rfl

/-- The trees under the entries without a parent are grown with no more fuel than entries. -/
theorem grow_roots (h : ParentsFirst key parent entries) :
    ∃ trees, (keysUnder key parent entries none).mapM (grow key parent entries entries.length) =
        some trees ∧ trees.map Rose.value = keysUnder key parent entries none ∧
      ∀ tree ∈ trees, Follows key parent entries tree :=
  mapM_follows fun _ hk => h.grow_follows (keysUnder_subset hk) (Nat.le_add_left _ _)

end ParentsFirst

end Entries

end Hierarchy
