import Mathlib.Data.List.Basic

/-!
Errors that wrap others. An error is a tree: what it is itself, and the errors that it unwraps to; a
search walks it in pre-order.
-/

namespace ErrorChain
variable {α β : Type}

inductive Error (α : Type) where
  | mk (self : α) (causes : List (Error α))

mutual

/-- The errors of the tree, each before those it wraps. -/
def Error.chain : Error α → List α
  | .mk self causes => self :: chainAll causes

def chainAll : List (Error α) → List α
  | [] => []
  | e :: es => e.chain ++ chainAll es

end

mutual

def Error.map (f : α → β) : Error α → Error β
  | .mk self causes => .mk (f self) (mapAll f causes)

def mapAll (f : α → β) : List (Error α) → List (Error β)
  | [] => []
  | e :: es => e.map f :: mapAll f es

end

mutual

theorem Error.chain_map (f : α → β) : ∀ e : Error α, (e.map f).chain = e.chain.map f
  | .mk self causes => congrArg (f self :: ·) (chainAll_map f causes)

theorem chainAll_map (f : α → β) : ∀ es : List (Error α),
    chainAll (mapAll f es) = (chainAll es).map f
  | [] => rfl
  | e :: es => by
    have he := e.chain_map f
    have hes := chainAll_map f es
    simp only [mapAll, chainAll, he, hes, List.map_append]

end

namespace Error

def leaf (self : α) : Error α := .mk self []

def wrap (self : α) (cause : Error α) : Error α := .mk self [cause]

/- The first error of the chain that is of a kind. -/
def as (f : α → Option β) (e : Error α) : Option β := e.chain.findSome? f

def is [DecidableEq α] (target : α) (e : Error α) : Bool := e.chain.contains target

variable {self : α} {e : Error α} {f : α → Option β} {b : β}

@[simp] theorem chain_leaf : (leaf self).chain = [self] := rfl

@[simp] theorem chain_wrap : (wrap self e).chain = self :: e.chain := by
  simp [wrap, chain, chainAll]

theorem as_leaf : (leaf self).as f = f self := by
  simp [as]

/-- What wraps another error and is not of the kind itself is searched through. -/
theorem as_wrap (h : f self = none) : (wrap self e).as f = e.as f := by
  rw [as, chain_wrap, List.findSome?_cons_of_isNone (by simp [h])]
  rfl

theorem as_wrap_of_some (h : f self = some b) : (wrap self e).as f = some b := by
  rw [as, chain_wrap, List.findSome?_cons_of_isSome (by simp [h])]
  exact h

theorem as_eq_none (h : ∀ a ∈ e.chain, f a = none) : e.as f = none := List.findSome?_eq_none_iff.mpr h

theorem is_wrap [DecidableEq α] (target : α) :
    (wrap self e).is target = (decide (target = self) || e.is target) := by
  simp [is]

theorem mem_of_as (h : e.as f = some b) : ∃ a ∈ e.chain, f a = some b :=
  List.exists_of_findSome?_eq_some h

end Error
end ErrorChain
