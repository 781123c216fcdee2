import Pivox.Engine.Interpreter

/-!
The steps of a workflow definition, at every depth, and their ids.
-/

namespace Pivox.Engine.Interpreter

def Step.id : Step → String
  | .activity id _ => id
  | .condition id _ _ => id
  | .parallel id _ => id
  | .try id _ _ _ => id
  | .unset id => id

mutual

/-- The step and those inside of it, each before its own. -/
def Step.steps : Step → List Step
  | .activity id activity => [.activity id activity]
  | .condition id branches otherwise =>
    .condition id branches otherwise :: (conditionSteps branches ++ otherwiseSteps otherwise)
  | .parallel id branches => .parallel id branches :: branchSteps branches
  | .try id body «catch» rethrow =>
    .try id body «catch» rethrow :: (sequenceSteps body ++ sequenceSteps «catch»)
  | .unset id => [.unset id]

def sequenceSteps : List Step → List Step
  | [] => []
  | step :: steps => step.steps ++ sequenceSteps steps

def conditionSteps : List (String × List Step) → List Step
  | [] => []
  | (_, steps) :: branches => sequenceSteps steps ++ conditionSteps branches

def otherwiseSteps : Option (List Step) → List Step
  | none => []
  | some steps => sequenceSteps steps

def branchSteps : List (List Step) → List Step
  | [] => []
  | steps :: branches => sequenceSteps steps ++ branchSteps branches

end

def Definition.steps (definition : Definition) : List Step :=
  sequenceSteps definition.root ++ sequenceSteps definition.errorSeq

/-! What the check of the ids sees -/

def seeIDs : List String → List String → Seen
  | [], seen => .ok seen
  | id :: ids, seen => (seeID id seen).bind (seeIDs ids)

theorem seeIDs_append (ids ids' seen : List String) :
    seeIDs (ids ++ ids') seen = (seeIDs ids seen).bind (seeIDs ids') := by
  induction ids generalizing seen with
  | nil => rfl
  | cons id ids ih =>
    rw [List.cons_append, seeIDs, seeIDs]
    cases seeID id seen with
    | error id => rfl
    | ok seen => exact ih seen

theorem seeIDs_eq_ok (ids : List String) {seen : List String} (hseen : seen.Nodup) :
    (∃ seen', seeIDs ids seen = .ok seen') ↔ (seen ++ ids).Nodup := by
  induction ids generalizing seen with
  | nil => simpa [seeIDs] using hseen
  | cons id ids ih =>
    rw [seeIDs, seeID, List.perm_middle.nodup_iff, List.nodup_cons]
    by_cases hmem : id ∈ seen
    · simp [hmem, Except.bind]
    · have hnodup : (id :: seen).Nodup := List.nodup_cons.mpr ⟨hmem, hseen⟩
      simp only [hmem, ↓reduceIte, Except.bind, ih hnodup, List.cons_append, List.nodup_cons]

theorem seeIDs_singleton (id : String) (seen : List String) : seeIDs [id] seen = seeID id seen := by
  rw [seeIDs]
  cases seeID id seen <;> rfl

mutual

theorem checkStepIDs_eq : ∀ (step : Step) (seen : List String),
    checkStepIDs step seen = seeIDs (step.steps.map Step.id) seen
  | .activity id _, seen => (seeIDs_singleton id seen).symm
  | .condition id branches otherwise, seen => by
    have hbranches : checkConditionIDs branches = seeIDs ((conditionSteps branches).map Step.id) :=
      funext (checkConditionIDs_eq branches)
    have hotherwise : checkOtherwiseIDs otherwise = seeIDs ((otherwiseSteps otherwise).map Step.id) :=
      funext (checkOtherwiseIDs_eq otherwise)
    rw [checkStepIDs, Step.steps, List.map_cons, seeIDs, List.map_append, hbranches, hotherwise, Step.id]
    cases seeID id seen with
    | error id => rfl
    | ok seen => exact (seeIDs_append _ _ seen).symm
  | .parallel id branches, seen => by
    have hbranches : checkBranchIDs branches = seeIDs ((branchSteps branches).map Step.id) :=
      funext (checkBranchIDs_eq branches)
    rw [checkStepIDs, Step.steps, List.map_cons, seeIDs, hbranches]
    rfl
  | .try id body «catch» _, seen => by
    have hbody : checkSequenceIDs body = seeIDs ((sequenceSteps body).map Step.id) :=
      funext (checkSequenceIDs_eq body)
    have hcatch : checkSequenceIDs «catch» = seeIDs ((sequenceSteps «catch»).map Step.id) :=
      funext (checkSequenceIDs_eq «catch»)
    rw [checkStepIDs, Step.steps, List.map_cons, seeIDs, List.map_append, hbody, hcatch, Step.id]
    cases seeID id seen with
    | error id => rfl
    | ok seen => exact (seeIDs_append _ _ seen).symm
  | .unset id, seen => (seeIDs_singleton id seen).symm

theorem checkSequenceIDs_eq : ∀ (steps : List Step) (seen : List String),
    checkSequenceIDs steps seen = seeIDs ((sequenceSteps steps).map Step.id) seen
  | [], _ => rfl
  | step :: steps, seen => by
    have hsteps : checkSequenceIDs steps = seeIDs ((sequenceSteps steps).map Step.id) :=
      funext (checkSequenceIDs_eq steps)
    rw [checkSequenceIDs, checkStepIDs_eq step, hsteps, ← seeIDs_append, sequenceSteps, List.map_append]

theorem checkConditionIDs_eq : ∀ (branches : List (String × List Step)) (seen : List String),
    checkConditionIDs branches seen = seeIDs ((conditionSteps branches).map Step.id) seen
  | [], _ => rfl
  | (_, steps) :: branches, seen => by
    have hbranches : checkConditionIDs branches = seeIDs ((conditionSteps branches).map Step.id) :=
      funext (checkConditionIDs_eq branches)
    rw [checkConditionIDs, checkSequenceIDs_eq steps, hbranches, ← seeIDs_append, conditionSteps,
      List.map_append]

theorem checkOtherwiseIDs_eq : ∀ (otherwise : Option (List Step)) (seen : List String),
    checkOtherwiseIDs otherwise seen = seeIDs ((otherwiseSteps otherwise).map Step.id) seen
  | none, _ => rfl
  | some steps, seen => checkSequenceIDs_eq steps seen

theorem checkBranchIDs_eq : ∀ (branches : List (List Step)) (seen : List String),
    checkBranchIDs branches seen = seeIDs ((branchSteps branches).map Step.id) seen
  | [], _ => rfl
  | steps :: branches, seen => by
    have hbranches : checkBranchIDs branches = seeIDs ((branchSteps branches).map Step.id) :=
      funext (checkBranchIDs_eq branches)
    rw [checkBranchIDs, checkSequenceIDs_eq steps, hbranches, ← seeIDs_append, branchSteps,
      List.map_append]

end

def Definition.UniqueStepIDs (definition : Definition) : Prop :=
  (definition.steps.map Step.id).Nodup

/-- The check goes through the same steps as the walk can. -/
theorem validateUniqueStepIDs_eq_none {definition : Definition} :
    validateUniqueStepIDs definition = none ↔ definition.UniqueStepIDs := by
  have hchecked : (checkSequenceIDs definition.root []).bind (checkSequenceIDs definition.errorSeq) =
      seeIDs (definition.steps.map Step.id) [] := by
    have herrorSeq : checkSequenceIDs definition.errorSeq =
        seeIDs ((sequenceSteps definition.errorSeq).map Step.id) :=
      funext (checkSequenceIDs_eq definition.errorSeq)
    rw [checkSequenceIDs_eq, herrorSeq, ← seeIDs_append, Definition.steps, List.map_append]
  have hok := seeIDs_eq_ok (definition.steps.map Step.id) List.nodup_nil
  rw [List.nil_append] at hok
  rw [validateUniqueStepIDs, hchecked, Definition.UniqueStepIDs, ← hok]
  cases seeIDs (definition.steps.map Step.id) [] with
  | error id => simp
  | ok seen => simp

end Pivox.Engine.Interpreter
