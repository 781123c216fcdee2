import Mathlib.Data.List.Perm.Basic
import Mathlib.Logic.Function.Basic
import Pivox.Transition

/-!
Parallel branches over one run context, and the set activity: a step that evaluates its assignments
and then writes them. `V` are the native values, `E` the errors of CEL.
-/

namespace Pivox.Engine
variable {V E : Type}

/- A step's output; that of a set is the map of what it assigned. -/
inductive Output (V : Type) where
  | value (v : V)
  | assigned (values : String → Option V)

structure RunContext (V : Type) where
  trigger : String → Option V
  params : String → Option V
  steps : String → Option (Output V)
  vars : String → Option V

def newRunContext (trigger params : String → Option V) : RunContext V :=
  ⟨trigger, params, fun _ => none, fun _ => none⟩

/- What an expression is evaluated against; `error` is the record of a catch block. -/
structure Activation (V : Type) where
  trigger : String → Option V
  params : String → Option V
  steps : String → Option (Output V)
  vars : String → Option V
  error : Option V

namespace RunContext

def setVar (rc : RunContext V) (name : String) (value : V) : RunContext V :=
  { rc with vars := Function.update rc.vars name (some value) }

def setStepOutput (rc : RunContext V) (stepID : String) (output : Output V) : RunContext V :=
  { rc with steps := Function.update rc.steps stepID (some output) }

def activation (rc : RunContext V) (error : Option V) : Activation V :=
  ⟨rc.trigger, rc.params, rc.steps, rc.vars, error⟩

end RunContext

inductive Scope where
  | runScope
  | catchScope

/- A CEL environment compiles an expression to a program. -/
abbrev Evaluator (V E : Type) := Scope → String → Except E (Activation V → Except E V)

/- `interrupted` is the error of a program whose context is done. -/
def evalOn (eval : Evaluator V E) (activation : Activation V) (interrupted : Option E)
    (expr : String) : Except E V :=
  match eval (if activation.error.isSome then .catchScope else .runScope) expr, interrupted with
  | .error e, _ => .error e
  | .ok _, some e => .error e
  | .ok program, none => program activation

def evalAny (eval : Evaluator V E) (error : Option V) (interrupted : Option E) (expr : String)
    (rc : RunContext V) : Except E V :=
  evalOn eval (rc.activation error) interrupted expr

/- A set step with its map of assignments. -/
structure SetStep where
  id : String
  names : List String
  nodup : names.Nodup
  expr : String → String

structure SetError (E : Type) where
  step : String
  assignment : String
  cause : E

/- An execution of a set: the names it has gone through and those left, in each of its two loops. -/
structure SetRun (V : Type) where
  step : SetStep
  error : Option V
  evaluated : List String
  toEvaluate : List String
  results : String → Option V
  written : List String
  toWrite : List String

/- What comes out of the branches: what they read, and how their sets end. -/
inductive Observed (V E : Type) where
  | read (branch : ℕ) (activation : Activation V)
  | returned (branch : ℕ) (step : SetStep) (result : Except (SetError E) (String → Option V))

structure BranchState (V E : Type) where
  rc : RunContext V
  sets : ℕ → Option (SetRun V)
  log : List (Observed V E)

def initial (trigger params : String → Option V) : BranchState V E :=
  ⟨newRunContext trigger params, fun _ => none, []⟩

/- What a branch does next. The two orders in which a set ranges over its maps are drawn when it
starts. -/
inductive BranchEvent (V E : Type) where
  | read (branch : ℕ) (error : Option V)
  | setStepOutput (branch : ℕ) (id : String) (output : V)
  | start (branch : ℕ) (step : SetStep) (error : Option V) (order writes : List String)
  | evaluate (branch : ℕ) (interrupted : Option E)
  | setVar (branch : ℕ)
  | finish (branch : ℕ)

namespace BranchState

def setRun (s : BranchState V E) (branch : ℕ) (run : Option (SetRun V)) : BranchState V E :=
  { s with sets := Function.update s.sets branch run }

def observe (s : BranchState V E) (o : Observed V E) : BranchState V E := { s with log := s.log ++ [o] }

end BranchState

def branchStep (eval : Evaluator V E) (s : BranchState V E) : BranchEvent V E → Option (BranchState V E)
  | .read b error =>
    match s.sets b with
    | some _ => none
    | none => some (s.observe (.read b (s.rc.activation error)))
  | .setStepOutput b id output =>
    match s.sets b with
    | some _ => none
    | none => some { s with rc := s.rc.setStepOutput id (.value output) }
  | .start b set error order writes =>
    match s.sets b with
    | some _ => none
    | none =>
      if order.Perm set.names ∧ writes.Perm set.names then
        some (s.setRun b (some ⟨set, error, [], order, fun _ => none, [], writes⟩))
      else none
  | .evaluate b interrupted =>
    match s.sets b with
    | none => none
    | some run =>
      match run.toEvaluate with
      | [] => none
      | name :: rest =>
        match evalAny eval run.error interrupted (run.step.expr name) s.rc with
        | .error e =>
          some ((s.setRun b none).observe (.returned b run.step (.error ⟨run.step.id, name, e⟩)))
        | .ok value =>
          some (s.setRun b (some { run with
            evaluated := run.evaluated ++ [name]
            toEvaluate := rest
            results := Function.update run.results name (some value) }))
  | .setVar b =>
    match s.sets b with
    | none => none
    | some run =>
      match run.toEvaluate, run.toWrite with
      | [], name :: rest =>
        (run.results name).map fun value =>
          { s.setRun b (some { run with written := run.written ++ [name], toWrite := rest }) with
            rc := s.rc.setVar name value }
      | _, _ => none
  | .finish b =>
    match s.sets b with
    | none => none
    | some run =>
      match run.toEvaluate, run.toWrite with
      | [], [] =>
        some { (s.setRun b none).observe (.returned b run.step (.ok run.results)) with
          rc := s.rc.setStepOutput run.step.id (.assigned run.results) }
      | _, _ => none

end Pivox.Engine
