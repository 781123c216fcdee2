import Mathlib.Logic.Relation
import Pivox.Engine.SetActivity

/-!
Sets as their documentation has them: one snapshot for all assignments, and one write. A run of the
branches is such a run as long as no branch gets in between the parts of another's set.
-/

namespace Pivox.Engine
variable {V E : Type} {eval : Evaluator V E}

/-! Sets with one snapshot and one write -/

structure AtomicSet (V : Type) where
  step : SetStep
  error : Option V
  snapshot : Option (Activation V)
  written : Bool

structure AtomicState (V E : Type) where
  rc : RunContext V
  sets : ℕ → Option (AtomicSet V)
  log : List (Observed V E)

def atomicInitial (trigger params : String → Option V) : AtomicState V E :=
  ⟨newRunContext trigger params, fun _ => none, []⟩

/- The values of the assignments on a snapshot. -/
def valuesOn (eval : Evaluator V E) (set : SetStep) (snapshot : Activation V) : String → Option V :=
  fun name =>
    if name ∈ set.names then (evalOn eval snapshot none (set.expr name)).toOption else none

def Fails (eval : Evaluator V E) (set : SetStep) (snapshot : Activation V) (name : String) : Prop :=
  name ∈ set.names ∧ ∃ e, evalOn eval snapshot none (set.expr name) = .error e

def RunContext.setVars (rc : RunContext V) (values : String → Option V) : RunContext V :=
  { rc with vars := fun name => (values name).or (rc.vars name) }

inductive AtomicStep (eval : Evaluator V E) : AtomicState V E → AtomicState V E → Prop where
  | read {s} (b : ℕ) (error : Option V) : s.sets b = none →
      AtomicStep eval s { s with log := s.log ++ [Observed.read b (s.rc.activation error)] }
  | setStepOutput {s} (b : ℕ) (id : String) (output : V) : s.sets b = none →
      AtomicStep eval s { s with rc := s.rc.setStepOutput id (.value output) }
  | start {s} (b : ℕ) (set : SetStep) (error : Option V) : s.sets b = none →
      AtomicStep eval s
        { s with sets := Function.update s.sets b (some ⟨set, error, none, false⟩) }
  | snapshot {s} {b : ℕ} {set : SetStep} {error : Option V} :
      s.sets b = some ⟨set, error, none, false⟩ →
      AtomicStep eval s { s with
        sets := Function.update s.sets b (some ⟨set, error, s.rc.activation error, false⟩) }
  | fail {s} {b : ℕ} {set : SetStep} {error : Option V} {snapshot : Activation V} {name : String}
      {e : E} : s.sets b = some ⟨set, error, some snapshot, false⟩ →
      evalOn eval snapshot none (set.expr name) = .error e →
      (∀ other, Fails eval set snapshot other ↔ other = name) →
      AtomicStep eval s { s with
        sets := Function.update s.sets b none
        log := s.log ++ [.returned b set (.error ⟨set.id, name, e⟩)] }
  | interrupt {s} {b : ℕ} {set : SetStep} {error : Option V} {snapshot : Activation V}
      {name : String} {e e' : E} : s.sets b = some ⟨set, error, some snapshot, false⟩ →
      set.names = [name] → evalOn eval snapshot (some e) (set.expr name) = .error e' →
      AtomicStep eval s { s with
        sets := Function.update s.sets b none
        log := s.log ++ [.returned b set (.error ⟨set.id, name, e'⟩)] }
  | write {s} {b : ℕ} {set : SetStep} {error : Option V} {snapshot : Activation V} :
      s.sets b = some ⟨set, error, some snapshot, false⟩ →
      (∀ name, ¬ Fails eval set snapshot name) →
      AtomicStep eval s { s with
        rc := s.rc.setVars (valuesOn eval set snapshot)
        sets := Function.update s.sets b (some ⟨set, error, some snapshot, true⟩) }
  | finish {s} {b : ℕ} {set : SetStep} {error : Option V} {snapshot : Activation V} :
      s.sets b = some ⟨set, error, some snapshot, true⟩ →
      AtomicStep eval s { s with
        rc := s.rc.setStepOutput set.id (.assigned (valuesOn eval set snapshot))
        sets := Function.update s.sets b none
        log := s.log ++ [.returned b set (.ok (valuesOn eval set snapshot))] }

/- The runs of branches whose sets are atomic. -/
def AtomicRuns (eval : Evaluator V E) : AtomicState V E → AtomicState V E → Prop :=
  Relation.ReflTransGen (AtomicStep eval)

/-! The condition -/

/- No set has evaluated some but not all of its assignments. -/
def NoneEvaluating (s : BranchState V E) : Prop :=
  ∀ b run, s.sets b = some run → run.evaluated = [] ∨ run.toEvaluate = []

/- No set has written some but not all of its variables. -/
def NoneWriting (s : BranchState V E) : Prop :=
  ∀ b run, s.sets b = some run → run.written = [] ∨ run.toWrite = []

/- The variables that a set is about to write are not among those that others have begun on. -/
def WritesApart (s : BranchState V E) (b : ℕ) (run : SetRun V) : Prop :=
  ∀ b' run', b' ≠ b → s.sets b' = some run' → run'.written ≠ [] → ∀ name ∈ run.toWrite,
    name ∉ run'.toWrite

/- At its first evaluation, at most one of its assignments fails. -/
def AtMostOneFails (eval : Evaluator V E) (set : SetStep) (snapshot : Activation V) : Prop :=
  ∀ name name', Fails eval set snapshot name → Fails eval set snapshot name' → name = name'

def Undisturbed (eval : Evaluator V E) (s : BranchState V E) : BranchEvent V E → Prop
  | .read _ _ => NoneWriting s
  | .setStepOutput _ _ _ => NoneEvaluating s
  | .start _ _ _ _ _ => True
  | .evaluate b interrupted => NoneWriting s ∧ ∀ run, s.sets b = some run →
      (run.evaluated = [] → AtMostOneFails eval run.step (s.rc.activation run.error)) ∧
      (interrupted ≠ none → run.step.names.length = 1)
  | .setVar b => NoneEvaluating s ∧ ∀ run, s.sets b = some run → run.written = [] →
      WritesApart s b run
  | .finish _ => NoneEvaluating s

/-! A run of the branches as one of atomic sets -/

/- An atomic set takes its snapshot with the first evaluation, and writes with the first variable. -/
def SetRun.atomic (run : SetRun V) (snapshot : Option (Activation V)) : AtomicSet V :=
  ⟨run.step, run.error, snapshot, !run.written.isEmpty⟩

/-- Where a set stands with the snapshot of the first evaluation. -/
structure SetRel (eval : Evaluator V E) (rc : RunContext V) (run : SetRun V)
    (snapshot : Option (Activation V)) : Prop where
  order : (run.evaluated ++ run.toEvaluate).Perm run.step.names
  writes : (run.written ++ run.toWrite).Perm run.step.names
  begun : run.written ≠ [] → run.toEvaluate = []
  fresh : run.evaluated = [] → snapshot = none
  unevaluated : ∀ name, name ∉ run.evaluated → run.results name = none
  taken : run.evaluated ≠ [] → ∃ seen, snapshot = some seen ∧
    (∀ name ∈ run.evaluated, ∃ value, run.results name = some value ∧
      evalOn eval seen none (run.step.expr name) = .ok value) ∧
    AtMostOneFails eval run.step seen ∧ (run.toEvaluate ≠ [] → seen = rc.activation run.error)

/-- The variables that a set has begun on but not written yet are ahead in the atomic state. -/
structure Refines (eval : Evaluator V E) (s : BranchState V E) (t : AtomicState V E) : Prop where
  trigger : t.rc.trigger = s.rc.trigger
  params : t.rc.params = s.rc.params
  steps : t.rc.steps = s.rc.steps
  log : t.log = s.log
  idle : ∀ b, s.sets b = none → t.sets b = none
  sets : ∀ b run, s.sets b = some run → ∃ snapshot, t.sets b = some (run.atomic snapshot) ∧
    SetRel eval s.rc run snapshot
  ahead : ∀ b run name, s.sets b = some run → run.written ≠ [] → name ∈ run.toWrite →
    t.rc.vars name = run.results name
  settled : ∀ name, (∀ b run, s.sets b = some run → run.written ≠ [] → name ∉ run.toWrite) →
    t.rc.vars name = s.rc.vars name
  apart : ∀ b run, s.sets b = some run → run.written ≠ [] → WritesApart s b run

variable {s s' : BranchState V E} {t : AtomicState V E} {b : ℕ} {run : SetRun V}
  {rc rc' : RunContext V} {snapshot : Option (Activation V)}

theorem refines_initial (trigger params : String → Option V) :
    Refines eval (initial trigger params) (atomicInitial trigger params) where
  trigger := rfl
  params := rfl
  steps := rfl
  log := rfl
  idle _ _ := rfl
  sets _ _ h := nomatch h
  ahead _ _ _ h := nomatch h
  settled _ _ := rfl
  apart _ _ h := nomatch h

namespace SetRel

/- A set that is not evaluating does not care for the context. -/
theorem change (h : SetRel eval rc run snapshot) (hdone : run.evaluated = [] ∨ run.toEvaluate = []) :
    SetRel eval rc' run snapshot := by
  refine ⟨h.order, h.writes, h.begun, h.fresh, h.unevaluated, fun hne => ?_⟩
  obtain ⟨seen, hseen, hvalues, hfails, -⟩ := h.taken hne
  exact ⟨seen, hseen, hvalues, hfails, fun hleft => absurd (hdone.resolve_left hne) hleft⟩

/-- Once all is evaluated, the results are the values on the snapshot. -/
theorem results_eq (h : SetRel eval rc run snapshot) (hdone : run.toEvaluate = [])
    (hne : run.evaluated ≠ []) : ∃ seen, snapshot = some seen ∧
      run.results = valuesOn eval run.step seen ∧ ∀ name, ¬ Fails eval run.step seen name := by
  obtain ⟨seen, hseen, hvalues, -, -⟩ := h.taken hne
  have hmem : ∀ name, name ∈ run.evaluated ↔ name ∈ run.step.names := by
    intro name
    have horder := h.order
    rw [hdone, List.append_nil] at horder
    exact horder.mem_iff
  refine ⟨seen, hseen, funext fun name => ?_, ?_⟩
  · by_cases hname : name ∈ run.evaluated
    · obtain ⟨value, hresult, heval⟩ := hvalues name hname
      rw [hresult, valuesOn, if_pos ((hmem name).mp hname), heval]
      rfl
    · rw [h.unevaluated name hname, valuesOn, if_neg fun hin => hname ((hmem name).mpr hin)]
  · intro name hfails
    obtain ⟨hname, e, hfail⟩ := hfails
    obtain ⟨value, -, heval⟩ := hvalues name ((hmem name).mpr hname)
    rw [heval] at hfail
    cases hfail

theorem names_nil (h : SetRel eval rc run snapshot) (hdone : run.toEvaluate = [])
    (hnil : run.evaluated = []) : run.step.names = [] := by
  have horder := h.order
  rw [hdone, hnil] at horder
  exact horder.symm.eq_nil

end SetRel

namespace Refines

/- With no set in the middle of its writes the contexts are the same. -/
theorem rc_eq (h : Refines eval s t) (hwriting : NoneWriting s) : t.rc = s.rc := by
  have hvars : t.rc.vars = s.rc.vars := by
    funext name
    apply h.settled
    intro b run hrun hne hmem
    rw [(hwriting b run hrun).resolve_left hne] at hmem
    cases hmem
  obtain ⟨⟨_, _, _, _⟩, _, _⟩ := s
  obtain ⟨⟨_, _, _, _⟩, _, _⟩ := t
  obtain ⟨rfl, rfl, rfl, -⟩ := h
  cases hvars
  rfl

/- What a set has still to write of what it has begun on. -/
def Pending (run : SetRun V) (name : String) : Prop := run.written ≠ [] ∧ name ∈ run.toWrite

/-- Another state of one set, that has nothing pending before and after. -/
theorem replace {o : Option (SetRun V)} {a : Option (AtomicSet V)} (h : Refines eval s t)
    (hold : ∀ run, s.sets b = some run → ∀ name, ¬ Pending run name)
    (hnew : ∀ run, o = some run → ∀ name, ¬ Pending run name)
    (hnone : o = none → a = none)
    (hsome : ∀ run, o = some run → ∃ snapshot, a = some (run.atomic snapshot) ∧
      SetRel eval s.rc run snapshot) {log log' : List (Observed V E)} (hlog : log' = log) :
    Refines eval { s with sets := Function.update s.sets b o, log := log }
      { t with sets := Function.update t.sets b a, log := log' } := by
  have hcases : ∀ b' run', Function.update s.sets b o b' = some run' →
      b' = b ∧ o = some run' ∨ b' ≠ b ∧ s.sets b' = some run' := by
    intro b' run' hrun
    by_cases heq : b' = b
    · subst heq
      rw [Function.update_self] at hrun
      exact .inl ⟨rfl, hrun⟩
    · rw [Function.update_of_ne heq] at hrun
      exact .inr ⟨heq, hrun⟩
  refine ⟨h.trigger, h.params, h.steps, hlog, fun b' hb' => ?_, fun b' run' hrun => ?_,
    fun b' run' name hrun hne hmem => ?_, fun name hname => ?_, fun b' run' hrun hne => ?_⟩
  · by_cases heq : b' = b
    · subst heq
      simp only [Function.update_self] at hb' ⊢
      exact hnone hb'
    · simp only [Function.update_of_ne heq] at hb' ⊢
      exact h.idle b' hb'
  · obtain ⟨rfl, ho⟩ | ⟨heq, hrun⟩ := hcases b' run' hrun
    · simp only [Function.update_self]
      exact hsome run' ho
    · simp only [Function.update_of_ne heq]
      exact h.sets b' run' hrun
  · obtain ⟨rfl, ho⟩ | ⟨heq, hrun⟩ := hcases b' run' hrun
    · exact absurd ⟨hne, hmem⟩ (hnew run' ho name)
    · exact h.ahead b' run' name hrun hne hmem
  · apply h.settled
    intro b' run' hrun hne hmem
    by_cases heq : b' = b
    · subst heq
      exact hold run' hrun name ⟨hne, hmem⟩
    · exact hname b' run' (by simpa only [Function.update_of_ne heq] using hrun) hne hmem
  · intro b'' run'' hne' hrun' hwritten name hmem hmem'
    obtain ⟨rfl, ho⟩ | ⟨-, hrun⟩ := hcases b' run' hrun
    · exact hnew run' ho name ⟨hne, hmem⟩
    · obtain ⟨rfl, ho⟩ | ⟨-, hrun'⟩ := hcases b'' run'' hrun'
      · exact hnew run'' ho name ⟨hwritten, hmem'⟩
      · exact h.apart b' run' hrun hne b'' run'' hne' hrun' hwritten name hmem hmem'

/- A set that has not begun to write goes on without. -/
theorem setRun {run' : SetRun V} (h : Refines eval s t)
    (hold : ∀ run, s.sets b = some run → run.written = []) (hnew : run'.written = [])
    (hrel : SetRel eval s.rc run' snapshot) :
    Refines eval (s.setRun b (some run'))
      { t with sets := Function.update t.sets b (some (run'.atomic snapshot)) } := by
  have hnone : (some run' : Option (SetRun V)) = none →
      (some (run'.atomic snapshot) : Option (AtomicSet V)) = none := nofun
  apply h.replace (fun run hrun name hpending => hpending.1 (hold run hrun)) _ hnone _ h.log
  · rintro run ⟨⟩ name hpending
    exact hpending.1 hnew
  · rintro run ⟨⟩
    exact ⟨snapshot, rfl, hrel⟩

/- A set that has nothing left to write returns. -/
theorem returned (h : Refines eval s t)
    (hold : ∀ run, s.sets b = some run → ∀ name, ¬ Pending run name) (o : Observed V E) :
    Refines eval ((s.setRun b none).observe o)
      { t with sets := Function.update t.sets b none, log := t.log ++ [o] } := by
  have hnew : ∀ run, (none : Option (SetRun V)) = some run → ∀ name, ¬ Pending run name := nofun
  have hsome : ∀ run, (none : Option (SetRun V)) = some run → ∃ snapshot,
      (none : Option (AtomicSet V)) = some (run.atomic snapshot) ∧
        SetRel eval s.rc run snapshot := nofun
  exact h.replace hold hnew (fun _ => rfl) hsome (congrArg (· ++ [o]) h.log)

theorem setStepOutput (h : Refines eval s t) (hevaluating : NoneEvaluating s) (id : String)
    (output : Output V) : Refines eval { s with rc := s.rc.setStepOutput id output }
      { t with rc := t.rc.setStepOutput id output } := by
  refine ⟨h.trigger, h.params, ?_, h.log, h.idle, fun b run hrun => ?_, h.ahead, h.settled, h.apart⟩
  · simp only [RunContext.setStepOutput, h.steps]
  · obtain ⟨snapshot, hset, hrel⟩ := h.sets b run hrun
    exact ⟨snapshot, hset, hrel.change (hevaluating b run hrun)⟩

/-- The atomic set has its snapshot when an assignment has been evaluated. -/
theorem snapshot_taken (h : Refines eval s t) (hwriting : NoneWriting s)
    (hrun : s.sets b = some run) (hleft : run.toEvaluate ≠ [])
    (hfails : run.evaluated = [] → AtMostOneFails eval run.step (s.rc.activation run.error)) :
    AtMostOneFails eval run.step (s.rc.activation run.error) ∧
    (∀ name ∈ run.evaluated, ∃ value, run.results name = some value ∧
      evalOn eval (s.rc.activation run.error) none (run.step.expr name) = .ok value) ∧
    AtomicRuns eval t { t with
      sets := Function.update t.sets b (some (run.atomic (s.rc.activation run.error))) } := by
  obtain ⟨snapshot, hset, hrel⟩ := h.sets b run hrun
  have hwritten : run.written = [] := by
    by_contra hne
    exact hleft (hrel.begun hne)
  by_cases hnil : run.evaluated = []
  · rw [hrel.fresh hnil] at hset
    refine ⟨hfails hnil, fun name hname => ?_, ?_⟩
    · rw [hnil] at hname
      cases hname
    · rw [← h.rc_eq hwriting]
      rw [SetRun.atomic, hwritten] at hset ⊢
      exact .single (.snapshot hset)
  · obtain ⟨seen, rfl, hvalues, hone, hseen⟩ := hrel.taken hnil
    obtain rfl := hseen hleft
    refine ⟨hone, hvalues, ?_⟩
    rw [← hset, Function.update_eq_self]
    exact .refl

theorem evalOn_ok {seen : Activation V} {interrupted : Option E} {expr : String} {value : V}
    (h : evalOn eval seen interrupted expr = .ok value) :
    evalOn eval seen none expr = .ok value := by
  unfold evalOn at h ⊢
  split at h
  · cases h
  · cases h
  · rename_i heval
    rw [heval]
    exact h

theorem evaluate_ok (h : Refines eval s t) (hwriting : NoneWriting s) (hrun : s.sets b = some run)
    {name : String} {rest : List String} (hleft : run.toEvaluate = name :: rest)
    (hfails : run.evaluated = [] → AtMostOneFails eval run.step (s.rc.activation run.error))
    {interrupted : Option E} {value : V}
    (hvalue : evalAny eval run.error interrupted (run.step.expr name) s.rc = .ok value) :
    ∃ t', AtomicRuns eval t t' ∧ Refines eval (s.setRun b (some { run with
      evaluated := run.evaluated ++ [name]
      toEvaluate := rest
      results := Function.update run.results name (some value) })) t' := by
  obtain ⟨hone, hvalues, hruns⟩ := h.snapshot_taken hwriting hrun (by simp [hleft]) hfails
  obtain ⟨snapshot, hset, hrel⟩ := h.sets b run hrun
  have hwritten : run.written = [] := by
    by_contra hne
    simp [hrel.begun hne] at hleft
  refine ⟨_, hruns, h.setRun ?_ hwritten ?_⟩
  · intro run' hrun'
    rw [hrun] at hrun'
    cases hrun'
    exact hwritten
  · refine ⟨?_, hrel.writes, ?_, ?_, ?_, fun _ => ⟨_, rfl, ?_, hone, fun _ => rfl⟩⟩
    · have horder := hrel.order
      rw [hleft] at horder
      simpa using horder
    · exact fun hne => absurd hwritten hne
    · intro hnil
      simp at hnil
    · intro name' hname'
      simp only [List.mem_append, List.mem_singleton, not_or] at hname'
      exact (Function.update_of_ne hname'.2 ..).trans (hrel.unevaluated name' hname'.1)
    · intro name' hname'
      by_cases heq : name' = name
      · subst heq
        exact ⟨value, Function.update_self .., evalOn_ok hvalue⟩
      · simp only [List.mem_append, List.mem_singleton, heq, or_false] at hname'
        obtain ⟨value', hresult, heval⟩ := hvalues name' hname'
        exact ⟨value', (Function.update_of_ne heq ..).trans hresult, heval⟩

theorem evaluate_error (h : Refines eval s t) (hwriting : NoneWriting s)
    (hrun : s.sets b = some run) {name : String} {rest : List String}
    (hleft : run.toEvaluate = name :: rest)
    (hfails : run.evaluated = [] → AtMostOneFails eval run.step (s.rc.activation run.error))
    {interrupted : Option E} (halone : interrupted ≠ none → run.step.names.length = 1) {e : E}
    (herror : evalAny eval run.error interrupted (run.step.expr name) s.rc = .error e) :
    ∃ t', AtomicRuns eval t t' ∧ Refines eval ((s.setRun b none).observe
      (.returned b run.step (.error ⟨run.step.id, name, e⟩))) t' := by
  obtain ⟨hone, -, hruns⟩ := h.snapshot_taken hwriting hrun (by simp [hleft]) hfails
  obtain ⟨snapshot, hset, hrel⟩ := h.sets b run hrun
  have hwritten : run.written = [] := by
    by_contra hne
    simp [hrel.begun hne] at hleft
  have hname : name ∈ run.step.names := hrel.order.mem_iff.mp (by simp [hleft])
  have hends : ∀ t₁, t₁.sets b = some ⟨run.step, run.error, some (s.rc.activation run.error), false⟩ →
      AtomicStep eval t₁ { t₁ with
        sets := Function.update t₁.sets b none
        log := t₁.log ++ [.returned b run.step (.error ⟨run.step.id, name, e⟩)] } := by
    intro t₁ ht₁
    cases interrupted with
    | none =>
      have hfail : Fails eval run.step (s.rc.activation run.error) name := ⟨hname, e, herror⟩
      exact .fail ht₁ herror fun other =>
        ⟨fun hother => hone _ _ hother hfail, fun heq => heq ▸ hfail⟩
    | some e' =>
      obtain ⟨only, honly⟩ := List.length_eq_one_iff.mp (halone (by simp))
      rw [honly, List.mem_singleton] at hname
      subst hname
      exact .interrupt ht₁ honly herror
  refine ⟨_, hruns.tail (hends _ ?_), ?_⟩
  · rw [SetRun.atomic, hwritten]
    exact Function.update_self ..
  · simp only [Function.update_idem]
    apply h.returned
    intro run' hrun' name' hpending
    rw [hrun] at hrun'
    cases hrun'
    exact hpending.1 hwritten

/- The set with one more of its variables written. -/
def wroteOne (run : SetRun V) (name : String) (rest : List String) : SetRun V :=
  { run with written := run.written ++ [name], toWrite := rest }

/-- One variable is written of those that are ahead. -/
theorem wrote (h : Refines eval s t) (hevaluating : NoneEvaluating s) (hrun : s.sets b = some run)
    (hdone : run.toEvaluate = []) {name : String} {rest : List String}
    (hwrite : run.toWrite = name :: rest) {value : V} (hvalue : run.results name = some value)
    (hapart : WritesApart s b run) (hrel : SetRel eval s.rc run snapshot)
    (vars : String → Option V)
    (hvars : ∀ n, vars n = if n ∈ run.toWrite then run.results n else t.rc.vars n) :
    Refines eval
      { s.setRun b (some (wroteOne run name rest)) with rc := s.rc.setVar name value }
      { t with
        rc := { t.rc with vars := vars }
        sets := Function.update t.sets b (some ((wroteOne run name rest).atomic snapshot)) } := by
  have hcases : ∀ b' run', Function.update s.sets b (some (wroteOne run name rest)) b' = some run' →
      b' = b ∧ run' = wroteOne run name rest ∨ b' ≠ b ∧ s.sets b' = some run' := by
    intro b' run' hrun'
    by_cases heq : b' = b
    · subst heq
      rw [Function.update_self] at hrun'
      exact .inl ⟨rfl, (Option.some.inj hrun').symm⟩
    · rw [Function.update_of_ne heq] at hrun'
      exact .inr ⟨heq, hrun'⟩
  have hrest : ∀ n ∈ rest, n ∈ run.toWrite := by
    intro n hn
    rw [hwrite]
    exact List.mem_cons_of_mem _ hn
  refine ⟨h.trigger, h.params, h.steps, h.log, fun b' hb' => ?_, fun b' run' hrun' => ?_,
    fun b' run' n hrun' hne hmem => ?_, fun n hn => ?_, fun b' run' hrun' hne => ?_⟩
  · by_cases heq : b' = b
    · subst heq
      simp [BranchState.setRun] at hb'
    · simp only [BranchState.setRun, Function.update_of_ne heq] at hb' ⊢
      exact h.idle b' hb'
  · obtain ⟨rfl, rfl⟩ | ⟨heq, hrun'⟩ := hcases b' run' hrun'
    · refine ⟨snapshot, Function.update_self .., hrel.order, ?_, fun _ => hdone, hrel.fresh,
        hrel.unevaluated, (hrel.change (.inr hdone)).taken⟩
      have hwrites := hrel.writes
      rw [hwrite] at hwrites
      simpa [wroteOne] using hwrites
    · obtain ⟨snapshot', hset', hrel'⟩ := h.sets b' run' hrun'
      refine ⟨snapshot', ?_, hrel'.change (hevaluating b' run' hrun')⟩
      simpa only [Function.update_of_ne heq] using hset'
  · change vars n = _
    rw [hvars]
    obtain ⟨rfl, rfl⟩ | ⟨heq, hrun'⟩ := hcases b' run' hrun'
    · rw [if_pos (hrest n hmem)]
      rfl
    · rw [if_neg fun hn => hapart b' run' heq hrun' hne n hn hmem]
      exact h.ahead b' run' n hrun' hne hmem
  · change vars n = Function.update s.rc.vars name (some value) n
    have hothers : ∀ b' run', b' ≠ b → s.sets b' = some run' → run'.written ≠ [] →
        n ∉ run'.toWrite := by
      intro b' run' heq hrun'
      apply hn b' run'
      simpa only [BranchState.setRun, Function.update_of_ne heq] using hrun'
    have hown : n ∉ rest := hn b _ (Function.update_self ..) (by simp [wroteOne])
    rw [hvars, hwrite]
    by_cases heq : n = name
    · subst heq
      rw [if_pos List.mem_cons_self, hvalue, Function.update_self]
    · have hnot : n ∉ name :: rest := by simp [heq, hown]
      rw [if_neg hnot, Function.update_of_ne heq]
      apply h.settled
      intro b' run' hrun' hne
      by_cases hb' : b' = b
      · subst hb'
        rw [hrun] at hrun'
        cases hrun'
        rwa [hwrite]
      · exact hothers b' run' hb' hrun' hne
  · intro b'' run'' hne' hrun'' hne'' n hmem hmem'
    obtain ⟨rfl, rfl⟩ | ⟨heq, hset⟩ := hcases b' run' hrun'
    · obtain ⟨rfl, -⟩ | ⟨-, hset'⟩ := hcases b'' run'' hrun''
      · exact hne' rfl
      · exact hapart b'' run'' hne' hset' hne'' n (hrest n hmem) hmem'
    · obtain ⟨rfl, rfl⟩ | ⟨-, hset'⟩ := hcases b'' run'' hrun''
      · exact hapart b' run' heq hset hne n (hrest n hmem') hmem
      · exact h.apart b' run' hset hne b'' run'' hne' hset' hne'' n hmem hmem'

theorem setVar (h : Refines eval s t) (hevaluating : NoneEvaluating s) (hrun : s.sets b = some run)
    (hdone : run.toEvaluate = []) {name : String} {rest : List String}
    (hwrite : run.toWrite = name :: rest) {value : V} (hvalue : run.results name = some value)
    (hfirst : run.written = [] → WritesApart s b run) :
    ∃ t', AtomicRuns eval t t' ∧ Refines eval
      { s.setRun b (some (wroteOne run name rest)) with rc := s.rc.setVar name value } t' := by
  obtain ⟨snapshot, hset, hrel⟩ := h.sets b run hrun
  have hbegun : (wroteOne run name rest).written.isEmpty = false := by simp [wroteOne]
  by_cases hnil : run.written = []
  · -- The first variable: all are written at once.
    have hevaluated : run.evaluated ≠ [] := by
      intro hnil'
      have hwrites := hrel.writes
      rw [hrel.names_nil hdone hnil', hnil, hwrite] at hwrites
      exact absurd hwrites.eq_nil (by simp)
    obtain ⟨seen, rfl, hresults, hok⟩ := hrel.results_eq hdone hevaluated
    rw [SetRun.atomic, hnil] at hset
    refine ⟨_, .single (.write hset hok), ?_⟩
    rw [← hresults]
    have hwrote := h.wrote hevaluating hrun hdone hwrite hvalue (hfirst hnil) hrel
      (fun n => (run.results n).or (t.rc.vars n)) ?_
    · rwa [SetRun.atomic, hbegun] at hwrote
    · intro n
      have hmem : n ∈ run.toWrite ↔ n ∈ run.step.names := by
        have hwrites := hrel.writes
        rw [hnil, List.nil_append] at hwrites
        exact hwrites.mem_iff
      by_cases hn : n ∈ run.toWrite
      · have hne : ¬ Fails eval run.step seen n := hok n
        have heval : ∃ v, run.results n = some v := by
          rw [hresults, valuesOn, if_pos (hmem.mp hn)]
          cases hv : evalOn eval seen none (run.step.expr n) with
          | ok v => exact ⟨v, rfl⟩
          | error e => exact absurd ⟨hmem.mp hn, e, hv⟩ hne
        obtain ⟨v, hv⟩ := heval
        rw [if_pos hn, hv]
        rfl
      · have hnone : run.results n = none := by
          rw [hresults, valuesOn, if_neg fun hin => hn (hmem.mpr hin)]
        rw [if_neg hn, hnone]
        rfl
  · -- It has been written when the first was.
    refine ⟨t, .refl, ?_⟩
    have hwrote := h.wrote hevaluating hrun hdone hwrite hvalue (h.apart b run hrun hnil) hrel
      t.rc.vars ?_
    · have hsame : (wroteOne run name rest).atomic snapshot = run.atomic snapshot := by
        rw [SetRun.atomic, SetRun.atomic, hbegun, List.isEmpty_eq_false_iff.mpr hnil]
        rfl
      rwa [hsame, ← hset, Function.update_eq_self] at hwrote
    · intro n
      split
      · rename_i hn
        exact h.ahead b run n hrun hnil hn
      · rfl

/-- A set that has gone through its loops has its snapshot and its write. -/
theorem ready (h : Refines eval s t) (hrun : s.sets b = some run) (hdone : run.toEvaluate = [])
    (hwrote : run.toWrite = []) : ∃ seen, run.results = valuesOn eval run.step seen ∧
      AtomicRuns eval t { t with
        sets := Function.update t.sets b (some ⟨run.step, run.error, some seen, true⟩) } := by
  obtain ⟨snapshot, hset, hrel⟩ := h.sets b run hrun
  have hwrites := hrel.writes
  rw [hwrote, List.append_nil] at hwrites
  by_cases hnil : run.evaluated = []
  · -- Without assignments it has not begun on any of it.
    have hnames := hrel.names_nil hdone hnil
    rw [hnames] at hwrites
    rw [hrel.fresh hnil, SetRun.atomic, hwrites.eq_nil] at hset
    have hvalues : ∀ seen : Activation V, valuesOn eval run.step seen = fun _ => none := by
      intro seen
      funext name
      rw [valuesOn, hnames, if_neg List.not_mem_nil]
    have hresults : run.results = fun _ => none :=
      funext fun name => hrel.unevaluated name (by rw [hnil]; exact List.not_mem_nil)
    have hok : ∀ seen name, ¬ Fails eval run.step seen name := by
      intro seen name hfails
      have hname := hfails.1
      rw [hnames] at hname
      cases hname
    refine ⟨t.rc.activation run.error, hresults.trans (hvalues _).symm, ?_⟩
    have hsnapshot : AtomicRuns eval t _ := .single (.snapshot hset)
    have hwrite := hsnapshot.tail (.write (Function.update_self ..) (hok _))
    simp only [Function.update_idem, hvalues, RunContext.setVars, Option.none_or] at hwrite
    exact hwrite
  · obtain ⟨seen, rfl, hresults, -⟩ := hrel.results_eq hdone hnil
    have hwritten : run.written ≠ [] := by
      intro hwritten
      rw [hwritten] at hwrites
      have horder := hrel.order
      rw [hdone, List.append_nil, hwrites.symm.eq_nil] at horder
      exact hnil horder.eq_nil
    refine ⟨seen, hresults, ?_⟩
    rw [SetRun.atomic, List.isEmpty_eq_false_iff.mpr hwritten] at hset
    rw [show (some ⟨run.step, run.error, some seen, true⟩ : Option (AtomicSet V)) = t.sets b from
      hset.symm, Function.update_eq_self]
    exact .refl

theorem finish (h : Refines eval s t) (hevaluating : NoneEvaluating s) (hrun : s.sets b = some run)
    (hdone : run.toEvaluate = []) (hwrote : run.toWrite = []) :
    ∃ t', AtomicRuns eval t t' ∧ Refines eval
      { (s.setRun b none).observe (.returned b run.step (.ok run.results)) with
        rc := s.rc.setStepOutput run.step.id (.assigned run.results) } t' := by
  obtain ⟨seen, hresults, hruns⟩ := h.ready hrun hdone hwrote
  refine ⟨_, hruns.tail (.finish (Function.update_self ..)), ?_⟩
  simp only [Function.update_idem]
  rw [← hresults]
  apply (h.setStepOutput hevaluating run.step.id (.assigned run.results)).returned
  intro run' hrun' name hpending
  rw [show s.sets b = some run' from hrun'] at hrun
  cases hrun
  have hmem := hpending.2
  rw [hwrote] at hmem
  cases hmem

/-- A step that does not get in between is one of the atomic sets, or none. -/
theorem step {e : BranchEvent V E} (h : Refines eval s t) (hundisturbed : Undisturbed eval s e)
    (hstep : branchStep eval s e = some s') : ∃ t', AtomicRuns eval t t' ∧ Refines eval s' t' := by
  cases e with
  | read b error =>
    simp only [branchStep] at hstep
    split at hstep
    · cases hstep
    · rename_i hidle
      cases hstep
      have hlog : t.log ++ [Observed.read b (t.rc.activation error)] =
          s.log ++ [Observed.read b (s.rc.activation error)] := by
        rw [h.log, h.rc_eq hundisturbed]
      exact ⟨_, .single (.read b error (h.idle b hidle)), h.trigger, h.params, h.steps, hlog,
        h.idle, h.sets, h.ahead, h.settled, h.apart⟩
  | setStepOutput b id output =>
    simp only [branchStep] at hstep
    split at hstep
    · cases hstep
    · rename_i hidle
      cases hstep
      exact ⟨_, .single (.setStepOutput b id output (h.idle b hidle)),
        h.setStepOutput hundisturbed id (.value output)⟩
  | start b set error order writes =>
    simp only [branchStep] at hstep
    split at hstep
    · cases hstep
    · rename_i hidle
      split at hstep
      · rename_i horders
        cases hstep
        refine ⟨_, .single (.start b set error (h.idle b hidle)), h.setRun ?_ rfl ?_⟩
        · intro run hrun
          rw [hidle] at hrun
          cases hrun
        · exact ⟨horders.1, horders.2, fun hne => absurd rfl hne, fun _ => rfl,
            fun _ _ => rfl, fun hne => absurd rfl hne⟩
      · cases hstep
  | evaluate b interrupted =>
    obtain ⟨hwriting, hcond⟩ := hundisturbed
    simp only [branchStep] at hstep
    split at hstep
    · cases hstep
    · rename_i run hrun
      obtain ⟨hfails, halone⟩ := hcond run hrun
      split at hstep
      · cases hstep
      · rename_i name rest hleft
        split at hstep
        · rename_i e herror
          cases hstep
          exact h.evaluate_error hwriting hrun hleft hfails halone herror
        · rename_i value hvalue
          cases hstep
          exact h.evaluate_ok hwriting hrun hleft hfails hvalue
  | setVar b =>
    obtain ⟨hevaluating, hcond⟩ := hundisturbed
    simp only [branchStep] at hstep
    split at hstep
    · cases hstep
    · rename_i run hrun
      split at hstep
      · rename_i name rest hdone hwrite
        obtain ⟨value, hvalue, rfl⟩ := Option.map_eq_some_iff.mp hstep
        exact h.setVar hevaluating hrun hdone hwrite hvalue (hcond run hrun)
      · cases hstep
  | finish b =>
    simp only [branchStep] at hstep
    split at hstep
    · cases hstep
    · rename_i run hrun
      split at hstep
      · rename_i hdone hwrote
        cases hstep
        exact h.finish hundisturbed hrun hdone hwrote
      · cases hstep

end Refines

open Transition

/-- What the branches read and what their sets return is that of atomic sets, and so is the context
whenever no set is in the middle of its writes. -/
theorem set_atomic {trigger params : String → Option V}
    (h : Runs (branchStep eval) (Undisturbed eval) (initial trigger params) s) :
    ∃ t, AtomicRuns eval (atomicInitial trigger params) t ∧ t.log = s.log ∧
      (NoneWriting s → t.rc = s.rc) := by
  have hrefines : ∃ t, AtomicRuns eval (atomicInitial trigger params) t ∧ Refines eval s t := by
    refine h.invariant (I := fun s => ∃ t, AtomicRuns eval (atomicInitial trigger params) t ∧
      Refines eval s t) ⟨_, .refl, refines_initial trigger params⟩ ?_
    intro s e s' hinv hundisturbed hstep
    obtain ⟨t, hruns, hrefines⟩ := hinv
    obtain ⟨t', hruns', hrefines'⟩ := hrefines.step hundisturbed hstep
    exact ⟨t', hruns.trans hruns', hrefines'⟩
  obtain ⟨t, hruns, hrefines⟩ := hrefines
  exact ⟨t, hruns, hrefines.log, hrefines.rc_eq⟩

/- Each text is its length, but for the one that reads the variable x. -/
def lengths : Evaluator ℕ Unit := fun _ expr =>
  .ok fun seen => if expr = "vars.x" then (seen.vars "x").elim (.error ()) .ok else .ok expr.length

def setX (expr : String) : SetStep := ⟨"set-x", ["x"], by decide, fun _ => expr⟩

/- The first branch alone, with a set of one variable at most half done. -/
def AloneWithX (s : BranchState V E) : Prop :=
  ∀ b run, s.sets b = some run → b = 0 ∧ run.step.names = ["x"] ∧
    (run.evaluated = [] ∨ run.toEvaluate = []) ∧ (run.written = [] ∨ run.toWrite = [])

theorem AloneWithX.undisturbed (h : AloneWithX s) (e : BranchEvent V E) : Undisturbed eval s e := by
  have hevaluating : NoneEvaluating s := fun b run hrun => (h b run hrun).2.2.1
  have hwriting : NoneWriting s := fun b run hrun => (h b run hrun).2.2.2
  cases e with
  | read b error => exact hwriting
  | setStepOutput b id output => exact hevaluating
  | start b set error order writes => trivial
  | evaluate b interrupted =>
    refine ⟨hwriting, fun run hrun => ⟨fun _ name name' hname hname' => ?_, fun _ => ?_⟩⟩
    · have hx : ∀ n ∈ run.step.names, n = "x" := by
        rw [(h b run hrun).2.1]
        simp
      rw [hx name hname.1, hx name' hname'.1]
    · rw [(h b run hrun).2.1]
      rfl
  | setVar b =>
    refine ⟨hevaluating, fun run hrun _ b' run' hne hrun' => ?_⟩
    rw [(h b run hrun).1, (h b' run' hrun').1] at hne
    exact absurd rfl hne
  | finish b => exact hevaluating

theorem aloneWithX_setRun {run : SetRun V} (h : AloneWithX s) (hnames : run.step.names = ["x"])
    (hevaluating : run.evaluated = [] ∨ run.toEvaluate = [])
    (hwriting : run.written = [] ∨ run.toWrite = []) : AloneWithX (s.setRun 0 (some run)) := by
  intro b run' hrun
  by_cases heq : b = 0
  · subst heq
    obtain rfl : run = run' := by simpa [BranchState.setRun] using hrun
    exact ⟨rfl, hnames, hevaluating, hwriting⟩
  · exact h b run' (by simpa [BranchState.setRun, heq] using hrun)

def idleX : BranchState ℕ Unit := initial (fun _ => none) fun _ => none

def startedX : BranchState ℕ Unit :=
  idleX.setRun 0 (some ⟨setX "1", none, [], ["x"], fun _ => none, [], ["x"]⟩)

def outputX : BranchState ℕ Unit :=
  { startedX with rc := startedX.rc.setStepOutput "fetch" (.value 7) }

def evaluatedX : BranchState ℕ Unit :=
  outputX.setRun 0 (some ⟨setX "1", none, ["x"], [],
    Function.update (fun _ => none) "x" (some 1), [], ["x"]⟩)

def writtenX : BranchState ℕ Unit :=
  { evaluatedX.setRun 0 (some ⟨setX "1", none, ["x"], [],
      Function.update (fun _ => none) "x" (some 1), ["x"], []⟩) with
    rc := evaluatedX.rc.setVar "x" 1 }

def readX : BranchState ℕ Unit := writtenX.observe (.read 1 (writtenX.rc.activation none))

/- The second branch stores an output once the set has started, and reads what the set has written. -/
theorem set_atomic_read : ∃ t : AtomicState ℕ Unit,
    AtomicRuns lengths (atomicInitial (fun _ => none) fun _ => none) t ∧
      t.log = [.read 1 (writtenX.rc.activation none),
        .returned 0 (setX "1") (.ok (Function.update (fun _ => none) "x" (some 1)))] ∧
      t.rc.vars "x" = some 1 := by
  have hidle : AloneWithX idleX := nofun
  have hstarted : AloneWithX startedX := aloneWithX_setRun hidle rfl (.inl rfl) (.inl rfl)
  have houtput : AloneWithX outputX := hstarted
  have hevaluated : AloneWithX evaluatedX := aloneWithX_setRun houtput rfl (.inr rfl) (.inl rfl)
  have hwritten : AloneWithX writtenX := aloneWithX_setRun hevaluated rfl (.inr rfl) (.inr rfl)
  have hread : AloneWithX readX := hwritten
  have hstart : Runs (branchStep lengths) (Undisturbed lengths) idleX startedX :=
    (Runs.refl idleX).tail (hidle.undisturbed (.start 0 (setX "1") none ["x"] ["x"])) rfl
  have hstore : Runs (branchStep lengths) (Undisturbed lengths) idleX outputX :=
    hstart.tail (hstarted.undisturbed (.setStepOutput 1 "fetch" 7)) rfl
  have hevaluate : Runs (branchStep lengths) (Undisturbed lengths) idleX evaluatedX :=
    hstore.tail (houtput.undisturbed (.evaluate 0 none)) rfl
  have hwrite : Runs (branchStep lengths) (Undisturbed lengths) idleX writtenX :=
    hevaluate.tail (hevaluated.undisturbed (.setVar 0)) rfl
  obtain ⟨t, hruns, hlog, hrc⟩ := set_atomic
    ((hwrite.tail (hwritten.undisturbed (.read 1 none)) rfl).tail
      (hread.undisturbed (.finish 0)) rfl)
  refine ⟨t, hruns, hlog, ?_⟩
  have hnone : NoneWriting (readX.setRun 0 none) := by
    intro b run hrun
    by_cases heq : b = 0
    · subst heq
      simp [BranchState.setRun] at hrun
    · have hnot : readX.sets b = none := by
        simp [readX, BranchState.observe, writtenX, evaluatedX, outputX, startedX, idleX, initial,
          BranchState.setRun, heq]
      simp [BranchState.setRun, heq, hnot] at hrun
  rw [hrc hnone]
  rfl

/-! A set whose two assignments see different values -/

/- In a run of atomic sets, what a set returns are the values on one snapshot. -/
def ReturnsValues (eval : Evaluator V E) (log : List (Observed V E)) : Prop :=
  ∀ b set results, .returned b set (.ok results) ∈ log → ∃ seen, results = valuesOn eval set seen

theorem AtomicStep.returnsValues {t t' : AtomicState V E} (h : AtomicStep eval t t')
    (hlog : ReturnsValues eval t.log) : ReturnsValues eval t'.log := by
  intro b set results hmem
  cases h with
  | setStepOutput | start | snapshot | write => exact hlog b set results hmem
  | read | fail | interrupt =>
    rcases List.mem_append.mp hmem with hmem | hmem
    · exact hlog b set results hmem
    · simp at hmem
  | @finish _ set' error seen hset =>
    rcases List.mem_append.mp hmem with hmem | hmem
    · exact hlog b set results hmem
    · simp only [List.mem_singleton, Observed.returned.injEq, Except.ok.injEq] at hmem
      obtain ⟨rfl, rfl, rfl⟩ := hmem
      exact ⟨seen, rfl⟩

theorem AtomicRuns.returnsValues {t t' : AtomicState V E} (h : AtomicRuns eval t t')
    (hlog : ReturnsValues eval t.log) : ReturnsValues eval t'.log := by
  induction h with
  | refl => exact hlog
  | tail _ hstep ih => exact hstep.returnsValues ih

def copyX : SetStep := ⟨"copy-x", ["a", "b"], by decide, fun _ => "vars.x"⟩

/- The second branch copies x twice, and between the copies the first branch sets it anew. -/
def setInBetween : List (BranchEvent ℕ Unit) :=
  [.start 0 (setX "1") none ["x"] ["x"], .evaluate 0 none, .setVar 0, .finish 0,
    .start 1 copyX none ["a", "b"] ["a", "b"], .evaluate 1 none,
    .start 0 (setX "22") none ["x"] ["x"], .evaluate 0 none, .setVar 0,
    .evaluate 1 none, .setVar 1, .setVar 1, .finish 1]

theorem set_not_atomic : ¬ ∀ (eval : Evaluator ℕ Unit) (trigger params : String → Option ℕ)
    (s : BranchState ℕ Unit),
    Runs (branchStep eval) (fun _ _ => True) (initial trigger params) s →
      ∃ t, AtomicRuns eval (atomicInitial trigger params) t ∧ t.log = s.log ∧
        (NoneWriting s → t.rc = s.rc) := by
  intro h
  have hexec : ∃ rc sets assigned, exec (branchStep lengths) idleX setInBetween = some ⟨rc, sets,
      [.returned 0 (setX "1") (.ok assigned), .returned 1 copyX (.ok
        (Function.update (Function.update (fun _ => none) "a" (some 1)) "b" (some 2)))]⟩ :=
    ⟨_, _, _, rfl⟩
  obtain ⟨rc, sets, assigned, hexec⟩ := hexec
  have hmeets : meetsAll (branchStep lengths) (fun _ _ => True) idleX setInBetween = true := rfl
  obtain ⟨t, hruns, hlog, -⟩ := h lengths _ _ _ (Runs.of_exec setInBetween hexec hmeets)
  have hvalues := hruns.returnsValues (by nofun)
  rw [hlog] at hvalues
  obtain ⟨seen, heq⟩ := hvalues 1 copyX _ (List.mem_cons_of_mem _ List.mem_cons_self)
  have hsame : valuesOn lengths copyX seen "a" = valuesOn lengths copyX seen "b" := rfl
  rw [← heq] at hsame
  simp [Function.update] at hsame

end Pivox.Engine
