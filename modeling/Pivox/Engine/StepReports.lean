import Mathlib.Data.List.Nodup
import Pivox.Engine.FailedSteps

/-!
What is reported of the steps of a run: of a step that is executed, a start, then its one result, in
whatever order the branches of parallel steps go on; and of the others nothing.
-/

namespace Pivox.Engine.Interpreter
open SeriesParallel

variable {V I R : Type}

/-- The step that an event is about. -/
def Event.step : Event I R → Option String
  | .stepStarted id => some id
  | .executed id _ => some id
  | .stepFinished id => some id
  | .stepFailed id => some id
  | .recordState id _ => some id
  | .setStepOutput id => some id
  | .handled _ _ _ => none
  | .called _ => none

def eventsOf (id : String) (events : List (Event I R)) : List (Event I R) :=
  events.filter fun event => event.step = some id

/-- The events of a step that is executed at most once. -/
inductive StepReport (id : String) : List (Event I R) → Prop
  | idle : StepReport id []
  | returned : StepReport id [.stepStarted id, .executed id .returned, .setStepOutput id,
      .recordState id .succeeded, .stepFinished id]
  | ended : StepReport id [.stepStarted id, .executed id .ended, .recordState id .succeeded,
      .stepFinished id]
  | failed : StepReport id [.stepStarted id, .executed id .failed, .recordState id .failed,
      .stepFailed id]

/-- What any order of the events tells of each step. -/
def Reports (ids : List String) (trace : Trace (Event I R)) : Prop :=
  ∀ events, trace.Linear events → ∀ id,
    StepReport id (eventsOf id events) ∧ (id ∉ ids → eventsOf id events = [])

theorem eventsOf_append (id : String) (events events' : List (Event I R)) :
    eventsOf id (events ++ events') = eventsOf id events ++ eventsOf id events' := by
  simp [eventsOf]

theorem Reports.mono {ids ids' : List String} {trace : Trace (Event I R)} (h : Reports ids trace)
    (hsub : ids ⊆ ids') : Reports ids' trace := fun events hlinear id =>
  ⟨(h events hlinear id).1, fun hid => (h events hlinear id).2 fun hmem => hid (hsub hmem)⟩

theorem reports_silent {ids : List String} {trace : Trace (Event I R)}
    (h : ∀ events, trace.Linear events → ∀ id, eventsOf id events = []) : Reports ids trace := by
  intro events hlinear id
  rw [h events hlinear id]
  exact ⟨.idle, fun _ => rfl⟩

theorem reports_nil (ids : List String) : Reports ids (.nil : Trace (Event I R)) := by
  apply reports_silent
  intro events hlinear id
  rw [Trace.linear_nil.mp hlinear]
  rfl

theorem reports_event (ids : List String) {event : Event I R} (h : event.step = none) :
    Reports ids (.event event) := by
  apply reports_silent
  intro events hlinear id
  rw [Trace.linear_event.mp hlinear]
  simp [eventsOf, h]

/-- A step is of one of two parts at most, so the other tells nothing of it. -/
theorem Reports.seq {ids ids' : List String} {t u : Trace (Event I R)} (ht : Reports ids t)
    (hu : Reports ids' u) (hdisjoint : ids.Disjoint ids') : Reports (ids ++ ids') (.seq t u) := by
  intro events hlinear id
  obtain ⟨first, second, hfirst, hsecond, rfl⟩ := Trace.linear_seq.mp hlinear
  have hleft := ht first hfirst id
  have hright := hu second hsecond id
  rw [eventsOf_append, List.mem_append, not_or]
  by_cases hid : id ∈ ids
  · have hother : eventsOf id second = [] := hright.2 (hdisjoint hid)
    rw [hother, List.append_nil]
    exact ⟨hleft.1, fun hnot => absurd hid hnot.1⟩
  · rw [hleft.2 hid, List.nil_append]
    exact ⟨hright.1, fun hnot => hright.2 hnot.2⟩

theorem reports_parNil : Reports [] (.par ([] : List (Trace (Event I R)))) := by
  apply reports_silent
  intro events hlinear id
  rw [Trace.linear_parNil.mp hlinear]
  rfl

theorem Reports.parCons {ids ids' : List String} {t : Trace (Event I R)}
    {ts : List (Trace (Event I R))} (ht : Reports ids t) (hts : Reports ids' (.par ts))
    (hdisjoint : ids.Disjoint ids') : Reports (ids ++ ids') (.par (t :: ts)) := by
  intro events hlinear id
  obtain ⟨first, rest, hfirst, hrest, hshuffle⟩ := Trace.linear_parCons.mp hlinear
  have hleft := ht first hfirst id
  have hright := hts rest hrest id
  have hof : Shuffle (eventsOf id first) (eventsOf id rest) (eventsOf id events) := hshuffle.filter _
  rw [List.mem_append, not_or]
  by_cases hid : id ∈ ids
  · rw [hright.2 (hdisjoint hid)] at hof
    rw [hof.eq_left]
    exact ⟨hleft.1, fun hnot => absurd hid hnot.1⟩
  · rw [hleft.2 hid] at hof
    rw [hof.eq_right]
    exact ⟨hright.1, fun hnot => hright.2 hnot.2⟩

/-- A first event of a step and its last ones, around what tells nothing. -/
theorem reports_step {id : String} {first : Event I R} {last : List (Event I R)}
    {trace : Trace (Event I R)} (hreport : StepReport id (first :: last))
    (hown : ∀ event ∈ first :: last, event.step = some id)
    (hsilent : ∀ events, trace.Linear events → ∀ id, eventsOf id events = []) :
    Reports [id] (.all (.event first :: trace :: last.map .event)) := by
  intro events hlinear other
  obtain ⟨inside, hinside, rfl⟩ := (Trace.linear_between first trace last).mp hlinear
  have hseen : eventsOf other (first :: (inside ++ last)) = eventsOf other (first :: last) := by
    calc
      eventsOf other (first :: (inside ++ last)) =
          eventsOf other [first] ++ (eventsOf other inside ++ eventsOf other last) := by
        rw [← eventsOf_append, ← eventsOf_append]
        rfl
      _ = eventsOf other (first :: last) := by
        rw [hsilent inside hinside other, List.nil_append, ← eventsOf_append]
        rfl
  rw [hseen, List.mem_singleton]
  by_cases hid : other = id
  · subst hid
    have hall : eventsOf other (first :: last) = first :: last :=
      List.filter_eq_self.mpr fun event hmem => decide_eq_true (hown event hmem)
    rw [hall]
    exact ⟨hreport, fun hnot => absurd rfl hnot⟩
  · have hnone : eventsOf other (first :: last) = [] := List.filter_eq_nil_iff.mpr fun event hmem => by
      simp [hown event hmem, Ne.symm hid]
    rw [hnone]
    exact ⟨.idle, fun _ => rfl⟩

/-! Steps -/

/-- Activities report nothing of steps: those of another run are not seen in this one. -/
def Silent (trace : Trace (Event I R)) : Prop :=
  ∀ events, trace.Linear events → ∀ id, eventsOf id events = []

theorem runActivity_reports {execute : Execute I} {place : Place} {ctx : Ctx} {id : String}
    {activity : Option Activity} (hsilent : Silent (execute place ctx id activity).trace) :
    Reports [id] (runActivity execute place ctx id activity).trace := by
  rw [runActivity]
  cases (execute place ctx id activity).error with
  | none => exact reports_step .returned (by simp [Event.step]) hsilent
  | some err =>
    cases hend : isEndSignal err with
    | true =>
      simp only [↓reduceIte, hend]
      exact reports_step .ended (by simp [Event.step]) hsilent
    | false =>
      simp only [Bool.false_eq_true, ↓reduceIte, hend]
      exact reports_step .failed (by simp [Event.step]) hsilent

theorem Walked.andThen_trace (walked next : Walked I) :
    (walked.andThen next).trace = walked.trace ∨
      (walked.andThen next).trace = .seq walked.trace next.trace := by
  rw [Walked.andThen]
  cases walked.error with
  | some err => exact .inl rfl
  | none => exact .inr rfl

theorem Reports.andThen {ids ids' : List String} {walked next : Walked I}
    (h : Reports ids walked.trace) (hnext : Reports ids' next.trace) (hdisjoint : ids.Disjoint ids') :
    Reports (ids ++ ids') (walked.andThen next).trace := by
  rcases walked.andThen_trace next with heq | heq
  · rw [heq]
    exact h.mono (List.subset_append_left ids ids')
  · rw [heq]
    exact h.seq hnext hdisjoint

theorem runTry_reports {ids ids' : List String} {definition : Definition} {place : Place}
    {rethrow : Bool} {body : Walked I} {«catch» : ErrorRecord → Walked I}
    (hbody : Reports ids body.trace) (hcatch : ∀ record, Reports ids' («catch» record).trace)
    (hdisjoint : ids.Disjoint ids') :
    Reports (ids ++ ids') (runTry definition place rethrow body «catch»).trace := by
  have huncaught := hbody.mono (List.subset_append_left ids ids')
  rw [runTry]
  cases body.error with
  | none => exact huncaught
  | some bodyErr =>
    cases huncatchable : isEndSignal bodyErr || isContextError bodyErr with
    | true => simpa only [huncatchable, ↓reduceIte]
    | false =>
      have hhandled : Reports [] (.event (.handled definition place (buildErrorValue bodyErr)) :
          Trace (Event I ErrorRecord)) := reports_event [] rfl
      have hcaught := (hcatch (buildErrorValue bodyErr)).seq (reports_nil []) (List.disjoint_nil_right ids')
      rw [List.append_nil] at hcaught
      have hall := hbody.seq (hhandled.seq hcaught (List.disjoint_nil_left ids')) hdisjoint
      simp only [huncatchable, Bool.false_eq_true, ↓reduceIte]
      cases («catch» (buildErrorValue bodyErr)).error with
      | some catchErr => exact hall
      | none => exact hall

/-! Walks -/

def activityIDs (steps : List Step) : List String := steps.filterMap Step.activityID

theorem activityIDs_append (steps steps' : List Step) :
    activityIDs (steps ++ steps') = activityIDs steps ++ activityIDs steps' :=
  List.filterMap_append

/-- Both of the traces of each branch tell only of its own steps. -/
def BranchReports (branches : List (List Step)) (walked : List (Walked I × Walked I)) : Prop :=
  List.Forall₂ (fun steps branch => Reports (activityIDs (sequenceSteps steps)) branch.1.trace ∧
    Reports (activityIDs (sequenceSteps steps)) branch.2.trace) branches walked

theorem reports_par {branches : List (List Step)} {traces : List (Trace (Event I R))}
    (h : List.Forall₂ (fun steps trace => Reports (activityIDs (sequenceSteps steps)) trace)
      branches traces) (hnodup : (activityIDs (branchSteps branches)).Nodup) :
    Reports (activityIDs (branchSteps branches)) (.par traces) := by
  induction h with
  | nil => exact reports_parNil
  | cons hhead htail ih =>
    rw [branchSteps, activityIDs_append] at hnodup ⊢
    exact hhead.parCons (ih hnodup.of_append_right) (List.disjoint_of_nodup_append hnodup)

theorem wait_reports {branches : List (List Step)} {walked : List (Walked I × Walked I)}
    (h : BranchReports branches walked) (hnodup : (activityIDs (branchSteps branches)).Nodup)
    (first : ℕ) : Reports (activityIDs (branchSteps branches)) (wait first walked).trace := by
  rw [wait]
  cases firstError first (walked.map fun branch => branch.1.error) with
  | none =>
    apply reports_par _ hnodup
    rw [List.forall₂_map_right_iff]
    exact h.imp fun _ _ hboth => hboth.1
  | some failed =>
    apply reports_par _ hnodup
    rw [List.forall₂_iff_get]
    refine ⟨by simp [h.length_eq], ?_⟩
    intro i hi hi'
    rw [List.length_mapIdx] at hi'
    have hboth := h.get hi hi'
    simp only [List.get_eq_getElem, List.getElem_mapIdx] at hboth ⊢
    split
    · exact hboth.1
    · exact hboth.2

section Walk
set_option linter.unusedSectionVars false
variable (w : World V I) {execute : Execute I} (definition : Definition)
  (hsilent : ∀ place ctx id activity, Silent (execute place ctx id activity).trace)
include hsilent

mutual

theorem walkStep_reports (place : Place) (ctx : Ctx) : ∀ step : Step,
    (activityIDs step.steps).Nodup →
      Reports (activityIDs step.steps) (walkStep w execute definition place ctx step).trace
  | .activity id activity, _ => by
    rw [walkStep]
    exact runActivity_reports (hsilent place ctx id activity)
  | .condition id branches otherwise, hnodup => by
    have hids : activityIDs (Step.steps (.condition id branches otherwise)) =
        activityIDs (conditionSteps branches) ++ activityIDs (otherwiseSteps otherwise) :=
      activityIDs_append _ _
    rw [hids] at hnodup ⊢
    rw [walkStep]
    exact runCondition_reports place ctx 0
      (runOtherwise_reports _ ctx otherwise hnodup.of_append_right) branches hnodup.of_append_left
  | .parallel id branches, hnodup => by
    rw [walkStep]
    exact wait_reports (runBranches_reports place ctx 0 branches hnodup) hnodup (w.first place)
  | .try id body «catch» rethrow, hnodup => by
    have hids : activityIDs (Step.steps (.try id body «catch» rethrow)) =
        activityIDs (sequenceSteps body) ++ activityIDs (sequenceSteps «catch») :=
      activityIDs_append _ _
    rw [hids] at hnodup ⊢
    rw [walkStep]
    exact runTry_reports (walkSequence_reports (0 :: place) ctx 0 body hnodup.of_append_left)
      (fun record => walkSequence_reports (1 :: place) (ctx.withErrorScope record) 0 «catch»
        hnodup.of_append_right) (List.disjoint_of_nodup_append hnodup)
  | .unset id, _ => by
    rw [walkStep]
    exact reports_nil _

theorem walkSequence_reports (place : Place) (ctx : Ctx) (index : ℕ) : ∀ steps : List Step,
    (activityIDs (sequenceSteps steps)).Nodup →
      Reports (activityIDs (sequenceSteps steps))
        (walkSequence w execute definition place ctx index steps).trace
  | [], _ => by
    rw [walkSequence]
    exact reports_nil _
  | step :: steps, hnodup => by
    rw [sequenceSteps, activityIDs_append] at hnodup ⊢
    rw [walkSequence]
    split
    · exact reports_nil _
    · exact (walkStep_reports (index :: place) ctx step hnodup.of_append_left).andThen
        (walkSequence_reports place ctx (index + 1) steps hnodup.of_append_right)
        (List.disjoint_of_nodup_append hnodup)

theorem runCondition_reports (place : Place) (ctx : Ctx) (k : ℕ) {ids : List String}
    {otherwise : Walked I} (hotherwise : Reports ids otherwise.trace) :
    ∀ branches : List (String × List Step), (activityIDs (conditionSteps branches)).Nodup →
      Reports (activityIDs (conditionSteps branches) ++ ids)
        (runCondition w execute definition place ctx k otherwise branches).trace
  | [], _ => by
    rw [runCondition]
    exact hotherwise
  | (when, steps) :: branches, hnodup => by
    rw [conditionSteps, activityIDs_append] at hnodup ⊢
    rw [runCondition]
    split
    · exact reports_nil _
    · apply (walkSequence_reports (k :: place) ctx 0 steps hnodup.of_append_left).mono
      simp
    · apply (runCondition_reports place ctx (k + 1) hotherwise branches hnodup.of_append_right).mono
      simp

theorem runOtherwise_reports (place : Place) (ctx : Ctx) : ∀ otherwise : Option (List Step),
    (activityIDs (otherwiseSteps otherwise)).Nodup →
      Reports (activityIDs (otherwiseSteps otherwise))
        (runOtherwise w execute definition place ctx otherwise).trace
  | none, _ => by
    rw [runOtherwise]
    exact reports_nil _
  | some steps, hnodup => by
    rw [runOtherwise]
    exact walkSequence_reports place ctx 0 steps hnodup

theorem runBranches_reports (place : Place) (ctx : Ctx) (k : ℕ) : ∀ branches : List (List Step),
    (activityIDs (branchSteps branches)).Nodup →
      BranchReports branches (runBranches w execute definition place ctx k branches)
  | [], _ => by
    rw [runBranches]
    exact .nil
  | steps :: branches, hnodup => by
    rw [branchSteps, activityIDs_append] at hnodup
    have hlive := walkSequence_reports (k :: place) ctx 0 steps hnodup.of_append_left
    have hcancelled := walkSequence_reports (k :: place) ctx.cancelled 0 steps hnodup.of_append_left
    rw [runBranches]
    exact .cons ⟨hlive, hcancelled⟩
      (runBranches_reports place ctx (k + 1) branches hnodup.of_append_right)

end

theorem finish_reports (place : Place) (ctx : Ctx) (hunique : definition.activityIDs.Nodup)
    {walked : Walked I} (h : Reports (activityIDs (sequenceSteps definition.root)) walked.trace) :
    Reports definition.activityIDs (finish w execute definition place ctx walked).trace := by
  have hids : definition.activityIDs = activityIDs (sequenceSteps definition.root) ++
      activityIDs (sequenceSteps definition.errorSeq) := activityIDs_append _ _
  rw [hids] at hunique ⊢
  have hroot := h.mono (List.subset_append_left _ (activityIDs (sequenceSteps definition.errorSeq)))
  rw [finish]
  cases walked.error with
  | none => exact hroot
  | some err =>
    have herrorSeq : Reports (activityIDs (sequenceSteps definition.errorSeq))
        (runErrorSequence w execute definition place ctx err) := by
      rw [runErrorSequence]
      split
      · exact reports_nil _
      · have hhandled : Reports [] (.event (.handled definition place (buildErrorValue err)) :
            Trace (Event I ErrorRecord)) := reports_event [] rfl
        exact hhandled.seq (walkSequence_reports w definition hsilent (1 :: place)
          (ctx.withErrorScope (buildErrorValue err)) 0 definition.errorSeq hunique.of_append_right)
          (List.disjoint_nil_left _)
    dsimp only
    split_ifs
    · exact hroot
    · exact hroot
    · exact hroot
    · exact h.seq herrorSeq (List.disjoint_of_nodup_append hunique)

end Walk

/-! Runs -/

theorem execute_silent [DecidableEq I] (w : World V I) (dispatcher : Dispatcher) (stack : List I)
    (workflowID : I) (run : Place → Ctx → Call I stack → Walked I) (place : Place) (ctx : Ctx)
    (id : String) (activity : Option Activity) :
    Silent (execute w dispatcher stack workflowID run place ctx id activity).trace := by
  have hnil : Silent (.nil : Trace (Event I ErrorRecord)) := by
    intro events hlinear id
    rw [Trace.linear_nil.mp hlinear]
    rfl
  have hcalled : Silent (.event (.called stack) : Trace (Event I ErrorRecord)) := by
    intro events hlinear id
    rw [Trace.linear_event.mp hlinear]
    rfl
  cases activity with
  | none => exact hnil
  | some activity =>
    cases activity with
    | http spec =>
      simp only [execute]
      cases dispatcher.http with
      | false => exact hnil
      | true => cases httpExecute w place ctx spec <;> exact hnil
    | set assignments =>
      simp only [execute]
      cases dispatcher.set <;> exact hnil
    | runWorkflow workflow parameters =>
      simp only [execute]
      cases dispatcher.runWorkflow with
      | false => exact hnil
      | true =>
        cases runWorkflowCall w stack workflowID place ctx workflow parameters with
        | error call => exact hcalled
        | ok call =>
          intro events hlinear id
          obtain ⟨first, second, hfirst, hsecond, rfl⟩ := Trace.linear_seq.mp hlinear
          rw [eventsOf_append, hcalled first hfirst, Trace.linear_inner.mp hsecond]
          rfl
    | fail text => exact hnil
    | «end» => exact hnil
    | unset => exact hnil

theorem activityIDs_sublist (steps : List Step) : (activityIDs steps).Sublist (steps.map Step.id) := by
  induction steps with
  | nil => exact .slnil
  | cons step steps ih =>
    cases step with
    | activity id activity => exact ih.cons_cons id
    | condition id branches otherwise => exact ih.cons id
    | parallel id branches => exact ih.cons id
    | «try» id body «catch» rethrow => exact ih.cons id
    | unset id => exact ih.cons id

theorem Definition.UniqueStepIDs.activityIDs {definition : Definition}
    (h : definition.UniqueStepIDs) : definition.activityIDs.Nodup :=
  h.sublist (activityIDs_sublist definition.steps)

/-- The steps of the run itself; those of runs inside of it are reported to no one. -/
theorem steps_reported [DecidableEq I] (w : World V I) (dispatcher : Dispatcher) (stack : List I)
    (workflowID : I) (place : Place) (ctx : Ctx) (definition : Definition) :
    (¬ definition.UniqueStepIDs →
      (run w dispatcher stack workflowID place ctx definition).trace = .nil) ∧
    (definition.UniqueStepIDs → ∀ events,
      (run w dispatcher stack workflowID place ctx definition).trace.Linear events → ∀ id,
        StepReport id (eventsOf id events) ∧
          (id ∉ definition.activityIDs → eventsOf id events = [])) := by
  rw [← validateUniqueStepIDs_eq_none, run]
  cases hvalid : validateUniqueStepIDs definition with
  | some id => simp
  | none =>
    have hunique := (validateUniqueStepIDs_eq_none.mp hvalid).activityIDs
    have hsilent := execute_silent w dispatcher stack workflowID fun place ctx call =>
      ⟨(run w dispatcher call.childStack call.workflowID place ctx call.definition).error,
        (run w dispatcher call.childStack call.workflowID place ctx call.definition).trace⟩
    have hroot : (Interpreter.activityIDs (sequenceSteps definition.root)).Nodup :=
      (activityIDs_append (sequenceSteps definition.root) _ ▸ hunique :
        (Interpreter.activityIDs (sequenceSteps definition.root) ++
          Interpreter.activityIDs (sequenceSteps definition.errorSeq)).Nodup).of_append_left
    refine ⟨by simp, fun _ => ?_⟩
    exact finish_reports w definition hsilent place ctx hunique
      (walkSequence_reports w definition hsilent (0 :: place) ctx 0 definition.root hroot)

/-- Two lanes, of which the second ends the run. -/
def twoLanes : Definition where
  root := [.parallel "lanes" [[.activity "left" (some (.set []))], [.activity "right" (some .end)]]]
  errorSeq := []

def leftEvents : List (Event ℕ ErrorRecord) :=
  [.executed "left" .returned, .setStepOutput "left", .recordState "left" .succeeded,
    .stepFinished "left"]

def rightEvents : List (Event ℕ ErrorRecord) :=
  [.executed "right" .ended, .recordState "right" .succeeded, .stepFinished "right"]

theorem twoLanes_linear : (run silentWorld ⟨true, true, true⟩ [] 0 [] ⟨false, none⟩ twoLanes).trace.Linear
    (.stepStarted "left" :: .stepStarted "right" :: (leftEvents ++ rightEvents)) := by
  have htrace : (run silentWorld ⟨true, true, true⟩ [] 0 [] ⟨false, none⟩ twoLanes).trace =
      .par [.seq (.all (.event (.stepStarted "left") :: .nil :: leftEvents.map .event)) .nil,
        .all (.event (.stepStarted "right") :: .nil :: rightEvents.map .event)] := by
    rw [run]
    rfl
  have hleft := (Trace.linear_between (.stepStarted "left") .nil leftEvents).mpr ⟨[], .nil, rfl⟩
  have hright := (Trace.linear_between (.stepStarted "right") .nil rightEvents).mpr ⟨[], .nil, rfl⟩
  rw [htrace]
  apply Trace.Linear.parCons (hleft.seq .nil) (.parCons hright .parNil (.append _ []))
  simp only [List.append_nil, List.nil_append]
  exact .left (.right (.append leftEvents rightEvents))

theorem twoLanes_reported :
    StepReport "right" (eventsOf "right" (.stepStarted "left" :: .stepStarted "right" ::
      (leftEvents ++ rightEvents))) ∧
    (run silentWorld ⟨true, true, true⟩ [] 0 [] ⟨false, none⟩
      ⟨twoLanes.root, twoLanes.root⟩).trace = .nil := by
  have hunique : twoLanes.UniqueStepIDs := by
    unfold Definition.UniqueStepIDs
    decide
  have htwice : ¬ Definition.UniqueStepIDs ⟨twoLanes.root, twoLanes.root⟩ := by
    unfold Definition.UniqueStepIDs
    decide
  have hright := (steps_reported silentWorld ⟨true, true, true⟩ [] 0 [] ⟨false, none⟩ twoLanes).2
    hunique _ twoLanes_linear "right"
  exact ⟨hright.1, (steps_reported silentWorld ⟨true, true, true⟩ [] 0 [] ⟨false, none⟩
    ⟨twoLanes.root, twoLanes.root⟩).1 htwice⟩

end Pivox.Engine.Interpreter
