import Mathlib.Data.List.TakeDrop
import Mathlib.Logic.Function.Iterate
import Mathlib.Tactic.Tauto
import Pivox.Workflows.RunStore

/-!
The reaper of stranded runs: which discarded jobs its ticks get to.
-/

namespace Pivox.Workers
open Workflows

/- A discarded job of a workflow run; `args` is the id of the run, unless it cannot be decoded. -/
structure Job where
  id : ℕ
  args : Option ℕ

/- The discarded jobs, listed by id. -/
structure Discarded where
  jobs : List Job
  sorted : jobs.Pairwise (·.id < ·.id)

/- The state of each run that is not gone. -/
abbrev Runs := ℕ → Option RunState

def finalizeRunFailed (runs : Runs) (run : ℕ) : Runs :=
  match runs run with
  | none => runs
  | some state => if isTerminalState state then runs else Function.update runs run (some .failed)

def reapOne (runs : Runs) (job : Job) : Runs :=
  match job.args with
  | none => runs
  | some run => finalizeRunFailed runs run

def reapStrandedRunsPageSize : ℕ := 100

def defaultReapStrandedRunsMax : ℕ := 1000

/- At most `first` of the jobs, from the one after the cursor on. -/
def jobList (d : Discarded) (first : ℕ) (cursor : Option ℕ) : List Job :=
  (d.jobs.filter fun job => cursor.all (· < job.id)).take first

/- The rest of a tick that has scanned some of the jobs. -/
def reapPages (d : Discarded) (maxPerTick scanned : ℕ) (cursor : Option ℕ) (runs : Runs) : Runs :=
  if maxPerTick ≤ scanned then runs
  else
    let want := min reapStrandedRunsPageSize (maxPerTick - scanned)
    let page := jobList d want cursor
    let runs := page.foldl reapOne runs
    match page.getLast? with
    | none => runs
    | some last =>
      if page.length < want then runs
      else reapPages d maxPerTick (scanned + want) (some last.id) runs
termination_by maxPerTick - scanned
decreasing_by
  simp only [reapStrandedRunsPageSize, not_le] at *
  omega

def reapStrandedRuns (d : Discarded) (maxPerTick : ℤ) (runs : Runs) : Runs :=
  reapPages d (if maxPerTick ≤ 0 then defaultReapStrandedRunsMax else maxPerTick.toNat) 0 none runs

/- A run that is terminal or gone. -/
def Settled (runs : Runs) (run : ℕ) : Prop :=
  ∀ state ∈ runs run, isTerminalState state = true

variable {d : Discarded} {runs : Runs} {run run' : ℕ} {jobs : List Job} {maxPerTick scanned : ℕ}

/-! What a tick does to a run -/

theorem settled_finalizeRunFailed :
    Settled (finalizeRunFailed runs run') run ↔ Settled runs run ∨ run' = run := by
  by_cases hsettled : Settled runs run'
  · -- The run is left as it is.
    have hsame : finalizeRunFailed runs run' = runs := by
      unfold finalizeRunFailed
      split
      · rfl
      · rename_i state hstate
        rw [if_pos (hsettled state hstate)]
    rw [hsame]
    exact ⟨.inl, fun h => h.elim id fun heq => heq ▸ hsettled⟩
  · have hfailed : finalizeRunFailed runs run' = Function.update runs run' (some .failed) := by
      unfold finalizeRunFailed
      split
      · rename_i hgone
        exact absurd (fun state hstate => by simp [hgone] at hstate) hsettled
      · rename_i state hstate
        rw [if_neg]
        intro hterminal
        apply hsettled
        intro state' hstate'
        cases hstate.symm.trans hstate'
        exact hterminal
    rw [hfailed]
    by_cases heq : run' = run
    · rw [heq]
      simp [Settled, isTerminalState]
    · simp [Settled, Function.update_of_ne (Ne.symm heq), heq]

theorem settled_foldl : Settled (jobs.foldl reapOne runs) run ↔
    Settled runs run ∨ ∃ job ∈ jobs, job.args = some run := by
  induction jobs generalizing runs with
  | nil => simp
  | cons job jobs ih =>
    rw [List.foldl_cons, ih, reapOne]
    cases hargs : job.args with
    | none => simp [hargs]
    | some run' => simp [hargs, settled_finalizeRunFailed, or_assoc]

/-! The jobs that a tick gets to -/

/- What comes after the last of the first `k` jobs. -/
theorem filter_after {k : ℕ} {last : Job} (hlast : (d.jobs.take k).getLast? = some last) :
    d.jobs.filter (fun job => decide (last.id < job.id)) = d.jobs.drop k := by
  obtain ⟨before, hbefore⟩ := List.getLast?_eq_some_iff.mp hlast
  have hsplit : d.jobs = before ++ last :: d.jobs.drop k := by
    rw [← List.singleton_append, ← List.append_assoc, ← hbefore, List.take_append_drop]
  have hsorted := d.sorted
  rw [hsplit, List.pairwise_append, List.pairwise_cons] at hsorted
  obtain ⟨-, ⟨hafter, -⟩, hcross⟩ := hsorted
  have hnone : before.filter (fun job => decide (last.id < job.id)) = [] := by
    rw [List.filter_eq_nil_iff]
    intro job hjob
    have hlt := hcross job hjob last List.mem_cons_self
    simp only [decide_eq_true_eq]
    omega
  have hall : (d.jobs.drop k).filter (fun job => decide (last.id < job.id)) = d.jobs.drop k := by
    rw [List.filter_eq_self]
    intro job hjob
    exact decide_eq_true (hafter job hjob)
  conv_lhs => rw [hsplit]
  rw [List.filter_append, hnone, List.nil_append, List.filter_cons_of_neg (by simp), hall]

theorem reapPages_eq {cursor : Option ℕ}
    (hcursor : (d.jobs.filter fun job => cursor.all (· < job.id)) = d.jobs.drop scanned)
    (hscanned : scanned ≤ maxPerTick) : reapPages d maxPerTick scanned cursor runs =
      ((d.jobs.take maxPerTick).drop scanned).foldl reapOne runs := by
  induction hleft : maxPerTick - scanned using Nat.strong_induction_on generalizing
    scanned cursor runs with
  | _ left ih =>
    rw [reapPages, List.drop_take]
    split
    · have hzero : maxPerTick - scanned = 0 := by omega
      rw [hzero, List.take_zero]
      rfl
    · rename_i hmore
      have hpage : ∀ want, jobList d want cursor = (d.jobs.drop scanned).take want := by
        intro want
        rw [jobList, hcursor]
      simp only [hpage]
      generalize hwant : min reapStrandedRunsPageSize (maxPerTick - scanned) = want
      have hwantPos : 1 ≤ want := by
        simp only [reapStrandedRunsPageSize] at hwant
        omega
      have hwantLe : want ≤ maxPerTick - scanned := by omega
      split
      · rename_i hlast
        rw [List.getLast?_eq_none_iff, List.take_eq_nil_iff] at hlast
        obtain hzero | hnil := hlast
        · omega
        · rw [hnil, List.take_nil, List.take_nil]
      · rename_i last hlast
        split
        · -- A short page is all that is left.
          rename_i hshort
          rw [List.length_take] at hshort
          rw [List.take_of_length_le (by omega), List.take_of_length_le (by omega)]
        · rename_i hfull
          rw [List.length_take] at hfull
          have hnext : (d.jobs.take (scanned + want)).getLast? = some last := by
            rw [List.take_add, List.getLast?_append, hlast]
            rfl
          have hless : maxPerTick - (scanned + want) < left := by omega
          have hmore' : scanned + want ≤ maxPerTick := by omega
          have hafter : (d.jobs.filter fun job => (some last.id).all (· < job.id)) =
              d.jobs.drop (scanned + want) := filter_after hnext
          rw [ih _ hless hafter hmore' rfl, ← List.foldl_append, List.drop_take]
          have hsum : maxPerTick - scanned = want + (maxPerTick - (scanned + want)) := by omega
          rw [hsum, List.take_add, List.drop_drop]

/-- A tick gets to the first jobs, up to the cap, whatever the ticks before it have done. -/
theorem reapStrandedRuns_eq {m : ℕ} (hm : 1 ≤ m) :
    reapStrandedRuns d m runs = (d.jobs.take m).foldl reapOne runs := by
  have hpos : ¬ (m : ℤ) ≤ 0 := by omega
  rw [reapStrandedRuns, if_neg hpos, Int.toNat_natCast, reapPages_eq (by simp) (Nat.zero_le m),
    List.drop_zero]

/- The ticks of a reaper. -/
theorem settled_iterate {m : ℕ} (hm : 1 ≤ m) (ticks : ℕ) :
    Settled ((reapStrandedRuns d m)^[ticks] runs) run ↔
      Settled runs run ∨ 1 ≤ ticks ∧ ∃ job ∈ d.jobs.take m, job.args = some run := by
  induction ticks with
  | zero => simp
  | succ ticks ih =>
    have hpos : 1 ≤ ticks + 1 := Nat.le_add_left 1 ticks
    rw [Function.iterate_succ_apply', reapStrandedRuns_eq hm, settled_foldl, ih]
    simp only [hpos, true_and]
    tauto

/-- After as many ticks as the cap should take, the runs of all discarded jobs are terminal or gone
if and only if those of the jobs beyond the cap were, or are runs of jobs within the cap too. -/
theorem reaper_progress_iff (d : Discarded) (runs : Runs) {m : ℕ} (hm : 1 ≤ m) :
    (∀ job ∈ d.jobs, ∀ run ∈ job.args,
      Settled ((reapStrandedRuns d m)^[(d.jobs.length + m - 1) / m] runs) run) ↔
    ∀ job ∈ d.jobs.drop m, ∀ run ∈ job.args,
      Settled runs run ∨ ∃ job' ∈ d.jobs.take m, job'.args = some run := by
  simp only [settled_iterate hm]
  constructor
  · intro h job hjob run hrun
    obtain hsettled | ⟨-, hfirst⟩ := h job (List.mem_of_mem_drop hjob) run hrun
    · exact .inl hsettled
    · exact .inr hfirst
  · intro h job hjob run hrun
    have hticks : 1 ≤ (d.jobs.length + m - 1) / m := by
      have hlength := List.length_pos_of_mem hjob
      rw [Nat.le_div_iff_mul_le (by omega)]
      omega
    rw [← List.take_append_drop m d.jobs, List.mem_append] at hjob
    obtain hfirst | hlater := hjob
    · exact .inr ⟨hticks, job, hfirst, hrun⟩
    · obtain hsettled | hshared := h job hlater run hrun
      · exact .inl hsettled
      · exact .inr ⟨hticks, hshared⟩

/- Two discarded jobs, the second of a run that is still running. -/
private def twoJobs : Discarded := ⟨[⟨1, some 7⟩, ⟨2, some 8⟩], by decide⟩

private def oneRunning : Runs := fun run => if run = 8 then some .running else none

private def firstRunning : Runs := fun run => if run = 7 then some .running else none

theorem reaper_progress_iff_two :
    (∀ job ∈ twoJobs.jobs, ∀ run ∈ job.args,
      Settled ((reapStrandedRuns twoJobs 1)^[(twoJobs.jobs.length + 1 - 1) / 1] firstRunning) run) ∧
    ¬ ∀ job ∈ twoJobs.jobs, ∀ run ∈ job.args,
      Settled ((reapStrandedRuns twoJobs 1)^[(twoJobs.jobs.length + 1 - 1) / 1] oneRunning) run := by
  refine ⟨(reaper_progress_iff twoJobs firstRunning (by decide)).mpr ?_, fun h => ?_⟩
  · rintro job hjob run hrun
    obtain rfl : job = ⟨2, some 8⟩ := by simpa [twoJobs] using hjob
    cases hrun
    exact .inl nofun
  · have hlater := (reaper_progress_iff twoJobs oneRunning (by decide)).mp h
    obtain hsettled | ⟨job, hjob, hargs⟩ := hlater ⟨2, some 8⟩ (by simp [twoJobs]) 8 rfl
    · exact absurd (hsettled .running rfl) (by decide)
    · obtain rfl : job = ⟨1, some 7⟩ := by simpa [twoJobs] using hjob
      cases hargs

/-- With a cap of one job, no tick gets to the second. -/
theorem run_stays_stranded :
    ¬ ∀ (d : Discarded) (runs : Runs) (m : ℕ), 1 ≤ m → ∀ job ∈ d.jobs, ∀ run ∈ job.args,
      Settled ((reapStrandedRuns d m)^[(d.jobs.length + m - 1) / m] runs) run := by
  intro h
  have hsettled := h twoJobs oneRunning 1 (by decide) ⟨2, some 8⟩ (by simp [twoJobs]) 8 rfl
  rw [settled_iterate (by decide)] at hsettled
  obtain hsettled | ⟨-, job, hjob, hargs⟩ := hsettled
  · exact absurd (hsettled .running rfl) (by decide)
  · rw [show twoJobs.jobs.take 1 = [⟨1, some 7⟩] from rfl, List.mem_singleton] at hjob
    rw [hjob] at hargs
    cases hargs

end Pivox.Workers
