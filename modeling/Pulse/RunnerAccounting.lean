-- The accounts of a run: the tasks are bounded by the concurrency, every task is
-- joined before the run returns, and each one is counted once, as a success, as
-- a failure with one error kind, or as a panic.
import Pulse.ScenarioRunner
import Pulse.ScheduledJobs
import Mathlib.Data.List.Perm.Basic
import Mathlib.Data.List.Sort

open counters systems
open pulse.contracts pulse.planning pulse.metrics pulse.rate_limiter

namespace pulse.service

open pulse.runner

/-- The result that `execute_and_publish` builds from the report of a run. -/
def scenario_run_result (job : ScenarioJob) (report : runner.RunReport)
    (started_at finished_at : Nat) : ScenarioRunResult :=
  let scenario_metrics := report.summary.scenario_metrics.lookup job.scenario_id
  let success := (scenario_metrics.map (·.success)).getD 0
  let failure := (scenario_metrics.map (·.failure)).getD 0
  { schema_version := CURRENT_CONTRACT_VERSION
    scenario_id := job.scenario_id
    run_id := job.run_id
    execution_key := job.execution_key
    event_id := build_terminal_event_id job.execution_key job.attempt "result"
    attempt := job.attempt
    slice := job.slice
    started_at_unix_ms := started_at
    finished_at_unix_ms := finished_at
    status :=
      if report.started = report.finished ∧ failure = 0 ∧ 0 < report.finished then .Success
      else .Failed
    total := report.finished
    success
    failure
    latency_histogram :=
      (scenario_metrics.map (·.mergeable_latency_buckets)).getD
        MetricsBucket.new.mergeable_latency_buckets
    error_breakdown :=
      ((pairs report.summary.error_counts).insertionSort fun left right => left.1 ≤ right.1).map
        fun error => ⟨error.1, UInt64.ofNat error.2⟩ }

end pulse.service

namespace pulse.runner

open pulse.grpc (usize_MAX)

/-! ## Counted events -/

namespace Event

def isPanic : Event → Bool
  | .task _ .panicked => true
  | _ => false

def isJoin : Event → Bool
  | .join _ => true
  | _ => false

end Event

/-- The panics of a run. -/
def panics (events : List Event) : Nat := events.countP Event.isPanic

/-- The joins of a run. -/
def joins (events : List Event) : Nat := events.countP Event.isJoin

/-! ## The accounts -/

/-- The loop has room for a task. -/
def Place.hasRoom : Place → Prop
  | .Acquiring | .Acquired => True
  | _ => False

/-- The accounts of a run after some events. -/
structure Accounts (scenario : Scenario) (config : RunnerConfig) (events : List Event)
    (runner : Runner) : Prop where
  balanced : ∀ worker ∈ runner.workers,
    Balanced worker.scenario_metrics worker.error_counts scenario.name
  launched : runner.launched ≤ usize_MAX
  /-- Each launched task is counted, runs or has panicked. -/
  outcomes : runner.launched = finishedIn runner.workers scenario.name +
    runner.join_set.countP Task.running + panics events
  /-- Each panic is found at a join. -/
  failures : runner.task_failures.toNat + runner.join_set.countP Task.panicked = panics events
  joined : runner.launched = joins events + runner.join_set.length
  bound : runner.join_set.length ≤ config.concurrency
  room : runner.place.hasRoom → runner.join_set.length < config.concurrency
  returned : ∀ report, runner.place = .Returned report →
    runner.join_set = [] ∧ report = runner.report scenario

section lists

variable {α : Type} {l : List α} {index : Nat} {x : α} (h : l[index]? = some x)
include h

theorem perm_of_getElem? : l.Perm (x :: l.eraseIdx index) := by
  obtain ⟨hlt, rfl⟩ := List.getElem?_eq_some_iff.mp h
  exact (List.getElem_cons_eraseIdx_perm hlt).symm

theorem set_perm_of_getElem? (y : α) : (l.set index y).Perm (y :: l.eraseIdx index) :=
  List.set_perm_cons_eraseIdx (List.getElem?_eq_some_iff.mp h).1 y

theorem countP_set_of_getElem? (y : α) (p : α → Bool) :
    (l.set index y).countP p + (if p x then 1 else 0) = l.countP p + (if p y then 1 else 0) := by
  rw [(set_perm_of_getElem? h y).countP_eq, (perm_of_getElem? h).countP_eq, List.countP_cons,
    List.countP_cons]
  omega

theorem countP_eraseIdx_of_getElem? (p : α → Bool) :
    l.countP p = (l.eraseIdx index).countP p + (if p x then 1 else 0) := by
  rw [(perm_of_getElem? h).countP_eq, List.countP_cons]

end lists

variable {workers : List WorkerMetrics}

theorem finishedIn_set {index : Nat} {worker : WorkerMetrics} (h : workers[index]? = some worker)
    (worker' : WorkerMetrics) (name : String) :
    finishedIn (workers.set index worker') name +
        (bucketOf worker.scenario_metrics name).total.toNat =
      finishedIn workers name + (bucketOf worker'.scenario_metrics name).total.toNat := by
  unfold finishedIn
  rw [((set_perm_of_getElem? h worker').map _).sum_eq, ((perm_of_getElem? h).map _).sum_eq]
  simp only [List.map_cons, List.sum_cons]
  omega

/-- One shard counts no more than all of them. -/
theorem total_le_finishedIn {worker : WorkerMetrics} (h : worker ∈ workers) (name : String) :
    (bucketOf worker.scenario_metrics name).total.toNat ≤ finishedIn workers name :=
  List.le_sum_of_mem (List.mem_map.mpr ⟨worker, h, rfl⟩)

theorem panics_concat (events : List Event) (event : Event) :
    panics (events ++ [event]) = panics events + if event.isPanic then 1 else 0 := by
  simp [panics, List.countP_append, List.countP_singleton]

theorem joins_concat (events : List Event) (event : Event) :
    joins (events ++ [event]) = joins events + if event.isJoin then 1 else 0 := by
  simp [joins, List.countP_append, List.countP_singleton]

section accounts

variable {scenario : Scenario} {config : RunnerConfig} {events : List Event}
  {runner runner' : Runner}

theorem accounts_start {bucket : TokenBucket} {launch_start : Nat} :
    Accounts scenario config [] (.start config bucket launch_start) where
  balanced worker hmem := by
    rw [List.eq_of_mem_replicate hmem]
    exact balanced_empty scenario.name
  launched := Nat.zero_le _
  outcomes := by
    have hzero : finishedIn (List.replicate config.concurrency .new) scenario.name = 0 := by
      unfold finishedIn
      rw [List.map_replicate, List.sum_replicate]
      exact Nat.mul_zero _
    exact hzero.symm
  failures := rfl
  joined := rfl
  bound := Nat.zero_le _
  room h := absurd h id
  returned _ h := by cases h

/-- Nothing but the place and the bucket changes. -/
theorem Accounts.move (h : Accounts scenario config events runner) {event : Event} {place : Place}
    (limiter : Limiter) (hpanic : event.isPanic = false) (hjoin : event.isJoin = false)
    (hroom : place.hasRoom → runner.join_set.length < config.concurrency)
    (hreturned : ∀ report, place = .Returned report →
      runner.join_set = [] ∧ report = runner.report scenario) :
    Accounts scenario config (events ++ [event]) { runner with place, limiter } where
  balanced := h.balanced
  launched := h.launched
  outcomes := by
    rw [panics_concat, hpanic]
    exact h.outcomes
  failures := by
    rw [panics_concat, hpanic]
    exact h.failures
  joined := by
    rw [joins_concat, hjoin]
    exact h.joined
  bound := h.bound
  room := hroom
  returned := hreturned

/-- A task that was running is counted, runs on or panics. -/
theorem execute_scenario_counts (index : Nat) {scenario_timeout : Option Nat} {now : Nat}
    {task task' : Task} {metrics metrics' : WorkerMetrics} {event : TaskEvent}
    (h : execute_scenario scenario scenario_timeout now task metrics event = some (task', metrics'))
    (hbalanced : Balanced metrics.scenario_metrics metrics.error_counts scenario.name)
    (hbound : (bucketOf metrics.scenario_metrics scenario.name).total.toNat + 1 < 2 ^ 64) :
    Balanced metrics'.scenario_metrics metrics'.error_counts scenario.name ∧
      (bucketOf metrics'.scenario_metrics scenario.name).total.toNat +
          (if task'.running then 1 else 0) + (if (Event.task index event).isPanic then 1 else 0) =
        (bucketOf metrics.scenario_metrics scenario.name).total.toNat + 1 ∧
      task'.panicked = (Event.task index event).isPanic := by
  have hcalm : event ≠ .panicked → (Event.task index event).isPanic = false := by
    intro hne
    cases event <;> first | rfl | exact absurd rfl hne
  obtain ⟨-, hcases⟩ := execute_scenario_cases h
  rcases hcases with ⟨hne, hrunning, hmetrics, herrors⟩ | ⟨hne, hstage, duration, rfl⟩ |
    ⟨hne, hstage, duration, kind, rfl⟩ | ⟨rfl, hstage, rfl⟩
  · have hpanicked : task'.panicked = false := by
      unfold Task.running at hrunning
      unfold Task.panicked
      split <;> simp_all
    rw [hmetrics, herrors, hrunning, hpanicked, hcalm hne]
    exact ⟨hbalanced, rfl, rfl⟩
  · have htotal : (bucketOf (metrics.record_scenario scenario.name duration true).scenario_metrics
        scenario.name).total.toNat =
        (bucketOf metrics.scenario_metrics scenario.name).total.toNat + 1 := by
      unfold WorkerMetrics.record_scenario
      rw [bucketOf_entry, toNat_total_record hbound]
    rw [htotal, hcalm hne]
    refine ⟨hbalanced.success hbound duration, ?_, ?_⟩
    · simp [Task.running, hstage]
    · simp [Task.panicked, hstage]
  · have htotal : (bucketOf ((metrics.record_error_kind kind).record_scenario scenario.name duration
        false).scenario_metrics scenario.name).total.toNat =
        (bucketOf metrics.scenario_metrics scenario.name).total.toNat + 1 := by
      unfold WorkerMetrics.record_scenario WorkerMetrics.record_error_kind
      rw [bucketOf_entry, toNat_total_record hbound]
    rw [htotal, hcalm hne]
    refine ⟨hbalanced.failure hbound duration kind, ?_, ?_⟩
    · simp [Task.running, hstage]
    · simp [Task.panicked, hstage]
  · refine ⟨hbalanced, ?_, ?_⟩
    · simp [Task.running, hstage, Event.isPanic]
    · simp [Task.panicked, hstage, Event.isPanic]

section

variable (h : Accounts scenario config events runner)
include h

/-- A step of a task changes no more than its shard and its stage. -/
theorem Accounts.step_task {index : Nat} {event : TaskEvent}
    (hstep : runner.step_task scenario config index event = some runner') :
    Accounts scenario config (events ++ [.task index event]) runner' := by
  obtain ⟨task, metrics, task', metrics', htask, hmetrics, hexecute, rfl⟩ := step_task_cases hstep
  have hmem := List.mem_of_getElem? hmetrics
  have houtcomes := h.outcomes
  have hrunning := countP_set_of_getElem? htask task' Task.running
  have hpanicked := countP_set_of_getElem? htask task' Task.panicked
  have hfinished := finishedIn_set hmetrics metrics' scenario.name
  obtain ⟨htask_running, -⟩ := execute_scenario_cases hexecute
  have htask_panicked : task.panicked = false := by
    unfold Task.running at htask_running
    unfold Task.panicked
    split <;> simp_all
  -- the task is still to be counted, so its shard has room for one more
  have hbound : (bucketOf metrics.scenario_metrics scenario.name).total.toNat + 1 < 2 ^ 64 := by
    have hpos : 1 ≤ runner.join_set.countP Task.running :=
      List.countP_pos_iff.mpr ⟨task, List.mem_of_getElem? htask, htask_running⟩
    have hle := total_le_finishedIn hmem scenario.name
    have hlaunched := h.launched
    unfold usize_MAX at hlaunched
    omega
  obtain ⟨hbalanced, hcounts, hpanics⟩ :=
    execute_scenario_counts index hexecute (h.balanced metrics hmem) hbound
  rw [if_pos htask_running] at hrunning
  rw [htask_panicked, if_neg (by simp), hpanics] at hpanicked
  exact
    { balanced := by
        intro worker hworker
        rcases List.mem_or_eq_of_mem_set hworker with hworker | rfl
        · exact h.balanced worker hworker
        · exact hbalanced
      launched := h.launched
      outcomes := by
        rw [panics_concat]
        dsimp only
        omega
      failures := by
        have hfailures := h.failures
        rw [panics_concat]
        dsimp only
        omega
      joined := by
        have hjoined := h.joined
        rw [joins_concat, List.length_set]
        exact hjoined
      bound := by
        rw [List.length_set]
        exact h.bound
      room := by
        rw [List.length_set]
        exact h.room
      returned := by
        intro report hreport
        obtain ⟨hempty, -⟩ := h.returned report hreport
        rw [hempty] at htask
        cases htask }

/-- A join counts the task that it takes out. -/
theorem Accounts.join {index : Nat} (hstep : runner.join config index = some runner') :
    Accounts scenario config (events ++ [.join index]) runner' := by
  obtain ⟨task, limiter, htask, hover, -, rfl⟩ := join_cases hstep
  have hlt := (List.getElem?_eq_some_iff.mp htask).1
  have hlength : (runner.join_set.eraseIdx index).length + 1 = runner.join_set.length := by
    rw [List.length_eraseIdx_of_lt hlt]
    omega
  have hrunning := countP_eraseIdx_of_getElem? htask Task.running
  have hpanicked := countP_eraseIdx_of_getElem? htask Task.panicked
  rw [hover, if_neg (by simp)] at hrunning
  have hcalm : (Event.join index).isPanic = false := rfl
  exact
    { balanced := h.balanced
      launched := h.launched
      outcomes := by
        have houtcomes := h.outcomes
        rw [panics_concat, hcalm]
        dsimp only
        rw [← Nat.add_zero ((runner.join_set.eraseIdx index).countP Task.running), ← hrunning]
        exact houtcomes
      failures := by
        have hfailures := h.failures
        have houtcomes := h.outcomes
        have hlaunched := h.launched
        have hone : (record_join_result task).toNat = if task.panicked then 1 else 0 := by
          unfold record_join_result
          split <;> rfl
        have hsum : (saturating_add runner.task_failures (record_join_result task)).toNat =
            runner.task_failures.toNat + if task.panicked then 1 else 0 := by
          rw [← hone]
          apply toNat_saturating_add
          unfold usize_MAX at hlaunched
          unfold u64_MAX
          omega
        rw [panics_concat, hcalm]
        dsimp only
        rw [hsum]
        simp only [Bool.false_eq_true, if_false]
        omega
      joined := by
        have hjoined := h.joined
        rw [joins_concat]
        simp only [Event.isJoin, if_true]
        omega
      bound := by
        have hbound := h.bound
        dsimp only
        omega
      room := by
        intro hroom
        have hlt := h.room hroom
        dsimp only
        omega
      returned := by
        intro report hreport
        obtain ⟨hempty, -⟩ := h.returned report hreport
        rw [hempty] at htask
        cases htask }

theorem Accounts.launch (hplace : runner.place = .Acquired)
    (hcount : runner.launched + 1 ≤ usize_MAX) :
    Accounts scenario config (events ++ [.launch]) (runner.spawned config) := by
  have hroom : runner.join_set.length < config.concurrency := by
    apply h.room
    rw [hplace]
    trivial
  have hcalm : Event.launch.isPanic = false := rfl
  have hlone : Event.launch.isJoin = false := rfl
  unfold Runner.spawned
  exact
    { balanced := h.balanced
      launched := hcount
      outcomes := by
        have houtcomes := h.outcomes
        rw [panics_concat, hcalm, List.countP_append]
        simp only [List.countP_singleton, Task.running, Bool.false_eq_true, if_true, if_false]
        omega
      failures := by
        have hfailures := h.failures
        rw [panics_concat, hcalm, List.countP_append]
        simp only [List.countP_singleton, Task.panicked, Bool.false_eq_true, if_false]
        omega
      joined := by
        have hjoined := h.joined
        rw [joins_concat, hlone, List.length_append]
        simp only [List.length_singleton, Bool.false_eq_true, if_false]
        omega
      bound := by
        rw [List.length_append]
        exact hroom
      room := fun hfalse => absurd hfalse id
      returned := fun _ hreport => by cases hreport }

/-- Every step keeps the accounts. -/
theorem Accounts.step {event : Event} (hstep : runner.step scenario config event = some runner') :
    Accounts scenario config (events ++ [event]) runner' := by
  rcases step_cases hstep with ⟨now, rfl, -, rfl⟩ | ⟨index, task, rfl, htask⟩ |
    ⟨index, rfl, hjoin⟩ |
    ⟨place, limiter, hmove, rfl⟩ | ⟨rfl, hplace, -, hcount, rfl⟩ | ⟨rfl, hplace, hempty, rfl⟩
  · exact h.move _ rfl rfl h.room h.returned
  · exact h.step_task htask
  · exact h.join hjoin
  · have hacquiring : runner.place = .Acquiring → runner.join_set.length < config.concurrency := by
      intro hplace
      apply h.room
      rw [hplace]
      trivial
    cases hmove with
    | reaped | room_late | gate_late | acquire_late | launch_late =>
      exact h.move _ rfl rfl (fun hfalse => absurd hfalse id) (fun _ hreport => by cases hreport)
    | room _ hroom => exact h.move _ rfl rfl (fun _ => hroom) (fun _ hreport => by cases hreport)
    | waits hplace | acquires hplace =>
      exact h.move _ rfl rfl (fun _ => hacquiring hplace) (fun _ hreport => by cases hreport)
  · exact h.launch hplace hcount
  · refine h.move runner.limiter rfl rfl (fun hfalse => absurd hfalse id) ?_
    intro report hreport
    cases hreport
    exact ⟨hempty, rfl⟩

end

theorem accounts_of_run {first : Runner} (hfirst : (run_once scenario config).initial first)
    (h : Run (run_once scenario config) first events runner) :
    Accounts scenario config events runner := by
  obtain ⟨created, bucket, launch_start, -, -, rfl⟩ := hfirst
  refine Run.invariant accounts_start ?_ h
  intro events runner event hruns hallowed
  exact hruns.step (step_next hallowed)

end accounts

/-! ## The report -/

section report

variable {scenario : Scenario} {config : RunnerConfig} {events : List Event} {runner : Runner}

/-- The failure count of a scenario in the merged shards. -/
def RunReport.failures (report : RunReport) (name : String) : Nat :=
  (bucketOf report.summary.scenario_metrics name).failure.toNat

def RunReport.successes (report : RunReport) (name : String) : Nat :=
  (bucketOf report.summary.scenario_metrics name).success.toNat

theorem summary_scenario_metrics (runner : Runner) :
    runner.summary.scenario_metrics =
      (runner.workers.foldl GlobalSummary.merge_worker .new).scenario_metrics := by
  unfold Runner.summary
  dsimp only
  split <;> rfl

theorem total_summary_errors (runner : Runner) :
    total runner.summary.error_counts =
      total (runner.workers.foldl GlobalSummary.merge_worker .new).error_counts +
        runner.task_failures.toNat := by
  unfold Runner.summary
  dsimp only
  split
  · rw [total_bump]
  · rename_i hzero
    have hfailures : runner.task_failures.toNat = 0 := Nat.eq_zero_of_not_pos hzero
    rw [hfailures, Nat.add_zero]

theorem finished_eq (runner : Runner) (scenario : Scenario) :
    (runner.report scenario).finished =
      (bucketOf (runner.report scenario).summary.scenario_metrics scenario.name).total := by
  unfold Runner.report bucketOf
  dsimp only
  cases runner.summary.scenario_metrics.lookup scenario.name <;> rfl

/-- When all tasks are joined, each launched task is in the report. -/
theorem Accounts.report (h : Accounts scenario config events runner)
    (hempty : runner.join_set = []) : let report := runner.report scenario
    report.started.toNat = runner.launched ∧
      report.started.toNat = report.finished.toNat + panics events ∧
      report.finished.toNat = report.successes scenario.name + report.failures scenario.name ∧
      total report.summary.error_counts = report.failures scenario.name + panics events := by
  have houtcomes := h.outcomes
  have hfailures := h.failures
  have hlaunched := h.launched
  rw [hempty, List.countP_nil, Nat.add_zero] at houtcomes hfailures
  unfold usize_MAX at hlaunched
  have hnew : Balanced GlobalSummary.new.scenario_metrics GlobalSummary.new.error_counts
      scenario.name := balanced_empty scenario.name
  obtain ⟨hbalanced, htotal⟩ := hnew.merge_workers h.balanced (by
    change 0 + _ < _
    omega)
  have hstarted : (runner.report scenario).started.toNat = runner.launched :=
    UInt64.toNat_ofNat_of_lt' (by unfold UInt64.size; omega)
  have hfinished : (runner.report scenario).finished.toNat =
      finishedIn runner.workers scenario.name := by
    rw [finished_eq]
    change (bucketOf runner.summary.scenario_metrics scenario.name).total.toNat = _
    rw [summary_scenario_metrics, htotal]
    exact Nat.zero_add _
  refine ⟨hstarted, ?_, ?_, ?_⟩
  · rw [hstarted, hfinished]
    exact houtcomes
  · rw [finished_eq]
    unfold RunReport.successes RunReport.failures
    change (bucketOf runner.summary.scenario_metrics scenario.name).total.toNat =
      (bucketOf runner.summary.scenario_metrics scenario.name).success.toNat +
        (bucketOf runner.summary.scenario_metrics scenario.name).failure.toNat
    rw [summary_scenario_metrics]
    exact hbalanced.outcome
  · unfold RunReport.failures
    change total runner.summary.error_counts =
      (bucketOf runner.summary.scenario_metrics scenario.name).failure.toNat + _
    rw [summary_scenario_metrics, total_summary_errors, hbalanced.errors, hfailures]

/-- The error breakdown of a result has all error counts of the report. -/
theorem sum_error_breakdown (job : ScenarioJob) {report : RunReport} (started_at finished_at : Nat)
    (hbound : total report.summary.error_counts < 2 ^ 64) :
    ((service.scenario_run_result job report started_at finished_at).error_breakdown.map
      (·.count.toNat)).sum = total report.summary.error_counts := by
  unfold service.scenario_run_result total
  dsimp only
  rw [List.map_map, ((List.perm_insertionSort _ _).map _).sum_eq]
  congr 1
  apply List.map_congr_left
  intro error hmem
  have hle : error.2 ≤ total report.summary.error_counts :=
    List.le_sum_of_mem (List.mem_map.mpr ⟨error, hmem, rfl⟩)
  exact UInt64.toNat_ofNat_of_lt' (lt_of_le_of_lt hle hbound)

/-- The counts of a result are those of the scenario in the report. -/
theorem result_counts (job : ScenarioJob) (report : RunReport) (started_at finished_at : Nat) :
    let result := service.scenario_run_result job report started_at finished_at
    result.success.toNat = report.successes job.scenario_id ∧
      result.failure.toNat = report.failures job.scenario_id := by
  unfold service.scenario_run_result RunReport.successes RunReport.failures bucketOf
  dsimp only
  cases report.summary.scenario_metrics.lookup job.scenario_id <;> exact ⟨rfl, rfl⟩

end report

/-- In any order of the steps of the loop, of the tasks and of the clock, the tasks are bounded by
the concurrency. When the run returns, all of them are joined, each one is a success, a failure or a
panic in the report, and without a panic the result has the sums that its contract asks for. -/
theorem every_task_is_counted_once {scenario : Scenario} {config : RunnerConfig}
    {first runner : Runner} {events : List Event}
    (hfirst : (run_once scenario config).initial first)
    (hrun : Run (run_once scenario config) first events runner) :
    runner.join_set.length ≤ max 1 config.max_concurrency ∧
      ∀ report, runner.place = .Returned report →
        runner.join_set = [] ∧ runner.launched = joins events ∧
          report.started.toNat = runner.launched ∧
          report.started.toNat = report.finished.toNat + panics events ∧
          report.finished.toNat = report.successes scenario.name + report.failures scenario.name ∧
          total report.summary.error_counts = report.failures scenario.name + panics events ∧
          (panics events = 0 → ∀ (job : ScenarioJob) (started_at finished_at : Nat),
            job.scenario_id = scenario.name →
            let result := service.scenario_run_result job report started_at finished_at
            result.success.toNat + result.failure.toNat = result.total.toNat ∧
              (result.error_breakdown.map (·.count.toNat)).sum = result.failure.toNat) := by
  have haccounts := accounts_of_run hfirst hrun
  refine ⟨?_, ?_⟩
  · rw [Nat.max_comm]
    exact haccounts.bound
  · intro report hreport
    obtain ⟨hempty, rfl⟩ := haccounts.returned report hreport
    obtain ⟨hlaunched, hstarted, hfinished, herrors⟩ := haccounts.report hempty
    have hjoined := haccounts.joined
    rw [hempty, List.length_nil, Nat.add_zero] at hjoined
    refine ⟨hempty, hjoined, hlaunched, hstarted, hfinished, herrors, ?_⟩
    intro hcalm job started_at finished_at hjob
    obtain ⟨hsuccess, hfailure⟩ := result_counts job (runner.report scenario) started_at finished_at
    rw [hjob] at hsuccess hfailure
    rw [hcalm, Nat.add_zero] at herrors
    refine ⟨?_, ?_⟩
    · rw [hsuccess, hfailure]
      exact hfinished.symm
    · rw [sum_error_breakdown job started_at finished_at, herrors, hfailure]
      rw [herrors]
      exact UInt64.toNat_lt _

/-! ## A run with a timeout -/

/-- One second, one task at a time. -/
def sampleConfig : RunnerConfig where
  duration := 1000000000
  scenarios_per_sec := 1
  max_concurrency := 1
  scenario_timeout := some 5000000
  startup_burst := 1

def sampleStart : Runner := .start sampleConfig ⟨1, 1, 1, 0⟩ 0

/-- The step of the first task fails, and the deadline comes while the task waits to record it. -/
def sampleEvents : List Event :=
  [.reaped, .room, .poll, .launch, .task 0 .started,
    .task 0 (.executed (.error (.TargetTransport "connection refused"))), .advance 5000000,
    .task 0 .timed_out, .task 0 .locked, .reaped, .join 0, .advance 1000000000, .room, .finish]

def sampleEnd : Runner :=
  sampleEvents.foldl (run_once (sampleScenario 1000000000) sampleConfig).next sampleStart

theorem a_task_with_a_timeout_is_counted_once :
    sampleEnd.join_set.length ≤ max 1 sampleConfig.max_concurrency ∧ sampleEnd.launched = 1 ∧
      ∃ report, sampleEnd.place = .Returned report ∧
        report.started.toNat = report.finished.toNat + panics sampleEvents ∧
        counters.total report.summary.error_counts = report.failures "checkout" := by
  have hfirst : (run_once (sampleScenario 1000000000) sampleConfig).initial sampleStart :=
    ⟨0, ⟨1, 1, 1, 0⟩, 0, by decide +kernel, le_refl 0, rfl⟩
  have hallowed : Allowed (run_once (sampleScenario 1000000000) sampleConfig) sampleStart
      sampleEvents := by decide +kernel
  have hcounted := every_task_is_counted_once hfirst (.foldl hallowed)
  have hreturned : (match sampleEnd.place with | .Returned _ => true | _ => false) = true := by
    decide +kernel
  refine ⟨hcounted.1, by decide +kernel, ?_⟩
  split at hreturned
  · rename_i report hplace
    obtain ⟨-, -, -, hstarted, -, herrors, -⟩ := hcounted.2 report hplace
    exact ⟨report, hplace, hstarted, herrors⟩
  · cases hreturned

end pulse.runner
