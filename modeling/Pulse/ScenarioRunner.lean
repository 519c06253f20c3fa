-- One run of a scenario (application/runner.rs): the loop that launches tasks,
-- the tasks with their shards of the metrics, and the report. The loop, the
-- tasks and the clock take their steps in any order.
import Pulse.SlicePlan
import Pulse.TokenBucket
import Pulse.WireFormat
import Pulse.WorkerMetrics

open counters systems
open pulse.planning pulse.metrics pulse.rate_limiter

namespace pulse.grpc

def PulseError.kind_label : PulseError → String
  | .MissingContextVar _ => "missing_context_var"
  | .Client _ => "invalid_scenario"
  | .GrpcStatus code _ => "target_status:" ++ code
  | .InvalidScenario _ => "invalid_scenario"
  | .TargetTransport _ => "target_transport"
  | .TargetStatus code _ => "target_status:" ++ code
  | .RequestTimeout _ => "target_timeout"
  | .TransientInfrastructure _ => "pulse_infrastructure"
  | .PermanentProcessing _ => "permanent_processing"
  | .Cancelled _ => "cancelled"
  | .InvariantViolation _ => "invariant_violation"

end pulse.grpc

namespace pulse.runner

open pulse.grpc (PulseError usize_MAX)

structure RunnerConfig where
  duration : Nat
  scenarios_per_sec : ℚ
  max_concurrency : Nat
  scenario_timeout : Option Nat
  startup_burst : Nat

/-! ## A task -/

/-- The points at which a task waits. -/
inductive Stage
  | Spawned
  /-- A step runs; `rest` are the steps after it. -/
  | Executing (step : Step) (step_start : Nat) (rest : List Step)
  /-- The step is over, and the task waits for its shard. -/
  | RecordingStep (step : Step) (step_duration : Nat) (result : Except PulseError Unit)
      (rest : List Step)
  /-- The scenario is over, with the kind of its error, and the task waits for its shard. -/
  | Recording (scenario_duration : Nat) (error : Option String)
  /-- The deadline has cancelled the execution, and the task waits for its shard. -/
  | RecordingTimeout (scenario_duration : Nat)
  | Finished
  | Panicked

structure Task where
  /-- The shard of the task. -/
  worker : Nat
  scenario_start : Nat
  stage : Stage

namespace Task

/-- The head of the loop over the steps. -/
def next_step (task : Task) (now : Nat) : List Step → Task
  | [] => { task with stage := .Recording (now - task.scenario_start) none }
  | step :: rest => { task with stage := .Executing step now rest }

/-- The deadline of the execution has come. -/
def Overdue (task : Task) (scenario_timeout : Option Nat) (now : Nat) : Prop :=
  ∃ deadline ∈ scenario_timeout, task.scenario_start + deadline ≤ now

instance (task : Task) (scenario_timeout : Option Nat) (now : Nat) :
    Decidable (task.Overdue scenario_timeout now) := by
  unfold Overdue
  infer_instance

/-- The deadline fires: the inner future is dropped where it waits. -/
def time_out (task : Task) (scenario_timeout : Option Nat) (now : Nat) : Option Task :=
  if task.Overdue scenario_timeout now then
    some { task with stage := .RecordingTimeout (now - task.scenario_start) }
  else none

/-- The task is neither finished nor panicked. -/
def running (task : Task) : Bool :=
  match task.stage with
  | .Finished | .Panicked => false
  | _ => true

def panicked (task : Task) : Bool :=
  match task.stage with
  | .Panicked => true
  | _ => false

end Task

/-- What happens to a task between two points. -/
inductive TaskEvent
  | started
  | executed (result : Except PulseError Unit)
  | panicked
  /-- The task gets the lock of its shard. -/
  | locked
  | timed_out

/-- `execute_scenario` and `execute_scenario_inner` from one point to the next. -/
def execute_scenario (scenario : Scenario) (scenario_timeout : Option Nat) (now : Nat) (task : Task)
    (metrics : WorkerMetrics) : TaskEvent → Option (Task × WorkerMetrics)
  | .started =>
    match task.stage with
    | .Spawned => some ({ task with scenario_start := now }.next_step now scenario.steps, metrics)
    | _ => none
  | .executed result =>
    match task.stage with
    | .Executing step step_start rest =>
      some ({ task with stage := .RecordingStep step (now - step_start) result rest }, metrics)
    | _ => none
  | .panicked =>
    match task.stage with
    | .Executing .. => some ({ task with stage := .Panicked }, metrics)
    | _ => none
  | .locked =>
    match task.stage with
    | .RecordingStep step step_duration result rest =>
      let metrics := metrics.record_step step.name step_duration result.isOk
      match result with
      | .ok () => some (task.next_step now rest, metrics)
      | .error err =>
        some ({ task with stage := .Recording (now - task.scenario_start) (some err.kind_label) },
          metrics)
    | .Recording scenario_duration (some kind) =>
      let metrics := metrics.record_error_kind kind
      let metrics := metrics.record_scenario scenario.name scenario_duration false
      some ({ task with stage := .Finished }, metrics)
    | .Recording scenario_duration none =>
      let metrics := metrics.record_scenario scenario.name scenario_duration true
      some ({ task with stage := .Finished }, metrics)
    | .RecordingTimeout scenario_duration =>
      let metrics := metrics.record_error_kind "scenario_timeout"
      let metrics := metrics.record_scenario scenario.name scenario_duration false
      some ({ task with stage := .Finished }, metrics)
    | _ => none
  | .timed_out =>
    match task.stage with
    | .Executing .. | .RecordingStep .. | .Recording .. =>
      (task.time_out scenario_timeout now).map (·, metrics)
    | _ => none

/-! ## The loop -/

structure RunReport where
  summary : GlobalSummary
  started : UInt64
  finished : UInt64
  peak_pending_tasks : Nat

/-- The points of `run_once` at which it waits or looks at the clock. -/
inductive Place
  /-- `reap_completed`. -/
  | Reaping
  /-- The loop while the join set is full. -/
  | Gate
  /-- The loop around `bucket.acquire()`. -/
  | Acquiring
  /-- A token is there. -/
  | Acquired
  /-- After the launches. -/
  | Draining
  | Returned (report : RunReport)

structure Runner where
  limiter : Limiter
  launch_start : Nat
  place : Place
  join_set : List Task
  launched : Nat
  peak_pending_tasks : Nat
  task_failures : UInt64
  workers : List WorkerMetrics

inductive Event
  /-- Time passes. -/
  | advance (now : Nat)
  /-- The task at this index of the join set takes a step. -/
  | task (index : Nat) (event : TaskEvent)
  /-- The task at this index is joined. -/
  | join (index : Nat)
  /-- `try_join_next` gives nothing more. -/
  | reaped
  /-- The join set has room. -/
  | room
  | poll
  /-- `sleep_until(launch_deadline)` fires. -/
  | deadline
  | launch
  /-- `join_next` gives nothing more. -/
  | finish

namespace RunnerConfig

def concurrency (config : RunnerConfig) : Nat := max config.max_concurrency 1

/-- The bucket of a run that is made at `now`. -/
def bucket (config : RunnerConfig) (now : Nat) : Option TokenBucket :=
  if 0 < config.startup_burst then
    TokenBucket.with_burst config.scenarios_per_sec config.startup_burst now
  else TokenBucket.new config.scenarios_per_sec now

end RunnerConfig

def record_join_result (task : Task) : UInt64 := if task.panicked then 1 else 0

namespace Runner

section steps

variable (scenario : Scenario) (config : RunnerConfig) (runner : Runner)

/-- The run before its loop: the clock is read again after the bucket is made. -/
def start (bucket : TokenBucket) (launch_start : Nat) : Runner where
  limiter := { Limiter.start bucket with clock := launch_start }
  launch_start := launch_start
  place := .Reaping
  join_set := []
  launched := 0
  peak_pending_tasks := 0
  task_failures := 0
  workers := List.replicate config.concurrency .new

def now : Nat := runner.limiter.clock

def launch_deadline : Nat := runner.launch_start + config.duration

/-- The task at an index takes a step with its shard. -/
def step_task (index : Nat) (event : TaskEvent) : Option Runner := do
  let task ← runner.join_set[index]?
  let metrics ← runner.workers[task.worker]?
  let (task', metrics') ←
    execute_scenario scenario config.scenario_timeout runner.now task metrics event
  return { runner with
    join_set := runner.join_set.set index task'
    workers := runner.workers.set task.worker metrics' }

/-- A task is joined in one of four places. At the gate it is joined when the set is full, and
between two polls the future of `acquire` is dropped. -/
def join (index : Nat) : Option Runner := do
  let task ← runner.join_set[index]?
  if task.running then none
  else
    let joined := { runner with
      join_set := runner.join_set.eraseIdx index
      task_failures := saturating_add runner.task_failures (record_join_result task) }
    match runner.place with
    | .Reaping | .Draining => some joined
    | .Gate => if config.concurrency ≤ runner.join_set.length then some joined else none
    | .Acquiring => some { joined with limiter := runner.limiter.next .drop }
    | .Acquired | .Returned _ => none

/-- Below the limit, the loop goes on to the bucket while there is time. -/
def room : Runner :=
  if runner.launch_deadline config ≤ runner.now then { runner with place := .Draining }
  else { runner with place := .Acquiring, limiter := runner.limiter.next .drop }

/-- `bucket.acquire()` is polled. -/
def poll : Runner :=
  let acquire := (runner.limiter.bucket.poll runner.limiter.acquire runner.now).2
  { runner with
    limiter := runner.limiter.next .poll
    place := if acquire = none then .Acquired else .Acquiring }

/-- A token at or after the deadline launches nothing. The counter is a `usize`. -/
def launch : Option Runner :=
  if runner.launch_deadline config ≤ runner.now then some { runner with place := .Draining }
  else if usize_MAX < runner.launched + 1 then none
  else
    let task : Task := ⟨runner.launched % config.concurrency, 0, .Spawned⟩
    let join_set := runner.join_set ++ [task]
    some { runner with
      place := .Reaping
      join_set
      launched := runner.launched + 1
      peak_pending_tasks := max runner.peak_pending_tasks join_set.length }

/-- The merged shards, with the tasks that panicked among the errors. -/
def summary : GlobalSummary :=
  let summary := runner.workers.foldl GlobalSummary.merge_worker .new
  if 0 < runner.task_failures then
    { summary with
      error_counts :=
        bump summary.error_counts "invariant_violation" runner.task_failures.toNat }
  else summary

def report : RunReport where
  summary := runner.summary
  started := UInt64.ofNat runner.launched
  finished := ((runner.summary.scenario_metrics.lookup scenario.name).map (·.total)).getD 0
  peak_pending_tasks := runner.peak_pending_tasks

/-- One step of the run, where the event can happen. -/
def step : Event → Option Runner
  | .advance now =>
    if runner.now ≤ now then some { runner with limiter := runner.limiter.next (.advance now) }
    else none
  | .task index event => runner.step_task scenario config index event
  | .join index => runner.join config index
  | .reaped =>
    match runner.place with
    | .Reaping => some { runner with place := .Gate }
    | _ => none
  | .room =>
    match runner.place with
    | .Gate =>
        if runner.join_set.length < config.concurrency then some (runner.room config) else none
    | _ => none
  | .poll =>
    match runner.place with
    | .Acquiring => some runner.poll
    | _ => none
  | .deadline =>
    if runner.launch_deadline config ≤ runner.now then
      match runner.place with
      | .Gate =>
        if config.concurrency ≤ runner.join_set.length then
          some { runner with place := .Draining }
        else none
      | .Acquiring => some { runner with place := .Draining, limiter := runner.limiter.next .drop }
      | _ => none
    else none
  | .launch =>
    match runner.place with
    | .Acquired => runner.launch config
    | _ => none
  | .finish =>
    match runner.place with
    | .Draining =>
      if runner.join_set = [] then some { runner with place := .Returned (runner.report scenario) }
      else none
    | _ => none

end steps

end Runner

/-- The runs of a scenario. -/
def run_once (scenario : Scenario) (config : RunnerConfig) : System Runner Event where
  initial runner := ∃ created bucket launch_start, config.bucket created = some bucket ∧
    created ≤ launch_start ∧ runner = .start config bucket launch_start
  allowed runner event := (runner.step scenario config event).isSome
  next runner event := (runner.step scenario config event).getD runner

instance (scenario : Scenario) (config : RunnerConfig) (runner : Runner) (event : Event) :
    Decidable ((run_once scenario config).allowed runner event) :=
  inferInstanceAs (Decidable (_ = true))

/-! ## What a step can do -/

section tasks

variable {scenario : Scenario} {scenario_timeout : Option Nat} {now : Nat} {task task' : Task}
  {metrics metrics' : WorkerMetrics}

theorem running_next_step (task : Task) (now : Nat) (steps : List Step) :
    (task.next_step now steps).running = true := by
  cases steps <;> rfl

/-- What a step of a task can do: the task goes on, it records one outcome and is finished, or it
panics. -/
theorem execute_scenario_cases {event : TaskEvent}
    (h : execute_scenario scenario scenario_timeout now task metrics event =
      some (task', metrics')) :
    task.running = true ∧
      ((event ≠ .panicked ∧ task'.running = true ∧
          metrics'.scenario_metrics = metrics.scenario_metrics ∧
          metrics'.error_counts = metrics.error_counts) ∨
        (event ≠ .panicked ∧ task'.stage = .Finished ∧
          ∃ duration, metrics' = metrics.record_scenario scenario.name duration true) ∨
        (event ≠ .panicked ∧ task'.stage = .Finished ∧ ∃ duration kind, metrics' =
            (metrics.record_error_kind kind).record_scenario scenario.name duration false) ∨
        (event = .panicked ∧ task'.stage = .Panicked ∧ metrics' = metrics)) := by
  obtain ⟨worker, scenario_start, stage⟩ := task
  cases event with
  | started =>
    cases stage <;> simp only [execute_scenario, Option.some.injEq, Prod.mk.injEq,
      reduceCtorEq] at h
    obtain ⟨rfl, rfl⟩ := h
    exact ⟨rfl, .inl ⟨nofun, running_next_step _ _ _, rfl, rfl⟩⟩
  | executed result =>
    cases stage <;> simp only [execute_scenario, Option.some.injEq, Prod.mk.injEq,
      reduceCtorEq] at h
    obtain ⟨rfl, rfl⟩ := h
    exact ⟨rfl, .inl ⟨nofun, rfl, rfl, rfl⟩⟩
  | panicked =>
    cases stage <;> simp only [execute_scenario, Option.some.injEq, Prod.mk.injEq,
      reduceCtorEq] at h
    obtain ⟨rfl, rfl⟩ := h
    exact ⟨rfl, .inr (.inr (.inr ⟨rfl, rfl, rfl⟩))⟩
  | timed_out =>
    cases stage <;> simp only [execute_scenario, Task.time_out, Option.map_eq_some_iff,
      Prod.mk.injEq, reduceCtorEq] at h
    -- the execution is cancelled where it waits, and nothing is recorded yet
    all_goals
      obtain ⟨timed_out, hdue, rfl, rfl⟩ := h
      split at hdue
      · cases hdue
        exact ⟨rfl, .inl ⟨nofun, rfl, rfl, rfl⟩⟩
      · cases hdue
  | locked =>
    cases stage with
    | RecordingStep step step_duration result rest =>
      cases result <;> simp only [execute_scenario, Option.some.injEq, Prod.mk.injEq] at h
      · obtain ⟨rfl, rfl⟩ := h
        exact ⟨rfl, .inl ⟨nofun, rfl, rfl, rfl⟩⟩
      · obtain ⟨rfl, rfl⟩ := h
        exact ⟨rfl, .inl ⟨nofun, running_next_step _ _ _, rfl, rfl⟩⟩
    | Recording scenario_duration error =>
      cases error <;> simp only [execute_scenario, Option.some.injEq, Prod.mk.injEq] at h
      · obtain ⟨rfl, rfl⟩ := h
        exact ⟨rfl, .inr (.inl ⟨nofun, rfl, _, rfl⟩)⟩
      · obtain ⟨rfl, rfl⟩ := h
        exact ⟨rfl, .inr (.inr (.inl ⟨nofun, rfl, _, _, rfl⟩))⟩
    | RecordingTimeout scenario_duration =>
      simp only [execute_scenario, Option.some.injEq, Prod.mk.injEq] at h
      obtain ⟨rfl, rfl⟩ := h
      exact ⟨rfl, .inr (.inr (.inl ⟨nofun, rfl, _, _, rfl⟩))⟩
    | Spawned | Executing | Finished | Panicked =>
      simp only [execute_scenario, reduceCtorEq] at h

end tasks

section steps

variable {scenario : Scenario} {config : RunnerConfig} {runner runner' : Runner}

theorem step_task_cases {index : Nat} {event : TaskEvent}
    (h : runner.step_task scenario config index event = some runner') :
    ∃ task metrics task' metrics', runner.join_set[index]? = some task ∧
      runner.workers[task.worker]? = some metrics ∧
      execute_scenario scenario config.scenario_timeout runner.now task metrics event =
        some (task', metrics') ∧
      runner' = { runner with
        join_set := runner.join_set.set index task'
        workers := runner.workers.set task.worker metrics' } := by
  simp only [Runner.step_task, Option.bind_eq_bind, Option.bind_eq_some_iff, Option.pure_def,
    Option.some.injEq] at h
  obtain ⟨task, htask, metrics, hmetrics, ⟨task', metrics'⟩, hexecute, rfl⟩ := h
  exact ⟨task, metrics, task', metrics', htask, hmetrics, hexecute, rfl⟩

theorem step_next {event : Event} (h : (run_once scenario config).allowed runner event) :
    runner.step scenario config event = some ((run_once scenario config).next runner event) := by
  obtain ⟨runner', hstep⟩ := Option.isSome_iff_exists.mp h
  simp [run_once, hstep]

/-- A join takes a task that is over out of the set. The loop stays where it is. -/
theorem join_cases {index : Nat} (h : runner.join config index = some runner') :
    ∃ task limiter, runner.join_set[index]? = some task ∧ task.running = false ∧
      (limiter = runner.limiter ∨ limiter = runner.limiter.next .drop) ∧
      runner' = { runner with
        join_set := runner.join_set.eraseIdx index
        task_failures := saturating_add runner.task_failures (record_join_result task)
        limiter } := by
  simp only [Runner.join, Option.bind_eq_bind, Option.bind_eq_some_iff] at h
  obtain ⟨task, htask, h⟩ := h
  split at h
  · cases h
  · rename_i hrunning
    rw [Bool.not_eq_true] at hrunning
    split at h
    · cases h
      exact ⟨task, _, htask, hrunning, .inl rfl, rfl⟩
    · cases h
      exact ⟨task, _, htask, hrunning, .inl rfl, rfl⟩
    · split at h
      · cases h
        exact ⟨task, _, htask, hrunning, .inl rfl, rfl⟩
      · cases h
    · cases h
      exact ⟨task, _, htask, hrunning, .inr rfl, rfl⟩
    · cases h
    · cases h

/-- The moves of the loop that leave the tasks and their accounts alone. -/
inductive Moves (config : RunnerConfig) (runner : Runner) : Event → Place → Limiter → Prop
  | reaped : runner.place = .Reaping → Moves config runner .reaped .Gate runner.limiter
  | room : runner.place = .Gate → runner.join_set.length < config.concurrency →
      Moves config runner .room .Acquiring (runner.limiter.next .drop)
  | room_late : runner.place = .Gate → Moves config runner .room .Draining runner.limiter
  | waits : runner.place = .Acquiring →
      Moves config runner .poll .Acquiring (runner.limiter.next .poll)
  | acquires : runner.place = .Acquiring →
      (runner.limiter.bucket.poll runner.limiter.acquire runner.now).2 = none →
      Moves config runner .poll .Acquired (runner.limiter.next .poll)
  | gate_late : runner.place = .Gate → Moves config runner .deadline .Draining runner.limiter
  | acquire_late : runner.place = .Acquiring →
      Moves config runner .deadline .Draining (runner.limiter.next .drop)
  | launch_late : runner.place = .Acquired → Moves config runner .launch .Draining runner.limiter

/-- The run with one more task. -/
def Runner.spawned (config : RunnerConfig) (runner : Runner) : Runner :=
  { runner with
    place := .Reaping
    join_set := runner.join_set ++ [⟨runner.launched % config.concurrency, 0, .Spawned⟩]
    launched := runner.launched + 1
    peak_pending_tasks := max runner.peak_pending_tasks (runner.join_set.length + 1) }

/-- What a step of the run can do. -/
theorem step_cases {event : Event} (h : runner.step scenario config event = some runner') :
    (∃ now, event = .advance now ∧ runner.now ≤ now ∧
      runner' = { runner with limiter := runner.limiter.next (.advance now) }) ∨
    (∃ index task, event = .task index task ∧
      runner.step_task scenario config index task = some runner') ∨
    (∃ index, event = .join index ∧ runner.join config index = some runner') ∨
    (∃ place limiter, Moves config runner event place limiter ∧
      runner' = { runner with place, limiter }) ∨
    (event = .launch ∧ runner.place = .Acquired ∧ runner.now < runner.launch_deadline config ∧
      runner.launched + 1 ≤ usize_MAX ∧ runner' = runner.spawned config) ∨
    (event = .finish ∧ runner.place = .Draining ∧ runner.join_set = [] ∧
      runner' = { runner with place := .Returned (runner.report scenario) }) := by
  cases event with
  | advance now =>
    simp only [Runner.step, Option.ite_none_right_eq_some, Option.some.injEq] at h
    exact .inl ⟨now, rfl, h.1, h.2.symm⟩
  | task index event => exact .inr (.inl ⟨index, event, rfl, h⟩)
  | join index => exact .inr (.inr (.inl ⟨index, rfl, h⟩))
  | reaped =>
    simp only [Runner.step] at h
    split at h
    · rename_i hplace
      cases h
      exact .inr (.inr (.inr (.inl ⟨_, _, .reaped hplace, rfl⟩)))
    · cases h
  | room =>
    simp only [Runner.step] at h
    split at h
    · rename_i hplace
      simp only [Option.ite_none_right_eq_some, Option.some.injEq] at h
      obtain ⟨hroom, rfl⟩ := h
      unfold Runner.room
      refine .inr (.inr (.inr (.inl ?_)))
      split
      · exact ⟨_, _, .room_late hplace, rfl⟩
      · exact ⟨_, _, .room hplace hroom, rfl⟩
    · cases h
  | poll =>
    simp only [Runner.step] at h
    split at h
    · rename_i hplace
      cases h
      unfold Runner.poll
      refine .inr (.inr (.inr (.inl ?_)))
      by_cases hacquire : (runner.limiter.bucket.poll runner.limiter.acquire runner.now).2 = none
      · refine ⟨_, _, .acquires hplace hacquire, ?_⟩
        simp only [if_pos hacquire]
      · refine ⟨_, _, .waits hplace, ?_⟩
        simp only [if_neg hacquire]
    · cases h
  | deadline =>
    simp only [Runner.step, Option.ite_none_right_eq_some] at h
    obtain ⟨-, h⟩ := h
    refine .inr (.inr (.inr (.inl ?_)))
    split at h
    · rename_i hplace
      simp only [Option.ite_none_right_eq_some, Option.some.injEq] at h
      exact ⟨_, _, .gate_late hplace, h.2.symm⟩
    · rename_i hplace
      cases h
      exact ⟨_, _, .acquire_late hplace, rfl⟩
    · cases h
  | launch =>
    simp only [Runner.step] at h
    split at h
    · rename_i hplace
      unfold Runner.launch at h
      split at h
      · cases h
        exact .inr (.inr (.inr (.inl ⟨_, _, .launch_late hplace, rfl⟩)))
      · rename_i hearly
        simp only [Option.ite_none_left_eq_some, Option.some.injEq] at h
        obtain ⟨hcount, rfl⟩ := h
        refine .inr (.inr (.inr (.inr (.inl ⟨rfl, hplace, ?_, ?_, ?_⟩))))
        · exact Nat.lt_of_not_le hearly
        · exact Nat.le_of_not_lt hcount
        · simp [Runner.spawned]
    · cases h
  | finish =>
    simp only [Runner.step] at h
    split at h
    · rename_i hplace
      simp only [Option.ite_none_right_eq_some, Option.some.injEq] at h
      exact .inr (.inr (.inr (.inr (.inr ⟨rfl, hplace, h.1, h.2.symm⟩))))
    · cases h

end steps

end pulse.runner
