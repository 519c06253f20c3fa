-- What a worker does with a job around its execution: the checks before it
-- claims the execution, and the retry or the dead letter that settles a
-- failure of the infrastructure.
import Pulse.FailedRecords
import Pulse.SlicePlan

open checks durations Duration strings
open pulse.config pulse.contracts pulse.planning

namespace pulse.kafka

/-- The text of a job is written by the JSON crate. -/
def serialize_validated_job (to_string : ScenarioJob → Except String String) (job : ScenarioJob) :
    Except String String := do
  job.validate.mapError fun error =>
    "refusing to publish invalid scenario job: " ++ error.display
  (to_string job).mapError fun error => "failed to serialize scenario job: " ++ error

end pulse.kafka

namespace pulse.service

/-! ## The configuration of a node -/

structure NodeRuntimeConfig where
  worker_max_retries : UInt32
  worker_retry_base_delay : Nat
  worker_retry_max_delay : Nat
  max_job_duration : Nat
  max_scenarios_per_sec : F64
  max_concurrency : Nat
  startup_burst : Nat

/-- The configuration that `main` gives to a node. -/
def node_runtime_config (config : AppConfig) : NodeRuntimeConfig where
  worker_max_retries := UInt32.ofNat config.worker_max_retries
  worker_retry_base_delay := config.worker_retry_base_delay
  worker_retry_max_delay := config.worker_retry_max_delay
  max_job_duration := config.max_duration
  max_scenarios_per_sec := config.max_scenarios_per_sec
  max_concurrency := config.max_concurrency
  startup_burst := config.startup_burst

abbrev Plans := String → Option ScenarioExecutionPlan

/-! ## Delays -/

/-- Wrapping arithmetic of 64 bits. -/
def retry_hash (attempt : UInt32) (entropy : String) : Nat :=
  entropy.toUTF8.data.toList.foldl
    (fun state byte => (state * 1099511628211 % 2 ^ 64 + byte.toNat) % 2 ^ 64)
    ((attempt.toNat + 0x9e3779b9) % 2 ^ 64)

def retry_delay (base maximum : Nat) (attempt : UInt32) (entropy : String) : Nat :=
  let multiplier := 2 ^ min attempt.toNat 16
  let exponential := min (saturating_mul base multiplier) maximum
  let basis_points := 8000 + retry_hash attempt entropy % 4001
  let jittered_nanos := min (exponential * basis_points) (2 ^ 128 - 1) / 10000
  min (min jittered_nanos (2 ^ 64 - 1)) maximum

def deferred_job_delay (job : ScenarioJob) (now_unix_ms : Nat) : Nat :=
  from_millis (min (job.not_before_unix_ms - now_unix_ms) (2 ^ 64 - 1))

/-! ## The checks before the claim -/

/-- No paced scenario starts in the window. -/
def zero_start (load : JobLoadConfig) : Prop :=
  load.startup_burst = 0 ∧
    (load.scenarios_per_sec.value.mul (as_secs_f64 load.duration)).lt (.finite 1) = true

instance (load : JobLoadConfig) : Decidable (zero_start load) :=
  inferInstanceAs (Decidable (_ ∧ _))

/-- The checks of `process_once` before the claim. An error is the reason of the dead letter. -/
def pre_claim_checks (formats : Formats) (config : NodeRuntimeConfig) (plans : Plans)
    (job : ScenarioJob) (now_unix_ms : Nat) : Except String Unit := do
  (job.validate_limits formats config.max_job_duration config.max_scenarios_per_sec
    config.max_concurrency).mapError fun error => "invalid job contract: " ++ error.display
  (deterministic_job_plan_error formats job plans config.startup_burst
    config.worker_max_retries).elim (.ok ()) .error
  rejectIf (config.worker_retry_max_delay < deferred_job_delay job now_unix_ms)
    ("invalid retry deferral: remaining not-before delay " ++
      toString (as_millis (deferred_job_delay job now_unix_ms)) ++
      " ms exceeds configured maximum " ++
      toString (as_millis config.worker_retry_max_delay) ++ " ms")
  rejectIf (zero_start job.load) ("invalid load plan: no paced scenario can start inside this " ++
    "window without an explicit startup burst")

/-! ## The settlement of a failure -/

/-- What is published for a failure of the infrastructure. -/
inductive Settlement
  | DeadLetter (record : FailedScenarioJob)
  | Retry (partition_key : String) (retry_job : ScenarioJob)

/-- `u32::saturating_add(1)`. -/
def next_attempt (attempt : UInt32) : UInt32 :=
  if attempt.toNat = config.U32_MAX then attempt else attempt + 1

def exhausted_reason (job : ScenarioJob) (reason : String) : String :=
  "automatic retry attempts exhausted at attempt " ++ toString job.attempt ++ "/" ++
    toString job.max_retries ++ ": " ++ reason

/-- The record that `settle_infrastructure_failure` publishes at the time `now_unix_ms`. -/
def settle_infrastructure_failure (config : NodeRuntimeConfig)
    (plan : Option ScenarioExecutionPlan) (job : ScenarioJob) (reason : String)
    (now_unix_ms : Nat) : Settlement :=
  if job.max_retries ≤ job.attempt then
    .DeadLetter (failed_job job (exhausted_reason job reason) now_unix_ms)
  else
    let delay := retry_delay config.worker_retry_base_delay config.worker_retry_max_delay
      job.attempt job.execution_key
    let retry_job := { job with
      attempt := next_attempt job.attempt
      not_before_unix_ms := min (now_unix_ms + as_millis delay) (2 ^ 128 - 1) }
    let partition_key := (plan.map fun plan =>
      plan.scenario.config.partition_key_strategy.key_for retry_job).getD retry_job.execution_key
    .Retry partition_key retry_job

end pulse.service
