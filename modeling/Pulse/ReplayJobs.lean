-- The replay of a failed job: a new run of one slice, whose identity is made
-- of the place of the dead letter in Kafka and of the event that it tells.
import Pulse.Base64
import Pulse.FailedRecords
import Pulse.SlicePlan

open checks strings
open pulse.config pulse.contracts pulse.planning

namespace pulse.replay

structure ReplayOptions where
  scale : F64
  worker_max_retries : UInt32
  execution_semantics_fingerprint : String

/-- The place of a dead letter. -/
structure ReplaySource where
  topic : String
  partition : Int32
  offset : Int64
  topic_ok : is_blank topic = false ∧ len topic ≤ 249
  partition_nonneg : ¬ partition < 0
  offset_nonneg : ¬ offset < 0

def ReplaySource.new (topic : String) (partition : Int32) (offset : Int64) :
    Except String ReplaySource :=
  if hblank : is_blank topic = true then .error "replay source topic must not be empty"
  else if hlen : 249 < len topic then
    .error "replay source topic exceeds Kafka's 249-byte limit"
  else if hpartition : partition < 0 then
    .error "replay source partition must be non-negative"
  else if hoffset : offset < 0 then .error "replay source offset must be non-negative"
  else .ok ⟨topic, partition, offset, ⟨by simpa using hblank, by omega⟩, hpartition, hoffset⟩

/-- The event of a failed job. Records of version 1 do not name it. -/
def failed_event_identity (failed : FailedScenarioJob) : String :=
  if failed.event_id = "" then build_terminal_event_id failed.execution_key failed.attempt "dlq"
  else failed.event_id

/-- The identity of the run that replays the event with this hash. -/
def replay_run_id (source : ReplaySource) (event_hash : Nat) : String :=
  "v" ++ toString CURRENT_CONTRACT_VERSION ++ ":replay:t" ++
    base64.encode source.topic.toUTF8.data.toList ++ ":p" ++ toString source.partition ++
    ":o" ++ toString source.offset ++ ":e" ++ hex 32 event_hash

/-- The job of a replay, when nothing stops it. -/
def replayed_job (failed : FailedScenarioJob) (source : ReplaySource) (scenario : Scenario)
    (global_startup_burst : Nat) (options : ReplayOptions) : ScenarioJob :=
  let run_id := replay_run_id source (fnv1a_128 (failed_event_identity failed).toUTF8.data.toList)
  { schema_version := CURRENT_CONTRACT_VERSION
    scenario_id := failed.scenario_id
    run_id
    execution_key := run_id ++ ":slice-0-of-1"
    plan_fingerprint := scenario_plan_fingerprint scenario 1 global_startup_burst
      options.worker_max_retries options.execution_semantics_fingerprint
    scheduled_at_unix_ms := failed.failed_at_unix_ms
    not_before_unix_ms := 0
    slice := ⟨0, 1⟩
    load := ⟨scenario.config.scenarios_per_sec, scenario.config.duration,
      scenario.config.max_concurrency, global_startup_burst⟩
    attempt := 0
    max_retries := options.worker_max_retries }

def build_replay_job (failed : FailedScenarioJob) (source : ReplaySource) (scenario : Scenario)
    (global_startup_burst : Nat) (options : ReplayOptions) : Except String ScenarioJob := do
  rejectIf (options.scale ≠ .finite 1)
    "v2 replay scale must be exactly 1.0 so the job matches the deterministic local plan"
  rejectIf (scenario.config.max_concurrency < global_startup_burst)
    ("startup burst " ++ toString global_startup_burst ++ " exceeds scenario concurrency " ++
      toString scenario.config.max_concurrency)
  let job := replayed_job failed source scenario global_startup_burst options
  [("replay run_id", job.run_id), ("replay execution_key", job.execution_key)].forM
    fun (field, value) => rejectIf (MAX_CONTRACT_ID_BYTES < len value)
      (field ++ " exceeds the " ++ toString MAX_CONTRACT_ID_BYTES ++
        "-byte contract identity bound")
  return job

end pulse.replay
