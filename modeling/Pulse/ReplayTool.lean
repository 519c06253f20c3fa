-- The replay tool (bin/pulse_dlq.rs): a process reads the topic of dead letters
-- with a consumer group of its own, skips what it cannot or shall not replay,
-- and publishes a new job for each failed job that its filters match.
import Pulse.ReplayExecution
import Pulse.WorkerProtocol

open checks consumers durations json systems
open pulse.config pulse.contracts pulse.kafka pulse.planning pulse.worker

namespace pulse.replay

/-! ## Filters -/

structure ReplayFilters where
  scenario_ids : List String
  reason_contains : Option String
  since_unix_ms : Option Nat
  until_unix_ms : Option Nat

/-- `ReplayFilters::matches`, with the lower case of the standard library. -/
def ReplayFilters.matches_job (to_lowercase : String → String) (filters : ReplayFilters)
    (job : FailedScenarioJob) : Bool :=
  if filters.scenario_ids ≠ [] ∧ job.scenario_id ∉ filters.scenario_ids then false
  else if filters.since_unix_ms.any fun since => job.failed_at_unix_ms < since then false
  else if filters.until_unix_ms.any fun limit => limit < job.failed_at_unix_ms then false
  else
    match filters.reason_contains with
    | some needle =>
      decide ((to_lowercase needle).toList <:+: (to_lowercase job.reason).toList)
    | none => true

end pulse.replay

namespace pulse.dlq

open pulse.replay

def MAX_REPLAY_LIMIT : Nat := 10000

/-! ## The settings of a process -/

/-- What the tool takes from other crates and from the standard library: base64, JSON, lower case
and the formats of numbers. -/
structure Crates where
  decode : String → Except String (List UInt8)
  serde : Serde
  to_string : ScenarioJob → Except String String
  to_lowercase : String → String
  formats : Formats

/-- The settings of one process. -/
structure Tool where
  scenarios : List Scenario
  startup_burst : Nat
  max_duration : Nat
  max_scenarios_per_sec : F64
  max_concurrency : Nat
  consumer_record_max_bytes : Nat
  kafka_delivery_timeout : Nat
  kafka_request_timeout : Nat
  kafka_max_poll_interval : Nat
  rate_per_sec : F64
  limit : Nat
  dry_run : Bool
  idempotent_ack : Bool
  options : ReplayOptions
  filters : ReplayFilters

/-- `1.0 / x` for a positive `x`. -/
def recip : F64 → F64
  | .finite x => .of_exact (1 / x)
  | .infinite _ => .finite 0
  | .nan => .nan

/-- `Duration::try_from_secs_f64`, which rounds to the nearest nanosecond. -/
def try_from_secs_f64 : F64 → Option Nat
  | .finite x =>
    let nanos := floats.nearest (x * 1000000000)
    if x < 0 ∨ Duration.MAX < nanos then none else some nanos.toNat
  | _ => none

def replay_poll_budget (rate_per_sec : F64) (delivery_timeout request_timeout : Nat) :
    Except String Nat := do
  rejectIf (rate_per_sec.is_finite = false ∨ rate_per_sec.le (.finite 0) = true)
    "replay rate must be finite and greater than zero"
  let pacing_delay ← okOr (try_from_secs_f64 (recip rate_per_sec))
    "replay pacing interval exceeds Duration's range"
  okOr ((Duration.checked_add pacing_delay delivery_timeout).bind fun budget =>
    Duration.checked_add budget request_timeout) "replay poll budget overflowed Duration"

namespace Tool

/-- The checks that end the process before it subscribes to the topic. -/
def check (tool : Tool) : Except String Unit := do
  rejectIf (tool.dry_run = false ∧ tool.idempotent_ack = false)
    "refusing to replay without PULSE_DLQ_REPLAY_CONFIRM_IDEMPOTENT=true"
  rejectIf (tool.rate_per_sec.is_finite = false ∨ tool.rate_per_sec.le (.finite 0) = true)
    "must be finite and greater than zero"
  rejectIf (tool.max_scenarios_per_sec.lt tool.rate_per_sec = true)
    "must not exceed PULSE_MAX_SCENARIOS_PER_SEC"
  let poll_budget ← replay_poll_budget tool.rate_per_sec tool.kafka_delivery_timeout
    tool.kafka_request_timeout
  rejectIf (tool.kafka_max_poll_interval ≤ poll_budget)
    ("pacing plus publish and commit can occupy " ++ toString (Duration.as_millis poll_budget) ++
      " ms, which must be less than PULSE_KAFKA_MAX_POLL_INTERVAL_MS (" ++
      toString (Duration.as_millis tool.kafka_max_poll_interval) ++ ")")
  rejectIf (tool.options.scale ≠ .finite 1) ("arbitrary load scaling is no longer accepted " ++
    "because it violates the v2 deterministic plan contract; use 1.0 and bound replay record " ++
    "pacing with PULSE_DLQ_REPLAY_RATE_PER_SEC")
  rejectIf (tool.limit = 0 ∨ MAX_REPLAY_LIMIT < tool.limit) "must be between 1 and 10000 records"

/-- The map of the scenarios: of two with one name, the later one is in it. -/
def scenario (tool : Tool) (name : String) : Option Scenario :=
  tool.scenarios.reverse.find? fun scenario => scenario.name = name

end Tool

/-! ## One record -/

def validate_consumed_record_size (message : Message) (record_max_bytes : Nat) :
    Except String Unit := do
  let total := message.key_bytes + message.payload_bytes
  rejectIf (USIZE_MAX < total) "consumed Kafka record byte length overflowed"
  rejectIf (record_max_bytes < total) ("Kafka record exceeds configured " ++
    toString record_max_bytes ++ "-byte consumer limit (total=" ++ toString total ++ ", key=" ++
    toString message.key_bytes ++ ", payload=" ++ toString message.payload_bytes ++ ")")

/-- What the loop makes of a record. -/
inductive Verdict
  | Stop (reason : String)
  | Poison (record : PoisonMessageRecord)
  | Filtered (failed : FailedScenarioJob)
  | Unknown (failed : FailedScenarioJob)
  | Matched (failed : FailedScenarioJob) (scenario : Scenario)

def Tool.classify (crates : Crates) (tool : Tool) (message : Message) : Verdict :=
  match validate_consumed_record_size message tool.consumer_record_max_bytes with
  | .error error => .Stop error
  | .ok () =>
    match message.payload with
    | none => .Stop "received DLQ message without payload"
    | some payload =>
      match decode_replay_record crates.decode crates.serde payload with
      | .error error => .Stop error
      | .ok (.Poison record) => .Poison record
      | .ok (.FailedJob failed) =>
        if tool.filters.matches_job crates.to_lowercase failed then
          match tool.scenario failed.scenario_id with
          | none => .Unknown failed
          | some scenario => .Matched failed scenario
        else .Filtered failed

/-- The job for a failed job at a place of the topic. -/
def Tool.replay_job (crates : Crates) (tool : Tool) (topic : String) (partition : Int32)
    (offset : Nat) (failed : FailedScenarioJob) (scenario : Scenario) :
    Except String ScenarioJob := do
  let replay_source ← ReplaySource.new topic partition (Int64.ofNat offset)
  let replay_job ← build_replay_job failed replay_source scenario tool.startup_burst tool.options
  (replay_job.validate_limits crates.formats tool.max_duration tool.max_scenarios_per_sec
    tool.max_concurrency).mapError (·.display)
  return replay_job

/-! ## The processes -/

/-- Where a process is. One that has ended is not started again: the next one is another process. -/
inductive Phase
  | Waiting
  | Publishing (delivery : Consumed) (key : String) (job : ScenarioJob)
  | Committing (delivery : Consumed)
  | Confirming (delivery : Consumed)
  | Ended

def Phase.delivery : Phase → Option (Consumed)
  | .Waiting | .Ended => none
  | .Publishing delivery _ _ | .Committing delivery | .Confirming delivery => some delivery

/-- A job that is on the topic of jobs, with the process that published it and the place of its
dead letter. -/
structure Sent (ν : Type) where
  process : ν
  partition : Int32
  offset : Nat
  key : String
  job : ScenarioJob

variable {ν : Type} [DecidableEq ν]

/-- The topic of dead letters with the group of the processes, the number of records that each has
seen, and the jobs that they published. In a dry run a process only looks at what its session has
read: `examined` counts those records. -/
structure Replays (ν : Type) where
  group : Group ν Int32 Message Phase
  seen : ν → Nat
  examined : ν → Nat
  sent : List (Sent ν)

namespace Replays

def enter (s : Replays ν) (process : ν) (phase : Phase) : Replays ν :=
  { s with group := s.group.enter process phase }

/-- The loop is left. -/
def leave (s : Replays ν) (process : ν) : Replays ν :=
  { s with group := s.group.leave process .Ended }

def note (s : Replays ν) (process : ν) : Replays ν :=
  { s with seen := Function.update s.seen process (s.seen process + 1) }

/-- A record is received, in a run that is no dry run. -/
def take (crates : Crates) (topic : String) (tool : Tool) (s : Replays ν) (process : ν) :
    Replays ν :=
  match s.group.phase process, (s.group.topic.session process).queue with
  | .Waiting, delivery :: _ =>
    if tool.limit ≤ s.seen process then s.leave process
    else
      let s := s.note process
      match tool.classify crates delivery.message with
      | .Stop _ | .Unknown _ => s.leave process
      | .Poison _ | .Filtered _ => s.enter process (.Committing delivery)
      | .Matched failed scenario =>
        match tool.replay_job crates topic delivery.partition delivery.offset failed scenario with
        | .ok job => s.enter process (.Publishing delivery
            (scenario.config.partition_key_strategy.key_for job) job)
        | .error _ => s.leave process
  | _, _ => s

/-- A record is received in a dry run: it is counted and stays unsettled. -/
def examine (crates : Crates) (tool : Tool) (s : Replays ν) (process : ν) : Replays ν :=
  match s.group.phase process,
    (s.group.topic.session process).queue[s.examined process]? with
  | .Waiting, some delivery =>
    if tool.limit ≤ s.seen process then s.leave process
    else
      let s := s.note process
      match tool.classify crates delivery.message with
      | .Stop _ => s.leave process
      | _ => { s with examined := Function.update s.examined process (s.examined process + 1) }
  | _, _ => s

def receive (crates : Crates) (topic : String) (tool : Tool) (s : Replays ν) (process : ν) :
    Replays ν :=
  if tool.dry_run then s.examine crates tool process else s.take crates topic tool process

/-- `publish_job`: the job is checked and written before it is sent. -/
def publish (crates : Crates) (s : Replays ν) (process : ν) (sending : Sending) : Replays ν :=
  match s.group.phase process with
  | .Publishing delivery key job =>
    let sent : Sent ν := ⟨process, delivery.partition, delivery.offset, key, job⟩
    match sending, serialize_validated_job crates.to_string job with
    | .Acknowledged, .ok _ =>
      { s with sent := s.sent ++ [sent] }.enter process (.Committing delivery)
    | .Ambiguous, .ok _ => { s with sent := s.sent ++ [sent] }.leave process
    | _, _ => s.leave process
  | _ => s

/-- `commit_message` up to its request. It does not look at the assignment. -/
def commit (s : Replays ν) (process : ν) : Replays ν :=
  match s.group.phase process with
  | .Committing delivery =>
    { s with group := s.group.request process delivery (.Confirming delivery) }
  | _ => s

/-- The answer to the commit, or an error. -/
def confirm (s : Replays ν) (process : ν) (answered : Bool) : Replays ν :=
  match s.group.phase process with
  | .Confirming delivery =>
    if answered ∧ s.group.topic.landed.contains (delivery.partition, delivery.offset + 1) then
      { s with group := s.group.finish process .Waiting }
    else s.leave process
  | _ => s

end Replays

/-- What can happen: the broker and the sessions move, and a process goes on or ends, by a signal
or a crash. -/
inductive Event (ν : Type)
  | broker (move : Move ν Int32 Message)
  | receive (process : ν)
  | publish (process : ν) (sending : Sending)
  | commit (process : ν)
  | confirm (process : ν) (answered : Bool)
  | stop (process : ν)

def Replays.step (crates : Crates) (topic : String) (tools : ν → Tool) (s : Replays ν) :
    Event ν → Replays ν
  | .broker move => { s with group := s.group.move move }
  | .receive process => s.receive crates topic (tools process) process
  | .publish process sending => s.publish crates process sending
  | .commit process => s.commit process
  | .confirm process answered => s.confirm process answered
  | .stop process => s.leave process

def Replays.start (log : Int32 → List Message) : Replays ν where
  group := ⟨⟨log, fun _ => 0, fun _ => .closed 0, [], []⟩, fun _ => .Waiting⟩
  seen := fun _ => 0
  examined := fun _ => 0
  sent := []

/-- Any number of processes, each with its settings. One whose settings are refused receives
nothing. -/
def replaySystem (crates : Crates) (topic : String) (tools : ν → Tool) :
    System (Replays ν) (Event ν) where
  initial s := ∃ log, s = Replays.start log
  allowed _ event :=
    match event with
    | .receive process => (tools process).check = .ok ()
    | _ => True
  next := .step crates topic tools

/-! ## Three processes on two dead letters -/

/-- The texts of a failed job and of a poison record. -/
def sampleLetters : List json.Value :=
  [.Object checkoutFailed.to_members, .Object samplePoison.to_members]

def sampleCrates : Crates where
  decode := fun _ => .ok [0]
  serde := json.serdeOf sampleLetters
  to_string := fun job => .ok (kafka.jobText job)
  to_lowercase := id
  formats := sampleFormats

/-- The last process is a dry run. -/
def sampleTools (process : Nat) : Tool where
  scenarios := [sampleScenario 30000000000]
  startup_burst := 0
  max_duration := 60000000000
  max_scenarios_per_sec := .finite 100
  max_concurrency := 100
  consumer_record_max_bytes := 1024
  kafka_delivery_timeout := 10000000000
  kafka_request_timeout := 5000000000
  kafka_max_poll_interval := 60000000000
  rate_per_sec := .finite 5
  limit := 2
  dry_run := process = 2
  idempotent_ack := true
  options := sampleOptions
  filters := ⟨["checkout"], some "boom", some 7, none⟩

/-- The first publication is ambiguous and ends its process. The second process publishes the job
again and goes on to the poison record; the third one reads on from there. -/
def sampleReplayEvents : List (Event Nat) :=
  [.broker (.assign 2 0), .broker (.fetch 2 0), .broker (.enqueue 2), .receive 2,
    .broker (.assign 0 0), .broker (.fetch 0 0), .broker (.enqueue 0), .receive 0,
    .publish 0 .Ambiguous,
    .broker (.assign 1 0), .broker (.fetch 1 0), .broker (.enqueue 1), .receive 1,
    .publish 1 .Acknowledged, .commit 1, .broker (.land 0 1), .confirm 1 true,
    .broker (.fetch 1 0), .broker (.enqueue 1), .receive 1, .commit 1, .broker (.land 0 2)]

def sampleReplays : Replays Nat :=
  sampleReplayEvents.foldl (.step sampleCrates "dlq" sampleTools)
    (.start fun p => if p = 0 then
      sampleLetters.map fun letter => ⟨none, some (json.printed letter).toUTF8.data.toList⟩
    else [])

theorem sampleReplays_reachable :
    Reachable (replaySystem sampleCrates "dlq" sampleTools) sampleReplays := by
  have hchecks : ∀ process < 3, (sampleTools process).check = .ok () := by decide +kernel
  refine .foldl (S := replaySystem sampleCrates "dlq" sampleTools)
    (.initial ⟨_, rfl⟩) ?_
  simp [Allowed, sampleReplayEvents, replaySystem, hchecks]

end pulse.dlq
