-- The workers (application/service.rs): from the record that a session hands to
-- the worker of its node to the commit of its offset, with Kafka, the execution
-- records of Redis, and every call that may fail or stay without an answer.
import Pulse.ConsumedRecords
import Pulse.Identities
import Pulse.LeaseBudgets
import Pulse.RunnerAccounting
import Pulse.Systems
import Pulse.WorkerChecks

open checks consumers counters systems
open pulse.contracts pulse.coordination pulse.execution_lease pulse.kafka pulse.service

namespace pulse.worker

/-! ## What an execution publishes -/

/-- The record that settles an attempt. -/
inductive Publication
  | Result (result : ScenarioRunResult)
  | Retry (partition_key : String) (retry_job : ScenarioJob)
  | DeadLetter (failed : FailedScenarioJob)

def Publication.outcome : Publication → TerminalOutcome
  | .Result _ => .ResultPublished
  | .Retry _ _ => .RetryPublished
  | .DeadLetter _ => .DeadLetterPublished

/-- `report.summary.error_counts.get(kind).copied().unwrap_or(0)`. -/
def failures (report : runner.RunReport) (kind : String) : Nat :=
  count report.summary.error_counts kind

/-- What `execute_and_publish` makes of a report. An invariant that was violated leaves the source
unsettled. -/
def chosen_publication (config : NodeRuntimeConfig) (plans : Plans) (job : ScenarioJob)
    (report : runner.RunReport) (started_at finished_at now_unix_ms : Nat) : Option Publication :=
  match plans job.scenario_id with
  | none => some (.DeadLetter (failed_job job "unknown scenario" now_unix_ms))
  | some plan =>
    let infrastructure_failures := failures report "pulse_infrastructure"
    let permanent_failures :=
      (["permanent_processing", "invalid_scenario", "missing_context_var"].map
        (failures report)).sum
    if 0 < failures report "invariant_violation" then none
    else if 0 < infrastructure_failures then
      match settle_infrastructure_failure config (some plan) job ("scenario attempt measured " ++
        toString infrastructure_failures ++ " transient Pulse infrastructure failure(s)")
        now_unix_ms with
      | .DeadLetter record => some (.DeadLetter record)
      | .Retry partition_key retry_job => some (.Retry partition_key retry_job)
    else if 0 < permanent_failures then
      some (.DeadLetter (failed_job job ("scenario attempt measured " ++
        toString permanent_failures ++ " permanent Pulse processing failure(s)") now_unix_ms))
    else some (.Result (scenario_run_result job report started_at finished_at))

/-! ## The worker of a node -/

/-- Where a worker is with its record. A number counts the publications or calls that were tried
before. -/
inductive Phase
  | Waiting
  | Checking (delivery : Consumed) (job : ScenarioJob)
  | Poisoning (delivery : Consumed) (poison : PoisonMessageRecord) (attempt : Nat)
  | Rejecting (delivery : Consumed) (failed : FailedScenarioJob) (attempt : Nat)
  | Claiming (delivery : Consumed) (job : ScenarioJob)
  | Executing (delivery : Consumed) (job : ScenarioJob) (lease : ExecutionLease)
  | Verifying (delivery : Consumed) (lease : ExecutionLease)
      (publication : Publication) (attempt : Nat)
  | Publishing (delivery : Consumed) (lease : ExecutionLease)
      (publication : Publication) (attempt : Nat)
  | Completing (delivery : Consumed) (lease : ExecutionLease)
      (outcome : TerminalOutcome) (attempt : Nat)
  | Releasing (lease : ExecutionLease)
  | Committing (delivery : Consumed)
  | Confirming (delivery : Consumed)

namespace Phase

/-- The record that the worker goes on with. -/
def delivery : Phase → Option (Consumed)
  | .Waiting | .Releasing _ => none
  | .Checking delivery _ | .Poisoning delivery _ _ | .Rejecting delivery _ _ | .Claiming delivery _
  | .Executing delivery _ _ | .Verifying delivery _ _ _ | .Publishing delivery _ _ _
  | .Completing delivery _ _ _ | .Committing delivery | .Confirming delivery => some delivery

/-- The lease that `lease_renewal_until_loss` keeps alive. -/
def lease : Phase → Option ExecutionLease
  | .Executing _ _ lease | .Verifying _ lease _ _ | .Publishing _ lease _ _
  | .Completing _ lease _ _ => some lease
  | _ => none

end Phase

/-- What the workers are run with. JSON and base64 are read and written by other crates, and
`key_space` is the start of the keys of execution records. -/
structure WorkerRuntime where
  topic : String
  parse : List UInt8 → Except String ScenarioJob
  to_string : ScenarioJob → Except String String
  decode : String → Except String (List UInt8)
  record_max_bytes : Nat
  formats : Formats
  plans : Plans
  config : NodeRuntimeConfig
  execution_renew_interval : Nat
  key_space : String
  store : RedisIdempotencyStore

def WorkerRuntime.local_settlement_attempt_limit (r : WorkerRuntime) : Nat :=
  max (min (r.config.worker_max_retries.toNat + 1) config.U32_MAX) 1

/-- How a call of Redis ends. One without an answer may be executed at any later time, or never. -/
inductive Call
  | Answered
  | Unanswered

/-- How a publication ends. After an ambiguous one the record is on its topic, and the worker has an
error. -/
inductive Sending
  | Acknowledged
  | Failed
  | Ambiguous

/-- When a call was sent and when its answer came, on the clock of the node. -/
structure Response where
  call : Call
  request_started : Nat
  answered_at : Nat

/-! ## The system -/

variable {ν : Type} [DecidableEq ν]

/-- The jobs topic with its sessions and workers, Redis at its time, the calls of `complete` that
had no answer, and the topics of results and dead letters. -/
structure Workers (ν : Type) where
  group : Group ν Int32 Message Phase
  now_ms : Nat
  records : String → ExecutionKey
  completions : List (ExecutionLease × TerminalOutcome)
  results : List ScenarioRunResult
  failed : List FailedScenarioJob
  poisons : List PoisonMessageRecord

namespace Workers

def enter (s : Workers ν) (node : ν) (phase : Phase) : Workers ν :=
  { s with group := s.group.enter node phase }

/-- The worker ends with its source unsettled, and its node goes down with it. -/
def leave (s : Workers ν) (node : ν) : Workers ν :=
  { s with group := s.group.leave node .Waiting }

def write (s : Workers ν) (name : String) (key : ExecutionKey) : Workers ν :=
  { s with records := Function.update s.records name key }

/-- After a failed try: the next one, or what follows the last one. -/
def again (r : WorkerRuntime) (s : Workers ν) (node : ν) (attempt : Nat) (next : Phase)
    (last : Workers ν) : Workers ν :=
  if r.local_settlement_attempt_limit ≤ attempt + 1 then last else s.enter node next

/-! ### Before the claim -/

/-- A record is taken from the queue. It was decoded when it was read. -/
def take (r : WorkerRuntime) (s : Workers ν) (node : ν) (now_unix_ms : Nat) : Workers ν :=
  match s.group.phase node, (s.group.topic.session node).queue with
  | .Waiting, delivery :: _ =>
    match decode_consumed_job r.parse r.record_max_bytes delivery.message with
    | .ok job => s.enter node (.Checking delivery job)
    | .error error => s.enter node
        (.Poisoning delivery (consumed_poison_record r.topic delivery error.display now_unix_ms) 0)
  | _, _ => s

/-- `publish_poison_with_retry`. -/
def publish_poison (r : WorkerRuntime) (s : Workers ν) (node : ν) (sending : Sending) :
    Workers ν :=
  match s.group.phase node with
  | .Poisoning delivery poison attempt =>
    let next := Phase.Poisoning delivery poison (attempt + 1)
    match sending, validated_poison r.decode poison with
    | .Acknowledged, .ok sent =>
      { s with poisons := s.poisons ++ [sent] }.enter node (.Committing delivery)
    | .Ambiguous, .ok sent =>
      let s := { s with poisons := s.poisons ++ [sent] }
      s.again r node attempt next (s.leave node)
    | _, _ => s.again r node attempt next (s.leave node)
  | _ => s

/-- `process_once` up to the claim. -/
def check (r : WorkerRuntime) (s : Workers ν) (node : ν) (now_unix_ms : Nat) : Workers ν :=
  match s.group.phase node with
  | .Checking delivery job =>
    match pre_claim_checks r.formats r.config r.plans job now_unix_ms with
    | .ok () => s.enter node (.Claiming delivery job)
    | .error reason => s.enter node (.Rejecting delivery (failed_job job reason now_unix_ms) 0)
  | _ => s

/-- `publish_failed_with_retry`. -/
def publish_failed (r : WorkerRuntime) (s : Workers ν) (node : ν) (sending : Sending) :
    Workers ν :=
  match s.group.phase node with
  | .Rejecting delivery failed attempt =>
    let next := Phase.Rejecting delivery failed (attempt + 1)
    match sending, validated_failed_job failed with
    | .Acknowledged, .ok sent =>
      { s with failed := s.failed ++ [sent] }.enter node (.Committing delivery)
    | .Ambiguous, .ok sent =>
      let s := { s with failed := s.failed ++ [sent] }
      s.again r node attempt next (s.leave node)
    | _, _ => s.again r node attempt next (s.leave node)
  | _ => s

/-! ### Under a lease -/

def claim (r : WorkerRuntime) (s : Workers ν) (node : ν) (owner_token : String)
    (response : Response) : Workers ν :=
  match s.group.phase node with
  | .Claiming delivery job =>
    match response.call with
    | .Unanswered => s.leave node
    | .Answered =>
      let claim : ExecutionClaim := ⟨job.execution_key, job.attempt.toNat⟩
      let name := key_for r.key_space claim
      let (answer, key) := r.store.claim s.now_ms owner_token claim (s.records name)
      let s := s.write name key
      match answer with
      | .ok (.Acquired lease) =>
        if lease_response_has_safe_budget response.request_started lease.ttl
            r.execution_renew_interval response.answered_at then
          s.enter node (.Executing delivery job lease)
        else s.leave node
      -- a duplicate is committed on the word of the record
      | .ok (.AlreadyCompleted _) => s.enter node (.Committing delivery)
      | .ok (.Busy _) => s.enter node (.Checking delivery job)
      | .error _ => s.leave node
  | _ => s

/-- A renewal, and whether the worker still holds its lease after the answer. -/
def renew (r : WorkerRuntime) (s : Workers ν) (lease : ExecutionLease) (response : Response) :
    Bool × Workers ν :=
  match response.call with
  | .Unanswered => (false, s)
  | .Answered =>
    let name := key_for_lease r.key_space lease
    let (answer, key) := r.store.renew s.now_ms lease (s.records name)
    match answer with
    | .ok renewed =>
      (lease_response_has_safe_budget response.request_started renewed.ttl
        r.execution_renew_interval response.answered_at, s.write name key)
    | .error _ => (false, s.write name key)

/-- `lease_renewal_until_loss`, beside the work of the lease. -/
def keep_lease (r : WorkerRuntime) (s : Workers ν) (node : ν) (response : Response) : Workers ν :=
  match (s.group.phase node).lease with
  | some lease =>
    let (held, s) := s.renew r lease response
    if held then s else s.enter node (.Releasing lease)
  | none => s

/-- `execute_and_publish` up to its publication. -/
def execute (r : WorkerRuntime) (s : Workers ν) (node : ν) (report : runner.RunReport)
    (started_at finished_at now_unix_ms : Nat) : Workers ν :=
  match s.group.phase node with
  | .Executing delivery job lease =>
    match chosen_publication r.config r.plans job report started_at finished_at now_unix_ms with
    | some publication => s.enter node (.Verifying delivery lease publication 0)
    | none => s.enter node (.Releasing lease)
  | _ => s

/-- `verify_publication_lease`. -/
def verify (r : WorkerRuntime) (s : Workers ν) (node : ν) (response : Response) : Workers ν :=
  match s.group.phase node with
  | .Verifying delivery lease publication attempt =>
    let (held, s) := s.renew r lease response
    if held then s.enter node (.Publishing delivery lease publication attempt)
    else s.enter node (.Releasing lease)
  | _ => s

/-- What a publisher checks and appends. A retry goes to a partition of the jobs topic. -/
def append (r : WorkerRuntime) (s : Workers ν) (partition : Int32) :
    Publication → Except String (Workers ν)
  | .Result result => do
    result.validate.mapError fun error =>
      "refusing to publish invalid scenario result: " ++ error.display
    return { s with results := s.results ++ [result] }
  | .Retry partition_key retry_job => do
    let payload ← serialize_validated_job r.to_string retry_job
    return { s with group := s.group.move (.append partition
      ⟨some partition_key.toUTF8.data.toList, some payload.toUTF8.data.toList⟩) }
  | .DeadLetter failed => do
    let sent ← validated_failed_job failed
    return { s with failed := s.failed ++ [sent] }

/-- The publications under a lease, each after an owner check. -/
def publish (r : WorkerRuntime) (s : Workers ν) (node : ν) (sending : Sending)
    (partition : Int32) : Workers ν :=
  match s.group.phase node with
  | .Publishing delivery lease publication attempt =>
    let next := Phase.Verifying delivery lease publication (attempt + 1)
    match sending, s.append r partition publication with
    | .Acknowledged, .ok s => s.enter node (.Completing delivery lease publication.outcome 0)
    | .Ambiguous, .ok s => s.again r node attempt next (s.enter node (.Releasing lease))
    | _, _ => s.again r node attempt next (s.enter node (.Releasing lease))
  | _ => s

/-- `complete_until_acknowledged`. -/
def complete (r : WorkerRuntime) (s : Workers ν) (node : ν) (call : Call) : Workers ν :=
  match s.group.phase node with
  | .Completing delivery lease outcome attempt =>
    let next := Phase.Completing delivery lease outcome (attempt + 1)
    match call with
    | .Unanswered =>
      let s := { s with completions := (lease, outcome) :: s.completions }
      s.again r node attempt next (s.enter node (.Releasing lease))
    | .Answered =>
      let name := key_for_lease r.key_space lease
      let (answer, key) := r.store.complete s.now_ms lease outcome (s.records name)
      let s := s.write name key
      match answer with
      | .ok _ => s.enter node (.Committing delivery)
      | .error (.StaleOwner _) => s.enter node (.Releasing lease)
      | .error _ => s.again r node attempt next (s.enter node (.Releasing lease))
  | _ => s

/-- The end of `execute_with_lease` for an unsettled source. -/
def release (r : WorkerRuntime) (s : Workers ν) (node : ν) (call : Call) : Workers ν :=
  match s.group.phase node with
  | .Releasing lease =>
    match call with
    | .Unanswered => s.leave node
    | .Answered =>
      let name := key_for_lease r.key_space lease
      (s.write name (RedisIdempotencyStore.release s.now_ms lease (s.records name)).2).leave node
  | _ => s

/-! ### After the settlement -/

def commit (s : Workers ν) (node : ν) : Workers ν :=
  match s.group.phase node with
  | .Committing delivery =>
    { s with group := commit_offset s.group node delivery (.Confirming delivery) .Waiting }
  | _ => s

def confirm (s : Workers ν) (node : ν) : Workers ν :=
  match s.group.phase node with
  | .Confirming delivery => { s with group := commit_answered s.group node delivery .Waiting }
  | _ => s

end Workers

/-! ## Events -/

/-- What happens to Redis beside the answered calls of the workers: time passes, calls that had no
answer are executed, and a key is lost. -/
inductive RedisOp
  | wait (ms : Nat)
  | claim (owner_token : String) (claim : ExecutionClaim)
  | renew (lease : ExecutionLease)
  | complete (lease : ExecutionLease) (outcome : TerminalOutcome)
  | release (lease : ExecutionLease)
  | evict (name : String)

def Workers.redis (r : WorkerRuntime) (s : Workers ν) : RedisOp → Workers ν
  | .wait ms => { s with now_ms := s.now_ms + ms }
  | .claim owner_token claim =>
    let name := key_for r.key_space claim
    s.write name (r.store.claim s.now_ms owner_token claim (s.records name)).2
  | .renew lease =>
    let name := key_for_lease r.key_space lease
    s.write name (r.store.renew s.now_ms lease (s.records name)).2
  | .complete lease outcome =>
    if (lease, outcome) ∈ s.completions then
      let name := key_for_lease r.key_space lease
      s.write name (r.store.complete s.now_ms lease outcome (s.records name)).2
    else s
  | .release lease =>
    let name := key_for_lease r.key_space lease
    s.write name (RedisIdempotencyStore.release s.now_ms lease (s.records name)).2
  | .evict name => s.write name none

/-- A record that reaches the topic of results or of dead letters late. A late job is an append of
the broker. -/
inductive LateRecord
  | Result (result : ScenarioRunResult)
  | Failed (failed : FailedScenarioJob)
  | Poison (poison : PoisonMessageRecord)

def Workers.arrive (s : Workers ν) : LateRecord → Workers ν
  | .Result result => { s with results := s.results ++ [result] }
  | .Failed failed => { s with failed := s.failed ++ [failed] }
  | .Poison poison => { s with poisons := s.poisons ++ [poison] }

inductive Event (ν : Type)
  | broker (move : Move ν Int32 Message)
  | redis (op : RedisOp)
  | arrive (record : LateRecord)
  | take (node : ν) (now_unix_ms : Nat)
  | publish_poison (node : ν) (sending : Sending)
  | check (node : ν) (now_unix_ms : Nat)
  | publish_failed (node : ν) (sending : Sending)
  | claim (node : ν) (owner_token : String) (response : Response)
  | keep_lease (node : ν) (response : Response)
  | execute (node : ν) (report : runner.RunReport) (started_at finished_at now_unix_ms : Nat)
  | verify (node : ν) (response : Response)
  | publish (node : ν) (sending : Sending) (partition : Int32)
  | complete (node : ν) (call : Call)
  | release (node : ν) (call : Call)
  | commit (node : ν)
  | confirm (node : ν)
  | stop (node : ν)

def Workers.step (r : WorkerRuntime) (s : Workers ν) : Event ν → Workers ν
  | .broker move => { s with group := s.group.move move }
  | .redis op => s.redis r op
  | .arrive record => s.arrive record
  | .take node now_unix_ms => s.take r node now_unix_ms
  | .publish_poison node sending => s.publish_poison r node sending
  | .check node now_unix_ms => s.check r node now_unix_ms
  | .publish_failed node sending => s.publish_failed r node sending
  | .claim node owner_token response => s.claim r node owner_token response
  | .keep_lease node response => s.keep_lease r node response
  | .execute node report started_at finished_at now_unix_ms =>
    s.execute r node report started_at finished_at now_unix_ms
  | .verify node response => s.verify r node response
  | .publish node sending partition => s.publish r node sending partition
  | .complete node call => s.complete r node call
  | .release node call => s.release r node call
  | .commit node => s.commit node
  | .confirm node => s.confirm node
  | .stop node => s.leave node

/-- The nodes before they start, with an empty Redis. -/
def Workers.start (log : Int32 → List Message) (now_ms : Nat) : Workers ν where
  group := ⟨⟨log, fun _ => 0, fun _ => .closed 0, [], []⟩, fun _ => .Waiting⟩
  now_ms
  records := fun _ => none
  completions := []
  results := []
  failed := []
  poisons := []

def workerSystem (ν : Type) [DecidableEq ν] (r : WorkerRuntime) :
    System (Workers ν) (Event ν) where
  initial s := ∃ log now_ms, s = Workers.start log now_ms
  allowed _ _ := True
  next := .step r

end pulse.worker
