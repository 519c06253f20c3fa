-- The records that the Kafka consumers hand out (infrastructure/kafka/mod.rs): how a
-- message is decoded, its poison record, and the checks around the commit of
-- its offset.
import Pulse.Consumers
import Pulse.PoisonEvidence

open checks consumers
open pulse.contracts

namespace pulse.kafka

/-- The key and the payload of a Kafka message. -/
structure Message where
  key : Option (List UInt8)
  payload : Option (List UInt8)
deriving DecidableEq

/-- A message as a consumer gets it. -/
abbrev Consumed := Delivery Int32 Message

/-! ## Decoding -/

namespace Message

def key_bytes (message : Message) : Nat := (message.key.map List.length).getD 0

def payload_bytes (message : Message) : Nat := (message.payload.map List.length).getD 0

end Message

def consumed_record_size (message : Message) : Except ContractError Nat := do
  rejectIf (config.USIZE_MAX < message.key_bytes + message.payload_bytes)
    (.Malformed ("Kafka record byte length overflowed (key=" ++ toString message.key_bytes ++
      ", payload=" ++ toString message.payload_bytes ++ ")"))
  return message.key_bytes + message.payload_bytes

def enforce_consumed_record_size (message : Message) (record_max_bytes : Nat) :
    Except ContractError Unit := do
  let observed ← consumed_record_size message
  rejectIf (record_max_bytes < observed)
    (.Malformed ("Kafka record exceeds configured " ++ toString record_max_bytes ++
      "-byte consumer limit (total=" ++ toString observed ++ ", key=" ++
      toString message.key_bytes ++ ", payload=" ++ toString message.payload_bytes ++ ")"))

/-- A payload is read, and the result of it is checked. -/
def decode_result (parse : List UInt8 → Except String ScenarioRunResult)
    (payload : Option (List UInt8)) : Except ContractError ScenarioRunResult := do
  let payload ← okOr payload (.Malformed "Kafka result has no payload")
  let result ← (parse payload).mapError fun error =>
    .Malformed ("invalid scenario result JSON: " ++ error)
  result.validate
  return result

def decode_consumed_job (parse : List UInt8 → Except String ScenarioJob) (record_max_bytes : Nat)
    (message : Message) : Except ContractError ScenarioJob := do
  enforce_consumed_record_size message record_max_bytes
  decode_job parse message.payload

def decode_consumed_result (parse : List UInt8 → Except String ScenarioRunResult)
    (record_max_bytes : Nat) (message : Message) : Except ContractError ScenarioRunResult := do
  enforce_consumed_record_size message record_max_bytes
  decode_result parse message.payload

/-- What is decoded does not depend on the limit of the node. -/
theorem decode_consumed_job_ok {parse : List UInt8 → Except String ScenarioJob}
    {record_max_bytes : Nat} {message : Message} {job : ScenarioJob}
    (h : decode_consumed_job parse record_max_bytes message = .ok job) :
    decode_job parse message.payload = .ok job := by
  simp only [decode_consumed_job, bind_eq_ok] at h
  obtain ⟨_, -, hjob⟩ := h
  exact hjob

theorem decode_consumed_result_ok {parse : List UInt8 → Except String ScenarioRunResult}
    {record_max_bytes : Nat} {message : Message} {result : ScenarioRunResult}
    (h : decode_consumed_result parse record_max_bytes message = .ok result) :
    decode_result parse message.payload = .ok result := by
  simp only [decode_consumed_result, bind_eq_ok] at h
  obtain ⟨_, -, hresult⟩ := h
  exact hresult

/-! ## A delivery -/

/-- The offset of a record: an `i64`. -/
def source_offset (delivery : Consumed) : Int64 := Int64.ofNat delivery.offset

/-- `ConsumedJob::poison_record` and `ConsumedResult::poison_record`. -/
def consumed_poison_record (topic : String) (delivery : Consumed) (reason : String)
    (now_unix_ms : Nat) : PoisonMessageRecord :=
  poison_record_from_evidence topic delivery.partition (source_offset delivery)
    (.capture delivery.message.key) (.capture delivery.message.payload) reason now_unix_ms

/-- The poison record of the record at a place of the topic. -/
def PoisonOf (topic : String) (partition : Int32) (offset : Nat) (record : PoisonMessageRecord) :
    Prop :=
  record.source_topic = topic ∧ record.source_partition = partition ∧
    record.source_offset = Int64.ofNat offset

theorem poisonOf_consumed (topic : String) (delivery : Consumed) (reason : String)
    (now_unix_ms : Nat) : PoisonOf topic delivery.partition delivery.offset
      (consumed_poison_record topic delivery reason now_unix_ms) :=
  ⟨rfl, rfl, rfl⟩

/-- What is sent keeps the place of its record. -/
theorem poisonOf_validated {decode : String → Except String (List UInt8)} {topic : String}
    {partition : Int32} {offset : Nat} {record sent : PoisonMessageRecord}
    (hsent : validated_poison decode record = .ok sent)
    (h : PoisonOf topic partition offset record) : PoisonOf topic partition offset sent := by
  simp only [validated_poison, bind_eq_ok] at hsent
  obtain ⟨_, -, _, -, _, -, _, -, _, -, _, -, hsent⟩ := hsent
  cases hsent
  exact h

/-- What `commit_offset` checks before and after the request: the epoch is the one of the record,
the partition is assigned, and `i64` has a next offset. -/
def may_commit (session : Session Int32 Message) (delivery : Consumed) : Prop :=
  session.epoch = delivery.epoch ∧ session.position delivery.partition ≠ none ∧
    delivery.offset < 2 ^ 63 - 1

instance (session : Session Int32 Message) (delivery : Consumed) :
    Decidable (may_commit session delivery) :=
  inferInstanceAs (Decidable (_ ∧ _))

/-! ## The commit of an offset -/

section commit

variable {ν φ : Type} [DecidableEq ν]

/-- `commit_offset` up to its request. -/
def commit_offset (g : Group ν Int32 Message φ) (node : ν) (delivery : Consumed)
    (confirming idle : φ) : Group ν Int32 Message φ :=
  if may_commit (g.topic.session node) delivery then g.request node delivery confirming
  else g.leave node idle

/-- `commit_offset` after the answer of the broker. -/
def commit_answered (g : Group ν Int32 Message φ) (node : ν) (delivery : Consumed)
    (idle : φ) : Group ν Int32 Message φ :=
  if g.topic.landed.contains (delivery.partition, delivery.offset + 1) ∧
      may_commit (g.topic.session node) delivery then g.finish node idle
  else g.leave node idle

@[simp]
theorem log_commit_offset (g : Group ν Int32 Message φ) (node : ν)
    (delivery : Consumed) (confirming idle : φ) :
    (commit_offset g node delivery confirming idle).topic.log = g.topic.log := by
  unfold commit_offset
  split <;> rfl

@[simp]
theorem log_commit_answered (g : Group ν Int32 Message φ) (node : ν)
    (delivery : Consumed) (idle : φ) :
    (commit_answered g node delivery idle).topic.log = g.topic.log := by
  unfold commit_answered
  split <;> rfl

variable {settled : Int32 → Nat → Prop} {work : φ → Option (Consumed)}
  {promise : φ → Prop} {g : Group ν Int32 Message φ} {node : ν} {delivery : Consumed}
  {confirming idle : φ}

theorem working_commit (h : Working settled work promise g)
    (hwork : work (g.phase node) = some delivery)
    (hsettled : settled delivery.partition delivery.offset)
    (hconfirming : work confirming = some delivery) (hpromise : promise confirming)
    (hidle : work idle = none) (hrest : promise idle) :
    Working settled work promise (commit_offset g node delivery confirming idle) := by
  unfold commit_offset
  split
  · exact h.request hwork hsettled hconfirming hpromise
  · exact h.leave node hidle hrest

theorem working_answered (h : Working settled work promise g)
    (hwork : work (g.phase node) = some delivery)
    (hsettled : settled delivery.partition delivery.offset) (hidle : work idle = none)
    (hrest : promise idle) :
    Working settled work promise (commit_answered g node delivery idle) := by
  unfold commit_answered
  split
  · exact h.finish hwork hsettled hidle hrest
  · exact h.leave node hidle hrest

end commit

end pulse.kafka
