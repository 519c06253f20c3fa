-- The reader of the dead-letter topic: it tells the records of failed jobs
-- from the evidence of poison messages by their fields, and checks them with
-- code of its own.
import Pulse.FailedRecords
import Pulse.JsonText

open checks json strings
open pulse.contracts

namespace pulse.contracts

/-! ## Records from JSON -/

/-- A slice is an object or, as every derived reader takes it, the array of its fields. -/
def JobSlice.from_value : Value → Option JobSlice
  | .Object members => do
    let index ← required members "index" read_u32
    let total ← required members "total" read_u32
    return ⟨index, total⟩
  | .Array [index, total] => do
    let index ← read_u32 index
    let total ← read_u32 total
    return ⟨index, total⟩
  | _ => none

def FailedScenarioJob.from_members (members : Members) : Option FailedScenarioJob := do
  let schema_version ← required members "schema_version" read_u16
  let event_id ← defaulted members "event_id" read_string ""
  let scenario_id ← required members "scenario_id" read_string
  let run_id ← required members "run_id" read_string
  let execution_key ← required members "execution_key" read_string
  let slice ← required members "slice" JobSlice.from_value
  let failed_at_unix_ms ← required members "failed_at_unix_ms" read_u128
  let attempt ← required members "attempt" read_u32
  let max_retries ← required members "max_retries" read_u32
  let reason ← required members "reason" read_string
  return ⟨schema_version, event_id, scenario_id, run_id, execution_key, slice, failed_at_unix_ms,
    attempt, max_retries, reason⟩

def PoisonMessageRecord.from_members (members : Members) : Option PoisonMessageRecord := do
  let schema_version ← required members "schema_version" read_u16
  let event_id ← required members "event_id" read_string
  let failed_at_unix_ms ← required members "failed_at_unix_ms" read_u128
  let source_topic ← required members "source_topic" read_string
  let source_partition ← required members "source_partition" read_i32
  let source_offset ← required members "source_offset" read_i64
  let source_key_base64 ← defaulted members "source_key_base64" (nullable read_string) none
  let source_key_original_bytes ←
    defaulted members "source_key_original_bytes" (nullable read_u64) none
  let source_key_truncated ← defaulted members "source_key_truncated" read_bool false
  let payload_base64 ← defaulted members "payload_base64" (nullable read_string) none
  let payload_original_bytes ← defaulted members "payload_original_bytes" (nullable read_u64) none
  let payload_truncated ← defaulted members "payload_truncated" read_bool false
  let reason ← required members "reason" read_string
  return ⟨schema_version, event_id, failed_at_unix_ms, source_topic, source_partition,
    source_offset, source_key_base64, source_key_original_bytes, source_key_truncated,
    payload_base64, payload_original_bytes, payload_truncated, reason⟩

theorem JobSlice.from_value_to_value (slice : JobSlice) :
    JobSlice.from_value slice.to_value = some slice := by
  simp [JobSlice.from_value, JobSlice.to_value, required_cons_self, required_cons_of_ne,
    read_u32_integer]

theorem FailedScenarioJob.from_members_to_members {job : FailedScenarioJob}
    (h : job.failed_at_unix_ms < 2 ^ 64) : from_members job.to_members = some job := by
  simp [from_members, to_members, required_cons_self, required_cons_of_ne, defaulted_cons_self,
    defaulted_cons_of_ne, read_u16_integer, read_u32_integer, read_u128_integer h, read_string,
    JobSlice.from_value_to_value]

theorem PoisonMessageRecord.from_members_to_members {record : PoisonMessageRecord}
    (h : record.failed_at_unix_ms < 2 ^ 64) : from_members record.to_members = some record := by
  have hstring : ∀ o, nullable read_string (orNull .String o) = some o :=
    nullable_orNull (fun _ => rfl) (fun _ => by simp)
  have hbytes : ∀ o, nullable read_u64 (orNull (fun n => integer n.toNat) o) = some o :=
    nullable_orNull read_u64_integer (fun _ => by simp [integer])
  simp [from_members, to_members, required_cons_self, required_cons_of_ne, defaulted_cons_self,
    defaulted_cons_of_ne, read_u16_integer, read_u128_integer h, read_i32_integer,
    read_i64_integer, read_string, read_bool, hstring, hbytes]

end pulse.contracts

namespace pulse.replay

open pulse.kafka

/-! ## The checks of the reader -/

inductive ReplayRecord
  | FailedJob (job : FailedScenarioJob)
  | Poison (record : PoisonMessageRecord)

def reject_unknown_fields (members : Members) (allowed : List String) (kind : String) :
    Except String Unit :=
  match (members.map Prod.fst).find? (· ∉ allowed) with
  | some field => .error ("unknown " ++ kind ++ " DLQ field: " ++ field)
  | none => .ok ()

def validate_text (field value : String) : Except String Unit := do
  rejectIf (is_blank value = true) ("DLQ " ++ field ++ " must not be empty")
  rejectIf (MAX_CONTRACT_ID_BYTES < len value)
    ("DLQ " ++ field ++ " exceeds " ++ toString MAX_CONTRACT_ID_BYTES ++ " bytes")

def validate_slice (slice : JobSlice) : Except String Unit :=
  rejectIf (slice.total = 0 ∨ MAX_CONTRACT_SLICES < slice.total ∨ slice.total ≤ slice.index)
    ("invalid failed-job slice " ++ toString slice.index ++ " of " ++ toString slice.total)

/-- The passage of `validate_failed_job` on the identity of the event. -/
def validate_event_id (job : FailedScenarioJob) : Except String Unit :=
  if 2 ≤ job.schema_version then do
    validate_text "event_id" job.event_id
    rejectIf (job.event_id ≠ build_terminal_event_id job.execution_key job.attempt "dlq")
      "failed-job event_id is not the deterministic terminal identity"
  else .ok ()

def validate_failed_job (job : FailedScenarioJob) : Except String Unit := do
  (validate_contract_version job.schema_version).mapError fun error =>
    "invalid failed-job contract: " ++ error.display
  validate_text "scenario_id" job.scenario_id
  validate_text "run_id" job.run_id
  validate_text "execution_key" job.execution_key
  validate_event_id job
  validate_text "reason" job.reason
  validate_slice job.slice
  rejectIf (job.max_retries < job.attempt ∨ MAX_CONTRACT_ATTEMPT < job.max_retries)
    ("invalid failed-job attempt metadata: attempt=" ++ toString job.attempt ++
      ", max_retries=" ++ toString job.max_retries)

section evidence

variable (decode : String → Except String (List UInt8))

def validate_poison_evidence (field : String) (evidence : Evidence) : Except String Unit :=
  match evidence.encoded with
  | none =>
    rejectIf (evidence.original_bytes ≠ none ∨ evidence.truncated = true)
      ("poison " ++ field ++ " evidence metadata exists without encoded evidence")
  | some encoded => do
    rejectIf (max_encoded_bytes < len encoded)
      ("poison " ++ field ++ " evidence exceeds its bounded prefix")
    let decoded ← (decode encoded).mapError fun error =>
      "invalid poison " ++ field ++ "_base64: " ++ error
    rejectIf (MAX_POISON_EVIDENCE_FIELD_BYTES < decoded.length)
      ("poison " ++ field ++ " evidence exceeds its bounded prefix")
    match evidence.original_bytes with
    | none =>
      rejectIf (evidence.truncated = true)
        ("poison " ++ field ++ " claims truncation without an original byte count")
    | some original_bytes =>
      rejectIf (evidence.isInconsistent original_bytes decoded.length)
        ("poison " ++ field ++ " original byte count is inconsistent with retained evidence")

def validate_poison_record (record : PoisonMessageRecord) : Except String Unit := do
  (validate_contract_version record.schema_version).mapError fun error =>
    "invalid poison-message contract: " ++ error.display
  validate_text "event_id" record.event_id
  validate_text "source_topic" record.source_topic
  validate_text "reason" record.reason
  rejectIf (record.source_partition < 0) "poison source_partition must be non-negative"
  rejectIf (record.source_offset < 0) "poison source_offset must be non-negative"
  rejectIf (record.event_id ≠
      poison_event_id record.source_topic record.source_partition record.source_offset)
    "poison event_id is not the deterministic source identity"
  validate_poison_evidence decode "source_key" record.source_key
  validate_poison_evidence decode "payload" record.payload

/-! ## The kinds of records -/

def failed_markers : List String := ["scenario_id", "run_id", "execution_key", "slice"]
def poison_markers : List String := ["source_topic", "source_partition", "source_offset"]

def failed_fields : List String :=
  ["schema_version", "event_id", "scenario_id", "run_id", "execution_key", "slice",
    "failed_at_unix_ms", "attempt", "max_retries", "reason"]

def poison_fields : List String :=
  ["schema_version", "event_id", "failed_at_unix_ms", "source_topic", "source_partition",
    "source_offset", "source_key_base64", "source_key_original_bytes", "source_key_truncated",
    "payload_base64", "payload_original_bytes", "payload_truncated", "reason"]

/-- One of the markers is a field of the object. -/
def looks (members : Members) (markers : List String) : Bool :=
  markers.any fun field => (members.map Prod.fst).contains field

def decode_failed_job (serde : Serde) (members : Members) : Except String ReplayRecord := do
  reject_unknown_fields members failed_fields "failed-job"
  let failed ← okOr (FailedScenarioJob.from_members members)
    ("invalid failed-job DLQ envelope: " ++ serde.message (.Object members))
  validate_failed_job failed
  return .FailedJob failed

def decode_poison (serde : Serde) (members : Members) : Except String ReplayRecord := do
  reject_unknown_fields members poison_fields "poison-message"
  let poison ← okOr (PoisonMessageRecord.from_members members)
    ("invalid poison-message DLQ envelope: " ++ serde.message (.Object members))
  validate_poison_record decode poison
  return .Poison poison

def decode_members (serde : Serde) (members : Members) : Except String ReplayRecord :=
  match looks members failed_markers, looks members poison_markers with
  | true, false => decode_failed_job serde members
  | false, true => decode_poison decode serde members
  | true, true =>
    .error "ambiguous DLQ payload contains both failed-job and poison-message identity fields"
  | false, false => .error "unknown DLQ envelope shape"

def decode_replay_record (serde : Serde) (payload : List UInt8) : Except String ReplayRecord := do
  let value ← (serde.from_slice payload).mapError fun error => "invalid DLQ JSON: " ++ error
  match value with
  | .Object members => decode_members decode serde members
  | _ => .error "DLQ payload must be a JSON object"

end evidence

/-! ## What is written passes the reader -/

theorem validate_text_iff {field value : String} :
    validate_text field value = .ok () ↔ ScenarioJob.IsIdentity value := by
  rw [validate_text, seq_eq_ok, rejectIf_eq_ok, rejectIf_eq_ok, isIdentity_iff, not_or]

theorem validate_event_id_iff {job : FailedScenarioJob} : validate_event_id job = .ok () ↔
    (2 ≤ job.schema_version → ScenarioJob.IsIdentity job.event_id ∧
      job.event_id = build_terminal_event_id job.execution_key job.attempt "dlq") := by
  unfold validate_event_id
  split
  · rename_i hversion
    rw [seq_eq_ok, validate_text_iff, rejectIf_eq_ok, not_not]
    exact ⟨fun h _ => h, fun h => h hversion⟩
  · rename_i hversion
    exact ⟨fun _ h => absurd h hversion, fun _ => rfl⟩

/-- The reader of failed jobs has the checks of the publisher. -/
theorem validate_failed_job_iff {job : FailedScenarioJob} :
    validate_failed_job job = .ok () ↔ ValidFailed job := by
  simp only [validate_failed_job, seq_eq_ok, mapError_eq_ok, validate_contract_version_iff,
    validate_text_iff, validate_event_id_iff, validate_slice, rejectIf_eq_ok]
  rw [← validSlice_iff, not_or, UInt32.not_lt, UInt32.not_lt]
  constructor
  · rintro ⟨hversion, hscenario, hrun, hkey, hevent, hreason, hslice, hattempt⟩
    exact ⟨hversion, hscenario, hrun, hkey, hreason, hslice, hattempt, hevent⟩
  · rintro ⟨hversion, hscenario, hrun, hkey, hreason, hslice, hattempt, hevent⟩
    exact ⟨hversion, hscenario, hrun, hkey, hevent, hreason, hslice, hattempt⟩

section evidence

variable {decode : String → Except String (List UInt8)}

/-- The publisher takes no evidence that the reader does not take. -/
theorem validate_poison_evidence_of_publish {schema_version : UInt16} {field : String}
    {evidence : Evidence}
    (h : validate_poison_evidence_for_publish decode schema_version field evidence = .ok ()) :
    validate_poison_evidence decode field evidence = .ok () := by
  unfold validate_poison_evidence_for_publish at h
  unfold validate_poison_evidence
  cases hencoded : evidence.encoded with
  | none =>
    rw [hencoded] at h
    exact rejectIf_eq_ok.mpr (rejectIf_eq_ok.mp h)
  | some encoded =>
    rw [hencoded] at h
    simp only [bind_eq_ok, mapError_eq_ok, rejectIf_eq_ok] at h ⊢
    obtain ⟨_, hencodedLen, decoded, hdecode, _, hdecodedLen, hbytes⟩ := h
    refine ⟨(), hencodedLen, decoded, hdecode, (), hdecodedLen, ?_⟩
    cases horiginal : evidence.original_bytes with
    | none =>
      rw [horiginal] at hbytes
      have hold := not_not.mp (rejectIf_eq_ok.mp hbytes)
      exact rejectIf_eq_ok.mpr (by rw [hold.2]; decide)
    | some original_bytes =>
      rw [horiginal] at hbytes
      exact rejectIf_eq_ok.mpr (rejectIf_eq_ok.mp hbytes)

theorem validated_poison_ok {record sent : PoisonMessageRecord}
    (h : validated_poison decode record = .ok sent) :
    sent = { record with reason := bounded_dlq_reason record.reason } ∧
      validate_poison_record decode sent = .ok () := by
  simp only [validated_poison, seq_eq_ok, mapError_eq_ok, forM_eq_ok, validate_dlq_text_iff,
    rejectIf_eq_ok, List.forall_mem_cons] at h
  obtain ⟨hversion, ⟨hevent, htopic, hreason, -⟩, hsource, hid, hkey, hpayload, hsent⟩ := h
  cases hsent
  rw [not_or] at hsource
  refine ⟨rfl, ?_⟩
  simp only [validate_poison_record, seq_eq_ok, mapError_eq_ok, validate_text_iff, rejectIf_eq_ok]
  exact ⟨hversion, hevent, htopic, hreason, hsource.1, hsource.2, hid,
    validate_poison_evidence_of_publish hkey, validate_poison_evidence_of_publish hpayload⟩

/-! ## What is written is read back as what it is -/

variable (job : FailedScenarioJob)

theorem keys_failed : job.to_members.map Prod.fst =
    ["attempt", "event_id", "execution_key", "failed_at_unix_ms", "max_retries", "reason", "run_id",
      "scenario_id", "schema_version", "slice"] := rfl

variable (record : PoisonMessageRecord)

theorem keys_poison : record.to_members.map Prod.fst =
    ["event_id", "failed_at_unix_ms", "payload_base64", "payload_original_bytes",
      "payload_truncated", "reason", "schema_version", "source_key_base64",
      "source_key_original_bytes", "source_key_truncated", "source_offset", "source_partition",
      "source_topic"] := rfl

/-- The fields of a failed job have markers of failed jobs only. -/
theorem looks_failed :
    looks job.to_members failed_markers = true ∧ looks job.to_members poison_markers = false := by
  unfold looks
  rw [keys_failed]
  decide

/-- The fields of a poison record have markers of poison records only. -/
theorem looks_poison :
    looks record.to_members failed_markers = false ∧
      looks record.to_members poison_markers = true := by
  unfold looks
  rw [keys_poison]
  decide

theorem fields_of_failed (kind : String) :
    reject_unknown_fields job.to_members failed_fields kind = .ok () := by
  have hnone : (job.to_members.map Prod.fst).find? (· ∉ failed_fields) = none := by
    rw [keys_failed]
    decide
  rw [reject_unknown_fields, hnone]

theorem fields_of_poison (kind : String) :
    reject_unknown_fields record.to_members poison_fields kind = .ok () := by
  have hnone : (record.to_members.map Prod.fst).find? (· ∉ poison_fields) = none := by
    rw [keys_poison]
    decide
  rw [reject_unknown_fields, hnone]

variable {serde : Serde}

theorem decode_members_failed {job : FailedScenarioJob} (hvalid : ValidFailed job)
    (htime : job.failed_at_unix_ms < 2 ^ 64) :
    decode_members decode serde job.to_members = .ok (.FailedJob job) := by
  rw [decode_members, (looks_failed job).1, (looks_failed job).2]
  simp only [decode_failed_job, bind_eq_ok, okOr_eq_ok]
  exact ⟨(), fields_of_failed job _, job, FailedScenarioJob.from_members_to_members htime, (),
    validate_failed_job_iff.mpr hvalid, rfl⟩

theorem decode_members_poison {record : PoisonMessageRecord}
    (hvalid : validate_poison_record decode record = .ok ())
    (htime : record.failed_at_unix_ms < 2 ^ 64) :
    decode_members decode serde record.to_members = .ok (.Poison record) := by
  rw [decode_members, (looks_poison record).1, (looks_poison record).2]
  simp only [decode_poison, bind_eq_ok, okOr_eq_ok]
  exact ⟨(), fields_of_poison record _, record,
    PoisonMessageRecord.from_members_to_members htime, (), hvalid, rfl⟩

/-- The text of an object is read as its members. -/
theorem decode_replay_record_text {members : Members} (h : serde.RoundTrips (.Object members)) :
    decode_replay_record decode serde (serde.to_string (.Object members)).toUTF8.data.toList =
      decode_members decode serde members := by
  unfold json.Serde.RoundTrips at h
  rw [decode_replay_record, h]
  rfl

end evidence

/-- What the publisher sends is read back as what it is, and a reason is bounded once. -/
theorem dead_letters_are_read_back (decode : String → Except String (List UInt8)) (serde : Serde) :
    (∀ (job : FailedScenarioJob) (text : String),
      serialize_validated_failed_job serde job = .ok text → job.failed_at_unix_ms < 2 ^ 64 →
      let sent := { job with reason := bounded_dlq_reason job.reason }
      serde.RoundTrips (.Object sent.to_members) →
        decode_replay_record decode serde text.toUTF8.data.toList = .ok (.FailedJob sent)) ∧
    (∀ (record : PoisonMessageRecord) (text : String),
      serialize_validated_poison decode serde record = .ok text →
      record.failed_at_unix_ms < 2 ^ 64 →
      let sent := { record with reason := bounded_dlq_reason record.reason }
      serde.RoundTrips (.Object sent.to_members) →
        decode_replay_record decode serde text.toUTF8.data.toList = .ok (.Poison sent)) ∧
    ∀ reason : String,
      len (bounded_dlq_reason reason) ≤ MAX_CONTRACT_ID_BYTES ∧
      bounded_dlq_reason (bounded_dlq_reason reason) = bounded_dlq_reason reason ∧
      (len reason ≤ MAX_CONTRACT_ID_BYTES → bounded_dlq_reason reason = reason) ∧
      (bounded_dlq_reason reason = reason ∨ ∃ kept, kept <+: reason.toList ∧
        bounded_dlq_reason reason = String.ofList kept ++ POISON_REASON_TRUNCATION_MARKER) := by
  refine ⟨?_, ?_, ?_⟩
  · intro job text hsend htime sent hround
    simp only [serialize_validated_failed_job, bind_eq_ok] at hsend
    obtain ⟨sent', hsent, htext⟩ := hsend
    obtain ⟨rfl, hvalid⟩ := validated_failed_job_iff.mp hsent
    cases htext
    rw [decode_replay_record_text hround]
    exact decode_members_failed hvalid htime
  · intro record text hsend htime sent hround
    simp only [serialize_validated_poison, bind_eq_ok] at hsend
    obtain ⟨sent', hsent, htext⟩ := hsend
    obtain ⟨rfl, hvalid⟩ := validated_poison_ok hsent
    cases htext
    rw [decode_replay_record_text hround]
    exact decode_members_poison hvalid htime
  · intro reason
    have hlen := len_bounded_reason (by decide : len POISON_REASON_TRUNCATION_MARKER ≤ 1024) reason
    exact ⟨hlen, bounded_reason_of_le hlen, bounded_reason_of_le, bounded_reason_cases _ reason⟩

def sampleFailed : FailedScenarioJob := service.failed_job (service.keyedJob "k") "boom" 7

def samplePoison : PoisonMessageRecord where
  schema_version := 2
  event_id := "poison:jobs:0:3"
  failed_at_unix_ms := 7
  source_topic := "jobs"
  source_partition := 0
  source_offset := 3
  source_key_base64 := none
  source_key_original_bytes := none
  source_key_truncated := false
  payload_base64 := some "AA=="
  payload_original_bytes := some 1
  payload_truncated := false
  reason := "no job"

theorem sample_dead_letters_are_read_back :
    decode_replay_record (fun _ => .ok [0]) (serdeOf [.Object sampleFailed.to_members])
        (printed (.Object sampleFailed.to_members)).toUTF8.data.toList =
          .ok (.FailedJob sampleFailed) ∧
      decode_replay_record (fun _ => .ok [0]) (serdeOf [.Object samplePoison.to_members])
        (printed (.Object samplePoison.to_members)).toUTF8.data.toList =
          .ok (.Poison samplePoison) :=
  ⟨(dead_letters_are_read_back (fun _ => .ok [0]) _).1 sampleFailed _ rfl (by decide)
      (serdeOf_roundTrips _),
    (dead_letters_are_read_back (fun _ => .ok [0]) _).2.1 samplePoison _ rfl (by decide)
      (serdeOf_roundTrips _)⟩

end pulse.replay
