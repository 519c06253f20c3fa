-- The records of the dead-letter topic: a job that failed for good, and the
-- evidence of a message that is no job. The publisher bounds the reason and
-- checks every record before it is sent.
import Pulse.JobContract
import Pulse.Json

open checks json strings

namespace pulse.contracts

/-! ## The records -/

def MAX_POISON_EVIDENCE_FIELD_BYTES : Nat := 256 * 1024

def ContractError.display : ContractError → String
  | .UnsupportedVersion found min_supported max_supported =>
    "unsupported contract version " ++ toString found ++ "; supported range is " ++
      toString min_supported ++ "..=" ++ toString max_supported
  | .FutureVersion found max_supported =>
    "future contract version " ++ toString found ++ "; maximum supported is " ++
      toString max_supported
  | .MissingField field => "required field '" ++ field ++ "' is empty"
  | .InvalidLoad message => "invalid load configuration: " ++ message
  | .InvalidSlice message => "invalid slice metadata: " ++ message
  | .InvalidAttempt attempt max_retries =>
    "invalid attempt " ++ toString attempt ++ "; maximum retry attempt is " ++ toString max_retries
  | .InvalidResult message => "invalid result: " ++ message
  | .SafetyLimit message => "safety limit exceeded: " ++ message
  | .Malformed message => "malformed contract: " ++ message

structure FailedScenarioJob where
  schema_version : UInt16
  event_id : String
  scenario_id : String
  run_id : String
  execution_key : String
  slice : JobSlice
  failed_at_unix_ms : Nat
  attempt : UInt32
  max_retries : UInt32
  reason : String
deriving DecidableEq, Repr

structure PoisonMessageRecord where
  schema_version : UInt16
  event_id : String
  failed_at_unix_ms : Nat
  source_topic : String
  source_partition : Int32
  source_offset : Int64
  source_key_base64 : Option String
  source_key_original_bytes : Option UInt64
  source_key_truncated : Bool
  payload_base64 : Option String
  payload_original_bytes : Option UInt64
  payload_truncated : Bool
  reason : String
deriving DecidableEq

def poison_event_id (topic : String) (partition : Int32) (offset : Int64) : String :=
  "poison:" ++ topic ++ ":" ++ toString partition ++ ":" ++ toString offset

/-- What is left of a key or of a payload: its encoding, its length and whether it was cut. -/
structure Evidence where
  encoded : Option String
  original_bytes : Option UInt64
  truncated : Bool

/-- The longest encoding of evidence. -/
def max_encoded_bytes : Nat := (MAX_POISON_EVIDENCE_FIELD_BYTES + 2) / 3 * 4

/-- The original length does not go with the bytes that are left. -/
def Evidence.isInconsistent (evidence : Evidence) (original_bytes : UInt64) (retained_bytes : Nat) :
    Prop :=
  (evidence.truncated = true ∧ original_bytes.toNat ≤ retained_bytes) ∨
    (evidence.truncated = false ∧ original_bytes.toNat ≠ retained_bytes)

instance (evidence : Evidence) (original_bytes : UInt64) (retained_bytes : Nat) :
    Decidable (evidence.isInconsistent original_bytes retained_bytes) :=
  inferInstanceAs (Decidable (_ ∨ _))

def PoisonMessageRecord.source_key (record : PoisonMessageRecord) : Evidence :=
  ⟨record.source_key_base64, record.source_key_original_bytes, record.source_key_truncated⟩

def PoisonMessageRecord.payload (record : PoisonMessageRecord) : Evidence :=
  ⟨record.payload_base64, record.payload_original_bytes, record.payload_truncated⟩

/-! ## The JSON of the records

`serde_json` keeps the members of an object in the order of their names. -/

def JobSlice.to_value (slice : JobSlice) : Value :=
  .Object [("index", integer slice.index.toNat), ("total", integer slice.total.toNat)]

def FailedScenarioJob.to_members (job : FailedScenarioJob) : Members :=
  [("attempt", integer job.attempt.toNat), ("event_id", .String job.event_id),
    ("execution_key", .String job.execution_key),
    ("failed_at_unix_ms", integer job.failed_at_unix_ms),
    ("max_retries", integer job.max_retries.toNat), ("reason", .String job.reason),
    ("run_id", .String job.run_id), ("scenario_id", .String job.scenario_id),
    ("schema_version", integer job.schema_version.toNat), ("slice", job.slice.to_value)]

def PoisonMessageRecord.to_members (record : PoisonMessageRecord) : Members :=
  [("event_id", .String record.event_id), ("failed_at_unix_ms", integer record.failed_at_unix_ms),
    ("payload_base64", orNull .String record.payload_base64),
    ("payload_original_bytes", orNull (fun n => integer n.toNat) record.payload_original_bytes),
    ("payload_truncated", .Bool record.payload_truncated), ("reason", .String record.reason),
    ("schema_version", integer record.schema_version.toNat),
    ("source_key_base64", orNull .String record.source_key_base64), ("source_key_original_bytes",
      orNull (fun n => integer n.toNat) record.source_key_original_bytes),
    ("source_key_truncated", .Bool record.source_key_truncated),
    ("source_offset", integer record.source_offset.toInt),
    ("source_partition", integer record.source_partition.toInt),
    ("source_topic", .String record.source_topic)]

/-! ## The reason of a failure -/

/-- A reason within the bound of an identity. A longer one is cut at a character and marked. -/
def bounded_reason (marker reason : String) : String :=
  if len reason ≤ MAX_CONTRACT_ID_BYTES then reason
  else
    let keep := boundary_at_most reason.toList (MAX_CONTRACT_ID_BYTES - len marker)
    String.ofList (truncate reason.toList keep) ++ marker

end pulse.contracts

namespace pulse.kafka

open pulse.contracts

/-! ## The checks of the publisher -/

def POISON_REASON_TRUNCATION_MARKER : String := "...[truncated]"

def bounded_dlq_reason (reason : String) : String :=
  bounded_reason POISON_REASON_TRUNCATION_MARKER reason

def validate_dlq_text (field value : String) : Except String Unit :=
  rejectIf (is_blank value = true ∨ MAX_CONTRACT_ID_BYTES < len value)
    ("refusing to publish DLQ record with invalid " ++ field)

def validate_dlq_slice (slice : JobSlice) : Except String Unit :=
  rejectIf (slice.total = 0 ∨ MAX_CONTRACT_SLICES < slice.total ∨ slice.total ≤ slice.index)
    "refusing to publish failed job with invalid slice metadata"

/-- The passage on the identity of the event, which version 1 does not have. -/
def validate_failed_event_id (job : FailedScenarioJob) : Except String Unit :=
  if 2 ≤ job.schema_version then do
    validate_dlq_text "event_id" job.event_id
    rejectIf (job.event_id ≠ build_terminal_event_id job.execution_key job.attempt "dlq")
      "refusing to publish failed job with a non-deterministic event_id"
  else .ok ()

/-- The record that is sent for a failed job. -/
def validated_failed_job (job : FailedScenarioJob) : Except String FailedScenarioJob := do
  let job := { job with reason := bounded_dlq_reason job.reason }
  (validate_contract_version job.schema_version).mapError fun error =>
    "refusing to publish invalid failed job: " ++ error.display
  [("scenario_id", job.scenario_id), ("run_id", job.run_id), ("execution_key", job.execution_key),
    ("reason", job.reason)].forM fun (field, value) => validate_dlq_text field value
  validate_dlq_slice job.slice
  rejectIf (job.max_retries < job.attempt ∨ MAX_CONTRACT_ATTEMPT < job.max_retries)
    "refusing to publish failed job with invalid attempt metadata"
  validate_failed_event_id job
  return job

def serialize_validated_failed_job (serde : Serde) (job : FailedScenarioJob) :
    Except String String := do
  let job ← validated_failed_job job
  return serde.to_string (.Object job.to_members)

/-! ## The evidence of a poison message -/

section evidence

variable (decode : String → Except String (List UInt8))

def validate_poison_evidence_for_publish (schema_version : UInt16) (field : String)
    (evidence : Evidence) : Except String Unit :=
  match evidence.encoded with
  | none =>
    rejectIf (evidence.original_bytes ≠ none ∨ evidence.truncated = true)
      ("invalid poison " ++ field ++ " evidence metadata")
  | some encoded => do
    rejectIf (max_encoded_bytes < len encoded)
      ("poison " ++ field ++ " evidence exceeds its prefix bound")
    let decoded ← (decode encoded).mapError fun error =>
      "invalid poison " ++ field ++ " base64: " ++ error
    rejectIf (MAX_POISON_EVIDENCE_FIELD_BYTES < decoded.length)
      ("poison " ++ field ++ " evidence exceeds its prefix bound")
    match evidence.original_bytes with
    | none =>
      -- Version 1 has no original length.
      rejectIf (¬ (schema_version < 2 ∧ evidence.truncated = false))
        ("poison " ++ field ++ " evidence lacks its original byte count")
    | some original_bytes =>
      rejectIf (evidence.isInconsistent original_bytes decoded.length)
        ("poison " ++ field ++ " evidence length metadata is inconsistent")

/-- The record that is sent for a poison message. -/
def validated_poison (record : PoisonMessageRecord) : Except String PoisonMessageRecord := do
  let record := { record with reason := bounded_dlq_reason record.reason }
  (validate_contract_version record.schema_version).mapError fun error =>
    "refusing to publish invalid poison record: " ++ error.display
  [("event_id", record.event_id), ("source_topic", record.source_topic),
    ("reason", record.reason)].forM fun (field, value) => validate_dlq_text field value
  rejectIf (record.source_partition < 0 ∨ record.source_offset < 0)
    "refusing to publish poison record with invalid source coordinates"
  rejectIf (record.event_id ≠
      poison_event_id record.source_topic record.source_partition record.source_offset)
    "refusing to publish poison record with a non-deterministic event_id"
  validate_poison_evidence_for_publish decode record.schema_version "source_key" record.source_key
  validate_poison_evidence_for_publish decode record.schema_version "payload" record.payload
  return record

def serialize_validated_poison (serde : Serde) (record : PoisonMessageRecord) :
    Except String String := do
  let record ← validated_poison decode record
  return serde.to_string (.Object record.to_members)

end evidence

end pulse.kafka

namespace pulse.contracts

/-! ## Bounded reasons -/

variable {marker reason : String}

theorem bounded_reason_of_le (h : len reason ≤ MAX_CONTRACT_ID_BYTES) :
    bounded_reason marker reason = reason :=
  if_pos h

theorem len_bounded_reason (hmarker : len marker ≤ MAX_CONTRACT_ID_BYTES) (reason : String) :
    len (bounded_reason marker reason) ≤ MAX_CONTRACT_ID_BYTES := by
  unfold bounded_reason
  split
  · assumption
  · have hkeep := boundary_at_most_le reason.toList (MAX_CONTRACT_ID_BYTES - len marker)
    rw [len_append, len_truncate (is_char_boundary_at_most _ _)]
    omega

/-- A reason that is too long keeps characters of its start. -/
theorem bounded_reason_cases (marker reason : String) :
    bounded_reason marker reason = reason ∨
      ∃ kept, kept <+: reason.toList ∧
        bounded_reason marker reason = String.ofList kept ++ marker := by
  unfold bounded_reason
  split
  · exact .inl rfl
  · exact .inr ⟨_, truncate_prefix _ _, rfl⟩

theorem is_blank_bounded_reason (hmarker : is_blank marker = false)
    (hreason : is_blank reason = false) : is_blank (bounded_reason marker reason) = false := by
  unfold bounded_reason
  split
  · exact hreason
  · dsimp only
    rw [is_blank_append, hmarker, Bool.and_false]

theorem bounded_reason_isIdentity (hmarker : ScenarioJob.IsIdentity marker)
    (hreason : is_blank reason = false) : ScenarioJob.IsIdentity (bounded_reason marker reason) :=
  ⟨is_blank_bounded_reason hmarker.1 hreason, len_bounded_reason hmarker.2 reason⟩

end pulse.contracts

namespace pulse.kafka

open pulse.contracts

/-! ## What is sent -/

/-- The checks that a failed job passes, in the publisher and in the reader. -/
structure ValidFailed (job : FailedScenarioJob) : Prop where
  schema_version : 1 ≤ job.schema_version ∧ job.schema_version ≤ 2
  scenario_id : ScenarioJob.IsIdentity job.scenario_id
  run_id : ScenarioJob.IsIdentity job.run_id
  execution_key : ScenarioJob.IsIdentity job.execution_key
  reason : ScenarioJob.IsIdentity job.reason
  slice : job.slice.total ≤ MAX_CONTRACT_SLICES ∧ job.slice.index < job.slice.total
  attempt : job.attempt ≤ job.max_retries ∧ job.max_retries ≤ MAX_CONTRACT_ATTEMPT
  event_id : 2 ≤ job.schema_version → ScenarioJob.IsIdentity job.event_id ∧
    job.event_id = build_terminal_event_id job.execution_key job.attempt "dlq"

theorem isIdentity_iff {value : String} : ScenarioJob.IsIdentity value ↔
    ¬ (is_blank value = true ∨ MAX_CONTRACT_ID_BYTES < len value) := by
  unfold ScenarioJob.IsIdentity
  rw [not_or, Bool.not_eq_true, Nat.not_lt]

theorem validSlice_iff {slice : JobSlice} :
    slice.total ≤ MAX_CONTRACT_SLICES ∧ slice.index < slice.total ↔
      ¬ (slice.total = 0 ∨ MAX_CONTRACT_SLICES < slice.total ∨ slice.total ≤ slice.index) := by
  rw [not_or, not_or, UInt32.not_lt, UInt32.not_le]
  constructor
  · rintro ⟨hmax, hindex⟩
    refine ⟨?_, hmax, hindex⟩
    intro hzero
    rw [hzero] at hindex
    exact UInt32.not_lt_zero hindex
  · rintro ⟨-, hmax, hindex⟩
    exact ⟨hmax, hindex⟩

theorem validate_dlq_text_iff {field value : String} :
    validate_dlq_text field value = .ok () ↔ ScenarioJob.IsIdentity value := by
  rw [validate_dlq_text, rejectIf_eq_ok, isIdentity_iff]

theorem validate_dlq_slice_iff {slice : JobSlice} : validate_dlq_slice slice = .ok () ↔
    slice.total ≤ MAX_CONTRACT_SLICES ∧ slice.index < slice.total := by
  rw [validate_dlq_slice, rejectIf_eq_ok, validSlice_iff]

theorem validate_failed_event_id_iff {job : FailedScenarioJob} :
    validate_failed_event_id job = .ok () ↔
      (2 ≤ job.schema_version → ScenarioJob.IsIdentity job.event_id ∧
        job.event_id = build_terminal_event_id job.execution_key job.attempt "dlq") := by
  unfold validate_failed_event_id
  split
  · rename_i hversion
    rw [seq_eq_ok, validate_dlq_text_iff, rejectIf_eq_ok, not_not]
    exact ⟨fun h _ => h, fun h => h hversion⟩
  · rename_i hversion
    exact ⟨fun _ h => absurd h hversion, fun _ => rfl⟩

theorem validated_failed_job_iff {job sent : FailedScenarioJob} :
    validated_failed_job job = .ok sent ↔
      sent = { job with reason := bounded_dlq_reason job.reason } ∧ ValidFailed sent := by
  have htexts : ∀ fields : List (String × String),
      (fields.forM fun (field, value) => validate_dlq_text field value) = .ok () ↔
        ∀ f ∈ fields, ScenarioJob.IsIdentity f.2 := by
    intro fields
    rw [forM_eq_ok]
    simp only [validate_dlq_text_iff]
  simp only [validated_failed_job, seq_eq_ok, mapError_eq_ok, validate_contract_version_iff, htexts,
    validate_failed_event_id_iff, validate_dlq_slice_iff, rejectIf_eq_ok, not_or, UInt32.not_lt]
  simp only [List.forall_mem_cons, List.not_mem_nil, false_implies, implies_true, and_true]
  constructor
  · rintro ⟨hversion, ⟨hscenario, hrun, hkey, hreason⟩, hslice, hattempt, hevent, hsent⟩
    cases hsent
    exact ⟨rfl, hversion, hscenario, hrun, hkey, hreason, hslice, hattempt, hevent⟩
  · rintro ⟨rfl, hversion, hscenario, hrun, hkey, hreason, hslice, hattempt, hevent⟩
    exact ⟨hversion, ⟨hscenario, hrun, hkey, hreason⟩, hslice, hattempt, hevent, rfl⟩

end pulse.kafka

namespace pulse.kafka

open pulse.contracts

/-- A payload is read, and the job of it is checked. -/
def decode_job (parse : List UInt8 → Except String ScenarioJob) (payload : Option (List UInt8)) :
    Except ContractError ScenarioJob := do
  let payload ← okOr payload (.Malformed "Kafka message has no payload")
  let job ← (parse payload).mapError fun error =>
    .Malformed ("invalid scenario job JSON: " ++ error)
  job.validate
  return job

theorem decode_job_valid {parse : List UInt8 → Except String ScenarioJob}
    {payload : Option (List UInt8)} {job : ScenarioJob} (h : decode_job parse payload = .ok job) :
    job.Valid := by
  simp only [decode_job, bind_eq_ok] at h
  obtain ⟨_, -, parsed, -, _, hvalid, hjob⟩ := h
  cases hjob
  exact ScenarioJob.validate_iff.mp hvalid

theorem decode_job_of_valid {job : ScenarioJob} (h : job.Valid) :
    decode_job (fun _ => .ok job) (some []) = .ok job := by
  have hvalid := ScenarioJob.validate_iff.mpr h
  simp only [decode_job, bind_eq_ok]
  exact ⟨[], rfl, job, rfl, (), hvalid, rfl⟩

end pulse.kafka

namespace pulse.service

open pulse.contracts pulse.kafka

/-! ## The terminal records of a job -/

def MARKER : String := "...[truncated]"

def bounded_failure_reason (reason : String) : String := bounded_reason MARKER reason

def failed_job (job : ScenarioJob) (reason : String) (now_unix_ms : Nat) : FailedScenarioJob where
  schema_version := CURRENT_CONTRACT_VERSION
  event_id := build_terminal_event_id job.execution_key job.attempt "dlq"
  scenario_id := job.scenario_id
  run_id := job.run_id
  execution_key := job.execution_key
  slice := job.slice
  failed_at_unix_ms := now_unix_ms
  attempt := job.attempt
  max_retries := job.max_retries
  reason := bounded_failure_reason reason

/-- What a finished slice reports. Its histogram has a bucket for every bound. -/
structure RunReport where
  started_at_unix_ms : Nat
  finished_at_unix_ms : Nat
  status : ScenarioRunStatus
  total : UInt64
  success : UInt64
  failure : UInt64
  latency_histogram : List LatencyBucket
  has_buckets : latency_histogram ≠ []
  error_breakdown : List ErrorCount

/-- The result that is sent for a slice. -/
def run_result (job : ScenarioJob) (report : RunReport) : ScenarioRunResult where
  schema_version := CURRENT_CONTRACT_VERSION
  scenario_id := job.scenario_id
  run_id := job.run_id
  execution_key := job.execution_key
  event_id := build_terminal_event_id job.execution_key job.attempt "result"
  attempt := job.attempt
  slice := job.slice
  started_at_unix_ms := report.started_at_unix_ms
  finished_at_unix_ms := report.finished_at_unix_ms
  status := report.status
  total := report.total
  success := report.success
  failure := report.failure
  latency_histogram := report.latency_histogram
  error_breakdown := report.error_breakdown

theorem current_version : (1 ≤ CURRENT_CONTRACT_VERSION ∧ CURRENT_CONTRACT_VERSION ≤ 2) ∧
    2 ≤ CURRENT_CONTRACT_VERSION := by decide

theorem len_terminal_event_id (execution_key : String) (attempt : UInt32) :
    len (build_terminal_event_id execution_key attempt "result") =
      len (build_terminal_event_id execution_key attempt "dlq") + 3 := by
  simp only [build_terminal_event_id, len_append]
  rfl

theorem is_blank_terminal_event_id {execution_key : String} (h : is_blank execution_key = false)
    (attempt : UInt32) (kind : String) :
    is_blank (build_terminal_event_id execution_key attempt kind) = false := by
  simp [build_terminal_event_id, is_blank_append, h]

/-- A failed job is sent when the identity of its event fits. -/
theorem failed_job_sent_iff {job : ScenarioJob} (hjob : job.Valid) {reason : String}
    (hreason : is_blank reason = false) (now : Nat) :
    (∃ sent, validated_failed_job (failed_job job reason now) = .ok sent) ↔
      len (build_terminal_event_id job.execution_key job.attempt "dlq") ≤
        MAX_CONTRACT_ID_BYTES := by
  constructor
  · rintro ⟨sent, hsent⟩
    obtain ⟨rfl, hvalid⟩ := validated_failed_job_iff.mp hsent
    exact (hvalid.event_id current_version.2).1.2
  · intro hlen
    have hmarker : ScenarioJob.IsIdentity MARKER := ⟨by decide, by decide⟩
    have hfirst := bounded_reason_isIdentity hmarker hreason
    have hreason' : ScenarioJob.IsIdentity (bounded_dlq_reason (bounded_failure_reason reason)) :=
      bounded_reason_isIdentity hmarker hfirst.1
    have hevent := is_blank_terminal_event_id hjob.execution_key.1 job.attempt "dlq"
    exact ⟨_, validated_failed_job_iff.mpr ⟨rfl, current_version.1, hjob.scenario_id, hjob.run_id,
      hjob.execution_key, hreason', hjob.slice, hjob.attempt, fun _ => ⟨⟨hevent, hlen⟩, rfl⟩⟩⟩

/-- The identity of a result is accepted when the identity of its event fits. -/
theorem run_result_identity_iff {job : ScenarioJob} (hjob : job.Valid) (report : RunReport) :
    (run_result job report).validate_identity = .ok () ↔
      len (build_terminal_event_id job.execution_key job.attempt "result") ≤
        MAX_CONTRACT_ID_BYTES := by
  have hlengths : validate_identity_lengths [("scenario_id", job.scenario_id),
      ("run_id", job.run_id), ("execution_key", job.execution_key)] = .ok () := by
    rw [validate_identity_lengths, forM_eq_ok]
    have hscenario := hjob.scenario_id.2
    have hrun := hjob.run_id.2
    have hkey := hjob.execution_key.2
    simp [hscenario, hrun, hkey]
  have hattempt : ¬ MAX_CONTRACT_ATTEMPT < job.attempt :=
    UInt32.not_lt.mpr (UInt32.le_trans hjob.attempt.1 hjob.attempt.2)
  have hevent := is_blank_terminal_event_id hjob.execution_key.1 job.attempt "result"
  have hbuckets := report.has_buckets
  unfold ScenarioRunResult.validate_identity
  rw [if_pos (show 2 ≤ (run_result job report).schema_version from current_version.2)]
  simp only [seq_eq_ok, validate_contract_version_iff, require_non_empty, validate_slice_iff,
    run_result]
  simp [hlengths, hjob.scenario_id.1, hjob.run_id.1, hjob.execution_key.1, hjob.slice, hattempt,
    hevent, hbuckets, current_version.1]

/-- Every attempt of a consumed job has its terminal records, the failed job and the result,
exactly when the longer identity of the two fits. -/
theorem terminal_records_are_sent_when_their_ids_fit
    {parse : List UInt8 → Except String ScenarioJob} {payload : Option (List UInt8)}
    {job : ScenarioJob} (hjob : decode_job parse payload = .ok job) {attempt : UInt32}
    (hattempt : attempt ≤ job.max_retries) {reason : String} (hreason : is_blank reason = false)
    (serde : Serde) (now : Nat) (report : RunReport) :
    ((∃ text, serialize_validated_failed_job serde
        (failed_job { job with attempt := attempt } reason now) = .ok text) ∧
      (run_result { job with attempt := attempt } report).validate_identity = .ok ()) ↔
      len (build_terminal_event_id job.execution_key attempt "result") ≤ MAX_CONTRACT_ID_BYTES := by
  have hvalid := decode_job_valid hjob
  -- The records do not read the time before which a retry has to wait.
  have hretry : ({ job with attempt := attempt, not_before_unix_ms := 1 } : ScenarioJob).Valid :=
    { hvalid with
      attempt := ⟨hattempt, hvalid.attempt.2⟩
      not_before := fun _ _ => Nat.one_ne_zero }
  have hfailed := failed_job_sent_iff hretry hreason now
  have hresult := run_result_identity_iff hretry report
  have hlen := len_terminal_event_id job.execution_key attempt
  have hsent : (∃ text, serialize_validated_failed_job serde
      (failed_job { job with attempt := attempt } reason now) = .ok text) ↔
      ∃ sent, validated_failed_job (failed_job { job with attempt := attempt } reason now) =
        .ok sent := by
    simp only [serialize_validated_failed_job, bind_eq_ok]
    constructor
    · rintro ⟨_, sent, hsent, -⟩
      exact ⟨sent, hsent⟩
    · rintro ⟨sent, hsent⟩
      exact ⟨_, sent, hsent, rfl⟩
  constructor
  · rintro ⟨-, hidentity⟩
    exact hresult.mp hidentity
  · intro hfits
    refine ⟨hsent.mpr (hfailed.mpr ?_), hresult.mpr hfits⟩
    dsimp only
    omega

def sampleReport : RunReport where
  started_at_unix_ms := 5
  finished_at_unix_ms := 9
  status := .Success
  total := 1
  success := 1
  failure := 0
  latency_histogram := [⟨1, 1⟩]
  has_buckets := by decide
  error_breakdown := []

def keyedJob (execution_key : String) : ScenarioJob where
  schema_version := 2
  scenario_id := "s"
  run_id := "r"
  execution_key := execution_key
  plan_fingerprint := "p"
  scheduled_at_unix_ms := 0
  not_before_unix_ms := 0
  slice := ⟨0, 1⟩
  load.scenarios_per_sec := .whole 1 (by decide)
  load.duration := 1
  load.max_concurrency := 1
  load.startup_burst := 0
  attempt := 0
  max_retries := 0

theorem shortKey_valid : (keyedJob "k").Valid where
  schema_version := by decide
  scenario_id := ⟨by decide, by decide⟩
  run_id := ⟨by decide, by decide⟩
  execution_key := ⟨by decide, by decide⟩
  plan_fingerprint := ⟨by decide, fun _ => by decide⟩
  slice := by decide
  load := ⟨⟨_, rfl, by decide⟩, by decide, by decide, by decide⟩
  attempt := by decide
  not_before := fun _ h => absurd h (by decide)

theorem keyedJob_valid {execution_key : String} (h : ScenarioJob.IsIdentity execution_key) :
    (keyedJob execution_key).Valid :=
  { shortKey_valid with execution_key := h }

/-- Both records of a job with a short key are sent. -/
theorem short_execution_key_has_terminal_records :
    len (build_terminal_event_id "k" 0 "result") ≤ MAX_CONTRACT_ID_BYTES ∧
      ((∃ text, serialize_validated_failed_job ⟨fun _ => "", fun _ => .error "", fun _ => ""⟩
          (failed_job (keyedJob "k") "boom" 0) = .ok text) ∧
        (run_result (keyedJob "k") sampleReport).validate_identity = .ok ()) := by
  have hdecode : decode_job (fun _ => .ok (keyedJob "k")) (some []) = .ok (keyedJob "k") :=
    decode_job_of_valid shortKey_valid
  have hfits : len (build_terminal_event_id "k" 0 "result") ≤ MAX_CONTRACT_ID_BYTES := by decide
  exact ⟨hfits, (terminal_records_are_sent_when_their_ids_fit hdecode (by decide) (by decide)
    ⟨fun _ => "", fun _ => .error "", fun _ => ""⟩ 0 sampleReport).mpr hfits⟩

/-- A text of one letter, `n` times. -/
def letters (n : Nat) : String := String.ofList (List.replicate n 'k')

theorem len_letters (n : Nat) : len (letters n) = n := by
  unfold letters
  rw [len_ascii, List.length_replicate]
  intro c hc
  rw [List.eq_of_mem_replicate hc]
  decide

theorem is_blank_letters {n : Nat} (h : 0 < n) : is_blank (letters n) = false := by
  have hmem : 'k' ∈ (letters n).toList := by
    simp only [letters, String.toList_ofList, List.mem_replicate, and_true]
    omega
  exact not_blank hmem (by decide)

/-- A job with a key of 1015 bytes is consumed, and neither of its records is sent. -/
theorem long_execution_key_has_no_terminal_record :
    let job := keyedJob (letters 1015)
    decode_job (fun _ => .ok job) (some []) = .ok job ∧
      (¬ ∃ sent, validated_failed_job (failed_job job "boom" 0) = .ok sent) ∧
      (run_result job sampleReport).validate_identity ≠ .ok () := by
  have hkey : ScenarioJob.IsIdentity (letters 1015) := by
    refine ⟨is_blank_letters (by decide), ?_⟩
    rw [len_letters]
    decide
  have hvalid : (keyedJob (letters 1015)).Valid := keyedJob_valid hkey
  have hlen : len (build_terminal_event_id (letters 1015) 0 "dlq") = 1029 := by
    simp only [build_terminal_event_id, len_append, len_letters]
    decide
  refine ⟨?_, ?_, ?_⟩
  · exact decode_job_of_valid hvalid
  · rw [failed_job_sent_iff hvalid (by decide)]
    change ¬ len (build_terminal_event_id (letters 1015) 0 "dlq") ≤ 1024
    omega
  · rw [Ne, run_result_identity_iff hvalid]
    change ¬ len (build_terminal_event_id (letters 1015) 0 "result") ≤ 1024
    rw [len_terminal_event_id]
    omega

end pulse.service
