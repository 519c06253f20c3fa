-- The evidence of a message that could not be read (infrastructure/kafka/mod.rs): what is
-- kept of its key and of its payload, the record that carries it, and the room that
-- the configuration leaves for that record.
import Pulse.Base64Padded
import Pulse.Config
import Pulse.FailedRecords
import Pulse.JsonText

open checks json strings
open pulse.config (AppConfig Parsers validate_topic poison_record_size_bound)
open pulse.contracts

namespace pulse.kafka

/-! ## What is kept of a message -/

/-- `retained` is the start of the bytes. -/
structure BoundedPoisonEvidence where
  retained : Option (List UInt8)
  original_bytes : Option UInt64
  truncated : Bool
deriving DecidableEq

def BoundedPoisonEvidence.capture : Option (List UInt8) → BoundedPoisonEvidence
  | none => ⟨none, none, false⟩
  | some value =>
    let retained_bytes := min value.length MAX_POISON_EVIDENCE_FIELD_BYTES
    { retained := some (value.take retained_bytes)
      original_bytes := some (UInt64.ofNat (min value.length (2 ^ 64 - 1)))
      truncated := decide (retained_bytes < value.length) }

def poison_record_from_evidence (topic : String) (partition : Int32) (offset : Int64)
    (source_key payload : BoundedPoisonEvidence) (reason : String) (now_unix_ms : Nat) :
    PoisonMessageRecord where
  schema_version := CURRENT_CONTRACT_VERSION
  event_id := poison_event_id topic partition offset
  failed_at_unix_ms := now_unix_ms
  source_topic := topic
  source_partition := partition
  source_offset := offset
  source_key_base64 := source_key.retained.map base64.padded.encode
  source_key_original_bytes := source_key.original_bytes
  source_key_truncated := source_key.truncated
  payload_base64 := payload.retained.map base64.padded.encode
  payload_original_bytes := payload.original_bytes
  payload_truncated := payload.truncated
  reason := bounded_dlq_reason reason

/-- `BASE64_STANDARD.decode`; the text of its errors is a parameter. -/
def base64_standard_decode (message : String → String) (encoded : String) :
    Except String (List UInt8) :=
  okOr (base64.padded.decode encoded) (message encoded)

/-- The evidence that a record has of a captured value. -/
def BoundedPoisonEvidence.evidence (captured : BoundedPoisonEvidence) : Evidence :=
  ⟨captured.retained.map base64.padded.encode, captured.original_bytes, captured.truncated⟩

/-- Decoding the evidence gives the start of the source; the evidence has the length of the
source and says whether bytes were dropped. -/
structure Faithful (source : Option (List UInt8)) (evidence : Evidence) : Prop where
  bytes : evidence.encoded.map base64.padded.decode =
    source.map fun value => some (value.take (min value.length MAX_POISON_EVIDENCE_FIELD_BYTES))
  original : evidence.original_bytes.map UInt64.toNat = source.map List.length
  cut : evidence.truncated = true ↔
    ∃ value ∈ source, MAX_POISON_EVIDENCE_FIELD_BYTES < value.length

variable {source : Option (List UInt8)}

theorem capture_faithful (h : ∀ value ∈ source, value.length < 2 ^ 64) :
    Faithful source (BoundedPoisonEvidence.capture source).evidence := by
  cases source with
  | none =>
    refine ⟨rfl, rfl, ?_⟩
    simp [BoundedPoisonEvidence.capture, BoundedPoisonEvidence.evidence]
  | some value =>
    have hlength := h value rfl
    refine ⟨?_, ?_, ?_⟩
    · simp [BoundedPoisonEvidence.capture, BoundedPoisonEvidence.evidence,
        base64.padded.decode_encode]
    · simp only [BoundedPoisonEvidence.capture, BoundedPoisonEvidence.evidence, Option.map_some]
      rw [Nat.min_eq_left (by omega), UInt64.toNat_ofNat_of_lt' hlength]
    · simp only [BoundedPoisonEvidence.capture, BoundedPoisonEvidence.evidence, decide_eq_true_iff,
        Option.mem_def, Option.some.injEq, exists_eq_left']
      omega

/-! ## The publisher takes it -/

theorem len_encode_retained (value : List UInt8) :
    len (base64.padded.encode
      (value.take (min value.length MAX_POISON_EVIDENCE_FIELD_BYTES))) ≤ max_encoded_bytes := by
  have hle : (value.take (min value.length MAX_POISON_EVIDENCE_FIELD_BYTES)).length ≤
      MAX_POISON_EVIDENCE_FIELD_BYTES := by
    rw [List.length_take]
    omega
  rw [base64.padded.len_padded_encode]
  unfold max_encoded_bytes
  omega

theorem capture_validates (h : ∀ value ∈ source, value.length < 2 ^ 64) (message : String → String)
    (schema_version : UInt16) (field : String) :
    validate_poison_evidence_for_publish (base64_standard_decode message) schema_version field
      (BoundedPoisonEvidence.capture source).evidence = .ok () := by
  cases source with
  | none =>
    unfold validate_poison_evidence_for_publish
    exact rejectIf_eq_ok.mpr
      (by simp [BoundedPoisonEvidence.capture, BoundedPoisonEvidence.evidence])
  | some value =>
    have hlength := h value rfl
    have hlen := len_encode_retained value
    have hretained : (value.take (min value.length MAX_POISON_EVIDENCE_FIELD_BYTES)).length =
        min value.length MAX_POISON_EVIDENCE_FIELD_BYTES := by
      rw [List.length_take]
      omega
    unfold validate_poison_evidence_for_publish
    simp only [BoundedPoisonEvidence.capture, BoundedPoisonEvidence.evidence, Option.map_some,
      base64_standard_decode, base64.padded.decode_encode, okOr, bind_eq_ok, rejectIf_eq_ok,
      mapError_eq_ok]
    refine ⟨(), by omega, _, rfl, (), by omega, ?_⟩
    apply rejectIf_eq_ok.mpr
    unfold Evidence.isInconsistent
    dsimp only
    rw [hretained, Nat.min_eq_left (by omega : value.length ≤ 2 ^ 64 - 1),
      UInt64.toNat_ofNat_of_lt' hlength, decide_eq_true_iff, decide_eq_false_iff_not]
    omega

/-- A topic that the configuration takes is short, and not blank. -/
theorem validate_topic_ok {setting topic : String} (h : validate_topic setting topic = .ok ()) :
    is_blank topic = false ∧ len topic ≤ 249 := by
  simp only [validate_topic, seq_eq_ok, config.validate_non_empty, rejectIf_eq_ok] at h
  obtain ⟨hblank, hlen, -⟩ := h
  exact ⟨Bool.not_eq_true _ ▸ hblank, by omega⟩

theorem len_poison_event_id {topic : String} {partition : Int32} {offset : Int64}
    (htopic : len topic ≤ 249) (hpartition : 0 ≤ partition) (hoffset : 0 ≤ offset) :
    len (poison_event_id topic partition offset) ≤ 287 := by
  have hpoison : len "poison:" = 7 := by decide
  have hcolon : len ":" = 1 := by decide
  have hpartitionLen : len (toString partition) ≤ 10 := by
    have hlt := partition.toInt_lt
    exact len_int_le (by decide) (Int32.le_iff_toInt_le.mp hpartition) (by omega)
  have hoffsetLen : len (toString offset) ≤ 19 := by
    have hlt := offset.toInt_lt
    exact len_int_le (by decide) (Int64.le_iff_toInt_le.mp hoffset) (by omega)
  unfold poison_event_id
  simp only [len_append]
  omega

section records

variable {topic reason : String} {partition : Int32} {offset : Int64}
  {source_key payload : Option (List UInt8)} {now_unix_ms : Nat}

/-- The record of the message at these coordinates. -/
def poison_record (topic : String) (partition : Int32) (offset : Int64)
    (source_key payload : Option (List UInt8)) (reason : String) (now_unix_ms : Nat) :
    PoisonMessageRecord :=
  poison_record_from_evidence topic partition offset (.capture source_key) (.capture payload)
    reason now_unix_ms

theorem validated_poison_record (htopic : is_blank topic = false ∧ len topic ≤ 249)
    (hpartition : 0 ≤ partition) (hoffset : 0 ≤ offset) (hreason : is_blank reason = false)
    (hkey : ∀ value ∈ source_key, value.length < 2 ^ 64)
    (hpayload : ∀ value ∈ payload, value.length < 2 ^ 64) (message : String → String) :
    validated_poison (base64_standard_decode message)
        (poison_record topic partition offset source_key payload reason now_unix_ms) =
      .ok (poison_record topic partition offset source_key payload reason now_unix_ms) := by
  have hmarker : ScenarioJob.IsIdentity POISON_REASON_TRUNCATION_MARKER :=
    ⟨by decide +kernel, by decide +kernel⟩
  have hbounded := bounded_reason_isIdentity hmarker hreason
  -- a bounded reason is not cut again
  have hagain : bounded_dlq_reason (bounded_dlq_reason reason) = bounded_dlq_reason reason :=
    bounded_reason_of_le hbounded.2
  have hid : ScenarioJob.IsIdentity (poison_event_id topic partition offset) := by
    have hlen := len_poison_event_id htopic.2 hpartition hoffset
    refine ⟨?_, by unfold MAX_CONTRACT_ID_BYTES; omega⟩
    simp [poison_event_id, is_blank_append, htopic.1]
  have htopicId : ScenarioJob.IsIdentity topic :=
    ⟨htopic.1, by unfold MAX_CONTRACT_ID_BYTES; omega⟩
  simp only [validated_poison, seq_eq_ok, mapError_eq_ok, forM_eq_ok, validate_dlq_text_iff,
    rejectIf_eq_ok, List.forall_mem_cons, validate_contract_version_iff]
  refine ⟨service.current_version.1, ⟨hid, htopicId, ?_, by simp⟩, ?_, ?_, ?_, ?_, ?_⟩
  · change ScenarioJob.IsIdentity (bounded_dlq_reason (bounded_dlq_reason reason))
    rw [hagain]
    exact hbounded
  · rintro (h | h)
    · exact absurd hpartition (Int32.not_le.mpr h)
    · exact absurd hoffset (Int64.not_le.mpr h)
  · exact not_not.mpr rfl
  · exact capture_validates hkey message _ _
  · exact capture_validates hpayload message _ _
  · unfold poison_record poison_record_from_evidence
    rw [hagain]
    rfl

/-! ## The producer has room for it -/

/-- The text of evidence: each source byte of a quartet has its place. -/
theorem len_evidence_text_le (float_text : ℚ → String) (source : Option (List UInt8)) :
    len ((orNull Value.String (BoundedPoisonEvidence.capture source).evidence.encoded).text
      float_text) ≤ max_encoded_bytes + 4 := by
  cases source with
  | none =>
    change len "null" ≤ max_encoded_bytes + 4
    have hnull : len "null" = 4 := by decide
    omega
  | some value =>
    have hlen := len_encode_retained value
    change len (quoted (base64.padded.encode
      (value.take (min value.length MAX_POISON_EVIDENCE_FIELD_BYTES)))) ≤ max_encoded_bytes + 4
    rw [len_quoted_plain]
    · omega
    · intro c hc
      obtain ⟨hquote, hslash, hcontrol, -⟩ := base64.padded.encode_plain hc
      simp [isEscaped, hquote, hslash]
      omega

variable {float_text : ℚ → String} (hfloat : ∀ value, len (float_text value) ≤ 40)
include hfloat

theorem len_original_text_le (original : Option UInt64) :
    len ((orNull (fun n => integer n.toNat) original).text float_text) ≤ 40 := by
  cases original with
  | none =>
    change len "null" ≤ 40
    decide
  | some n =>
    change len ((Number.ofInt n.toNat).text float_text) ≤ 40
    exact len_number_text_le hfloat _

theorem len_integer_text_le (z : Int) : len ((integer z).text float_text) ≤ 40 :=
  len_number_text_le hfloat (.ofInt z)

/-- The names, the numbers and the texts of the record, but not its evidence, have room in
twelve thousand bytes. -/
theorem len_poison_text_le (htopic : len topic ≤ 249) (hpartition : 0 ≤ partition)
    (hoffset : 0 ≤ offset) :
    len ((Value.Object (poison_record topic partition offset source_key payload reason
        now_unix_ms).to_members).text float_text) ≤ 2 * max_encoded_bytes + 12000 := by
  have hname : ∀ name : String, len name ≤ 25 → len (quoted name) ≤ 152 := by
    intro name h
    have hquoted := len_quoted_le name
    omega
  have hid : len (quoted (poison_event_id topic partition offset)) ≤ 1724 := by
    have hlen := len_poison_event_id htopic hpartition hoffset
    have hquoted := len_quoted_le (poison_event_id topic partition offset)
    omega
  have htopicText : len (quoted topic) ≤ 1496 := by
    have hquoted := len_quoted_le topic
    omega
  have hreason : len (quoted (bounded_dlq_reason reason)) ≤ 6146 := by
    have hlen : len (bounded_dlq_reason reason) ≤ 1024 := len_bounded_reason (by decide) reason
    have hquoted := len_quoted_le (bounded_dlq_reason reason)
    omega
  have hmember : ∀ (name : String) (value : Value) {bound : Nat}, len name ≤ 25 →
      len (value.text float_text) ≤ bound →
      len (quoted name) + len (value.text float_text) + 2 ≤ bound + 154 := by
    intro name value bound h hvalue
    have hquoted := hname name h
    omega
  have hinteger := len_integer_text_le hfloat
  have hevidence := len_evidence_text_le float_text
  have horiginal := len_original_text_le hfloat
  have hbool := len_bool_text_le float_text
  have hmembers : List.Forall₂ (fun member bound =>
      len (quoted member.1) + len (member.2.text float_text) + 2 ≤ bound)
      (poison_record topic partition offset source_key payload reason now_unix_ms).to_members
      [1724 + 154, 40 + 154, max_encoded_bytes + 4 + 154, 40 + 154, 5 + 154, 6146 + 154, 40 + 154,
        max_encoded_bytes + 4 + 154, 40 + 154, 5 + 154, 40 + 154, 40 + 154, 1496 + 154] := by
    refine .cons ?_ (.cons ?_ (.cons ?_ (.cons ?_ (.cons ?_ (.cons ?_ (.cons ?_ (.cons ?_
      (.cons ?_ (.cons ?_ (.cons ?_ (.cons ?_ (.cons ?_ .nil))))))))))))
    · exact hmember "event_id" (.String _) (by decide) hid
    · exact hmember "failed_at_unix_ms" _ (by decide) (hinteger _)
    · exact hmember "payload_base64" _ (by decide) (hevidence payload)
    · exact hmember "payload_original_bytes" _ (by decide) (horiginal _)
    · exact hmember "payload_truncated" _ (by decide) (hbool _)
    · exact hmember "reason" (.String _) (by decide) hreason
    · exact hmember "schema_version" _ (by decide) (hinteger _)
    · exact hmember "source_key_base64" _ (by decide) (hevidence source_key)
    · exact hmember "source_key_original_bytes" _ (by decide) (horiginal _)
    · exact hmember "source_key_truncated" _ (by decide) (hbool _)
    · exact hmember "source_offset" _ (by decide) (hinteger _)
    · exact hmember "source_partition" _ (by decide) (hinteger _)
    · exact hmember "source_topic" (.String _) (by decide) htopicText
  have hsum : ∀ encoded : Nat, [1724 + 154, 40 + 154, encoded + 4 + 154, 40 + 154, 5 + 154,
      6146 + 154, 40 + 154, encoded + 4 + 154, 40 + 154, 5 + 154, 40 + 154, 40 + 154,
      1496 + 154].sum + 2 ≤ 2 * encoded + 12000 := by
    intro encoded
    simp only [List.sum_cons, List.sum_nil]
    omega
  exact (len_object_text_le hmembers).trans (hsum max_encoded_bytes)

end records

/-! ## Poison messages -/

theorem poison_record_size_bound_eq :
    poison_record_size_bound (2 * MAX_POISON_EVIDENCE_FIELD_BYTES) =
      some (2 * max_encoded_bytes + 16384) := by decide +kernel

/-- Every accepted configuration has room for the record of a poison message. -/
theorem poison_bound_le_limit {config : AppConfig} {parsers : Parsers} {bound : Nat}
    (hbound : poison_record_size_bound (2 * MAX_POISON_EVIDENCE_FIELD_BYTES) = some bound)
    (h : config.validate parsers = .ok ()) : bound ≤ config.kafka_producer_message_max_bytes := by
  have hkafka := (AppConfig.validate_eq_ok.mp h).2.1
  simp only [AppConfig.validate_kafka, seq_eq_ok, AppConfig.validate_duration_upper_bound_eq_ok,
    rejectIf_eq_ok, AppConfig.validate_capacity_eq_ok] at hkafka
  obtain ⟨-, -, -, -, -, -, -, -, -, -, -, -, -, -, -, -, -, hrest⟩ := hkafka
  simp only [bind_eq_ok, okOr_eq_ok, rejectIf_eq_ok] at hrest
  obtain ⟨evidence, hevidence, bound', hbound', _, hlimit, -⟩ := hrest
  have hsame : evidence = 2 * MAX_POISON_EVIDENCE_FIELD_BYTES := by
    have hchecked : pulse.config.checked (pulse.config.MAX_POISON_EVIDENCE_FIELD_BYTES * 2) =
        some (2 * MAX_POISON_EVIDENCE_FIELD_BYTES) := by decide +kernel
    rw [hchecked] at hevidence
    cases hevidence
    rfl
  rw [hsame, hbound] at hbound'
  cases hbound'
  exact Nat.not_lt.mp hlimit

/-- The record of a message that could not be read is taken by the publisher, shows the start
of its key and of its payload as they were, and fits in what every accepted
configuration lets the producer send. JSON is the compact text, and the text of a number has
at most 40 bytes; the length of a key or of a payload is a `u64`. -/
theorem poison_evidence_is_faithful_and_can_be_sent (serde : Serde) (float_text : ℚ → String)
    (message : String → String) (setting topic : String) (partition : Int32) (offset : Int64)
    (source_key payload : Option (List UInt8)) (reason : String) (now_unix_ms : Nat)
    (hserde : ∀ value, serde.to_string value = value.text float_text)
    (hfloat : ∀ value, len (float_text value) ≤ 40)
    (htopic : validate_topic setting topic = .ok ())
    (hpartition : 0 ≤ partition) (hoffset : 0 ≤ offset) (hreason : is_blank reason = false)
    (hkey : ∀ value ∈ source_key, value.length < 2 ^ 64)
    (hpayload : ∀ value ∈ payload, value.length < 2 ^ 64) :
    let record := poison_record topic partition offset source_key payload reason now_unix_ms
    Faithful source_key record.source_key ∧ Faithful payload record.payload ∧
      ∃ text bound,
        serialize_validated_poison (base64_standard_decode message) serde record = .ok text ∧
        poison_record_size_bound (2 * MAX_POISON_EVIDENCE_FIELD_BYTES) = some bound ∧
        len text + len record.event_id ≤ bound ∧
        ∀ (config : AppConfig) (parsers : Parsers), config.validate parsers = .ok () →
          bound ≤ config.kafka_producer_message_max_bytes := by
  intro record
  obtain ⟨hblank, hlen⟩ := validate_topic_ok htopic
  refine ⟨capture_faithful hkey, capture_faithful hpayload,
    serde.to_string (.Object record.to_members), 2 * max_encoded_bytes + 16384, ?_,
    poison_record_size_bound_eq, ?_, ?_⟩
  · unfold serialize_validated_poison
    rw [validated_poison_record ⟨hblank, hlen⟩ hpartition hoffset hreason hkey hpayload message]
    rfl
  · have htext : len (serde.to_string (.Object record.to_members)) ≤
        2 * max_encoded_bytes + 12000 := by
      rw [hserde]
      exact len_poison_text_le hfloat hlen hpartition hoffset
    have hid : len record.event_id ≤ 287 := len_poison_event_id hlen hpartition hoffset
    omega
  · intro config parsers hvalid
    exact poison_bound_le_limit poison_record_size_bound_eq hvalid

/-- A short text for every float. -/
def plainSerde : Serde := ⟨fun value => value.text fun _ => "0.0", fun _ => .error "", fun _ => ""⟩

theorem a_message_without_a_key_can_be_sent :
    let record := poison_record "jobs" 0 7 none (some [0, 255]) "bad" 1
    record.payload_base64 = some "AP8=" ∧ Faithful none record.source_key ∧
      Faithful (some [0, 255]) record.payload ∧
      ∃ text bound,
        serialize_validated_poison (base64_standard_decode fun _ => "") plainSerde record =
          .ok text ∧
        poison_record_size_bound (2 * MAX_POISON_EVIDENCE_FIELD_BYTES) = some bound ∧
        len text + len record.event_id ≤ bound ∧
        ∀ (config : AppConfig) (parsers : Parsers), config.validate parsers = .ok () →
          bound ≤ config.kafka_producer_message_max_bytes := by
  refine ⟨by decide +kernel, ?_⟩
  exact poison_evidence_is_faithful_and_can_be_sent plainSerde (fun _ => "0.0") (fun _ => "") ""
    "jobs" 0 7 none (some [0, 255]) "bad" 1 (fun _ => rfl) (fun _ => by decide +kernel)
    (by decide +kernel) (by decide) (by decide) (by decide +kernel) (by simp) (by simp)

end pulse.kafka
