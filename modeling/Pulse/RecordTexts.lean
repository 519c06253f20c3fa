-- The JSON texts of jobs and results. The crate writes the rate of a job with
-- the fewest digits and reads it back as a quotient of rounded parts, so a
-- worker may get a rate that nobody sent.
import Pulse.JsonText
import Pulse.WorkerChecks

open checks json
open pulse.config pulse.contracts

namespace pulse.kafka

/-! ## A job on its way -/

section rates

variable (digits : ℚ → floats.Decimal)

/-- The rate that is read from the digits of a rate. The crate has no `float_roundtrip`. -/
def read_rate (rate : Double) : Option Double :=
  match rate.value with
  | .finite x => (digits x).read.map Double.of
  | _ => none

def reread (job : ScenarioJob) : Option ScenarioJob :=
  (read_rate digits job.load.scenarios_per_sec).map fun rate =>
    { job with load := { job.load with scenarios_per_sec := rate } }

end rates

/-- The crate: how jobs are written and read, and the decimal that it writes for a rate. -/
structure JobCodec where
  to_string : ScenarioJob → Except String String
  parse : List UInt8 → Except String ScenarioJob
  digits : ℚ → floats.Decimal

namespace JobCodec

/-- The text of the job is read as the job, up to its rate. -/
def Reads (codec : JobCodec) (job : ScenarioJob) : Prop :=
  ∃ text, codec.to_string job = .ok text ∧
    ∀ read, codec.parse text.toUTF8.data.toList = .ok read ↔ reread codec.digits job = some read

/-- A job from its publisher to a consumer. -/
def received (codec : JobCodec) (job : ScenarioJob) : Except String ScenarioJob := do
  let text ← serialize_validated_job codec.to_string job
  (decode_job codec.parse (some text.toUTF8.data.toList)).mapError (·.display)

variable {codec : JobCodec} {job read : ScenarioJob}

theorem received_eq_ok (h : codec.Reads job) :
    codec.received job = .ok read ↔
      job.Valid ∧ reread codec.digits job = some read ∧ read.Valid := by
  obtain ⟨text, htext, hparse⟩ := h
  have hwrite : ∀ written, serialize_validated_job codec.to_string job = .ok written ↔
      job.Valid ∧ text = written := by
    intro written
    simp [serialize_validated_job, seq_eq_ok, mapError_eq_ok, ScenarioJob.validate_iff, htext]
  simp only [received, bind_eq_ok, hwrite, mapError_eq_ok]
  constructor
  · rintro ⟨written, ⟨hvalid, rfl⟩, hdecode⟩
    have hread := decode_job_valid hdecode
    simp only [decode_job, bind_eq_ok, mapError_eq_ok, okOr_eq_ok] at hdecode
    obtain ⟨payload, hpayload, parsed, hparsed, _, -, hsame⟩ := hdecode
    cases hpayload
    cases hsame
    exact ⟨hvalid, (hparse _).mp hparsed, hread⟩
  · rintro ⟨hvalid, hreread, hread⟩
    refine ⟨text, ⟨hvalid, rfl⟩, ?_⟩
    simp only [decode_job, bind_eq_ok, mapError_eq_ok, okOr_eq_ok]
    exact ⟨_, rfl, read, (hparse read).mpr hreread, (), ScenarioJob.validate_iff.mpr hread, rfl⟩

/-- A job is received with the load that it has when its rate is read as it is. -/
theorem received_with_load_iff {P : ScenarioJob → Prop} (h : codec.Reads job)
    (hload : ∀ rate, P { job with load := { job.load with scenarios_per_sec := rate } } →
      rate = job.load.scenarios_per_sec)
    (hpasses : job.Valid → P job) :
    (∃ read, codec.received job = .ok read ∧ P read) ↔
      job.Valid ∧
        read_rate codec.digits job.load.scenarios_per_sec = some job.load.scenarios_per_sec := by
  constructor
  · rintro ⟨read, hread, hP⟩
    obtain ⟨hvalid, hreread, -⟩ := (received_eq_ok h).mp hread
    obtain ⟨rate, hrate, rfl⟩ := Option.map_eq_some_iff.mp hreread
    refine ⟨hvalid, ?_⟩
    rw [hrate, hload rate hP]
  · rintro ⟨hvalid, hrate⟩
    refine ⟨job, (received_eq_ok h).mpr ⟨hvalid, ?_, hvalid⟩, hpasses hvalid⟩
    rw [reread, hrate]
    rfl

end JobCodec

/-! ## Texts -/

/-- A job, with its fields in the order of the record. -/
def jobText (job : ScenarioJob) : String :=
  printed (.Object [("schema_version", integer job.schema_version.toNat),
    ("scenario_id", .String job.scenario_id), ("run_id", .String job.run_id),
    ("execution_key", .String job.execution_key),
    ("plan_fingerprint", .String job.plan_fingerprint),
    ("scheduled_at_unix_ms", integer job.scheduled_at_unix_ms),
    ("not_before_unix_ms", integer job.not_before_unix_ms), ("slice", job.slice.to_value),
    ("load", .Object [("scenarios_per_sec", match job.load.scenarios_per_sec.value with
        | .finite x => .Number (.Float x)
        | _ => .Null), ("duration", .Object [("secs", integer (job.load.duration / 1000000000)),
        ("nanos", integer (job.load.duration % 1000000000))]),
      ("max_concurrency", integer job.load.max_concurrency),
      ("startup_burst", integer job.load.startup_burst)]),
    ("attempt", integer job.attempt.toNat), ("max_retries", integer job.max_retries.toNat)])

/-- The crate on a few jobs. -/
def codecOf (known : List ScenarioJob) : JobCodec where
  to_string := writerOf jobText known
  parse := fun bytes => do
    let job ← readerOf jobText known bytes
    okOr (reread floats.Decimal.shortest job) "number out of range"
  digits := floats.Decimal.shortest

theorem codecOf_reads {known : List ScenarioJob} {job : ScenarioJob}
    (hnodup : (known.map fun job => (jobText job).toUTF8.data.toList).Nodup) (hjob : job ∈ known) :
    (codecOf known).Reads job := by
  refine ⟨jobText job, if_pos hjob, fun read => ?_⟩
  have hknown := readerOf_text hnodup hjob
  simp only [codecOf, bind_eq_ok, okOr_eq_ok]
  constructor
  · rintro ⟨found, hfound, hread⟩
    rw [hknown] at hfound
    cases hfound
    exact hread
  · exact fun hread => ⟨job, hknown, hread⟩

/-- Jobs whose rates are read as they are come back whole. -/
theorem codecOf_text {known : List ScenarioJob} {job : ScenarioJob} {text : String}
    (hnodup : (known.map fun job => (jobText job).toUTF8.data.toList).Nodup)
    (hrates : ∀ job ∈ known, reread floats.Decimal.shortest job = some job)
    (h : serialize_validated_job (codecOf known).to_string job = .ok text) :
    decode_job (codecOf known).parse (some text.toUTF8.data.toList) = .ok job := by
  simp only [serialize_validated_job, bind_eq_ok, mapError_eq_ok] at h
  obtain ⟨_, hvalid, htext⟩ := h
  obtain ⟨hjob, hread⟩ := readerOf_writerOf hnodup htext
  simp only [decode_job, codecOf, bind_eq_ok, mapError_eq_ok, okOr_eq_ok]
  exact ⟨_, rfl, job, ⟨job, hread, hrates job hjob⟩, (), hvalid, rfl⟩

/-- A result. Its quantiles, which the aggregation does not read, are those of no observations. -/
def resultText (result : ScenarioRunResult) : String :=
  printed (.Object [("schema_version", integer result.schema_version.toNat),
    ("scenario_id", .String result.scenario_id), ("run_id", .String result.run_id),
    ("execution_key", .String result.execution_key), ("event_id", .String result.event_id),
    ("attempt", integer result.attempt.toNat), ("slice", result.slice.to_value),
    ("started_at_unix_ms", integer result.started_at_unix_ms),
    ("finished_at_unix_ms", integer result.finished_at_unix_ms),
    ("status", .String (if result.status = .Success then "Success" else "Failed")),
    ("total", integer result.total.toNat), ("success", integer result.success.toNat),
    ("failure", integer result.failure.toNat), ("scenario_latency_p50_ms", integer 0),
    ("scenario_latency_p95_ms", integer 0), ("scenario_latency_p99_ms", integer 0),
    ("latency_histogram", .Array (result.latency_histogram.map fun bucket =>
      .Object [("upper_bound_ms", integer bucket.upper_bound_ms.toNat),
        ("count", integer bucket.count.toNat)])),
    ("error_breakdown", .Array (result.error_breakdown.map fun error =>
      .Object [("kind", .String error.kind), ("count", integer error.count.toNat)]))])

end pulse.kafka
