-- The checks of the components against the check of the settings. `main`
-- hands the settings on to Kafka clients and Redis stores; each checks what
-- it gets once more, and the stores check their times at every call.
import Pulse.AggregationStore
import Pulse.LeaseBudgets

open checks durations Duration strings
open pulse.config pulse.coordination

namespace pulse.kafka

/-! ## The Kafka clients -/

def I32_MAX : Nat := 2 ^ 31 - 1
def KAFKA_RESPONSE_OVERHEAD_BYTES : Nat := 512

def validate_duration (name : String) (duration : Nat) : Except String Unit := do
  rejectIf (as_millis duration = 0) (name ++ " must be at least one millisecond")
  rejectIf (I32_MAX < as_millis duration)
    (name ++ " exceeds Kafka's signed 32-bit millisecond limit")

def validate_capacity (name : String) (value : Nat) : Except String Unit := do
  rejectIf (value = 0) (name ++ " must be greater than zero")
  rejectIf (I32_MAX < value) (name ++ " exceeds Kafka's signed 32-bit limit")

/-- The settings of a producer that its check reads. -/
structure KafkaProducerConfig where
  queue_capacity_messages : Nat
  message_max_bytes : Nat
  message_timeout : Nat
  delivery_timeout : Nat
  request_timeout : Nat
  acks : String

def KafkaProducerConfig.validate (config : KafkaProducerConfig) : Except String Unit := do
  validate_capacity "Kafka producer queue capacity" config.queue_capacity_messages
  validate_capacity "Kafka producer message max bytes" config.message_max_bytes
  validate_duration "Kafka message timeout" config.message_timeout
  validate_duration "Kafka delivery timeout" config.delivery_timeout
  validate_duration "Kafka request timeout" config.request_timeout
  rejectIf (config.message_timeout ≠ config.delivery_timeout)
    ("Kafka message timeout must equal delivery timeout because librdkafka treats " ++
      "message.timeout.ms and delivery.timeout.ms as aliases")
  rejectIf (config.delivery_timeout < config.request_timeout)
    "Kafka request timeout must not exceed delivery timeout"
  rejectIf (¬ (config.acks = "all" ∨ config.acks = "-1"))
    "Kafka producer acks must be 'all' or '-1' for durable disposition publication"

/-- The last passage of the consumer's check: a response still fits with its framing. -/
def validate_response_bytes (fetch_max_bytes : Nat) : Except String Unit := do
  let _ ← okOr ((checked (fetch_max_bytes + KAFKA_RESPONSE_OVERHEAD_BYTES)).filter
      fun bytes => decide (bytes ≤ I32_MAX))
    "Kafka consumer fetch max bytes leaves no room for protocol response overhead"

structure KafkaConsumerConfig where
  max_poll_interval : Nat
  session_timeout : Nat
  request_timeout : Nat
  prefetch_kib : Nat
  partition_fetch_max_bytes : Nat
  fetch_max_bytes : Nat
  record_max_bytes : Nat

def KafkaConsumerConfig.validate (config : KafkaConsumerConfig) : Except String Unit := do
  validate_duration "Kafka max poll interval" config.max_poll_interval
  validate_duration "Kafka session timeout" config.session_timeout
  validate_duration "Kafka consumer request timeout" config.request_timeout
  validate_capacity "Kafka consumer prefetch KiB" config.prefetch_kib
  validate_capacity "Kafka consumer partition fetch max bytes" config.partition_fetch_max_bytes
  validate_capacity "Kafka consumer fetch max bytes" config.fetch_max_bytes
  validate_capacity "Kafka consumer record max bytes" config.record_max_bytes
  let poison_evidence_bytes ← okOr (checked (MAX_POISON_EVIDENCE_FIELD_BYTES * 2))
    "Kafka poison evidence byte bound overflowed"
  rejectIf (config.max_poll_interval ≤ config.session_timeout)
    "Kafka session timeout must be less than max poll interval"
  rejectIf (config.max_poll_interval ≤ config.request_timeout)
    "Kafka consumer request timeout must be less than max poll interval"
  rejectIf (config.fetch_max_bytes < config.partition_fetch_max_bytes)
    "Kafka consumer fetch max bytes must be at least the partition fetch max bytes"
  rejectIf (config.fetch_max_bytes < config.record_max_bytes)
    "Kafka consumer fetch max bytes must be at least the consumed-record max bytes"
  rejectIf (config.record_max_bytes < poison_evidence_bytes)
    ("Kafka consumer record max bytes must be at least " ++ toString poison_evidence_bytes ++
      " to retain bounded key and payload poison prefixes")
  validate_response_bytes config.fetch_max_bytes

theorem validate_duration_eq_ok {name : String} {duration : Nat} :
    validate_duration name duration = .ok () ↔
      0 < as_millis duration ∧ as_millis duration ≤ I32_MAX := by
  simp only [validate_duration, seq_eq_ok, rejectIf_eq_ok]
  omega

theorem validate_capacity_eq_ok {name : String} {value : Nat} :
    validate_capacity name value = .ok () ↔ 0 < value ∧ value ≤ I32_MAX := by
  simp only [validate_capacity, seq_eq_ok, rejectIf_eq_ok]
  omega

theorem KafkaProducerConfig.validate_eq_ok {config : KafkaProducerConfig} :
    config.validate = .ok () ↔
      (0 < config.queue_capacity_messages ∧ config.queue_capacity_messages ≤ I32_MAX) ∧
      (0 < config.message_max_bytes ∧ config.message_max_bytes ≤ I32_MAX) ∧
      (0 < as_millis config.delivery_timeout ∧ as_millis config.delivery_timeout ≤ I32_MAX) ∧
      0 < as_millis config.request_timeout ∧
      config.message_timeout = config.delivery_timeout ∧
      config.request_timeout ≤ config.delivery_timeout ∧
      (config.acks = "all" ∨ config.acks = "-1") := by
  simp only [KafkaProducerConfig.validate, seq_eq_ok, validate_capacity_eq_ok,
    validate_duration_eq_ok, rejectIf_eq_ok, not_not, Nat.not_lt, ne_eq]
  constructor
  · rintro ⟨hqueue, hbytes, -, hdelivery, hrequest, heq, hle, hacks⟩
    exact ⟨hqueue, hbytes, hdelivery, hrequest.1, heq, hle, hacks⟩
  · rintro ⟨hqueue, hbytes, hdelivery, hrequest, heq, hle, hacks⟩
    have hmono := as_millis_mono hle
    exact ⟨hqueue, hbytes, heq ▸ hdelivery, hdelivery, ⟨hrequest, by omega⟩, heq, hle, hacks⟩

theorem validate_response_bytes_eq_ok {fetch_max_bytes : Nat} :
    validate_response_bytes fetch_max_bytes = .ok () ↔
      fetch_max_bytes + KAFKA_RESPONSE_OVERHEAD_BYTES ≤ I32_MAX := by
  have hmax : I32_MAX ≤ USIZE_MAX := by decide
  simp only [validate_response_bytes, bind_eq_ok, okOr_eq_ok, Option.filter_eq_some_iff, checked,
    decide_eq_true_eq]
  constructor
  · rintro ⟨bytes, ⟨hbytes, hle⟩, -⟩
    split at hbytes
    · cases hbytes
      exact hle
    · cases hbytes
  · intro hle
    exact ⟨_, ⟨if_pos (by omega), hle⟩, rfl⟩

theorem KafkaConsumerConfig.validate_eq_ok {config : KafkaConsumerConfig} :
    config.validate = .ok () ↔
      (0 < as_millis config.session_timeout ∧ 0 < as_millis config.request_timeout ∧
        as_millis config.max_poll_interval ≤ I32_MAX) ∧
      (0 < config.prefetch_kib ∧ config.prefetch_kib ≤ I32_MAX) ∧
      0 < config.partition_fetch_max_bytes ∧
      config.session_timeout < config.max_poll_interval ∧
      config.request_timeout < config.max_poll_interval ∧
      config.partition_fetch_max_bytes ≤ config.fetch_max_bytes ∧
      config.record_max_bytes ≤ config.fetch_max_bytes ∧
      2 * MAX_POISON_EVIDENCE_FIELD_BYTES ≤ config.record_max_bytes ∧
      config.fetch_max_bytes + KAFKA_RESPONSE_OVERHEAD_BYTES ≤ I32_MAX := by
  have hevidence : checked (MAX_POISON_EVIDENCE_FIELD_BYTES * 2) =
      some (2 * MAX_POISON_EVIDENCE_FIELD_BYTES) := by decide
  simp only [KafkaConsumerConfig.validate, hevidence, okOr, ok_bind, seq_eq_ok,
    validate_capacity_eq_ok, validate_duration_eq_ok, rejectIf_eq_ok, Nat.not_le, Nat.not_lt,
    validate_response_bytes_eq_ok]
  constructor
  · rintro ⟨hpoll, hsession, hrequest, hprefetch, hpartition, -, -, hlt, hrlt, hrest⟩
    exact ⟨⟨hsession.1, hrequest.1, hpoll.2⟩, hprefetch, hpartition.1, hlt, hrlt, hrest⟩
  · rintro ⟨⟨hsession, hrequest, hpoll⟩, hprefetch, hpartition, hlt, hrlt, hfetch, hrecord, hpoison,
      hroom⟩
    have h₁ := as_millis_mono hlt.le
    have h₂ := as_millis_mono hrlt.le
    have h₃ : 0 < MAX_POISON_EVIDENCE_FIELD_BYTES := by decide
    refine ⟨⟨by omega, hpoll⟩, ⟨hsession, by omega⟩, ⟨hrequest, by omega⟩, hprefetch,
      ⟨hpartition, ?_⟩, ⟨?_, ?_⟩, ⟨?_, ?_⟩, hlt, hrlt, hfetch, hrecord, hpoison, hroom⟩ <;> omega

end pulse.kafka

namespace pulse.aggregation

/-! ## The aggregation store -/

/-- A key prefix that the store takes. -/
def IsKeyPrefix (key_space : String) : Prop :=
  is_blank key_space = false ∧ len key_space ≤ MAX_IDENTITY_BYTES ∧
    '\x7b' ∉ key_space.toList ∧ '\x7d' ∉ key_space.toList

theorem RedisRunAggregationStore.exists_new_iff {key_space : String}
    {partial_timeout retention_ttl : Nat} :
    (∃ store, RedisRunAggregationStore.new key_space partial_timeout retention_ttl = .ok store) ↔
      IsKeyPrefix key_space ∧ IsExact partial_timeout ∧ IsExact retention_ttl ∧
        partial_timeout < retention_ttl := by
  have hkeys : (is_blank key_space = true ∨ MAX_IDENTITY_BYTES < len key_space ∨
      '\x7b' ∈ key_space.toList ∨ '\x7d' ∈ key_space.toList) ↔ ¬ IsKeyPrefix key_space := by
    unfold IsKeyPrefix
    rw [← Bool.not_eq_true, ← Nat.not_lt]
    tauto
  unfold RedisRunAggregationStore.new
  constructor
  · rintro ⟨store, h⟩
    split at h
    · cases h
    rename_i hok
    refine ⟨not_not.mp (hkeys.not.mp hok), ?_⟩
    split at h
    · cases h
    rename_i _ hp
    split at h
    · cases h
    rename_i _ hr
    split at h
    · rename_i hlt
      exact ⟨(checked_lua_duration_ms_eq_ok.mp hp).1, (checked_lua_duration_ms_eq_ok.mp hr).1, hlt⟩
    · cases h
  · rintro ⟨hok, hp, hr, hlt⟩
    rw [if_neg (hkeys.not.mpr (not_not.mpr hok))]
    split
    · rename_i _ hperror
      rw [checked_lua_duration_ms_eq_ok.mpr ⟨hp, rfl⟩] at hperror
      cases hperror
    split
    · rename_i _ hrerror
      rw [checked_lua_duration_ms_eq_ok.mpr ⟨hr, rfl⟩] at hrerror
      cases hrerror
    rw [dif_pos hlt]
    exact ⟨_, rfl⟩

/-- A node gets its store if the prefix, the times and the limits are in range. -/
theorem exists_aggregation_store_iff {config : AppConfig} :
    (∃ store, aggregation_store config = .ok store) ↔
      (IsKeyPrefix config.redis_aggregation_prefix ∧ IsExact config.aggregation_partial_timeout ∧
        IsExact config.aggregation_retention ∧
        config.aggregation_partial_timeout < config.aggregation_retention) ∧
      (0 < config.redis_operation_timeout ∧ as_millis config.redis_operation_timeout ≤ I64_MAX) ∧
      IsLimit config.aggregation_max_error_kinds ∧ IsLimit config.aggregation_max_active_runs ∧
      IsLimit config.aggregation_scan_batch := by
  rw [← RedisRunAggregationStore.exists_new_iff]
  simp only [aggregation_store, bind_eq_ok, RedisRunAggregationStore.with_operation_timeout,
    checked_duration_ms_eq_ok, RedisRunAggregationStore.with_max_error_kinds,
    RedisRunAggregationStore.with_max_active_runs, RedisRunAggregationStore.with_max_scan_limit]
  constructor
  · rintro ⟨store, s₀, hnew, _, ⟨_, ⟨hpos, hle, -⟩, -⟩, s₁, hkinds, s₂, hactive, hscan⟩
    split at hkinds
    · split at hactive
      · split at hscan
        · exact ⟨⟨s₀, hnew⟩, ⟨hpos, hle⟩, ‹_›, ‹_›, ‹_›⟩
        · cases hscan
      · cases hactive
    · cases hkinds
  · rintro ⟨⟨s₀, hnew⟩, ⟨hpos, hle⟩, hkinds, hactive, hscan⟩
    exact ⟨_, s₀, hnew, s₀, ⟨_, ⟨hpos, hle, rfl⟩, rfl⟩, _, dif_pos hkinds, _, dif_pos hactive,
      dif_pos hscan⟩

end pulse.aggregation

namespace pulse.config

/-! ## The parsed settings -/

/-- A duration of the environment, from the number that it holds. -/
def ConfigSource.duration_ms (name : String) (millis : UInt64) : Except ConfigError Nat := do
  rejectIf (millis = 0) (.Invalid name "must be greater than zero")
  return from_millis millis.toNat

/-- The durations among the settings. -/
def AppConfig.durations (config : AppConfig) : List Nat :=
  [config.kafka_max_poll_interval, config.kafka_session_timeout, config.kafka_message_timeout,
    config.kafka_delivery_timeout, config.kafka_request_timeout, config.leader_renew_interval,
    config.scheduler_tick_interval, config.execution_lease_ttl,
    config.execution_lease_renew_interval, config.execution_terminal_retention,
    config.worker_retry_base_delay, config.worker_retry_max_delay,
    config.aggregation_partial_timeout, config.aggregation_retention,
    config.aggregation_scan_interval, config.startup_deadline, config.shutdown_drain_timeout,
    config.grpc_connect_timeout, config.grpc_request_timeout, config.grpc_scenario_timeout,
    config.max_duration]

/-- The durations are as the environment gives them. -/
def AppConfig.Parsed (config : AppConfig) : Prop :=
  ∀ duration ∈ config.durations, ∃ name millis, ConfigSource.duration_ms name millis = .ok duration

theorem AppConfig.Parsed.whole {config : AppConfig} (h : config.Parsed) {duration : Nat}
    (hmem : duration ∈ config.durations) :
    ∃ millis, 0 < millis ∧ duration = from_millis millis := by
  obtain ⟨name, millis, hparsed⟩ := h duration hmem
  simp only [ConfigSource.duration_ms, seq_eq_ok, rejectIf_eq_ok] at hparsed
  obtain ⟨hpos, hsome⟩ := hparsed
  refine ⟨millis.toNat, Nat.pos_of_ne_zero fun hzero => hpos ?_, (Except.ok.inj hsome).symm⟩
  exact UInt64.toNat_inj.mp hzero

end pulse.config

namespace pulse.service

open pulse.leader_lock pulse.execution_lease pulse.aggregation pulse.kafka

/-! ## What `main` hands on -/

def producer_config (config : AppConfig) : KafkaProducerConfig where
  queue_capacity_messages := config.producer_queue_messages
  message_max_bytes := config.kafka_producer_message_max_bytes
  message_timeout := config.kafka_message_timeout
  delivery_timeout := config.kafka_delivery_timeout
  request_timeout := config.kafka_request_timeout
  acks := config.kafka_producer_acks

def consumer_config (config : AppConfig) : KafkaConsumerConfig where
  max_poll_interval := config.kafka_max_poll_interval
  session_timeout := config.kafka_session_timeout
  request_timeout := config.kafka_request_timeout
  prefetch_kib := config.consumer_queue_kbytes
  partition_fetch_max_bytes := config.consumer_partition_fetch_max_bytes
  fetch_max_bytes := config.consumer_fetch_max_bytes
  record_max_bytes := config.consumer_record_max_bytes

/-- Redis operations get the milliseconds of a time to live. -/
def TakesTtl (duration : Nat) : Prop :=
  ∀ operation, ∃ millis, duration_ms operation duration = .ok millis

variable {duration : Nat}

theorem takesTtl_iff : TakesTtl duration ↔ RedisRange duration :=
  ⟨fun h => range_of_duration_ms (h "").choose_spec, fun h _ => ⟨_, duration_ms_of_range h⟩⟩

/-- Every component takes the settings. The aggregation store and the registration of runs are
there only with aggregation. -/
structure ComponentsAccept (config : AppConfig) : Prop where
  producer : (producer_config config).validate = .ok ()
  consumer : (consumer_config config).validate = .ok ()
  aggregation : config.aggregation_enabled = true → ∃ store, aggregation_store config = .ok store
  registration : config.aggregation_enabled = true → TakesTtl config.aggregation_retention
  leader : TakesTtl (elector config).lock_ttl
  lease : TakesTtl (execution_store config).lease_ttl
  running : TakesTtl (execution_store config).running_retention
  terminal : TakesTtl (execution_store config).terminal_ttl

/-- The prefix and the times that the check of the settings leaves open are in range. -/
structure InStoreRange (config : AppConfig) : Prop where
  leader : config.leader_lock_ttl_ms < 2 ^ 63
  lease : 4 * as_millis config.execution_lease_ttl < 2 ^ 63
  terminal : as_millis config.execution_terminal_retention < 2 ^ 63
  bounded : config.aggregation_enabled = true →
    len config.redis_aggregation_prefix ≤ MAX_IDENTITY_BYTES
  braceless : config.aggregation_enabled = true →
    '\x7b' ∉ config.redis_aggregation_prefix.toList ∧
      '\x7d' ∉ config.redis_aggregation_prefix.toList
  retention : config.aggregation_enabled = true →
    as_millis config.aggregation_retention ≤ lua.MAX_EXACT

variable {parsers : Parsers} {config : AppConfig}

/-- The times of Kafka clients stay below a day. -/
theorem as_millis_le_of_poll (hpoll : config.kafka_max_poll_interval ≤
    MAX_KAFKA_POLL_INTERVAL) (h : duration ≤ config.kafka_max_poll_interval) :
    as_millis duration ≤ I32_MAX :=
  calc
    _ ≤ as_millis MAX_KAFKA_POLL_INTERVAL := as_millis_mono (h.trans hpoll)
    _ ≤ I32_MAX := by decide

theorem as_millis_pos (hparsed : config.Parsed) (hmem : duration ∈ config.durations) :
    0 < as_millis duration := by
  obtain ⟨millis, hpos, rfl⟩ := hparsed.whole hmem
  rwa [as_millis_from_millis]

section

variable (h : config.validate parsers = .ok ()) (hparsed : config.Parsed)
include h hparsed

theorem producer_accepts : (producer_config config).validate = .ok () := by
  have hkafka := AppConfig.kafka_settings h
  have hpoll := AppConfig.poll_interval_covers_deliveries h
  have hrequest : 0 < as_millis config.kafka_request_timeout :=
    as_millis_pos hparsed (by simp [AppConfig.durations])
  have hdelivery := as_millis_mono hkafka.request_timeout
  have hqueue : MAX_QUEUE_CAPACITY ≤ I32_MAX := by decide
  have hbytes : MAX_KAFKA_MESSAGE_BYTES ≤ I32_MAX := by decide
  have hpoison : 0 < 2 * MAX_POISON_EVIDENCE_FIELD_BYTES := by decide
  have hbelow : config.kafka_delivery_timeout ≤ config.kafka_max_poll_interval := by omega
  have hmessage := hkafka.message.trans (hkafka.record.trans hkafka.fetch)
  exact KafkaProducerConfig.validate_eq_ok.mpr
    ⟨⟨hkafka.queue_messages.1, hkafka.queue_messages.2.trans hqueue⟩,
      ⟨hpoison.trans_le hkafka.poison, hmessage.trans hbytes⟩,
      ⟨hrequest.trans_le hdelivery, as_millis_le_of_poll hkafka.max_poll_interval hbelow⟩,
      hrequest, hkafka.message_timeout, hkafka.request_timeout, hkafka.acks⟩

theorem consumer_accepts : (consumer_config config).validate = .ok () := by
  have hkafka := AppConfig.kafka_settings h
  have hpoll := AppConfig.poll_interval_covers_deliveries h
  have hrequest : 0 < as_millis config.kafka_request_timeout :=
    as_millis_pos hparsed (by simp [AppConfig.durations])
  have hsession : 0 < as_millis config.kafka_session_timeout :=
    as_millis_pos hparsed (by simp [AppConfig.durations])
  have hlt : config.kafka_request_timeout < config.kafka_max_poll_interval := by
    have := hkafka.request_timeout
    omega
  have hprefetch : MAX_CONSUMER_QUEUE_KBYTES ≤ I32_MAX := by decide
  have hroom : MAX_KAFKA_MESSAGE_BYTES + KAFKA_RESPONSE_OVERHEAD_BYTES ≤ I32_MAX := by decide
  exact KafkaConsumerConfig.validate_eq_ok.mpr
    ⟨⟨hsession, hrequest, as_millis_le_of_poll hkafka.max_poll_interval le_rfl⟩,
      ⟨hkafka.queue_kbytes.1, hkafka.queue_kbytes.2.trans hprefetch⟩, hkafka.partition_fetch.1,
      hkafka.session_timeout, hlt, hkafka.partition_fetch.2, hkafka.record,
      hkafka.poison.trans hkafka.message, (Nat.add_le_add_right hkafka.fetch _).trans hroom⟩

theorem aggregation_accepts_iff :
    (∃ store, aggregation_store config = .ok store) ↔
      len config.redis_aggregation_prefix ≤ MAX_IDENTITY_BYTES ∧
      ('\x7b' ∉ config.redis_aggregation_prefix.toList ∧
        '\x7d' ∉ config.redis_aggregation_prefix.toList) ∧
      as_millis config.aggregation_retention ≤ lua.MAX_EXACT := by
  have hnames := AppConfig.redis_names h
  obtain ⟨hbatch, hactive, hkinds⟩ := AppConfig.aggregation_limits h
  have hlt : config.aggregation_partial_timeout < config.aggregation_retention := by
    have := AppConfig.retention_covers_deadline h
    omega
  have hpartial : 0 < as_millis config.aggregation_partial_timeout :=
    as_millis_pos hparsed (by simp [AppConfig.durations])
  have hrequest : 0 < as_millis config.kafka_request_timeout :=
    as_millis_pos hparsed (by simp [AppConfig.durations])
  have hmillis : as_millis config.aggregation_partial_timeout ≤
      as_millis config.aggregation_retention := as_millis_mono hlt.le
  have hlimit : ∀ {limit maximum : Nat}, maximum ≤ lua.MAX_EXACT → 0 < limit ∧ limit ≤ maximum →
      IsLimit limit := fun hmax ⟨hpos, hle⟩ => ⟨hpos, hle.trans hmax⟩
  rw [exists_aggregation_store_iff]
  constructor
  · rintro ⟨⟨⟨-, hlen, hbraces⟩, -, hretention, -⟩, -⟩
    exact ⟨hlen, hbraces, hretention.2⟩
  · rintro ⟨hlen, hbraces, hretention⟩
    refine ⟨⟨⟨hnames.aggregation, hlen, hbraces⟩, ⟨?_, hmillis.trans hretention⟩, ⟨?_, hretention⟩,
      hlt⟩, ⟨?_, ?_⟩, hlimit (by decide) hkinds, hlimit (by decide) hactive,
      hlimit (by decide) hbatch⟩
    · exact Nat.pos_of_div_pos hpartial
    · omega
    · exact lt_min (by decide) (Nat.pos_of_div_pos hrequest)
    · exact (as_millis_mono (min_le_left _ _)).trans (by decide)

end

/-- The times of an execution are in range: its lease four times over, and the retention. -/
theorem execution_accepts_iff (hparsed : config.Parsed) :
    (RedisRange (execution_store config).lease_ttl ∧
        RedisRange (execution_store config).running_retention ∧
        RedisRange (execution_store config).terminal_ttl) ↔
      4 * as_millis config.execution_lease_ttl < 2 ^ 63 ∧
        as_millis config.execution_terminal_retention < 2 ^ 63 := by
  obtain ⟨lease, hlease, hlease_eq⟩ : ∃ n, 0 < n ∧ config.execution_lease_ttl =
      from_millis n := hparsed.whole (by simp [AppConfig.durations])
  obtain ⟨terminal, hterminal, hterminal_eq⟩ : ∃ n, 0 < n ∧ config.execution_terminal_retention =
      from_millis n := hparsed.whole (by simp [AppConfig.durations])
  have hmono : Monotone as_millis := fun _ _ => as_millis_mono
  have hfour : as_millis (from_millis lease * 4) = 4 * lease := by
    simp only [as_millis, from_millis, NANOS_PER_MILLI]
    omega
  have hmax : 2 ^ 63 ≤ as_millis Duration.MAX := by decide
  simp only [RedisRange, RedisIdempotencyStore.running_retention, execution_store, hlease_eq,
    hterminal_eq, saturating_mul, hmono.map_max, hmono.map_min, hfour, as_millis_from_millis]
  generalize as_millis Duration.MAX = maximum at hmax
  omega

/-! ## The law -/

/-- The components take a configuration that was accepted exactly if its times to live are in the
range of Redis, and with aggregation its aggregation prefix is short and has no braces. -/
theorem components_accept_iff_in_store_range (h : config.validate parsers = .ok ())
    (hparsed : config.Parsed) : ComponentsAccept config ↔ InStoreRange config := by
  have hretention : 0 < as_millis config.aggregation_retention :=
    as_millis_pos hparsed (by simp [AppConfig.durations])
  constructor
  · intro haccept
    have hexecution := (execution_accepts_iff hparsed).mp ⟨takesTtl_iff.mp haccept.lease,
      takesTtl_iff.mp haccept.running, takesTtl_iff.mp haccept.terminal⟩
    have hstore := fun henabled =>
      (aggregation_accepts_iff h hparsed).mp (haccept.aggregation henabled)
    exact {
      leader := (leader_range_iff h).mp (takesTtl_iff.mp haccept.leader)
      lease := hexecution.1
      terminal := hexecution.2
      bounded := fun henabled => (hstore henabled).1
      braceless := fun henabled => (hstore henabled).2.1
      retention := fun henabled => (hstore henabled).2.2 }
  · intro hrange
    have hexecution := (execution_accepts_iff hparsed).mpr ⟨hrange.lease, hrange.terminal⟩
    have hexact : lua.MAX_EXACT < 2 ^ 63 := by decide
    exact {
      producer := producer_accepts h hparsed
      consumer := consumer_accepts h hparsed
      aggregation := fun henabled => (aggregation_accepts_iff h hparsed).mpr
        ⟨hrange.bounded henabled, hrange.braceless henabled, hrange.retention henabled⟩
      registration := fun henabled => takesTtl_iff.mpr
        ⟨hretention, (hrange.retention henabled).trans_lt hexact⟩
      leader := takesTtl_iff.mpr ((leader_range_iff h).mpr hrange.leader)
      lease := takesTtl_iff.mpr hexecution.1
      running := takesTtl_iff.mpr hexecution.2.1
      terminal := takesTtl_iff.mpr hexecution.2.2 }

theorem parsed_of_millis {config : AppConfig} (h : ∀ duration ∈ config.durations,
    from_millis (as_millis duration) = duration ∧
      as_millis duration ≠ 0 ∧ as_millis duration < 2 ^ 64) : config.Parsed := by
  intro duration hmem
  obtain ⟨hwhole, hpos, hlt⟩ := h duration hmem
  have hmillis : (UInt64.ofNat (as_millis duration)).toNat = as_millis duration :=
    UInt64.toNat_ofNat_of_lt' hlt
  refine ⟨"", UInt64.ofNat (as_millis duration), ?_⟩
  simp only [ConfigSource.duration_ms, seq_eq_ok, rejectIf_eq_ok]
  refine ⟨fun hzero => hpos ?_, congrArg Except.ok (by rw [hmillis, hwhole])⟩
  rw [← hmillis, hzero]
  rfl

/-- The default settings are taken. -/
theorem components_accept_defaults : ComponentsAccept (.defaults "node-1") :=
  (components_accept_iff_in_store_range AppConfig.validate_defaults
    (parsed_of_millis (by decide))).mpr
    { leader := by decide, lease := by decide, terminal := by decide, bounded := by decide
      braceless := by decide, retention := by decide }

/-- The defaults with an aggregation prefix that has a hash tag, as the other two keys must. -/
def taggedAggregation : AppConfig :=
  { AppConfig.defaults "node-1" with redis_aggregation_prefix := "pulse:\x7baggregation\x7d" }

/-- The defaults with a leader lock that lasts longer than Redis can count. -/
def endlessLeader : AppConfig :=
  { AppConfig.defaults "node-1" with leader_lock_ttl_ms := 2 ^ 63 }

/-- Two configurations that are accepted: the first gets no aggregation store, the second never
gets the leader lock. -/
theorem accepted_settings_fail_later :
    (taggedAggregation.validate AppConfig.defaultParsers = .ok () ∧ taggedAggregation.Parsed ∧
      aggregation_store taggedAggregation = .error (.InvalidState "aggregation_config"
        ("Redis aggregation key prefix must be " ++
          "non-empty, bounded, and contain no hash-tag braces"))) ∧
    (endlessLeader.validate AppConfig.defaultParsers = .ok () ∧ endlessLeader.Parsed ∧
      duration_ms "leader_acquire" (elector endlessLeader).lock_ttl =
        .error (.InvalidState "leader_acquire" "duration exceeds Redis integer range")) := by
  refine ⟨⟨by decide +kernel, parsed_of_millis (by decide), rfl⟩,
    ⟨by decide +kernel, parsed_of_millis (by decide), by decide +kernel⟩⟩

end pulse.service
