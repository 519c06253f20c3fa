-- The settings of a node and the checks that accept them. What other crates
-- parse (endpoints, Redis URLs, socket and IP addresses) is a parameter.
import Pulse.Checks
import Pulse.Durations
import Pulse.Strings
import Mathlib.Data.List.Infix
import Mathlib.Data.Rat.Defs

open checks durations Duration strings

namespace pulse.config

/-! ## The settings -/

def MAX_KAFKA_POLL_INTERVAL : Nat := from_secs (24 * 60 * 60)
def MAX_KAFKA_SESSION_TIMEOUT : Nat := from_secs (60 * 60)
def MAX_CONFIGURED_DURATION : Nat := from_secs (24 * 60 * 60)
def MAX_QUEUE_CAPACITY : Nat := 1000000
def MAX_CONSUMER_QUEUE_KBYTES : Nat := 1048576
def MAX_KAFKA_MESSAGE_BYTES : Nat := 256 * 1024 * 1024
def POISON_ENVELOPE_OVERHEAD_BYTES : Nat := 16 * 1024
def MAX_POISON_EVIDENCE_FIELD_BYTES : Nat := 256 * 1024
def MAX_TOPIC_PARTITIONS : Int := 10000
def MAX_TOPIC_REPLICATION_FACTOR : Int := 32
def MAX_WORKER_RETRIES : Nat := 32
def MAX_SAFETY_RATE : Nat := 1000000000
def MAX_SAFETY_CONCURRENCY : Nat := 1000000
def REDIS_OPERATION_TIMEOUT_CEILING : Nat := from_secs 2
def KAFKA_POLL_SAFETY_MARGIN : Nat := from_secs 1
def USIZE_MAX : Nat := 2 ^ 64 - 1
def U32_MAX : Nat := 2 ^ 32 - 1

/-- An `f64` of the settings. -/
inductive F64
  | finite (value : Rat)
  | infinite (negative : Bool)
  | nan
deriving DecidableEq

structure AppConfig where
  kafka_brokers : String
  kafka_jobs_topic : String
  kafka_results_topic : String
  kafka_summaries_topic : String
  kafka_dlq_topic : String
  kafka_group_id : String
  kafka_aggregator_group_id : String
  kafka_max_poll_interval : Nat
  kafka_session_timeout : Nat
  kafka_message_timeout : Nat
  kafka_delivery_timeout : Nat
  kafka_request_timeout : Nat
  kafka_producer_acks : String
  kafka_producer_message_max_bytes : Nat
  kafka_topic_partitions : Int
  kafka_topic_replication_factor : Int
  producer_queue_messages : Nat
  consumer_queue_kbytes : Nat
  consumer_partition_fetch_max_bytes : Nat
  consumer_fetch_max_bytes : Nat
  consumer_record_max_bytes : Nat
  redis_url : String
  redis_leader_key : String
  redis_schedule_prefix : String
  redis_idempotency_prefix : String
  redis_aggregation_prefix : String
  node_id : String
  leader_lock_ttl_ms : Nat
  leader_renew_interval : Nat
  scheduler_tick_interval : Nat
  execution_lease_ttl : Nat
  execution_lease_renew_interval : Nat
  execution_terminal_retention : Nat
  worker_max_retries : Nat
  worker_retry_base_delay : Nat
  worker_retry_max_delay : Nat
  retry_queue_capacity : Nat
  aggregation_enabled : Bool
  aggregation_partial_timeout : Nat
  aggregation_retention : Nat
  aggregation_scan_interval : Nat
  aggregation_scan_batch : Nat
  aggregation_max_active_runs : Nat
  aggregation_max_error_kinds : Nat
  startup_deadline : Nat
  shutdown_drain_timeout : Nat
  pulse_endpoint : String
  grpc_connect_timeout : Nat
  grpc_request_timeout : Nat
  grpc_scenario_timeout : Nat
  max_duration : Nat
  max_scenarios_per_sec : F64
  max_concurrency : Nat
  startup_burst : Nat
  target_allowlist : List String
  acknowledge_non_local_targets : Bool
  metrics_bind : String

inductive ConfigError
  | Environment (name reason : String)
  | File (name path reason : String)
  | Invalid (name reason : String)
deriving DecidableEq, Repr

/-- A parsed endpoint, as far as the checks look at it. -/
structure Uri where
  scheme : Option String
  host : Option String
  port : Option Nat
  path : String
  query : Option String

/-- The parsers of other crates, each with the text of its error. -/
structure Parsers where
  endpoint : String → Except String Uri
  redis_url : String → Except String Unit
  socket_addr : String → Except String Unit
  ip_addr : String → Bool

/-! ## The helpers of the checks -/

def validate_non_empty (name value : String) : Except ConfigError Unit :=
  rejectIf (is_blank value = true) (.Invalid name "must not be empty or whitespace-only")

/-- The text between the first `{` and the next `}`, when there is some. -/
def redis_hash_tag (value : String) : Option String :=
  match value.toList.dropWhile (· ≠ '{') with
  | [] => none
  | _ :: remainder =>
    let tag := remainder.takeWhile (· ≠ '}')
    if tag.length < remainder.length ∧ 0 < tag.length then some (String.ofList tag) else none

def validate_broker (parsers : Parsers) (broker : List Char) : Except ConfigError Unit := do
  rejectIf (broker = [] ∨ "://".toList <:+: broker)
    (.Invalid "PULSE_KAFKA_BROKERS"
      "must be a comma-separated list of host:port authorities without URL schemes")
  let uri ← (parsers.endpoint ("http://" ++ String.ofList broker)).mapError fun _ =>
    .Invalid "PULSE_KAFKA_BROKERS" "contains an invalid broker authority"
  rejectIf (uri.host = none ∨ uri.port = none ∨ (uri.path ≠ "" ∧ uri.path ≠ "/") ∨ uri.query ≠ none)
    (.Invalid "PULSE_KAFKA_BROKERS" "every broker must include a host and numeric port")

def validate_brokers (parsers : Parsers) (brokers : String) : Except ConfigError Unit := do
  validate_non_empty "PULSE_KAFKA_BROKERS" brokers
  (brokers.toList.splitOn ',').forM fun broker => validate_broker parsers (trim broker)

def validate_topic (name topic : String) : Except ConfigError Unit := do
  validate_non_empty name topic
  rejectIf (249 < len topic) (.Invalid name "must be at most 249 bytes")
  rejectIf (¬ topic.toList.all fun c => c.isAlphanum || c == '.' || c == '_' || c == '-')
    (.Invalid name "may contain only ASCII letters, digits, '.', '_', and '-'")

def validate_capacity (name : String) (value maximum : Nat) : Except ConfigError Unit :=
  rejectIf (value = 0 ∨ maximum < value) (.Invalid name s!"must be between 1 and {maximum}")

/-- Checked arithmetic of a `usize`. -/
def checked (n : Nat) : Option Nat := if n ≤ USIZE_MAX then some n else none

def poison_record_size_bound (source_message_bytes : Nat) : Option Nat := do
  let padded ← checked (source_message_bytes + 2)
  let encoded ← checked (padded / 3 * 4)
  let quartet ← checked (encoded + 4)
  checked (quartet + POISON_ENVELOPE_OVERHEAD_BYTES)

def validate_inclusive_i32 (name : String) (value minimum maximum : Int) :
    Except ConfigError Unit :=
  rejectIf (¬ (minimum ≤ value ∧ value ≤ maximum))
    (.Invalid name s!"must be between {minimum} and {maximum}")

def validate_duration_upper_bound (name : String) (value maximum : Nat) : Except ConfigError Unit :=
  rejectIf (value = 0 ∨ maximum < value)
    (.Invalid name ("must be greater than zero and no more than " ++
      toString (as_millis maximum) ++ " ms"))

def checked_duration_sum (name : String) (values : List Nat) : Except ConfigError Nat :=
  values.foldlM (fun sum value =>
    okOr (checked_add sum value) (.Invalid name "duration budget overflowed")) 0

def retry_backoff_upper_bound (base maximum retry_count : Nat) : Except ConfigError Nat :=
  (List.range retry_count).foldlM (fun total attempt =>
    let multiplier := 2 ^ min attempt 16
    let exponential := min (saturating_mul base multiplier) maximum
    let upper := min (saturating_mul exponential 6 / 5) maximum
    okOr (checked_add total upper)
      (.Invalid "PULSE_KAFKA_MAX_POLL_INTERVAL_MS" "bounded retry backoff sum overflowed Duration"))
    0

def label_is_bad (label : List Char) : Bool :=
  label.isEmpty || decide (63 < label.length) || label.head? == some '-' ||
    label.getLast? == some '-' || !(label.all fun c => c.isAlphanum || c == '-')

/-- The bytes of a label are counted as characters: one that is not ASCII fails the last check. -/
def validate_allowlist_host (parsers : Parsers) (host : String) : Except ConfigError Unit :=
  if parsers.ip_addr host then .ok ()
  else
    rejectIf (253 < len host ∨ host.toList.head? = some '.' ∨ host.toList.getLast? = some '.' ∨
        (host.toList.splitOn '.').any label_is_bad = true)
      (.Invalid "PULSE_TARGET_ALLOWLIST"
        "entries must be hostnames or IP addresses without schemes, paths, or ports")

/-- A host without the brackets of an IPv6 address. -/
def unbracketed (host : String) : String :=
  match host.toList with
  | '[' :: rest => if rest.getLast? = some ']' then String.ofList rest.dropLast else host
  | _ => host

def endpoint_host (parsers : Parsers) (name value : String) : Except ConfigError String := do
  let uri ← (parsers.endpoint value).mapError fun err =>
    .Invalid name ("invalid endpoint URL: " ++ err)
  rejectIf (uri.scheme = some "https")
    (.Invalid name ("https endpoints are not supported because this Pulse build has no gRPC TLS " ++
      "transport; use http:// only on a trusted network"))
  rejectIf (uri.scheme ≠ some "http")
    (.Invalid name
      "endpoint URL scheme must be http; this Pulse build supports plaintext gRPC only")
  rejectIf ((uri.path ≠ "" ∧ uri.path ≠ "/") ∨ uri.query ≠ none)
    (.Invalid name "endpoint URL must not contain a path or query")
  let host ← okOr uri.host (.Invalid name "endpoint URL must include a host")
  return to_ascii_lowercase (unbracketed host)

namespace AppConfig

def redis_operation_timeout (config : AppConfig) : Nat :=
  min REDIS_OPERATION_TIMEOUT_CEILING config.kafka_request_timeout

def validate_target_endpoint (parsers : Parsers) (config : AppConfig) (endpoint : String) :
    Except ConfigError Unit := do
  let host ← endpoint_host parsers "target endpoint" endpoint
  rejectIf (¬ (config.acknowledge_non_local_targets = true ∨
      ∃ allowed ∈ config.target_allowlist, eq_ignore_ascii_case allowed host))
    (.Invalid "target endpoint" ("host '" ++ host ++ "' is not allowlisted; add it to " ++
      "PULSE_TARGET_ALLOWLIST or explicitly set PULSE_ACKNOWLEDGE_NON_LOCAL_TARGETS=true"))

/-! ## The checks

`validate` is one long function. Each definition here is one passage of it, in its order. -/

def validate_names (parsers : Parsers) (config : AppConfig) : Except ConfigError Unit := do
  validate_brokers parsers config.kafka_brokers
  validate_topic "PULSE_KAFKA_JOBS_TOPIC" config.kafka_jobs_topic
  validate_topic "PULSE_KAFKA_RESULTS_TOPIC" config.kafka_results_topic
  validate_topic "PULSE_KAFKA_SUMMARIES_TOPIC" config.kafka_summaries_topic
  validate_topic "PULSE_KAFKA_DLQ_TOPIC" config.kafka_dlq_topic
  rejectIf (¬ [config.kafka_jobs_topic, config.kafka_results_topic, config.kafka_summaries_topic,
      config.kafka_dlq_topic].Nodup)
    (.Invalid "Kafka topics" "jobs, results, summaries, and DLQ topics must be distinct")
  validate_non_empty "PULSE_KAFKA_GROUP_ID" config.kafka_group_id
  validate_non_empty "PULSE_KAFKA_AGGREGATOR_GROUP_ID" config.kafka_aggregator_group_id
  rejectIf (config.kafka_group_id = config.kafka_aggregator_group_id)
    (.Invalid "PULSE_KAFKA_AGGREGATOR_GROUP_ID" "must differ from the job-worker consumer group")
  validate_non_empty "PULSE_REDIS_LEADER_KEY" config.redis_leader_key
  validate_non_empty "PULSE_REDIS_SCHEDULE_PREFIX" config.redis_schedule_prefix
  let leader_slot ← okOr (redis_hash_tag config.redis_leader_key)
    (.Invalid "PULSE_REDIS_LEADER_KEY"
      "must contain a non-empty Redis Cluster hash tag such as '\x7bcoordination\x7d'")
  let schedule_slot ← okOr (redis_hash_tag config.redis_schedule_prefix)
    (.Invalid "PULSE_REDIS_SCHEDULE_PREFIX"
      "must contain the same Redis Cluster hash tag as PULSE_REDIS_LEADER_KEY")
  rejectIf (leader_slot ≠ schedule_slot)
    (.Invalid "Redis coordination hash tag"
      "leader and schedule keys must share one Redis Cluster hash tag")
  validate_non_empty "PULSE_REDIS_IDEMPOTENCY_PREFIX" config.redis_idempotency_prefix
  validate_non_empty "PULSE_REDIS_AGGREGATION_PREFIX" config.redis_aggregation_prefix
  rejectIf (¬ [config.redis_schedule_prefix, config.redis_idempotency_prefix,
      config.redis_aggregation_prefix].Nodup)
    (.Invalid "Redis prefixes" "schedule, execution, and aggregation prefixes must be distinct")
  validate_non_empty "PULSE_NODE_ID" config.node_id
  (parsers.redis_url config.redis_url).mapError fun err =>
    .Invalid "PULSE_REDIS_URL" ("invalid Redis URL: " ++ err)

def validate_kafka (config : AppConfig) : Except ConfigError Unit := do
  validate_duration_upper_bound "PULSE_KAFKA_MAX_POLL_INTERVAL_MS" config.kafka_max_poll_interval
    MAX_KAFKA_POLL_INTERVAL
  validate_duration_upper_bound "PULSE_KAFKA_SESSION_TIMEOUT_MS" config.kafka_session_timeout
    MAX_KAFKA_SESSION_TIMEOUT
  rejectIf (config.kafka_max_poll_interval ≤ config.kafka_session_timeout)
    (.Invalid "PULSE_KAFKA_SESSION_TIMEOUT_MS" "must be less than PULSE_KAFKA_MAX_POLL_INTERVAL_MS")
  rejectIf (config.kafka_message_timeout ≠ config.kafka_delivery_timeout)
    (.Invalid "PULSE_KAFKA_MESSAGE_TIMEOUT_MS"
      "must equal PULSE_KAFKA_DELIVERY_TIMEOUT_MS because librdkafka treats them as aliases")
  rejectIf (config.kafka_delivery_timeout < config.kafka_request_timeout)
    (.Invalid "PULSE_KAFKA_REQUEST_TIMEOUT_MS" "must not exceed the producer delivery timeout")
  rejectIf (¬ (config.kafka_producer_acks = "all" ∨ config.kafka_producer_acks = "-1"))
    (.Invalid "PULSE_KAFKA_PRODUCER_ACKS"
      "must be 'all' or '-1' so terminal publications are durably acknowledged")
  validate_inclusive_i32 "PULSE_KAFKA_TOPIC_PARTITIONS" config.kafka_topic_partitions 1
    MAX_TOPIC_PARTITIONS
  validate_inclusive_i32 "PULSE_KAFKA_TOPIC_REPLICATION_FACTOR"
    config.kafka_topic_replication_factor
    1 MAX_TOPIC_REPLICATION_FACTOR
  validate_capacity "PULSE_KAFKA_PRODUCER_QUEUE_MESSAGES" config.producer_queue_messages
    MAX_QUEUE_CAPACITY
  validate_capacity "PULSE_KAFKA_CONSUMER_QUEUE_KBYTES" config.consumer_queue_kbytes
    MAX_CONSUMER_QUEUE_KBYTES
  validate_capacity "PULSE_KAFKA_PRODUCER_MESSAGE_MAX_BYTES" config.kafka_producer_message_max_bytes
    MAX_KAFKA_MESSAGE_BYTES
  validate_capacity "PULSE_KAFKA_CONSUMER_PARTITION_FETCH_MAX_BYTES"
    config.consumer_partition_fetch_max_bytes MAX_KAFKA_MESSAGE_BYTES
  validate_capacity "PULSE_KAFKA_CONSUMER_FETCH_MAX_BYTES" config.consumer_fetch_max_bytes
    MAX_KAFKA_MESSAGE_BYTES
  validate_capacity "PULSE_KAFKA_CONSUMER_RECORD_MAX_BYTES" config.consumer_record_max_bytes
    MAX_KAFKA_MESSAGE_BYTES
  rejectIf (config.consumer_fetch_max_bytes < config.consumer_partition_fetch_max_bytes)
    (.Invalid "PULSE_KAFKA_CONSUMER_FETCH_MAX_BYTES"
      "must be greater than or equal to PULSE_KAFKA_CONSUMER_PARTITION_FETCH_MAX_BYTES")
  rejectIf (config.consumer_fetch_max_bytes < config.consumer_record_max_bytes)
    (.Invalid "PULSE_KAFKA_CONSUMER_RECORD_MAX_BYTES"
      "must be less than or equal to PULSE_KAFKA_CONSUMER_FETCH_MAX_BYTES")
  rejectIf (config.consumer_record_max_bytes < config.kafka_producer_message_max_bytes)
    (.Invalid "PULSE_KAFKA_CONSUMER_RECORD_MAX_BYTES"
      ("must be greater than or equal to PULSE_KAFKA_PRODUCER_MESSAGE_MAX_BYTES so Pulse can " ++
        "consume every record it can publish"))
  let poison_evidence_bytes ← okOr (checked (MAX_POISON_EVIDENCE_FIELD_BYTES * 2))
    (.Invalid "PULSE_KAFKA_PRODUCER_MESSAGE_MAX_BYTES"
      "cannot calculate the bounded poison evidence size")
  let poison_record_bound ← okOr (poison_record_size_bound poison_evidence_bytes)
    (.Invalid "PULSE_KAFKA_PRODUCER_MESSAGE_MAX_BYTES"
      "cannot calculate a safe base64 poison-record size bound")
  rejectIf (config.kafka_producer_message_max_bytes < poison_record_bound)
    (.Invalid "PULSE_KAFKA_PRODUCER_MESSAGE_MAX_BYTES"
      s!"must be at least {poison_record_bound} bytes to carry the bounded base64 poison evidence envelope")
  validate_capacity "PULSE_RETRY_QUEUE_CAPACITY" config.retry_queue_capacity MAX_QUEUE_CAPACITY

def validate_aggregation (config : AppConfig) : Except ConfigError Unit := do
  validate_capacity "PULSE_AGGREGATION_SCAN_BATCH" config.aggregation_scan_batch MAX_QUEUE_CAPACITY
  validate_capacity "PULSE_AGGREGATION_MAX_ACTIVE_RUNS" config.aggregation_max_active_runs
    MAX_QUEUE_CAPACITY
  validate_capacity "PULSE_AGGREGATION_MAX_ERROR_KINDS" config.aggregation_max_error_kinds 10000
  rejectIf (config.aggregation_max_active_runs < config.aggregation_scan_batch)
    (.Invalid "PULSE_AGGREGATION_SCAN_BATCH" "must not exceed PULSE_AGGREGATION_MAX_ACTIVE_RUNS")
  rejectIf (config.aggregation_retention ≤ config.aggregation_partial_timeout)
    (.Invalid "PULSE_AGGREGATION_RETENTION_MS"
      ("must exceed PULSE_AGGREGATION_PARTIAL_TIMEOUT_MS so finalized summaries remain " ++
        "recoverable"))
  let aggregation_discovery_budget ← checked_duration_sum "PULSE_AGGREGATION_RETENTION_MS"
    [config.max_duration, config.aggregation_partial_timeout]
  rejectIf (config.aggregation_retention ≤ aggregation_discovery_budget)
    (.Invalid "PULSE_AGGREGATION_RETENTION_MS"
      ("must exceed PULSE_MAX_DURATION_MS plus PULSE_AGGREGATION_PARTIAL_TIMEOUT_MS so a " ++
        "zero-result run remains discoverable"))
  rejectIf (config.aggregation_partial_timeout < config.aggregation_scan_interval)
    (.Invalid "PULSE_AGGREGATION_SCAN_INTERVAL_MS"
      "must not exceed PULSE_AGGREGATION_PARTIAL_TIMEOUT_MS")

def validate_retries (config : AppConfig) : Except ConfigError Unit := do
  rejectIf (MAX_WORKER_RETRIES < config.worker_max_retries)
    (.Invalid "PULSE_WORKER_MAX_RETRIES" s!"must not exceed {MAX_WORKER_RETRIES}")
  rejectIf (config.worker_retry_base_delay = 0)
    (.Invalid "PULSE_WORKER_RETRY_BASE_DELAY_MS"
      "must be greater than zero to prevent a tight retry loop")
  rejectIf (config.worker_retry_max_delay = 0)
    (.Invalid "PULSE_WORKER_RETRY_MAX_DELAY_MS"
      "must be greater than zero to prevent a tight retry loop")
  rejectIf (config.worker_retry_max_delay < config.worker_retry_base_delay)
    (.Invalid "PULSE_WORKER_RETRY_BASE_DELAY_MS" "must not exceed PULSE_WORKER_RETRY_MAX_DELAY_MS")
  rejectIf (config.kafka_max_poll_interval ≤ config.worker_retry_max_delay)
    (.Invalid "PULSE_WORKER_RETRY_MAX_DELAY_MS"
      "must be less than PULSE_KAFKA_MAX_POLL_INTERVAL_MS")

/-- The time to live that a lease needs: three renewal intervals, and one Redis call with one
renewal interval and a millisecond. -/
def required_ttl (config : AppConfig) (name : String) (renew_interval : Nat) :
    Except ConfigError Nat := do
  let renew_budget ← okOr (checked_mul renew_interval 3)
    (.Invalid name "three renewal intervals overflow Duration")
  let response_budget ← okOr
    ((checked_add config.redis_operation_timeout renew_interval).bind fun budget =>
      checked_add budget (from_millis 1))
    (.Invalid name "Redis response safety budget overflowed Duration")
  return max renew_budget response_budget

def ttl_reason (required : Nat) : String :=
  "must cover three renewal intervals and the Redis operation response budget (at least " ++
    toString (as_millis required) ++ " ms)"

def validate_leases (config : AppConfig) : Except ConfigError Unit := do
  let required_leader_ttl ← config.required_ttl "PULSE_LEADER_RENEW_INTERVAL_MS"
    config.leader_renew_interval
  rejectIf (from_millis config.leader_lock_ttl_ms < required_leader_ttl)
    (.Invalid "PULSE_LEADER_LOCK_TTL_MS" (ttl_reason required_leader_ttl))
  rejectIf (from_millis config.leader_lock_ttl_ms ≤ config.scheduler_tick_interval)
    (.Invalid "PULSE_SCHEDULER_TICK_INTERVAL_MS" "must be less than the leader lock TTL")
  let required_execution_ttl ← config.required_ttl "PULSE_EXECUTION_LEASE_RENEW_INTERVAL_MS"
    config.execution_lease_renew_interval
  rejectIf (config.execution_lease_ttl < required_execution_ttl)
    (.Invalid "PULSE_EXECUTION_LEASE_TTL_MS" (ttl_reason required_execution_ttl))
  rejectIf (config.execution_terminal_retention < config.kafka_max_poll_interval)
    (.Invalid "PULSE_EXECUTION_TERMINAL_RETENTION_MS"
      "must be at least the Kafka max poll interval so redelivery can verify terminal state")

def validate_load (config : AppConfig) : Except ConfigError Unit := do
  validate_duration_upper_bound "PULSE_MAX_DURATION_MS" config.max_duration MAX_CONFIGURED_DURATION
  match config.max_scenarios_per_sec with
  | .finite rate =>
    rejectIf (rate ≤ 0) (.Invalid "PULSE_MAX_SCENARIOS_PER_SEC"
      "must be finite and greater than zero")
    rejectIf (MAX_SAFETY_RATE < rate)
      (.Invalid "PULSE_MAX_SCENARIOS_PER_SEC" s!"must not exceed {MAX_SAFETY_RATE}")
  | _ => .error (.Invalid "PULSE_MAX_SCENARIOS_PER_SEC" "must be finite and greater than zero")
  rejectIf (config.max_concurrency = 0 ∨ MAX_SAFETY_CONCURRENCY < config.max_concurrency)
    (.Invalid "PULSE_MAX_CONCURRENCY" s!"must be between 1 and {MAX_SAFETY_CONCURRENCY}")
  rejectIf (config.max_concurrency < config.startup_burst)
    (.Invalid "PULSE_STARTUP_BURST" "must not exceed PULSE_MAX_CONCURRENCY")

def validate_budgets (config : AppConfig) : Except ConfigError Unit := do
  rejectIf (config.grpc_scenario_timeout < config.grpc_request_timeout)
    (.Invalid "PULSE_GRPC_REQUEST_TIMEOUT_MS" "must not exceed PULSE_GRPC_SCENARIO_TIMEOUT_MS")
  let startup_dependency_budget ← checked_duration_sum "PULSE_STARTUP_DEADLINE_MS"
    [config.grpc_connect_timeout, config.kafka_request_timeout]
  rejectIf (config.startup_deadline < startup_dependency_budget)
    (.Invalid "PULSE_STARTUP_DEADLINE_MS"
      "must cover the gRPC connect and Kafka request timeout budgets")
  let shutdown_settlement_budget ← checked_duration_sum "PULSE_SHUTDOWN_DRAIN_TIMEOUT_MS"
    [config.kafka_delivery_timeout, config.kafka_request_timeout]
  rejectIf (config.shutdown_drain_timeout < shutdown_settlement_budget)
    (.Invalid "PULSE_SHUTDOWN_DRAIN_TIMEOUT_MS"
      "must cover Kafka delivery and request timeout budgets")
  let local_attempts := min (config.worker_max_retries + 1) U32_MAX
  let result_then_retry_delivery_budget ←
    okOr (checked_mul config.kafka_delivery_timeout (min (local_attempts * 2) U32_MAX))
      (.Invalid "PULSE_KAFKA_MAX_POLL_INTERVAL_MS"
        "bounded result/retry delivery budget overflowed Duration")
  let completion_request_budget ← okOr
    (checked_mul config.kafka_request_timeout local_attempts)
    (.Invalid "PULSE_KAFKA_MAX_POLL_INTERVAL_MS"
      "bounded completion request budget overflowed Duration")
  let backoff ← retry_backoff_upper_bound config.worker_retry_base_delay
    config.worker_retry_max_delay
    config.worker_max_retries
  let local_backoff_budget ← okOr (checked_mul backoff 3)
    (.Invalid "PULSE_KAFKA_MAX_POLL_INTERVAL_MS"
      "bounded publication/completion backoff budget overflowed Duration")
  let bounded_job_and_settlement ← checked_duration_sum "PULSE_KAFKA_MAX_POLL_INTERVAL_MS"
    [config.max_duration, config.grpc_scenario_timeout, config.worker_retry_max_delay,
      result_then_retry_delivery_budget, completion_request_budget, local_backoff_budget]
  let required_poll_interval ←
    okOr (checked_add bounded_job_and_settlement KAFKA_POLL_SAFETY_MARGIN)
      (.Invalid "PULSE_KAFKA_MAX_POLL_INTERVAL_MS"
        "bounded job, settlement, and poll safety margin overflowed Duration")
  rejectIf (config.kafka_max_poll_interval ≤ required_poll_interval)
    (.Invalid "PULSE_KAFKA_MAX_POLL_INTERVAL_MS"
      ("must exceed the bounded job/settlement budget plus the " ++
        toString (as_millis KAFKA_POLL_SAFETY_MARGIN) ++
        " ms poll safety margin (more than " ++
        toString (as_millis required_poll_interval) ++ " ms total)"))

def validate_targets (parsers : Parsers) (config : AppConfig) : Except ConfigError Unit := do
  rejectIf (config.target_allowlist = [])
    (.Invalid "PULSE_TARGET_ALLOWLIST" "must contain at least one host")
  config.target_allowlist.forM (validate_allowlist_host parsers)
  (parsers.socket_addr config.metrics_bind).mapError fun err =>
    .Invalid "PULSE_METRICS_BIND" ("must be a numeric socket address: " ++ err)
  config.validate_target_endpoint parsers config.pulse_endpoint

def validate (parsers : Parsers) (config : AppConfig) : Except ConfigError Unit := do
  config.validate_names parsers
  config.validate_kafka
  config.validate_aggregation
  config.validate_retries
  config.validate_leases
  config.validate_load
  config.validate_budgets
  config.validate_targets parsers

/-! ## What an accepted configuration promises -/

variable {parsers : Parsers} {config : AppConfig}

theorem validate_eq_ok :
    config.validate parsers = .ok () ↔
      config.validate_names parsers = .ok () ∧ config.validate_kafka = .ok () ∧
      config.validate_aggregation = .ok () ∧ config.validate_retries = .ok () ∧
      config.validate_leases = .ok () ∧ config.validate_load = .ok () ∧
      config.validate_budgets = .ok () ∧ config.validate_targets parsers = .ok () := by
  simp only [validate, seq_eq_ok]

variable {name : String}

theorem checked_duration_sum_eq {values : List Nat} {total : Nat}
    (h : checked_duration_sum name values = .ok total) : total = values.sum := by
  -- The fold from any sum, for the induction.
  have hfold : ∀ (values : List Nat) (sum : Nat),
      values.foldlM (fun sum value => okOr (checked_add sum value)
        (ConfigError.Invalid name "duration budget overflowed")) sum = .ok total →
      total = sum + values.sum := by
    intro values
    induction values with
    | nil =>
      intro sum hsum
      simpa using (Except.ok.inj hsum).symm
    | cons value rest ih =>
      intro sum hsum
      simp only [List.foldlM_cons, bind_eq_ok, okOr_eq_ok, checked_add_eq_some] at hsum
      obtain ⟨_, ⟨-, rfl⟩, hrest⟩ := hsum
      have := ih _ hrest
      simp only [List.sum_cons]
      omega
  simpa using hfold values 0 h

/-- A run is kept longer than its longest load and the time that it waits for late slices. -/
theorem retention_covers_deadline (h : config.validate parsers = .ok ()) :
    config.max_duration + config.aggregation_partial_timeout < config.aggregation_retention := by
  have haggregation := (validate_eq_ok.mp h).2.2.1
  simp only [validate_aggregation, seq_eq_ok, rejectIf_eq_ok] at haggregation
  obtain ⟨-, -, -, -, -, hrest⟩ := haggregation
  simp only [bind_eq_ok, rejectIf_eq_ok] at hrest
  obtain ⟨budget, hbudget, _, hlt, -⟩ := hrest
  have hsum := checked_duration_sum_eq hbudget
  simp only [List.sum_cons, List.sum_nil] at hsum
  omega

theorem required_ttl_le {renew_interval ttl : Nat}
    (h : config.required_ttl name renew_interval = .ok ttl) :
    config.redis_operation_timeout + renew_interval + from_millis 1 ≤ ttl ∧
      renew_interval * 3 ≤ ttl := by
  simp only [required_ttl, bind_eq_ok, okOr_eq_ok, checked_mul_eq_some,
    Option.bind_eq_some_iff,
    checked_add_eq_some] at h
  obtain ⟨renew, ⟨-, rfl⟩, response, ⟨_, ⟨-, rfl⟩, -, rfl⟩, hmax⟩ := h
  cases hmax
  omega

/-- The leases outlive three renewal intervals, and one Redis call with a renewal interval. -/
theorem lease_ttls_cover_renewals (h : config.validate parsers = .ok ()) :
    (config.redis_operation_timeout + config.leader_renew_interval + from_millis 1 ≤
        from_millis config.leader_lock_ttl_ms ∧
      config.leader_renew_interval * 3 ≤ from_millis config.leader_lock_ttl_ms) ∧
    (config.redis_operation_timeout + config.execution_lease_renew_interval +
        from_millis 1 ≤ config.execution_lease_ttl ∧
      config.execution_lease_renew_interval * 3 ≤ config.execution_lease_ttl) ∧
    config.kafka_max_poll_interval ≤ config.execution_terminal_retention := by
  have hleases := (validate_eq_ok.mp h).2.2.2.2.1
  simp only [validate_leases, bind_eq_ok, rejectIf_eq_ok] at hleases
  obtain ⟨leader, hleader, _, hlt, _, -, execution, hexecution, _, helt, hretention⟩ := hleases
  have h₁ := required_ttl_le hleader
  have h₂ := required_ttl_le hexecution
  omega

/-- A consumer may stay away from Kafka for more than the safety margin and two deliveries. -/
theorem poll_interval_covers_deliveries (h : config.validate parsers = .ok ()) :
    2 * config.kafka_delivery_timeout + KAFKA_POLL_SAFETY_MARGIN <
      config.kafka_max_poll_interval := by
  have hbudgets := (validate_eq_ok.mp h).2.2.2.2.2.2.1
  simp only [validate_budgets, bind_eq_ok, rejectIf_eq_ok, okOr_eq_ok,
    checked_add_eq_some, checked_mul_eq_some] at hbudgets
  obtain ⟨_, -, _, -, _, -, _, -, _, -, deliveries, ⟨-, hdeliveries⟩, _, -, _, -, _, -,
    total, htotal,
    required, ⟨-, hrequired⟩, hlt⟩ := hbudgets
  have hsum := checked_duration_sum_eq htotal
  simp only [List.sum_cons, List.sum_nil] at hsum
  -- There is at least one local attempt, and it may deliver a result and a retry.
  have htwo : config.kafka_delivery_timeout * 2 ≤ deliveries := by
    rw [hdeliveries]
    apply Nat.mul_le_mul_left
    have hattempts : 1 ≤ min (config.worker_max_retries + 1) U32_MAX :=
      le_min (Nat.le_add_left _ _) (by decide)
    exact le_min (Nat.mul_le_mul_right 2 hattempts) (by decide)
  omega

/-- The sizes and times that Kafka clients get. -/
structure KafkaSettings (config : AppConfig) : Prop where
  max_poll_interval : config.kafka_max_poll_interval ≤ MAX_KAFKA_POLL_INTERVAL
  session_timeout : config.kafka_session_timeout < config.kafka_max_poll_interval
  message_timeout : config.kafka_message_timeout = config.kafka_delivery_timeout
  request_timeout : config.kafka_request_timeout ≤ config.kafka_delivery_timeout
  acks : config.kafka_producer_acks = "all" ∨ config.kafka_producer_acks = "-1"
  queue_messages : 0 < config.producer_queue_messages ∧
    config.producer_queue_messages ≤ MAX_QUEUE_CAPACITY
  queue_kbytes : 0 < config.consumer_queue_kbytes ∧
    config.consumer_queue_kbytes ≤ MAX_CONSUMER_QUEUE_KBYTES
  partition_fetch : 0 < config.consumer_partition_fetch_max_bytes ∧
    config.consumer_partition_fetch_max_bytes ≤ config.consumer_fetch_max_bytes
  fetch : config.consumer_fetch_max_bytes ≤ MAX_KAFKA_MESSAGE_BYTES
  record : config.consumer_record_max_bytes ≤ config.consumer_fetch_max_bytes
  message : config.kafka_producer_message_max_bytes ≤ config.consumer_record_max_bytes
  poison : 2 * MAX_POISON_EVIDENCE_FIELD_BYTES ≤ config.kafka_producer_message_max_bytes

theorem validate_capacity_eq_ok {value maximum : Nat} :
    validate_capacity name value maximum = .ok () ↔ 0 < value ∧ value ≤ maximum := by
  rw [validate_capacity, rejectIf_eq_ok]
  omega

theorem validate_duration_upper_bound_eq_ok {value maximum : Nat} :
    validate_duration_upper_bound name value maximum = .ok () ↔ 0 < value ∧ value ≤ maximum := by
  rw [validate_duration_upper_bound, rejectIf_eq_ok]
  omega

theorem kafka_settings (h : config.validate parsers = .ok ()) : KafkaSettings config := by
  have hkafka := (validate_eq_ok.mp h).2.1
  simp only [validate_kafka, seq_eq_ok, validate_duration_upper_bound_eq_ok, rejectIf_eq_ok,
    validate_capacity_eq_ok] at hkafka
  obtain ⟨hpoll, -, hsession, hmessage, hrequest, hacks, -, -, hqueue, hkbytes, -, hpartition,
    hfetch, -, hfetches, hrecord, hproduced, hrest⟩ := hkafka
  simp only [bind_eq_ok, okOr_eq_ok, rejectIf_eq_ok] at hrest
  obtain ⟨evidence, hevidence, bound, hbound, _, hpoison, -⟩ := hrest
  have hevidence' : evidence = 524288 := by
    simpa [checked, USIZE_MAX, MAX_POISON_EVIDENCE_FIELD_BYTES] using hevidence.symm
  subst hevidence'
  have hbound' : bound = 715440 := by
    simpa [poison_record_size_bound, checked, USIZE_MAX, POISON_ENVELOPE_OVERHEAD_BYTES]
      using hbound.symm
  refine ⟨hpoll.2, by omega, by simpa using hmessage, by omega, not_not.mp hacks, hqueue,
    hkbytes, ⟨hpartition.1, by omega⟩, hfetch.2, by omega, by omega, ?_⟩
  simp only [MAX_POISON_EVIDENCE_FIELD_BYTES]
  omega

/-- The Redis key of the leader and the prefixes of the others. -/
structure RedisNames (config : AppConfig) : Prop where
  tag : ∃ tag, redis_hash_tag config.redis_leader_key = some tag ∧
    redis_hash_tag config.redis_schedule_prefix = some tag
  idempotency : is_blank config.redis_idempotency_prefix = false
  aggregation : is_blank config.redis_aggregation_prefix = false
  prefixes : [config.redis_schedule_prefix, config.redis_idempotency_prefix,
    config.redis_aggregation_prefix].Nodup

theorem validate_non_empty_eq_ok {value : String} :
    validate_non_empty name value = .ok () ↔ is_blank value = false := by
  rw [validate_non_empty, rejectIf_eq_ok, Bool.not_eq_true]

theorem redis_names (h : config.validate parsers = .ok ()) : RedisNames config := by
  have hnames := (validate_eq_ok.mp h).1
  simp only [validate_names, bind_eq_ok, okOr_eq_ok, rejectIf_eq_ok] at hnames
  obtain ⟨_, -, _, -, _, -, _, -, _, -, _, -, _, -, _, -, _, -, _, -, _, -, leader, hleader,
    schedule, hschedule, _, hsame, _, hidempotency, _, haggregation, _, hprefixes, -⟩ := hnames
  obtain rfl := not_not.mp hsame
  exact ⟨⟨leader, hleader, hschedule⟩, validate_non_empty_eq_ok.mp hidempotency,
    validate_non_empty_eq_ok.mp haggregation, not_not.mp hprefixes⟩

theorem aggregation_limits (h : config.validate parsers = .ok ()) :
    (0 < config.aggregation_scan_batch ∧ config.aggregation_scan_batch ≤ MAX_QUEUE_CAPACITY) ∧
    (0 < config.aggregation_max_active_runs ∧
      config.aggregation_max_active_runs ≤ MAX_QUEUE_CAPACITY) ∧
    (0 < config.aggregation_max_error_kinds ∧ config.aggregation_max_error_kinds ≤ 10000) := by
  have haggregation := (validate_eq_ok.mp h).2.2.1
  simp only [validate_aggregation, seq_eq_ok, validate_capacity_eq_ok] at haggregation
  obtain ⟨hbatch, hactive, hkinds, -⟩ := haggregation
  exact ⟨hbatch, hactive, hkinds⟩

/-! ## The defaults -/

/-- The settings of a node that sets none, with the `node_id` that it makes. -/
def defaults (node_id : String) : AppConfig where
  kafka_brokers := "localhost:9092"
  kafka_jobs_topic := "pulse.scenario.jobs"
  kafka_results_topic := "pulse.scenario.results"
  kafka_summaries_topic := "pulse.scenario.summaries"
  kafka_dlq_topic := "pulse.scenario.dlq"
  kafka_group_id := "pulse-workers"
  kafka_aggregator_group_id := "pulse-aggregators"
  kafka_max_poll_interval := from_millis 300000
  kafka_session_timeout := from_millis 10000
  kafka_message_timeout := from_millis 10000
  kafka_delivery_timeout := from_millis 10000
  kafka_request_timeout := from_millis 5000
  kafka_producer_acks := "all"
  kafka_producer_message_max_bytes := 1000000
  kafka_topic_partitions := 3
  kafka_topic_replication_factor := 1
  producer_queue_messages := 1024
  consumer_queue_kbytes := 4096
  consumer_partition_fetch_max_bytes := 524288
  consumer_fetch_max_bytes := 4194304
  consumer_record_max_bytes := 1000000
  redis_url := "redis://127.0.0.1:6379"
  redis_leader_key := "pulse:\x7bcoordination\x7d:leader"
  redis_schedule_prefix := "pulse:\x7bcoordination\x7d:schedule"
  redis_idempotency_prefix := "pulse:dedupe"
  redis_aggregation_prefix := "pulse:aggregation"
  node_id
  leader_lock_ttl_ms := 10000
  leader_renew_interval := from_millis 3000
  scheduler_tick_interval := from_millis 500
  execution_lease_ttl := from_millis 30000
  execution_lease_renew_interval := from_millis 10000
  execution_terminal_retention := from_millis 86400000
  worker_max_retries := 2
  worker_retry_base_delay := from_millis 500
  worker_retry_max_delay := from_millis 30000
  retry_queue_capacity := 1024
  aggregation_enabled := true
  aggregation_partial_timeout := from_millis 60000
  aggregation_retention := from_millis 86400000
  aggregation_scan_interval := from_millis 1000
  aggregation_scan_batch := 128
  aggregation_max_active_runs := 10000
  aggregation_max_error_kinds := 64
  startup_deadline := from_millis 60000
  shutdown_drain_timeout := from_millis 30000
  pulse_endpoint := "http://127.0.0.1:8080"
  grpc_connect_timeout := from_millis 5000
  grpc_request_timeout := from_millis 5000
  grpc_scenario_timeout := from_millis 30000
  max_duration := from_millis 60000
  max_scenarios_per_sec := .finite 1000
  max_concurrency := 256
  startup_burst := 0
  target_allowlist := ["localhost", "127.0.0.1", "::1"]
  acknowledge_non_local_targets := false
  metrics_bind := "0.0.0.0:9090"

/-- The parsers on the default texts. They accept nothing else. -/
def defaultParsers : Parsers where
  endpoint text :=
    if text = "http://localhost:9092" then
      .ok ⟨some "http", some "localhost", some 9092, "/", none⟩
    else if text = "http://127.0.0.1:8080" then
      .ok ⟨some "http", some "127.0.0.1", some 8080, "/", none⟩
    else .error "invalid"
  redis_url text := if text = "redis://127.0.0.1:6379" then .ok () else .error "invalid"
  socket_addr text := if text = "0.0.0.0:9090" then .ok () else .error "invalid"
  ip_addr text := decide (text ∈ ["127.0.0.1", "::1"])

/-- The defaults pass every check. -/
theorem validate_defaults : (defaults "node-1").validate defaultParsers = .ok () := by
  decide +kernel

end AppConfig

end pulse.config
