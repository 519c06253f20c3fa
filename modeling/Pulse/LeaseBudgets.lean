-- The time that a lease call may take, against the time to live that the
-- settings give the lease. A call connects and then runs its script, each
-- under the operation timeout; its response is of use only before the local
-- deadline of the lease.
import Pulse.Config
import Pulse.LeaseDeadlines
import Pulse.LeaseLaws

open checks durations Duration keyspace strings
open pulse.config pulse.coordination

namespace pulse.coordination

/-! ## Calls that take time -/

/-- A future of the Redis client, as the network lets it end. -/
structure RedisFuture where
  lasts : Nat
  output : Except String Unit

/-- The two futures of a call, and the Redis time of the script. -/
structure Exchange where
  connection : RedisFuture
  script : RedisFuture
  now_ms : Nat

/-- The outcome of a future that starts at `now`, and the instant when it is there. A future that
is ready at the timeout itself is still polled first. -/
def redis_operation (operation : String) (operation_timeout : Nat) (future : RedisFuture)
    (now : Nat) : Except CoordinationError Unit × Nat :=
  if future.lasts ≤ operation_timeout then
    (future.output.mapError (.Unavailable operation), now + future.lasts)
  else (.error (.Timeout operation), now + operation_timeout)

/-- A call at the instant `started`: its own checks, a connection, and the script with its
`outcome`. Nothing else takes time. -/
def call {α : Type} (operation : String) (operation_timeout : Nat)
    (checks : Except CoordinationError Unit) (exchange : Exchange)
    (outcome : Except CoordinationError α) (started : Nat) : Except CoordinationError α × Nat :=
  match checks with
  | .error error => (.error error, started)
  | .ok () =>
    match redis_operation operation operation_timeout exchange.connection started with
    | (.error error, now) => (.error error, now)
    | (.ok (), connected) =>
      match redis_operation operation operation_timeout exchange.script connected with
      | (.error error, now) => (.error error, now)
      | (.ok (), now) => (outcome, now)

variable {operation_timeout now : Nat}

theorem redis_operation_eq_ok {operation : String} {later : Nat} {future : RedisFuture} :
    redis_operation operation operation_timeout future now = (.ok (), later) ↔
      future.lasts ≤ operation_timeout ∧ future.output = .ok () ∧ later = now + future.lasts := by
  unfold redis_operation
  by_cases h : future.lasts ≤ operation_timeout
  · simp only [h, if_true, Prod.mk.injEq, mapError_eq_ok, true_and]
    tauto
  · simp [h]

/-- A call that succeeds took the sum of its two steps, each within the timeout. -/
theorem call_eq_ok {α : Type} {operation : String} {started : Nat}
    {checks : Except CoordinationError Unit} {exchange : Exchange}
    {outcome : Except CoordinationError α} {value : α} :
    call operation operation_timeout checks exchange outcome started = (.ok value, now) ↔
      checks = .ok () ∧ outcome = .ok value ∧
      (exchange.connection.lasts ≤ operation_timeout ∧ exchange.connection.output = .ok ()) ∧
      (exchange.script.lasts ≤ operation_timeout ∧ exchange.script.output = .ok ()) ∧
      now = started + exchange.connection.lasts + exchange.script.lasts := by
  unfold call
  rcases checks with error | ⟨⟩
  · simp
  rcases hconnection : redis_operation operation operation_timeout exchange.connection started
    with ⟨error | ⟨⟩, connected⟩
  · have hnot : ¬ (exchange.connection.lasts ≤ operation_timeout ∧
        exchange.connection.output = .ok ()) := by
      rintro ⟨hle, hok⟩
      rw [redis_operation_eq_ok.mpr ⟨hle, hok, rfl⟩] at hconnection
      cases hconnection
    simp [hnot]
  obtain ⟨hle, hok, rfl⟩ := redis_operation_eq_ok.mp hconnection
  rcases hscript : redis_operation operation operation_timeout exchange.script
    (started + exchange.connection.lasts) with ⟨error | ⟨⟩, later⟩
  · have hnot : ¬ (exchange.script.lasts ≤ operation_timeout ∧
      exchange.script.output = .ok ()) := by
      rintro ⟨hsle, hsok⟩
      rw [redis_operation_eq_ok.mpr ⟨hsle, hsok, rfl⟩] at hscript
      cases hscript
    simp [hscript, hnot]
  obtain ⟨hsle, hsok, rfl⟩ := redis_operation_eq_ok.mp hscript
  simp [hscript, hle, hok, hsle, hsok, eq_comm]

end pulse.coordination

namespace pulse.leader_lock.RedisLeaderElector

/-! ## The four calls -/

def acquire_call (elector : RedisLeaderElector) (operation_timeout : Nat) (exchange : Exchange)
    (uuid : String) (keys : LeaderKeys) (started : Nat) :
    Except CoordinationError LeadershipOutcome × Nat :=
  call "leader_acquire" operation_timeout
    (do let _ ← duration_ms "leader_acquire" elector.lock_ttl)
    exchange (elector.acquire exchange.now_ms uuid keys).1 started

def renew_call (elector : RedisLeaderElector) (operation_timeout : Nat) (exchange : Exchange)
    (current : LeaderLease) (keys : LeaderKeys) (started : Nat) :
    Except CoordinationError LeadershipOutcome × Nat :=
  call "leader_renew" operation_timeout
    (do
      rejectIf (current.lock_key ≠ elector.lock_key ∨ current.node_id ≠ elector.node_id)
        (.InvalidState "leader_renew" "lease belongs to a different elector")
      let _ ← duration_ms "leader_renew" elector.lock_ttl
      rejectIf (2 ^ 63 ≤ current.fencing_token)
        (.InvalidState "leader_renew" "fencing token exceeds Redis integer range"))
    exchange (elector.renew exchange.now_ms current keys).1 started

end pulse.leader_lock.RedisLeaderElector

namespace pulse.execution_lease.RedisIdempotencyStore

def claim_call (store : RedisIdempotencyStore) (operation_timeout : Nat) (exchange : Exchange)
    (owner_token : String) (claim : ExecutionClaim) (key : ExecutionKey) (started : Nat) :
    Except CoordinationError ClaimOutcome × Nat :=
  call "execution_claim" operation_timeout
    (do
      rejectIf (is_blank claim.execution_key)
        (.InvalidState "execution_claim" "execution key must not be empty")
      let _ ← duration_ms "execution_claim" store.lease_ttl
      let _ ← duration_ms "execution_claim" store.running_retention)
    exchange (store.claim exchange.now_ms owner_token claim key).1 started

def renew_call (store : RedisIdempotencyStore) (operation_timeout : Nat) (exchange : Exchange)
    (lease : ExecutionLease) (key : ExecutionKey) (started : Nat) :
    Except CoordinationError ExecutionLease × Nat :=
  call "execution_renew" operation_timeout
    (do
      let _ ← duration_ms "execution_renew" store.lease_ttl
      let _ ← duration_ms "execution_renew" store.running_retention)
    exchange (store.renew exchange.now_ms lease key).1 started

end pulse.execution_lease.RedisIdempotencyStore

namespace pulse.service

open pulse.leader_lock pulse.execution_lease

/-! ## The settings and the local deadline -/

def lease_response_has_safe_budget (request_started ttl reserve now : Nat) : Bool :=
  decide (now < conservative_lease_deadline request_started ttl reserve)

/-- The elector that `main` makes. -/
def elector (config : AppConfig) : RedisLeaderElector :=
  ⟨config.redis_leader_key, config.node_id, from_millis config.leader_lock_ttl_ms⟩

/-- A leader call that starts at `started` and succeeds is answered before the local deadline. -/
def LeaderAnswersInBudget (config : AppConfig) (started : Nat) : Prop :=
  ∀ (exchange : Exchange) (keys : LeaderKeys) (outcome : LeadershipOutcome) (now : Nat),
    ((∃ uuid, (elector config).acquire_call config.redis_operation_timeout exchange uuid keys
        started = (.ok outcome, now)) ∨
      ∃ current, (elector config).renew_call config.redis_operation_timeout exchange current keys
        started = (.ok outcome, now)) →
    lease_response_has_safe_budget started (elector config).lock_ttl config.leader_renew_interval
      now = true

/-- A claim or a renewal of an execution that starts at `started` and succeeds is answered before
the local deadline. -/
def ExecutionAnswersInBudget (config : AppConfig) (started : Nat) : Prop :=
  ∀ (exchange : Exchange) (key : ExecutionKey) (now : Nat),
    ((∃ token claim outcome, (execution_store config).claim_call config.redis_operation_timeout
        exchange token claim key started = (.ok outcome, now)) ∨
      ∃ lease renewed, (execution_store config).renew_call config.redis_operation_timeout
        exchange lease key started = (.ok renewed, now)) →
    lease_response_has_safe_budget started (execution_store config).lease_ttl
      config.execution_lease_renew_interval now = true

/-- The time to live covers both steps of a call and a renewal interval, on the clock. -/
def CoversBothSteps (operation_timeout ttl renew_interval started : Nat) : Prop :=
  2 * operation_timeout + renew_interval < ttl ∧ started + (ttl - renew_interval) ≤ Instant.MAX

/-- A duration that Redis takes as a time to live. -/
def RedisRange (duration : Nat) : Prop :=
  0 < as_millis duration ∧ as_millis duration < 2 ^ 63

theorem duration_ms_of_range {operation : String} {duration : Nat} (h : RedisRange duration) :
    duration_ms operation duration = .ok (as_millis duration) :=
  duration_ms_eq_ok.mpr ⟨rfl, h⟩

theorem range_of_duration_ms {operation : String} {duration m : Nat}
    (h : duration_ms operation duration = .ok m) : RedisRange duration := by
  obtain ⟨rfl, hrange⟩ := duration_ms_eq_ok.mp h
  exact hrange

theorem safe_budget_iff {request_started ttl reserve now : Nat} (h : request_started ≤ now) :
    lease_response_has_safe_budget request_started ttl reserve now = true ↔
      now < request_started + (ttl - reserve) ∧
        request_started + (ttl - reserve) ≤ Instant.MAX := by
  unfold lease_response_has_safe_budget conservative_lease_deadline Instant.checked_add
    saturating_sub
  rw [decide_eq_true_eq]
  by_cases hclock : request_started + (ttl - reserve) ≤ Instant.MAX
  · rw [if_pos hclock]
    simp [hclock]
  · rw [if_neg hclock]
    simp only [Option.getD_none, hclock, and_false, iff_false]
    omega

/-- Every pair of steps within the timeout ends before the deadline exactly if the time to live
covers both. -/
theorem budget_iff {operation_timeout ttl renew_interval started : Nat} :
    (∀ first second, first ≤ operation_timeout → second ≤ operation_timeout →
      lease_response_has_safe_budget started ttl renew_interval (started + first + second) = true) ↔
    CoversBothSteps operation_timeout ttl renew_interval started := by
  unfold CoversBothSteps
  constructor
  · intro h
    obtain ⟨hlt, hclock⟩ := (safe_budget_iff (by omega)).mp
      (h operation_timeout operation_timeout le_rfl le_rfl)
    exact ⟨by omega, hclock⟩
  · rintro ⟨hlt, hclock⟩ first second hfirst hsecond
    exact (safe_budget_iff (by omega)).mpr ⟨by omega, hclock⟩

/-- Two steps that take the times `first` and `second` and succeed, at Redis time zero. -/
def exchangeOf (first second : Nat) : Exchange := ⟨⟨first, .ok ()⟩, ⟨second, .ok ()⟩, 0⟩

/-- A free lock is acquired. -/
theorem acquire_free {elector : RedisLeaderElector} (h : RedisRange elector.lock_ttl)
    (now_ms fence : Nat) (uuid : String) :
    ∃ outcome, (elector.acquire now_ms uuid ⟨none, fence⟩).1 = .ok outcome := by
  unfold RedisLeaderElector.acquire
  rw [duration_ms_of_range h]
  exact ⟨_, rfl⟩

/-- An execution without a record is claimed. -/
theorem claim_free {store : RedisIdempotencyStore} {claim : ExecutionClaim}
    (hkey : is_blank claim.execution_key = false) (h : RedisRange store.lease_ttl)
    (hretention : RedisRange store.running_retention) (now_ms : Nat) (token : String) :
    ∃ outcome, (store.claim now_ms token claim none).1 = .ok outcome := by
  unfold RedisIdempotencyStore.claim
  rw [duration_ms_of_range h, duration_ms_of_range hretention, hkey]
  exact ⟨_, rfl⟩

theorem leader_answers_iff (config : AppConfig) (started : Nat) :
    LeaderAnswersInBudget config started ↔
      (RedisRange (elector config).lock_ttl →
        CoversBothSteps config.redis_operation_timeout (elector config).lock_ttl
          config.leader_renew_interval started) := by
  rw [← budget_iff]
  constructor
  · intro h hrange first second hfirst hsecond
    -- A free lock is acquired, whatever the two steps take.
    obtain ⟨outcome, houtcome⟩ := acquire_free hrange 0 0 ""
    have hchecks :
        (do let _ ← duration_ms "leader_acquire" (elector config).lock_ttl) = .ok () := by
      rw [duration_ms_of_range hrange]
      rfl
    exact h (exchangeOf first second) ⟨none, 0⟩ outcome _ (.inl ⟨"", call_eq_ok.mpr
      ⟨hchecks, houtcome, ⟨hfirst, rfl⟩, ⟨hsecond, rfl⟩, rfl⟩⟩)
  · rintro h exchange keys outcome now (⟨uuid, hcall⟩ | ⟨current, hcall⟩)
    · obtain ⟨hchecks, -, ⟨hfirst, -⟩, ⟨hsecond, -⟩, rfl⟩ := call_eq_ok.mp hcall
      simp only [bind_eq_ok] at hchecks
      obtain ⟨_, hms, -⟩ := hchecks
      exact h (range_of_duration_ms hms) _ _ hfirst hsecond
    · obtain ⟨hchecks, -, ⟨hfirst, -⟩, ⟨hsecond, -⟩, rfl⟩ := call_eq_ok.mp hcall
      simp only [bind_eq_ok] at hchecks
      obtain ⟨_, -, _, hms, -⟩ := hchecks
      exact h (range_of_duration_ms hms) _ _ hfirst hsecond

theorem execution_answers_iff (config : AppConfig) (started : Nat) :
    ExecutionAnswersInBudget config started ↔
      (RedisRange (execution_store config).lease_ttl →
        RedisRange (execution_store config).running_retention →
        CoversBothSteps config.redis_operation_timeout (execution_store config).lease_ttl
          config.execution_lease_renew_interval started) := by
  rw [← budget_iff]
  constructor
  · intro h hrange hretention first second hfirst hsecond
    -- An execution without a record is claimed, whatever the two steps take.
    let claim : ExecutionClaim := ⟨"run", 0⟩
    have hkey : is_blank claim.execution_key = false := by decide
    obtain ⟨outcome, houtcome⟩ := claim_free hkey hrange hretention 0 ""
    refine h (exchangeOf first second) none _ (.inl ⟨"", claim, outcome, call_eq_ok.mpr
      ⟨?_, houtcome, ⟨hfirst, rfl⟩, ⟨hsecond, rfl⟩, rfl⟩⟩)
    rw [duration_ms_of_range hrange, duration_ms_of_range hretention, hkey]
    rfl
  · rintro h exchange key now (⟨token, claim, outcome, hcall⟩ | ⟨lease, renewed, hcall⟩)
    · obtain ⟨hchecks, -, ⟨hfirst, -⟩, ⟨hsecond, -⟩, rfl⟩ := call_eq_ok.mp hcall
      simp only [bind_eq_ok] at hchecks
      obtain ⟨_, -, _, hms, _, hretention, -⟩ := hchecks
      exact h (range_of_duration_ms hms) (range_of_duration_ms hretention) _ _ hfirst hsecond
    · obtain ⟨hchecks, -, ⟨hfirst, -⟩, ⟨hsecond, -⟩, rfl⟩ := call_eq_ok.mp hcall
      simp only [bind_eq_ok] at hchecks
      obtain ⟨_, hms, _, hretention, -⟩ := hchecks
      exact h (range_of_duration_ms hms) (range_of_duration_ms hretention) _ _ hfirst hsecond

/-! ## The law -/

variable {parsers : Parsers} {config : AppConfig}

theorem leader_range_iff (h : config.validate parsers = .ok ()) :
    RedisRange (elector config).lock_ttl ↔ config.leader_lock_ttl_ms < 2 ^ 63 := by
  have hcovers := (AppConfig.lease_ttls_cover_renewals h).1.1
  simp only [RedisRange, elector, as_millis_from_millis]
  unfold from_millis NANOS_PER_MILLI at hcovers
  omega

/-- The record of a running execution is kept at least as long as its lease. -/
theorem execution_range_iff (h : config.validate parsers = .ok ()) :
    RedisRange (execution_store config).lease_ttl ∧
        RedisRange (execution_store config).running_retention ↔
      as_millis (execution_store config).running_retention < 2 ^ 63 := by
  have hcovers := (AppConfig.lease_ttls_cover_renewals h).2.1.1
  have hretention : min (4 * config.execution_lease_ttl) Duration.MAX ≤
      (execution_store config).running_retention := by
    simp only [RedisIdempotencyStore.running_retention, saturating_mul, execution_store]
    omega
  simp only [RedisRange]
  unfold from_millis at hcovers
  simp only [execution_store, as_millis, NANOS_PER_MILLI, Duration.MAX] at *
  omega

/-- An accepted configuration answers every lease call before its local deadline exactly if the
time to live of each lease that Redis takes exceeds two operation timeouts and a renewal
interval. -/
theorem leases_are_answered_in_budget_iff_both_steps_fit (h : config.validate parsers = .ok ())
    (started : Nat) :
    (LeaderAnswersInBudget config started ∧ ExecutionAnswersInBudget config started) ↔
      (config.leader_lock_ttl_ms < 2 ^ 63 →
        CoversBothSteps config.redis_operation_timeout
          (from_millis config.leader_lock_ttl_ms) config.leader_renew_interval started) ∧
      (as_millis (execution_store config).running_retention < 2 ^ 63 →
        CoversBothSteps config.redis_operation_timeout config.execution_lease_ttl
          config.execution_lease_renew_interval started) := by
  rw [leader_answers_iff, execution_answers_iff, leader_range_iff h, ← execution_range_iff h,
    and_imp]
  rfl

/-- The default settings answer in time for three centuries after the start of the clock. -/
theorem default_leases_are_answered_in_budget :
    LeaderAnswersInBudget (.defaults "node-1") (from_secs 10000000000) ∧
      ExecutionAnswersInBudget (.defaults "node-1") (from_secs 10000000000) :=
  (leases_are_answered_in_budget_iff_both_steps_fit AppConfig.validate_defaults _).mpr
    ⟨fun _ => by unfold CoversBothSteps; decide, fun _ => by unfold CoversBothSteps; decide⟩

/-- The shortest leases that the checks accept for a renewal every second. -/
def tightLeases : AppConfig :=
  { AppConfig.defaults "node-1" with
    leader_lock_ttl_ms := 3001
    leader_renew_interval := from_millis 1000
    execution_lease_ttl := from_millis 3001
    execution_lease_renew_interval := from_millis 1000 }

/-- With the tight leases, a lock and a claim whose two steps take the operation timeout each are
granted and come too late. -/
theorem granted_leases_come_too_late :
    tightLeases.validate AppConfig.defaultParsers = .ok () ∧
    (∃ lease, (elector tightLeases).acquire_call tightLeases.redis_operation_timeout
        (exchangeOf (from_secs 2) (from_secs 2)) "uuid" ⟨none, 0⟩ 0 =
          (.ok (.Acquired lease), from_secs 4) ∧
      lease_response_has_safe_budget 0 lease.ttl tightLeases.leader_renew_interval
        (from_secs 4) = false) ∧
    (∃ lease, (execution_store tightLeases).claim_call tightLeases.redis_operation_timeout
        (exchangeOf (from_secs 2) (from_secs 2)) "token" ⟨"run", 0⟩ none 0 =
          (.ok (.Acquired lease), from_secs 4) ∧
      lease_response_has_safe_budget 0 lease.ttl tightLeases.execution_lease_renew_interval
        (from_secs 4) = false) := by
  refine ⟨by decide +kernel, ⟨_, rfl, by decide⟩, ⟨_, rfl, by decide⟩⟩

end pulse.service
