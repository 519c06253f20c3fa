-- The local deadline of a lease. A worker or a leader counts the time to
-- live from the moment it sent the request and keeps one renewal interval in
-- reserve; before that deadline Redis still has its lease.
import Pulse.LeaderLock
import Pulse.TimedLeases

open durations Duration keyspace systems timed_leases
open pulse.coordination

namespace pulse.service

def conservative_lease_deadline (request_started ttl reserve : Nat) : Nat :=
  (Instant.checked_add request_started (saturating_sub ttl reserve)).getD request_started

theorem conservative_lease_deadline_le (request_started ttl reserve : Nat) :
    conservative_lease_deadline request_started ttl reserve ≤ request_started ∨
      conservative_lease_deadline request_started ttl reserve + reserve ≤
        request_started + ttl := by
  unfold conservative_lease_deadline Instant.checked_add saturating_sub
  split
  · simp only [Option.getD_some]
    omega
  · left
    simp

/-- With a reserve of a millisecond or more the deadline is conservative. -/
theorem deadline_conservative {κ α : Type} (C : LeaseCell κ α) {reserve : Nat}
    (h : from_millis 1 ≤ reserve) :
    Conservative C fun started ttl => conservative_lease_deadline started ttl reserve := by
  intro started
  have hmillis : from_millis 1 = 1000000 := by decide
  rcases conservative_lease_deadline_le started (C.ttl_ms * 1000000) reserve with hle | hle
  · exact .inl hle
  · right
    simp only
    omega

end pulse.service

namespace pulse.execution_lease

open RedisIdempotencyStore pulse.service

/-! ## The execution lease as a lease cell -/

/-- A call of a worker on the record of one execution. -/
inductive ExecutionCall
  | claim (token : String)
  | renew (lease : ExecutionLease)
  | complete (lease : ExecutionLease) (outcome : TerminalOutcome)
  | release (lease : ExecutionLease)
deriving DecidableEq

/-- The token that has a running record, and its `lease_until`. -/
def executionHolder (now : Nat) (key : ExecutionKey) : Option (String × Nat) :=
  (get now key).bind fun record =>
    if record.state = .running ∧ now < number record.lease_until then
      some (record.owner, number record.lease_until)
    else none

def executionCell (store : RedisIdempotencyStore) (claim : ExecutionClaim) :
    LeaseCell ExecutionKey ExecutionCall where
  ttl_ms := as_millis store.lease_ttl
  actor
    | .claim token => token
    | .renew lease => lease.owner_token
    | .complete lease _ => lease.owner_token
    | .release lease => lease.owner_token
  run now call key :=
    match call with
    | .claim token =>
      match store.claim now token claim key with
      | (.ok (.Acquired lease), key) => (.accepted lease.ttl, key)
      | (_, key) => (.refused, key)
    | .renew lease =>
      match store.renew now lease key with
      | (.ok renewed, key) => (.accepted renewed.ttl, key)
      | (.error _, key) => (.refused, key)
    | .complete lease outcome =>
      match store.complete now lease outcome key with
      | (.ok _, key) => (.closed, key)
      | (.error _, key) => (.refused, key)
    | .release lease =>
      match release now lease key with
      | (.ok .Released, key) => (.closed, key)
      | (_, key) => (.refused, key)
  holder := executionHolder

/-- A running record is leased for the time to live at most, and outlives its lease. -/
def ExecutionSound (store : RedisIdempotencyStore) (now : Nat) (key : ExecutionKey) : Prop :=
  ∀ k, key = some k → k.value.state = .running →
    number k.value.lease_until ≤ now + as_millis store.lease_ttl ∧
      ∃ e, k.expires_at = some e ∧ number k.value.lease_until ≤ e

variable {store : RedisIdempotencyStore} {claim : ExecutionClaim} {now : Nat} {key : ExecutionKey}

theorem executionHolder_eq_some {token : String} {until_ms : Nat} :
    executionHolder now key = some (token, until_ms) ↔
      ∃ record, get now key = some record ∧ record.state = .running ∧ record.owner = token ∧
        number record.lease_until = until_ms ∧ now < until_ms := by
  unfold executionHolder
  rw [Option.bind_eq_some_iff]
  constructor
  · rintro ⟨record, hget, hif⟩
    split at hif
    · rename_i hlive
      cases hif
      exact ⟨record, hget, hlive.1, rfl, rfl, hlive.2⟩
    · cases hif
  · rintro ⟨record, hget, hstate, rfl, rfl, hlive⟩
    exact ⟨record, hget, if_pos ⟨hstate, hlive⟩⟩

theorem timings_le {lease_ms retention_ms : Nat} (h : Timings store lease_ms retention_ms) :
    lease_ms = as_millis store.lease_ttl ∧ 0 < lease_ms ∧ lease_ms ≤ retention_ms := by
  obtain ⟨hlease, hpos, hlt⟩ := duration_ms_eq_ok.mp h.1
  obtain ⟨hretention, -, -⟩ := duration_ms_eq_ok.mp h.2
  simp only [running_retention, saturating_mul, as_millis, Duration.MAX, NANOS_PER_MILLI] at *
  omega

/-- What one call does to the record: nothing, a lease from now, or the end of a held lease. -/
theorem executionCell_run (store : RedisIdempotencyStore) (claim : ExecutionClaim) (now : Nat)
    (call : ExecutionCall) (key : ExecutionKey) : let C := executionCell store claim
    (C.run now call key).2 = key ∧ (∀ ttl, (C.run now call key).1 ≠ .accepted ttl) ∨
    (∃ lease_ms retention_ms record, Timings store lease_ms retention_ms ∧
      (Claimable now key ∨ ∃ lease old, C.actor call = lease.owner_token ∧
        Holds now key lease old) ∧ record.state = .running ∧ record.owner = C.actor call ∧
      record.lease_until = some (lua.tostring (now + lease_ms)) ∧ C.run now call key =
        (.accepted store.lease_ttl, some ⟨record, some (now + retention_ms)⟩)) ∨
    ∃ lease old, C.actor call = lease.owner_token ∧ Holds now key lease old ∧
      (C.run now call key).1 = .closed ∧
      ∀ k, (C.run now call key).2 = some k → k.value.state ≠ .running := by
  intro C
  cases call with
  | claim token =>
    rcases claim_cases store now key token claim with
      ⟨hkey, hno⟩ | ⟨lease_ms, retention_ms, _, record, ht, -, hc, heq, -, hs, ho, hu⟩
    · left
      simp only [C, executionCell]
      exact ⟨hkey, by simp⟩
    · right; left
      refine ⟨lease_ms, retention_ms, record, ht, .inl hc, hs, ho, hu, ?_⟩
      simp only [C, executionCell, heq]
  | renew lease =>
    rcases renew_cases store now key lease with
      ⟨hkey, e, he⟩ | ⟨lease_ms, retention_ms, old, ht, hh, heq⟩
    · left
      simp only [C, executionCell]
      rw [← Prod.eta (renew _ _ _ _), he]
      exact ⟨hkey, by simp⟩
    · right; left
      refine ⟨lease_ms, retention_ms,
        { old with lease_until := some (lua.tostring (now + lease_ms)) }, ht,
        .inr ⟨lease, old, rfl, hh⟩, hh.running, hh.owner, rfl, ?_⟩
      simp only [C, executionCell, heq]
  | complete lease outcome =>
    rcases complete_cases store now key lease outcome with
      ⟨hkey, e, he⟩ | ⟨old, -, -, -, heq⟩ | ⟨terminal_ms, old, -, hh, heq⟩
    · left
      simp only [C, executionCell]
      rw [← Prod.eta (complete _ _ _ _ _), he]
      exact ⟨hkey, by simp⟩
    · left
      simp only [C, executionCell, heq]
      simp
    · right; right
      refine ⟨lease, old, rfl, hh, ?_, ?_⟩
      · simp only [C, executionCell, heq]
      · simp only [C, executionCell, heq]
        rintro k ⟨⟩
        simp
  | release lease =>
    rcases release_cases now key lease with ⟨hkey, hres⟩ | ⟨old, hh, heq⟩
    · left
      simp only [C, executionCell]
      split
      · rename_i heq
        rw [heq] at hres
        simp at hres
      · rename_i heq
        rw [heq] at hkey
        exact ⟨hkey, by simp⟩
    · right; right
      refine ⟨lease, old, rfl, hh, ?_, ?_⟩
      · simp only [C, executionCell, heq]
      · simp only [C, executionCell, heq]
        simp

/-- The times at which the lease of a call is below `limit`. -/
def Fits (store : RedisIdempotencyStore) (limit now : Nat) : Prop :=
  now + as_millis store.lease_ttl < limit

instance (store : RedisIdempotencyStore) (limit now : Nat) : Decidable (Fits store limit now) :=
  inferInstanceAs (Decidable (_ < _))

theorem number_of_fits {lease_ms : Nat} {text : Option lua.Text}
    (hfits : Fits store lua.FIRST_SCIENTIFIC now) (hms : lease_ms = as_millis store.lease_ttl)
    (hu : text = some (lua.tostring (now + lease_ms))) : number text = now + lease_ms := by
  simp only [number, hu, Option.map_some, Option.getD_some]
  exact lua.tonumber_tostring (hms ▸ hfits)

/-- A record with a holder can be claimed by nobody, and only the holder holds it. -/
theorem holder_excludes {token : String} {until_ms : Nat}
    (h : executionHolder now key = some (token, until_ms)) :
    ¬ Claimable now key ∧ ∀ {lease old}, Holds now key lease old → lease.owner_token = token := by
  obtain ⟨record, hget, hstate, howner, huntil, hlive⟩ := executionHolder_eq_some.mp h
  constructor
  · rintro (hnone | ⟨old, hold, -, hexpired⟩)
    · rw [hget] at hnone
      cases hnone
    · rw [hget] at hold
      cases hold
      omega
  · intro lease old hh
    have hsame := hh.present
    rw [hget] at hsame
    cases hsame
    rw [← hh.owner, howner]

theorem executionCell_lawful (claim : ExecutionClaim) {ttl_ms : Nat}
    (hwhole : store.lease_ttl = from_millis ttl_ms) :
    Lawful (executionCell store claim) (ExecutionSound store)
      (Fits store lua.FIRST_SCIENTIFIC) where
  sound_run := by
    intro now call key hs hfits
    rcases executionCell_run store claim now call key with
      ⟨hkey, -⟩ | ⟨lease_ms, retention_ms, record, ht, -, -, -, hu, heq⟩ | ⟨-, -, -, -, -, hstate⟩
    · rw [hkey]
      exact hs
    · rw [heq]
      rintro k ⟨⟩ -
      obtain ⟨hms, -, hle⟩ := timings_le ht
      have hexact := number_of_fits hfits hms hu
      exact ⟨by simp only [hexact, hms, Nat.le_refl], _, rfl, by simp only [hexact]; omega⟩
    · intro k hk hrunning
      exact absurd hrunning (hstate k hk)
  sound_later := by
    intro now later key hs hle k hk hstate
    obtain ⟨hbound, hexpiry⟩ := hs k hk hstate
    exact ⟨by omega, hexpiry⟩
  holder_later := by
    intro now later key token until_ms hs hholder hle hlt
    obtain ⟨record, hget, hstate, howner, huntil, -⟩ := executionHolder_eq_some.mp hholder
    obtain ⟨k, hk, rfl, -⟩ := get_eq_some.mp hget
    obtain ⟨-, e, he, hexpiry⟩ := hs k hk hstate
    refine executionHolder_eq_some.mpr ⟨k.value, ?_, hstate, howner, huntil, hlt⟩
    refine get_eq_some.mpr ⟨k, hk, rfl, fun e' he' => ?_⟩
    rw [he] at he'
    cases he'
    omega
  holder_le := by
    intro now key token until_ms hs hholder
    obtain ⟨record, hget, hstate, -, huntil, -⟩ := executionHolder_eq_some.mp hholder
    obtain ⟨k, hk, rfl, -⟩ := get_eq_some.mp hget
    rw [← huntil]
    exact (hs k hk hstate).1
  holder_accepted := by
    intro now call key ttl hs hfits haccepted
    rcases executionCell_run store claim now call key with
      ⟨-, hno⟩ | ⟨lease_ms, retention_ms, record, ht, -, hstate, howner, hu, heq⟩ |
        ⟨-, -, -, -, hclosed, -⟩
    · exact absurd haccepted (hno ttl)
    · obtain ⟨hms, hpos, hle⟩ := timings_le ht
      have hexact := number_of_fits hfits hms hu
      rw [heq] at haccepted ⊢
      cases haccepted
      refine ⟨?_, executionHolder_eq_some.mpr
        ⟨record, get_of_lt _ (by omega), hstate, howner, ?_, ?_⟩⟩
      · simp only [executionCell, hwhole, as_millis_from_millis]
        simp only [from_millis, NANOS_PER_MILLI]
      · rw [hexact, hms]
        rfl
      · simp only [executionCell, ← hms]
        omega
    · rw [hclosed] at haccepted
      cases haccepted
  holder_kept := by
    intro now call key token until_ms hs hholder hother
    obtain ⟨hnot, honly⟩ := holder_excludes hholder
    rcases executionCell_run store claim now call key with
      ⟨hkey, -⟩ | ⟨_, _, _, _, hhow, _, _, _, heq⟩ | ⟨lease, old, hactor, hh, hclosed, -⟩
    · rw [hkey]
      exact hholder
    · rw [heq] at hother
      rcases hhow with hclaim | ⟨lease, old, hactor, hh⟩
      · exact absurd hclaim hnot
      · rw [hactor, honly hh] at hother
        simp at hother
    · rw [hclosed, hactor, honly hh] at hother
      simp at hother

/-- Workers with local deadlines on one execution, with lease times below `limit`. -/
def executionSystem (store : RedisIdempotencyStore) (claim : ExecutionClaim)
    (renew_interval limit : Nat) :
    System (timed_leases.World ExecutionKey ExecutionCall) (timed_leases.Event ExecutionCall) :=
  timedSystem (executionCell store claim) (· = none) (Fits store limit)
    fun started ttl => conservative_lease_deadline started ttl renew_interval

end pulse.execution_lease

namespace pulse.leader_lock

open RedisLeaderElector pulse.service

/-! ## The leader lock as a lease cell -/

/-- A call of a node on the lock. A node with no lease acquires, one with a lease renews. -/
inductive LeaderCall
  | acquire (node_id uuid : String)
  | renew (node_id : String) (current : LeaderLease)
  | relinquish (node_id : String) (lease : LeaderLease)

/-- The owner of the lock, and when the lock expires. -/
def lockHolder (now : Nat) (keys : LeaderKeys) : Option (String × Nat) :=
  keys.lock.bind fun k => k.expires_at.bind fun e =>
    if now < e then some (k.value.owner, e) else none

def leaderCell (lock_key : String) (lock_ttl : Nat) : LeaseCell LeaderKeys LeaderCall where
  ttl_ms := as_millis lock_ttl
  actor
    | .acquire node_id uuid => owner_token ⟨lock_key, node_id, lock_ttl⟩ uuid
    | .renew _ current => current.owner_token
    | .relinquish _ lease => lease.owner_token
  run now call keys :=
    let elector (node_id : String) : RedisLeaderElector := ⟨lock_key, node_id, lock_ttl⟩
    match call with
    | .acquire node_id uuid =>
      match (elector node_id).acquire_or_renew now uuid none keys with
      | (.ok (.Acquired lease), keys) => (.accepted lease.ttl, keys)
      | (_, keys) => (.refused, keys)
    | .renew node_id current =>
      match (elector node_id).acquire_or_renew now "" (some current) keys with
      | (.ok (.Renewed lease), keys) => (.accepted lease.ttl, keys)
      | (_, keys) => (.refused, keys)
    | .relinquish node_id lease =>
      match (elector node_id).relinquish now lease keys with
      | (.ok (), keys) => (.closed, keys)
      | (.error _, keys) => (.refused, keys)
  holder := lockHolder

/-- The lock expires, within the time to live. -/
def LockSound (lock_ttl_ms now : Nat) (keys : LeaderKeys) : Prop :=
  ∀ k, keys.lock = some k → ∃ e, k.expires_at = some e ∧ e ≤ now + lock_ttl_ms

variable {now : Nat} {keys : LeaderKeys}

theorem lockHolder_eq_some {token : String} {until_ms : Nat} :
    lockHolder now keys = some (token, until_ms) ↔
      ∃ k, keys.lock = some k ∧ k.expires_at = some until_ms ∧ k.value.owner = token ∧
        now < until_ms := by
  unfold lockHolder
  simp only [Option.bind_eq_some_iff]
  constructor
  · rintro ⟨k, hk, e, he, hif⟩
    split at hif
    · rename_i hlt
      cases hif
      exact ⟨k, hk, he, rfl, hlt⟩
    · cases hif
  · rintro ⟨k, hk, he, rfl, hlt⟩
    exact ⟨k, hk, until_ms, he, if_pos hlt⟩

/-- The holder of the lock is the owner of the record that the scripts find. -/
theorem get_of_lockHolder {token : String} {until_ms : Nat}
    (h : lockHolder now keys = some (token, until_ms)) :
    ∃ record, get now keys.lock = some record ∧ record.owner = token := by
  obtain ⟨k, hk, he, howner, hlt⟩ := lockHolder_eq_some.mp h
  refine ⟨k.value, get_eq_some.mpr ⟨k, hk, rfl, fun e he' => ?_⟩, howner⟩
  rw [he] at he'
  cases he'
  exact hlt

/-- What one call does to the lock: nothing, a lock from now, or the end of the lock. -/
theorem leaderCell_run (lock_key : String) (lock_ttl now : Nat) (call : LeaderCall)
    (keys : LeaderKeys) : let C := leaderCell lock_key lock_ttl
    ((C.run now call keys).2 = keys ∧ ∀ ttl, (C.run now call keys).1 ≠ .accepted ttl) ∨
    (∃ record fence, 0 < C.ttl_ms ∧ record.owner = C.actor call ∧
      (∀ old, get now keys.lock = some old → old.owner = C.actor call) ∧ C.run now call keys =
        (.accepted lock_ttl, ⟨some ⟨record, some (now + C.ttl_ms)⟩, fence⟩)) ∨
    (∃ old, get now keys.lock = some old ∧ old.owner = C.actor call) ∧
      (C.run now call keys).1 = .closed ∧ (C.run now call keys).2.lock = none := by
  intro C
  cases call with
  | acquire node_id uuid =>
    simp only [C, leaderCell, acquire_or_renew]
    rcases acquire_cases ⟨lock_key, node_id, lock_ttl⟩ now uuid keys with
      ⟨hkeys, ⟨e, he⟩ | ⟨retry, he⟩⟩ | ⟨ttl_ms, hms, hnone, heq⟩
    rotate_left 2
    · right; left
      obtain ⟨hms, hpos, -⟩ := duration_ms_eq_ok.mp hms
      rw [hms] at heq hpos
      rw [heq]
      refine ⟨⟨_, node_id, lua.tostring (keys.fence + 1)⟩, keys.fence + 1, hpos, rfl, ?_, rfl⟩
      rw [hnone]
      simp
    all_goals
      left
      rw [← Prod.eta (acquire _ _ _ _), he]
      exact ⟨hkeys, by simp⟩
  | renew node_id current =>
    simp only [C, leaderCell, acquire_or_renew]
    rcases renew_cases ⟨lock_key, node_id, lock_ttl⟩ now current keys with
      ⟨hkeys, e, he⟩ | ⟨ttl_ms, k, hms, -, hget, howner, -, heq⟩
    · left
      rw [← Prod.eta (renew _ _ _ _), he]
      exact ⟨hkeys, by simp⟩
    · right; left
      obtain ⟨hms, hpos, -⟩ := duration_ms_eq_ok.mp hms
      rw [hms] at heq hpos
      rw [heq]
      refine ⟨k.value, keys.fence, hpos, howner, ?_, rfl⟩
      intro old hold
      rw [hget] at hold
      cases hold
      exact howner
  | relinquish node_id lease =>
    simp only [C, leaderCell]
    rcases relinquish_cases ⟨lock_key, node_id, lock_ttl⟩ now lease keys with
      ⟨hkeys, ⟨e, he⟩ | ⟨-, hok⟩⟩ | ⟨record, hget, howner, -, heq⟩
    · left
      rw [← Prod.eta (relinquish _ _ _ _), he]
      exact ⟨hkeys, by simp⟩
    · left
      rw [← Prod.eta (relinquish _ _ _ _), hok]
      exact ⟨hkeys, by simp⟩
    · right; right
      rw [heq]
      exact ⟨⟨record, hget, howner⟩, rfl, rfl⟩

theorem leaderCell_lawful (lock_key : String) {lock_ttl lock_ttl_ms : Nat}
    (hwhole : lock_ttl = from_millis lock_ttl_ms) :
    Lawful (leaderCell lock_key lock_ttl) (LockSound (as_millis lock_ttl))
      fun _ => True where
  sound_run := by
    intro now call keys hs _
    rcases leaderCell_run lock_key lock_ttl now call keys with
      ⟨hkeys, -⟩ | ⟨record, fence, -, -, -, heq⟩ | ⟨-, -, hnone⟩
    · rw [hkeys]
      exact hs
    · rw [heq]
      rintro k ⟨⟩
      exact ⟨_, rfl, Nat.le_refl _⟩
    · intro k hk
      rw [hnone] at hk
      cases hk
  sound_later := by
    intro now later keys hs hle k hk
    obtain ⟨e, he, hbound⟩ := hs k hk
    exact ⟨e, he, by omega⟩
  holder_later := by
    intro now later keys token until_ms _ hholder _ hlt
    obtain ⟨k, hk, he, howner, -⟩ := lockHolder_eq_some.mp hholder
    exact lockHolder_eq_some.mpr ⟨k, hk, he, howner, hlt⟩
  holder_le := by
    intro now keys token until_ms hs hholder
    obtain ⟨k, hk, he, -, -⟩ := lockHolder_eq_some.mp hholder
    obtain ⟨e, he', hbound⟩ := hs k hk
    rw [he] at he'
    cases he'
    exact hbound
  holder_accepted := by
    intro now call keys ttl _ _ haccepted
    rcases leaderCell_run lock_key lock_ttl now call keys with
      ⟨-, hno⟩ | ⟨record, fence, hpos, howner, -, heq⟩ | ⟨-, hclosed, -⟩
    · exact absurd haccepted (hno ttl)
    · rw [heq] at haccepted ⊢
      cases haccepted
      constructor
      · simp only [leaderCell, hwhole, as_millis_from_millis]
        simp only [from_millis, NANOS_PER_MILLI]
      · have hlt := Nat.lt_add_of_pos_right (n := now) hpos
        have hholder : (leaderCell lock_key lock_ttl).holder = lockHolder := rfl
        rw [hholder]
        exact lockHolder_eq_some.mpr ⟨⟨record, some _⟩, rfl, rfl, howner, hlt⟩
    · rw [hclosed] at haccepted
      cases haccepted
  holder_kept := by
    intro now call keys token until_ms _ hholder hother
    obtain ⟨record, hget, howner⟩ := get_of_lockHolder hholder
    rcases leaderCell_run lock_key lock_ttl now call keys with
      ⟨hkeys, -⟩ | ⟨_, _, _, _, honly, heq⟩ | ⟨⟨old, hold, hactor⟩, hclosed, -⟩
    · rw [hkeys]
      exact hholder
    · rw [heq, ← honly record hget, howner] at hother
      simp at hother
    · rw [hget] at hold
      cases hold
      rw [hclosed, ← hactor, howner] at hother
      simp at hother

/-- Nodes with local deadlines on the lock. -/
def leaderSystem (lock_key : String) (lock_ttl renew_interval : Nat) :
    System (timed_leases.World LeaderKeys LeaderCall) (timed_leases.Event LeaderCall) :=
  timedSystem (leaderCell lock_key lock_ttl) (·.lock = none) (fun _ => True)
    fun started ttl => conservative_lease_deadline started ttl renew_interval

end pulse.leader_lock

namespace pulse.service

open pulse.execution_lease pulse.leader_lock

/-! ## The law -/

/-- Before its local deadline, a worker or leader that did not complete, release or relinquish has
a live lease in Redis, and it is the only one. The lease times of executions are below 10^14. -/
theorem locally_valid_leases_are_live :
    (∀ (store : RedisIdempotencyStore) (claim : ExecutionClaim) (ttl_ms renew_interval : Nat),
      store.lease_ttl = from_millis ttl_ms → from_millis 1 ≤ renew_interval →
      ∀ w, Reachable (executionSystem store claim renew_interval lua.FIRST_SCIENTIFIC) w →
        (∀ token, Valid w token → ∃ record, get w.now_ms w.cell = some record ∧
          record.state = .running ∧ record.owner = token ∧
          w.now_ms < number record.lease_until) ∧
        ∀ a b, Valid w a → Valid w b → a = b) ∧
    (∀ (lock_key : String) (lock_ttl_ms renew_interval : Nat),
      from_millis 1 ≤ renew_interval →
      ∀ w, Reachable (leaderSystem lock_key (from_millis lock_ttl_ms) renew_interval) w →
        (∀ token, Valid w token → ∃ k e, w.cell.lock = some k ∧ k.value.owner = token ∧
          k.expires_at = some e ∧ w.now_ms < e) ∧
        ∀ a b, Valid w a → Valid w b → a = b) := by
  constructor
  · intro store claim ttl_ms renew_interval hwhole hreserve w hw
    have hlaw := executionCell_lawful claim hwhole
    have hconservative := deadline_conservative (executionCell store claim) hreserve
    have hempty : ∀ now key, key = none → ExecutionSound store now key := by
      rintro now key rfl k ⟨⟩
    refine ⟨?_, fun a b => one_token_before_deadline hlaw hconservative hempty hw⟩
    intro token hvalid
    obtain ⟨until_ms, hholder⟩ := holder_before_deadline hlaw hconservative hempty hw hvalid
    obtain ⟨record, hget, hstate, howner, rfl, hlt⟩ := executionHolder_eq_some.mp hholder
    exact ⟨record, hget, hstate, howner, hlt⟩
  · intro lock_key lock_ttl_ms renew_interval hreserve w hw
    have hlaw := leaderCell_lawful lock_key (rfl : from_millis lock_ttl_ms = _)
    have hconservative :=
      deadline_conservative (leaderCell lock_key (from_millis lock_ttl_ms)) hreserve
    have hempty : ∀ now keys, keys.lock = none →
        LockSound (as_millis (from_millis lock_ttl_ms)) now keys := by
      intro now keys hnone k hk
      rw [hnone] at hk
      cases hk
    refine ⟨?_, fun a b => one_token_before_deadline hlaw hconservative hempty hw⟩
    intro token hvalid
    obtain ⟨until_ms, hholder⟩ := holder_before_deadline hlaw hconservative hempty hw hvalid
    obtain ⟨k, hk, he, howner, hlt⟩ := lockHolder_eq_some.mp hholder
    exact ⟨k, until_ms, hk, howner, he, hlt⟩

/-- A worker with the default times, between its claim and its deadline. -/
theorem locally_valid_leases_are_live_after_claim :
    let store : RedisIdempotencyStore := ⟨from_millis 30000, from_millis 86400000⟩
    let claim : ExecutionClaim := ⟨"run-1:slice-0-of-1", 0⟩
    let S := executionSystem store claim (from_millis 10000) lua.FIRST_SCIENTIFIC
    let w := [timed_leases.Event.send (.claim "a"), .tick 3000000,
      .execute ⟨.claim "a", 7⟩, .tick 4000000,
      .answer ⟨.claim "a", 7⟩ (from_millis 30000), .tick 19000000000].foldl S.next
        ⟨0, 5000000000, fun _ => 7, none, [], [], [], []⟩
    Valid w "a" ∧ ∃ record, get w.now_ms w.cell = some record ∧ record.owner = "a" ∧
      w.now_ms < number record.lease_until := by
  intro store claim S w
  have hvalid : Valid w "a" :=
    ⟨by decide +kernel, 20000000007, by decide +kernel, by decide +kernel⟩
  have hw : Reachable S w := by
    refine (Reachable.initial (S := S) ⟨rfl, rfl, rfl, rfl⟩).foldl ?_
    refine ⟨trivial, trivial, ⟨List.mem_cons_self, ?_⟩, trivial, ?_, trivial, trivial⟩
    · decide +kernel
    · change _ ∈ timed_leases.World.accepted _
      decide +kernel
  obtain ⟨record, hget, -, howner, hlt⟩ :=
    (locally_valid_leases_are_live.1 store claim 30000 _ rfl (by decide) w hw).1 "a" hvalid
  exact ⟨hvalid, record, hget, howner, hlt⟩

/-- At later times `%.14g` drops digits of `lease_until`: a lease of 10 ms that was claimed at
10^14 + 4 runs out at 10^14 + 10, 3 ms before the deadline of its worker, and a second worker
gets it. -/
theorem two_valid_leases_of_one_execution :
    let store : RedisIdempotencyStore := ⟨from_millis 10, from_millis 86400000⟩
    let claim : ExecutionClaim := ⟨"run-1:slice-0-of-1", 0⟩
    let S := executionSystem store claim (from_millis 1) lua.MAX_EXACT
    ∃ w, Reachable S w ∧ Valid w "a" ∧ Valid w "b" ∧
      ∀ record, get w.now_ms w.cell = some record → record.owner ≠ "a" := by
  intro store claim S
  let w₀ : timed_leases.World ExecutionKey ExecutionCall :=
    ⟨0, (100000000000000 + 4) * 1000000, fun _ => 0, none, [], [], [], []⟩
  let w := [timed_leases.Event.send (.claim "a"), .execute ⟨.claim "a", 0⟩,
    .answer ⟨.claim "a", 0⟩ (from_millis 10), .tick 7000000, .send (.claim "b"),
    .execute ⟨.claim "b", 7000000⟩, .answer ⟨.claim "b", 7000000⟩ (from_millis 10)].foldl
      S.next w₀
  have hw : Reachable S w := by
    refine (Reachable.initial (S := S) ⟨rfl, rfl, rfl, rfl⟩).foldl ?_
    refine ⟨trivial, ⟨List.mem_cons_self, ?_⟩, ?_, trivial, trivial, ⟨?_, ?_⟩, ?_, trivial⟩
    · decide +kernel
    · change _ ∈ timed_leases.World.accepted _
      decide +kernel
    · decide +kernel
    · decide +kernel
    · change _ ∈ timed_leases.World.accepted _
      decide +kernel
  refine ⟨w, hw, ⟨by decide +kernel, 9000000, by decide +kernel, by decide +kernel⟩,
    ⟨by decide +kernel, 16000000, by decide +kernel, by decide +kernel⟩, ?_⟩
  have howner : (get w.now_ms w.cell).map (·.owner) = some "b" := by decide +kernel
  intro record hget
  rw [hget] at howner
  simp only [Option.map_some, Option.some.injEq] at howner
  rw [howner]
  decide

end pulse.service
