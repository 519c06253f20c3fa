-- The leader lock: one Redis record that the leader renews, and a counter
-- that numbers the leaders. Another node gets the lock when the record has
-- expired or the leader gave it up.
import Pulse.ExecutionLease

open durations keyspace
open pulse.coordination

namespace pulse.leader_lock

/-! ## The record -/

structure LeaderRecord where
  owner : String
  node_id : String
  fence : lua.Text
deriving DecidableEq, Repr

/-- The lock and the counter of the fences. -/
structure LeaderKeys where
  lock : Option (Key LeaderRecord)
  fence : Nat
deriving DecidableEq, Repr

structure LeaderLease where
  lock_key : String
  node_id : String
  owner_token : String
  fencing_token : Nat
  expires_at_unix_ms : Nat
  ttl : Nat
deriving DecidableEq, Repr

inductive LeadershipOutcome
  | Acquired (lease : LeaderLease)
  | Renewed (lease : LeaderLease)
  | Follower (retry_after : Nat)
deriving DecidableEq, Repr

structure RedisLeaderElector where
  lock_key : String
  node_id : String
  lock_ttl : Nat
deriving DecidableEq, Repr

namespace RedisLeaderElector

/-! ## The scripts -/

def owner_token (elector : RedisLeaderElector) (uuid : String) : String :=
  elector.node_id ++ ":" ++ uuid

/-- `acquire` with the fresh `uuid` that it makes. -/
def acquire (elector : RedisLeaderElector) (now_ms : Nat) (uuid : String) (keys : LeaderKeys) :
    Except CoordinationError LeadershipOutcome × LeaderKeys :=
  match duration_ms "leader_acquire" elector.lock_ttl with
  | .error error => (.error error, keys)
  | .ok ttl_ms =>
    match get now_ms keys.lock with
    | none =>
      let fence := keys.fence + 1
      (.ok (.Acquired
          { lock_key := elector.lock_key, node_id := elector.node_id,
            owner_token := elector.owner_token uuid, fencing_token := fence,
            expires_at_unix_ms := now_ms + ttl_ms, ttl := elector.lock_ttl }),
        { lock := some ⟨⟨elector.owner_token uuid, elector.node_id, lua.tostring fence⟩,
            some (now_ms + ttl_ms)⟩
          fence })
    | some _ =>
      match keys.lock.bind (·.expires_at) with
      | none => (.error (.InvalidState "leader_acquire" "leader record has no expiry"), keys)
      | some e => (.ok (.Follower (Duration.from_millis (e - now_ms))), keys)

/-- The lock is there under the owner and the fence of the lease. -/
def is_held_by (now_ms : Nat) (keys : LeaderKeys) (lease : LeaderLease) : Bool :=
  (get now_ms keys.lock).any fun record =>
    record.owner = lease.owner_token && record.fence = .decimal lease.fencing_token

def renew (elector : RedisLeaderElector) (now_ms : Nat) (current : LeaderLease)
    (keys : LeaderKeys) : Except CoordinationError LeadershipOutcome × LeaderKeys :=
  if current.lock_key ≠ elector.lock_key ∨ current.node_id ≠ elector.node_id then
    (.error (.InvalidState "leader_renew" "lease belongs to a different elector"), keys)
  else
    match duration_ms "leader_renew" elector.lock_ttl with
    | .error error => (.error error, keys)
    | .ok ttl_ms =>
      if 2 ^ 63 ≤ current.fencing_token then
        (.error (.InvalidState "leader_renew" "fencing token exceeds Redis integer range"), keys)
      else if is_held_by now_ms keys current then
        (.ok (.Renewed { current with
            expires_at_unix_ms := now_ms + ttl_ms
            ttl := elector.lock_ttl }),
          { keys with lock := keys.lock.map (pexpire now_ms ttl_ms) })
      else (.error (.StaleOwner "leader_renew"), keys)

def acquire_or_renew (elector : RedisLeaderElector) (now_ms : Nat) (uuid : String)
    (current : Option LeaderLease) (keys : LeaderKeys) :
    Except CoordinationError LeadershipOutcome × LeaderKeys :=
  match current with
  | some lease => elector.renew now_ms lease keys
  | none => elector.acquire now_ms uuid keys

def relinquish (elector : RedisLeaderElector) (now_ms : Nat) (lease : LeaderLease)
    (keys : LeaderKeys) : Except CoordinationError Unit × LeaderKeys :=
  if lease.lock_key ≠ elector.lock_key ∨ lease.node_id ≠ elector.node_id then
    (.error (.InvalidState "leader_relinquish" "lease belongs to a different elector"), keys)
  else if 2 ^ 63 ≤ lease.fencing_token then
    (.error (.InvalidState "leader_relinquish" "fencing token exceeds Redis integer range"), keys)
  else if get now_ms keys.lock = none then (.ok (), keys)
  else if is_held_by now_ms keys lease then (.ok (), { keys with lock := none })
  else (.error (.StaleOwner "leader_relinquish"), keys)

/-! ## What each operation can do -/

variable {elector : RedisLeaderElector} {now : Nat} {keys : LeaderKeys}

theorem is_held_by_iff {lease : LeaderLease} :
    is_held_by now keys lease = true ↔ ∃ record, get now keys.lock = some record ∧
      record.owner = lease.owner_token ∧ record.fence = .decimal lease.fencing_token := by
  simp [is_held_by, Option.any_eq_true]

theorem acquire_cases (elector : RedisLeaderElector) (now : Nat) (uuid : String)
    (keys : LeaderKeys) :
    ((elector.acquire now uuid keys).2 = keys ∧
      ((∃ e, (elector.acquire now uuid keys).1 = .error e) ∨
        ∃ retry_after, (elector.acquire now uuid keys).1 = .ok (.Follower retry_after))) ∨
    ∃ ttl_ms, duration_ms "leader_acquire" elector.lock_ttl = .ok ttl_ms ∧
      get now keys.lock = none ∧
      elector.acquire now uuid keys =
        (.ok (.Acquired ⟨elector.lock_key, elector.node_id, elector.owner_token uuid,
            keys.fence + 1, now + ttl_ms, elector.lock_ttl⟩),
          ⟨some ⟨⟨elector.owner_token uuid, elector.node_id, lua.tostring (keys.fence + 1)⟩,
            some (now + ttl_ms)⟩, keys.fence + 1⟩) := by
  unfold acquire
  split
  · left; simp
  · rename_i ttl_ms hms
    split
    · rename_i hnone
      right
      exact ⟨ttl_ms, hms, hnone, rfl⟩
    · left
      split <;> simp

theorem renew_cases (elector : RedisLeaderElector) (now : Nat) (current : LeaderLease)
    (keys : LeaderKeys) :
    ((elector.renew now current keys).2 = keys ∧
      ∃ e, (elector.renew now current keys).1 = .error e) ∨
    ∃ ttl_ms k, duration_ms "leader_renew" elector.lock_ttl = .ok ttl_ms ∧ keys.lock = some k ∧
      get now keys.lock = some k.value ∧ k.value.owner = current.owner_token ∧
      k.value.fence = .decimal current.fencing_token ∧
      elector.renew now current keys =
        (.ok (.Renewed { current with
            expires_at_unix_ms := now + ttl_ms
            ttl := elector.lock_ttl }),
          { keys with lock := some ⟨k.value, some (now + ttl_ms)⟩ }) := by
  unfold renew
  split
  · left; simp
  split
  · left; simp
  rename_i ttl_ms hms
  split
  · left; simp
  split
  · rename_i hheld
    obtain ⟨record, hget, howner, hfence⟩ := is_held_by_iff.mp hheld
    obtain ⟨k, hk, rfl, -⟩ := get_eq_some.mp hget
    right
    exact ⟨ttl_ms, k, hms, hk, hget, howner, hfence, by simp [hk, pexpire]⟩
  · left; simp

theorem relinquish_cases (elector : RedisLeaderElector) (now : Nat) (lease : LeaderLease)
    (keys : LeaderKeys) :
    ((elector.relinquish now lease keys).2 = keys ∧
      ((∃ e, (elector.relinquish now lease keys).1 = .error e) ∨
        (get now keys.lock = none ∧ (elector.relinquish now lease keys).1 = .ok ()))) ∨
    ∃ record, get now keys.lock = some record ∧ record.owner = lease.owner_token ∧
      record.fence = .decimal lease.fencing_token ∧
      elector.relinquish now lease keys = (.ok (), { keys with lock := none }) := by
  unfold relinquish
  split
  · left; simp
  split
  · left; simp
  split
  · rename_i hnone
    left; simp [hnone]
  split
  · rename_i hheld
    obtain ⟨record, hget, howner, hfence⟩ := is_held_by_iff.mp hheld
    right
    exact ⟨record, hget, howner, hfence, rfl⟩
  · left; simp

end RedisLeaderElector

end pulse.leader_lock
