-- The execution leases of the workers: one Redis record for each
-- (execution key, attempt), and the scripts `claim`, `renew`, `complete` and
-- `release` that change it. A script runs alone, at one Redis time.
import Pulse.Durations
import Pulse.Keyspace
import Pulse.LuaNumbers
import Pulse.Strings

open durations Duration keyspace strings

namespace pulse.coordination

/-- A coordination failure. Each names the operation that failed. -/
inductive CoordinationError
  | Unavailable (operation message : String)
  | Timeout (operation : String)
  | InvalidState (operation message : String)
  | StaleOwner (operation : String)
deriving DecidableEq, Repr

inductive TerminalOutcome
  | ResultPublished
  | RetryPublished
  | DeadLetterPublished
deriving DecidableEq, Repr

structure CompletedOutcome where
  outcome : TerminalOutcome
  completed_at_unix_ms : Nat
deriving DecidableEq, Repr

structure ExecutionClaim where
  execution_key : String
  attempt : Nat
deriving DecidableEq, Repr

structure ExecutionLease where
  execution_key : String
  attempt : Nat
  owner_token : String
  expires_at_unix_ms : Nat
  ttl : Nat
  recovered : Bool
deriving DecidableEq, Repr

inductive ClaimOutcome
  | Acquired (lease : ExecutionLease)
  | AlreadyCompleted (completed : CompletedOutcome)
  | Busy (retry_after : Nat)
deriving DecidableEq, Repr

inductive ReleaseOutcome
  | Released
  | AlreadyAbsent
deriving DecidableEq, Repr

/-- The milliseconds of a duration that Redis can take: at least one, and an `i64`. -/
def duration_ms (operation : String) (duration : Nat) : Except CoordinationError Nat :=
  let millis := as_millis duration
  if millis = 0 then
    .error (.InvalidState operation "duration must be at least one millisecond")
  else if millis < 2 ^ 63 then .ok millis
  else .error (.InvalidState operation "duration exceeds Redis integer range")

theorem duration_ms_eq_ok {operation : String} {d m : Nat} :
    duration_ms operation d = .ok m ↔ m = as_millis d ∧ 0 < m ∧ m < 2 ^ 63 := by
  unfold duration_ms
  dsimp only
  split
  · rename_i h0
    simp only [reduceCtorEq, false_iff]
    omega
  · split
    · rename_i hlt
      simp only [Except.ok.injEq]
      omega
    · simp only [reduceCtorEq, false_iff]
      omega

end pulse.coordination

namespace pulse.execution_lease

open pulse.coordination

/-! ## The record -/

/-- The `state` field of a record. `other` stands for a text that no script writes. -/
inductive RecordState
  | running
  | terminal (outcome : TerminalOutcome)
  | other (text : String)
deriving DecidableEq, Repr

/-- The hash of one execution. `complete` deletes `lease_until`; `recovered_at` and
`completed_at` are written later than the rest. -/
structure ExecutionRecord where
  state : RecordState
  owner : String
  execution_key : String
  attempt : Nat
  lease_until : Option lua.Text
  recovery_count : Nat
  recovered_at : Option lua.Text
  completed_at : Option lua.Text
deriving DecidableEq, Repr

/-- `tonumber(redis.call('HGET', KEYS[1], field) or '0')`. -/
def number (field : Option lua.Text) : Nat := (field.map lua.tonumber).getD 0

/-- The key of one execution, when it is set. -/
abbrev ExecutionKey := Option (Key ExecutionRecord)

structure RedisIdempotencyStore where
  lease_ttl : Nat
  terminal_ttl : Nat
deriving DecidableEq, Repr

namespace RedisIdempotencyStore

def running_retention (store : RedisIdempotencyStore) : Nat :=
  max store.terminal_ttl (saturating_mul store.lease_ttl 4)

/-! ## The scripts -/

def claim_script (now_ms lease_ttl_ms retention_ms : Nat) (owner_token : String)
    (claim : ExecutionClaim) (ttl : Nat) (key : ExecutionKey) :
    Except CoordinationError ClaimOutcome × ExecutionKey :=
  let lease_until := now_ms + lease_ttl_ms
  let lease (recovered : Bool) : ExecutionLease :=
    { execution_key := claim.execution_key, attempt := claim.attempt, owner_token,
      expires_at_unix_ms := lease_until, ttl, recovered }
  match get now_ms key with
  | none =>
    (.ok (.Acquired (lease false)),
      some ⟨{ state := .running, owner := owner_token, execution_key := claim.execution_key,
              attempt := claim.attempt, lease_until := some (lua.tostring lease_until),
              recovery_count := 0, recovered_at := none, completed_at := none },
        some (now_ms + retention_ms)⟩)
  | some record =>
    if record.execution_key ≠ claim.execution_key ∨ record.attempt ≠ claim.attempt then
      (.error (.InvalidState "execution_claim" "execution identity does not match record"), key)
    else
      match record.state with
      | .terminal outcome =>
        (.ok (.AlreadyCompleted ⟨outcome, number record.completed_at⟩), key)
      | .other _ => (.error (.InvalidState "execution_claim" "execution state is unknown"), key)
      | .running =>
        let current_until := number record.lease_until
        if current_until ≤ now_ms then
          (.ok (.Acquired (lease true)), some ⟨{ record with
                    owner := owner_token
                    lease_until := some (lua.tostring lease_until)
                    recovered_at := some (lua.tostring now_ms)
                    recovery_count := record.recovery_count + 1 }, some (now_ms + retention_ms)⟩)
        else (.ok (.Busy (from_millis (current_until - now_ms))), key)

/-- `claim` with the fresh `owner_token` that it makes. -/
def claim (store : RedisIdempotencyStore) (now_ms : Nat) (owner_token : String)
    (claim : ExecutionClaim) (key : ExecutionKey) :
    Except CoordinationError ClaimOutcome × ExecutionKey :=
  if is_blank claim.execution_key then
    (.error (.InvalidState "execution_claim" "execution key must not be empty"), key)
  else
    match duration_ms "execution_claim" store.lease_ttl,
        duration_ms "execution_claim" store.running_retention with
    | .ok lease_ttl_ms, .ok retention_ms =>
      claim_script now_ms lease_ttl_ms retention_ms owner_token claim store.lease_ttl key
    | .error error, _ => (.error error, key)
    | _, .error error => (.error error, key)

def renew_script (now_ms lease_ttl_ms retention_ms : Nat) (lease : ExecutionLease)
    (ttl : Nat) (key : ExecutionKey) :
    Except CoordinationError ExecutionLease × ExecutionKey :=
  match get now_ms key with
  | none => (.error (.StaleOwner "execution_renew"), key)
  | some record =>
    if record.execution_key ≠ lease.execution_key ∨ record.attempt ≠ lease.attempt then
      (.error (.InvalidState "execution_renew" "execution identity does not match record"), key)
    else if record.state ≠ .running then
      (.error (.InvalidState "execution_renew" "execution is no longer running"), key)
    else if record.owner ≠ lease.owner_token then (.error (.StaleOwner "execution_renew"), key)
    else if number record.lease_until ≤ now_ms then (.error (.StaleOwner "execution_renew"), key)
    else
      let lease_until := now_ms + lease_ttl_ms
      (.ok { lease with expires_at_unix_ms := lease_until, ttl },
        some ⟨{ record with lease_until := some (lua.tostring lease_until) },
          some (now_ms + retention_ms)⟩)

def renew (store : RedisIdempotencyStore) (now_ms : Nat) (lease : ExecutionLease)
    (key : ExecutionKey) : Except CoordinationError ExecutionLease × ExecutionKey :=
  match duration_ms "execution_renew" store.lease_ttl,
      duration_ms "execution_renew" store.running_retention with
  | .ok lease_ttl_ms, .ok retention_ms =>
    renew_script now_ms lease_ttl_ms retention_ms lease store.lease_ttl key
  | .error error, _ => (.error error, key)
  | _, .error error => (.error error, key)

def complete_script (now_ms terminal_ttl_ms : Nat) (lease : ExecutionLease)
    (outcome : TerminalOutcome) (key : ExecutionKey) :
    Except CoordinationError CompletedOutcome × ExecutionKey :=
  match get now_ms key with
  | none => (.error (.StaleOwner "execution_complete"), key)
  | some record =>
    if record.execution_key ≠ lease.execution_key ∨ record.attempt ≠ lease.attempt then
      (.error (.InvalidState "execution_complete" "execution identity does not match record"), key)
    else if record.owner ≠ lease.owner_token then (.error (.StaleOwner "execution_complete"), key)
    else
      match record.state with
      | .terminal stored =>
        if stored ≠ outcome then
          (.error (.InvalidState "execution_complete"
            "execution already has a different terminal outcome"), key)
        else (.ok ⟨outcome, number record.completed_at⟩, key)
      | .other _ => (.error (.InvalidState "execution_complete" "execution state is unknown"), key)
      | .running =>
        if number record.lease_until ≤ now_ms then
          (.error (.StaleOwner "execution_complete"), key)
        else
          (.ok ⟨outcome, now_ms⟩, some ⟨{ record with
                    state := .terminal outcome
                    completed_at := some (lua.tostring now_ms)
                    lease_until := none }, some (now_ms + terminal_ttl_ms)⟩)

def complete (store : RedisIdempotencyStore) (now_ms : Nat) (lease : ExecutionLease)
    (outcome : TerminalOutcome) (key : ExecutionKey) :
    Except CoordinationError CompletedOutcome × ExecutionKey :=
  match duration_ms "execution_complete" store.terminal_ttl with
  | .ok terminal_ttl_ms => complete_script now_ms terminal_ttl_ms lease outcome key
  | .error error => (.error error, key)

def release (now_ms : Nat) (lease : ExecutionLease) (key : ExecutionKey) :
    Except CoordinationError ReleaseOutcome × ExecutionKey :=
  match get now_ms key with
  | none => (.ok .AlreadyAbsent, key)
  | some record =>
    if record.execution_key ≠ lease.execution_key ∨ record.attempt ≠ lease.attempt then
      (.error (.InvalidState "execution_release" "execution identity does not match record"), key)
    else if record.state ≠ .running then
      (.error (.InvalidState "execution_release" "execution is no longer running"), key)
    else if record.owner ≠ lease.owner_token then (.error (.StaleOwner "execution_release"), key)
    else if number record.lease_until ≤ now_ms then
      (.error (.StaleOwner "execution_release"), key)
    else (.ok .Released, none)

/-! ## What each operation can do -/

variable {store : RedisIdempotencyStore} {now : Nat} {key : ExecutionKey}

/-- The record belongs to this claim. -/
def Identifies (record : ExecutionRecord) (execution_key : String) (attempt : Nat) : Prop :=
  record.execution_key = execution_key ∧ record.attempt = attempt

/-- The two times that `claim` and `renew` send. -/
def Timings (store : RedisIdempotencyStore) (lease_ms retention_ms : Nat) : Prop :=
  duration_ms "execution_claim" store.lease_ttl = .ok lease_ms ∧
    duration_ms "execution_claim" store.running_retention = .ok retention_ms

/-- A claim may take the record: it is not there, or its lease has run out. -/
def Claimable (now : Nat) (key : ExecutionKey) : Prop :=
  get now key = none ∨
    ∃ old, get now key = some old ∧ old.state = .running ∧ number old.lease_until ≤ now

/-- The record is running under the token, and its lease has not run out. -/
structure Holds (now : Nat) (key : ExecutionKey) (lease : ExecutionLease) (old : ExecutionRecord) :
    Prop where
  present : get now key = some old
  identity : Identifies old lease.execution_key lease.attempt
  running : old.state = .running
  owner : old.owner = lease.owner_token
  unexpired : now < number old.lease_until

theorem claim_cases (store : RedisIdempotencyStore) (now : Nat) (key : ExecutionKey)
    (token : String) (claim : ExecutionClaim) :
    ((store.claim now token claim key).2 = key ∧
      ∀ lease, (store.claim now token claim key).1 ≠ .ok (.Acquired lease)) ∨
    ∃ lease_ms retention_ms recovered record, Timings store lease_ms retention_ms ∧
      is_blank claim.execution_key = false ∧ Claimable now key ∧
      store.claim now token claim key =
        (.ok (.Acquired ⟨claim.execution_key, claim.attempt, token, now + lease_ms, store.lease_ttl,
          recovered⟩), some ⟨record, some (now + retention_ms)⟩) ∧
      Identifies record claim.execution_key claim.attempt ∧ record.state = .running ∧
      record.owner = token ∧ record.lease_until = some (lua.tostring (now + lease_ms)) := by
  unfold RedisIdempotencyStore.claim
  split
  · left; simp
  rename_i hnonblank
  have hblank : is_blank claim.execution_key = false := by simpa using hnonblank
  split
  · rename_i lease_ms retention_ms hlease hretention
    unfold claim_script
    split
    · rename_i hget
      right
      exact ⟨lease_ms, retention_ms, false, _, ⟨hlease, hretention⟩, hblank, .inl hget, rfl,
        ⟨rfl, rfl⟩, rfl, rfl, rfl⟩
    · rename_i record hget
      split
      · left; simp
      · rename_i hid
        rw [not_or, not_not, not_not] at hid
        split
        · left; simp
        · left; simp
        · rename_i hrunning
          dsimp only
          split
          · rename_i hexpired
            right
            exact ⟨lease_ms, retention_ms, true, _, ⟨hlease, hretention⟩, hblank,
              .inr ⟨record, hget, hrunning, hexpired⟩, rfl, hid, hrunning, rfl, rfl⟩
          · left; simp
  · left; simp
  · left; simp

variable {lease_ms retention_ms : Nat}

/-- The operation is only a name in the errors of `duration_ms`. -/
theorem timings_of_renew (hl : duration_ms "execution_renew" store.lease_ttl = .ok lease_ms)
    (hr : duration_ms "execution_renew" store.running_retention = .ok retention_ms) :
    Timings store lease_ms retention_ms :=
  ⟨duration_ms_eq_ok.mpr (duration_ms_eq_ok.mp hl), duration_ms_eq_ok.mpr (duration_ms_eq_ok.mp hr)⟩

theorem renew_cases (store : RedisIdempotencyStore) (now : Nat) (key : ExecutionKey)
    (lease : ExecutionLease) :
    ((store.renew now lease key).2 = key ∧ ∃ e, (store.renew now lease key).1 = .error e) ∨
    ∃ lease_ms retention_ms old, Timings store lease_ms retention_ms ∧ Holds now key lease old ∧
      store.renew now lease key =
        (.ok { lease with expires_at_unix_ms := now + lease_ms, ttl := store.lease_ttl },
          some ⟨{ old with lease_until := some (lua.tostring (now + lease_ms)) },
            some (now + retention_ms)⟩) := by
  unfold renew
  split
  · rename_i lease_ms retention_ms hlease hretention
    unfold renew_script
    split
    · left; simp
    · rename_i old hget
      split
      · left; simp
      rename_i hid
      rw [not_or, not_not, not_not] at hid
      split
      · left; simp
      rename_i hrunning
      split
      · left; simp
      rename_i howner
      split
      · left; simp
      rename_i hexpired
      right
      exact ⟨lease_ms, retention_ms, old, timings_of_renew hlease hretention,
        ⟨hget, hid, not_not.mp hrunning, not_not.mp howner, Nat.not_le.mp hexpired⟩, rfl⟩
  · left; simp
  · left; simp

theorem complete_cases (store : RedisIdempotencyStore) (now : Nat) (key : ExecutionKey)
    (lease : ExecutionLease) (outcome : TerminalOutcome) :
    ((store.complete now lease outcome key).2 = key ∧
      ∃ e, (store.complete now lease outcome key).1 = .error e) ∨
    (∃ old, get now key = some old ∧ old.owner = lease.owner_token ∧ old.state = .terminal outcome ∧
      store.complete now lease outcome key = (.ok ⟨outcome, number old.completed_at⟩, key)) ∨
    ∃ terminal_ms old, duration_ms "execution_complete" store.terminal_ttl = .ok terminal_ms ∧
      Holds now key lease old ∧
      store.complete now lease outcome key =
        (.ok ⟨outcome, now⟩, some ⟨{ old with
                  state := .terminal outcome
                  completed_at := some (lua.tostring now)
                  lease_until := none }, some (now + terminal_ms)⟩) := by
  unfold complete
  split
  · rename_i terminal_ms hterminal
    unfold complete_script
    split
    · left; simp
    rename_i old hget
    split
    · left; simp
    rename_i hid
    rw [not_or, not_not, not_not] at hid
    split
    · left; simp
    rename_i howner
    have howner := not_not.mp howner
    split
    · rename_i stored hstate
      split
      · left; simp
      · rename_i hsame
        have hsame := not_not.mp hsame
        subst hsame
        right; left
        exact ⟨old, hget, howner, hstate, rfl⟩
    · left; simp
    · rename_i hrunning
      split
      · left; simp
      · rename_i hexpired
        right; right
        exact ⟨terminal_ms, old, hterminal,
          ⟨hget, hid, hrunning, howner, Nat.not_le.mp hexpired⟩, rfl⟩
  · left; simp

theorem release_cases (now : Nat) (key : ExecutionKey) (lease : ExecutionLease) :
    ((release now lease key).2 = key ∧ ((∃ e, (release now lease key).1 = .error e) ∨
        (release now lease key).1 = .ok .AlreadyAbsent)) ∨
    ∃ old, Holds now key lease old ∧ release now lease key = (.ok .Released, none) := by
  unfold release
  split
  · left; simp
  rename_i old hget
  split
  · left; simp
  rename_i hid
  rw [not_or, not_not, not_not] at hid
  split
  · left; simp
  rename_i hrunning
  split
  · left; simp
  rename_i howner
  split
  · left; simp
  rename_i hexpired
  right
  exact ⟨old, ⟨hget, hid, not_not.mp hrunning, not_not.mp howner, Nat.not_le.mp hexpired⟩, rfl⟩

/-- A claim of a record that another token holds waits for its lease to run out. -/
theorem claim_busy {token : String} {claim : ExecutionClaim} {record : ExecutionRecord}
    (htimings : Timings store lease_ms retention_ms) (hblank : is_blank claim.execution_key = false)
    (hget : get now key = some record) (hid : Identifies record claim.execution_key claim.attempt)
    (hstate : record.state = .running) (hlive : now < number record.lease_until) :
    store.claim now token claim key =
      (.ok (.Busy (from_millis (number record.lease_until - now))), key) := by
  simp [RedisIdempotencyStore.claim, hblank, htimings.1, htimings.2, claim_script, hget, hid.1,
    hid.2, hstate, Nat.not_le.mpr hlive]

/-- A claim of a finished record reads its outcome. -/
theorem claim_completed {token : String} {claim : ExecutionClaim} {record : ExecutionRecord}
    {outcome : TerminalOutcome} (htimings : Timings store lease_ms retention_ms)
    (hblank : is_blank claim.execution_key = false) (hget : get now key = some record)
    (hid : Identifies record claim.execution_key claim.attempt)
    (hstate : record.state = .terminal outcome) :
    store.claim now token claim key =
      (.ok (.AlreadyCompleted ⟨outcome, number record.completed_at⟩), key) := by
  simp [RedisIdempotencyStore.claim, hblank, htimings.1, htimings.2, claim_script, hget, hid.1,
    hid.2, hstate]

end RedisIdempotencyStore

end pulse.execution_lease
