-- The laws of the execution leases: one token holds a live lease, a lease
-- that is lost stays lost, and a finished record stays as it is until it
-- expires.
import Pulse.Config
import Pulse.ExecutionLease
import Pulse.Systems

open durations Duration keyspace strings systems
open pulse.config pulse.coordination

namespace pulse.execution_lease

open RedisIdempotencyStore

/-- The store that a node makes from its configuration. -/
def execution_store (config : AppConfig) : RedisIdempotencyStore :=
  ⟨config.execution_lease_ttl, config.execution_terminal_retention⟩

/-! ## The workers on one record -/

/-- The record of one execution, and what the scripts did for each token: the `lease_until` that
one last wrote for it, and whether it completed or released. -/
structure World where
  now : Nat
  key : ExecutionKey
  used : List String
  lease_until : String → Option Nat
  closed : List String

/-- A call of a worker, or some time. -/
inductive Event
  | tick (ms : Nat)
  | claim (token : String)
  | renew (lease : ExecutionLease)
  | complete (lease : ExecutionLease) (outcome : TerminalOutcome)
  | release (lease : ExecutionLease)

/-- The `lease_until` in the record. -/
def written (key : ExecutionKey) : Option Nat := key.map fun k => number k.value.lease_until

namespace World

/-- A script set the lease of the token. -/
def lease (w : World) (token : String) (key : ExecutionKey) : World :=
  { w with key, lease_until := Function.update w.lease_until token (written key) }

def next (store : RedisIdempotencyStore) (claim : ExecutionClaim) (w : World) : Event → World
  | .tick ms => { w with now := w.now + ms }
  | .claim token =>
    let w := { w with used := token :: w.used }
    match store.claim w.now token claim w.key with
    | (.ok (.Acquired _), key) => w.lease token key
    | (_, key) => { w with key }
  | .renew lease =>
    match store.renew w.now lease w.key with
    | (.ok _, key) => w.lease lease.owner_token key
    | (.error _, key) => { w with key }
  | .complete lease outcome =>
    match store.complete w.now lease outcome w.key with
    | (.ok _, key) => { w with key, closed := lease.owner_token :: w.closed }
    | (.error _, key) => { w with key }
  | .release lease =>
    match release w.now lease w.key with
    | (.ok .Released, key) => { w with key, closed := lease.owner_token :: w.closed }
    | (_, key) => { w with key }

end World

/-- A lease of this execution. Its record is the one at the key of the claim. -/
def LeaseOf (claim : ExecutionClaim) (lease : ExecutionLease) : Prop :=
  lease.execution_key = claim.execution_key ∧ lease.attempt = claim.attempt

/-- Any number of workers on one record. A claim makes a fresh token, and the Redis time stays
where the numbers of Lua are exact. -/
def leaseSystem (store : RedisIdempotencyStore) (claim : ExecutionClaim) : System World Event where
  initial w := w.now + as_millis store.lease_ttl ≤ lua.MAX_EXACT ∧ w.key = none ∧
    w.used = [] ∧ w.closed = [] ∧ ∀ token, w.lease_until token = none
  allowed w
    | .tick ms => w.now + ms + as_millis store.lease_ttl ≤ lua.MAX_EXACT
    | .claim token => token ∉ w.used
    | .renew lease => LeaseOf claim lease
    | .complete lease _ => LeaseOf claim lease
    | .release lease => LeaseOf claim lease
  next := .next store claim

/-! ## What an event can do -/

variable {store : RedisIdempotencyStore} {claim : ExecutionClaim} {w : World}

theorem next_claim (store : RedisIdempotencyStore) (claim : ExecutionClaim) (w : World)
    (token : String) :
    (w.next store claim (.claim token) = { w with used := token :: w.used }) ∨
    ∃ lease_ms retention_ms record, Timings store lease_ms retention_ms ∧
      is_blank claim.execution_key = false ∧ Claimable w.now w.key ∧
      Identifies record claim.execution_key claim.attempt ∧ record.state = .running ∧
      record.owner = token ∧ record.lease_until = some (lua.tostring (w.now + lease_ms)) ∧
      w.next store claim (.claim token) =
        { w with used := token :: w.used }.lease token
          (some ⟨record, some (w.now + retention_ms)⟩) := by
  simp only [World.next]
  rcases claim_cases store w.now w.key token claim with
    ⟨hkey, hno⟩ | ⟨lease_ms, retention_ms, recovered, record, ht, hb, hc, heq, hid, hs, ho, hu⟩
  · left
    split
    · rename_i lease key heq
      exact absurd (by rw [heq]) (hno lease)
    · rename_i heq
      rw [heq] at hkey
      simp only at hkey
      rw [hkey]
  · right
    refine ⟨lease_ms, retention_ms, record, ht, hb, hc, hid, hs, ho, hu, ?_⟩
    rw [heq]

theorem next_renew (store : RedisIdempotencyStore) (claim : ExecutionClaim) (w : World)
    (lease : ExecutionLease) :
    w.next store claim (.renew lease) = w ∨
    ∃ lease_ms retention_ms old, Timings store lease_ms retention_ms ∧
      Holds w.now w.key lease old ∧
      w.next store claim (.renew lease) = w.lease lease.owner_token
        (some ⟨{ old with lease_until := some (lua.tostring (w.now + lease_ms)) },
          some (w.now + retention_ms)⟩) := by
  simp only [World.next]
  rcases renew_cases store w.now w.key lease with
    ⟨hkey, e, he⟩ | ⟨lease_ms, retention_ms, old, ht, hh, heq⟩
  · left
    split
    · rename_i heq
      rw [heq] at he
      cases he
    · rename_i heq
      rw [heq] at hkey
      simp only at hkey
      rw [hkey]
  · right
    refine ⟨lease_ms, retention_ms, old, ht, hh, ?_⟩
    rw [heq]

theorem next_complete (store : RedisIdempotencyStore) (claim : ExecutionClaim) (w : World)
    (lease : ExecutionLease) (outcome : TerminalOutcome) :
    w.next store claim (.complete lease outcome) = w ∨
    (∃ old, get w.now w.key = some old ∧ old.owner = lease.owner_token ∧
      old.state = .terminal outcome ∧ w.next store claim (.complete lease outcome) =
        { w with closed := lease.owner_token :: w.closed }) ∨
    ∃ terminal_ms old, 0 < terminal_ms ∧ Holds w.now w.key lease old ∧
      w.next store claim (.complete lease outcome) =
        { w with
          key := some ⟨{ old with
                         state := .terminal outcome
                         completed_at := some (lua.tostring w.now)
                         lease_until := none }, some (w.now + terminal_ms)⟩
          closed := lease.owner_token :: w.closed } := by
  simp only [World.next]
  rcases complete_cases store w.now w.key lease outcome with
    ⟨hkey, e, he⟩ | ⟨old, hget, howner, hstate, heq⟩ | ⟨terminal_ms, old, ht, hh, heq⟩
  · left
    split
    · rename_i heq
      rw [heq] at he
      cases he
    · rename_i heq
      rw [heq] at hkey
      simp only at hkey
      rw [hkey]
  · right; left
    exact ⟨old, hget, howner, hstate, by rw [heq]⟩
  · right; right
    exact ⟨terminal_ms, old, (duration_ms_eq_ok.mp ht).2.1, hh, by rw [heq]⟩

theorem next_release (store : RedisIdempotencyStore) (claim : ExecutionClaim) (w : World)
    (lease : ExecutionLease) :
    w.next store claim (.release lease) = w ∨
    ∃ old, Holds w.now w.key lease old ∧
      w.next store claim (.release lease) =
        { w with key := none, closed := lease.owner_token :: w.closed } := by
  simp only [World.next]
  rcases release_cases w.now w.key lease with ⟨hkey, hres⟩ | ⟨old, hh, heq⟩
  · left
    split
    · rename_i heq
      rw [heq] at hres
      simp at hres
    · rename_i heq
      rw [heq] at hkey
      simp only at hkey
      rw [hkey]
  · right
    exact ⟨old, hh, by rw [heq]⟩

/-! ## The invariant -/

/-- The key of a running record outlives its lease, also when `%.14g` rounds the lease up. -/
def Outlives (store : RedisIdempotencyStore) : Prop :=
  ∀ lease_ms retention_ms, Timings store lease_ms retention_ms → lease_ms + 50 ≤ retention_ms

theorem execution_store_outlives {parsers : Parsers} {config : AppConfig}
    (h : config.validate parsers = .ok ()) : Outlives (execution_store config) := by
  intro lease_ms retention_ms ht
  have hterminal := (AppConfig.lease_ttls_cover_renewals h).2.2
  have hmargin := AppConfig.poll_interval_covers_deliveries h
  obtain ⟨hlease, -, hlt⟩ := duration_ms_eq_ok.mp ht.1
  obtain ⟨hretention, -, -⟩ := duration_ms_eq_ok.mp ht.2
  simp only [running_retention, execution_store, saturating_mul, as_millis,
    Duration.MAX, NANOS_PER_MILLI, KAFKA_POLL_SAFETY_MARGIN, from_secs] at *
  omega

structure Good (store : RedisIdempotencyStore) (claim : ExecutionClaim) (w : World) : Prop where
  identity : ∀ k, w.key = some k → Identifies k.value claim.execution_key claim.attempt
  usable : ∀ k, w.key = some k → is_blank claim.execution_key = false ∧
    ∃ lease_ms retention_ms, Timings store lease_ms retention_ms
  /-- A running record expires after its lease, and its owner knows the lease. -/
  running : ∀ k, w.key = some k → k.value.state = .running →
    w.lease_until k.value.owner = some (number k.value.lease_until) ∧
      ∃ e, k.expires_at = some e ∧ number k.value.lease_until ≤ e
  used : ∀ token lease_until, w.lease_until token = some lease_until → token ∈ w.used
  /-- A lease that has neither run out nor been given up is the one in the record. -/
  live : ∀ token lease_until, w.lease_until token = some lease_until → w.now < lease_until →
    token ∉ w.closed → ∃ k, w.key = some k ∧ k.value.owner = token ∧ k.value.state = .running

variable {old record : ExecutionRecord}

theorem get_of_holds {lease : ExecutionLease} (h : Holds w.now w.key lease old) :
    ∃ k, w.key = some k ∧ k.value = old := by
  obtain ⟨k, hk, hv, -⟩ := get_eq_some.mp h.present
  exact ⟨k, hk, hv⟩

variable {token : String}

/-- While a lease is live, the record is there for every script. -/
theorem Good.present (hg : Good store claim w) {lease_until : Nat}
    (hl : w.lease_until token = some lease_until) (hlive : w.now < lease_until)
    (hc : token ∉ w.closed) :
    ∃ record, get w.now w.key = some record ∧ record.owner = token ∧ record.state = .running ∧
      number record.lease_until = lease_until := by
  obtain ⟨k, hk, howner, hstate⟩ := hg.live token lease_until hl hlive hc
  obtain ⟨hwritten, e, he, hle⟩ := hg.running k hk hstate
  rw [howner, hl] at hwritten
  have hsame : lease_until = number k.value.lease_until := Option.some.inj hwritten
  refine ⟨k.value, ?_, howner, hstate, hsame.symm⟩
  refine get_eq_some.mpr ⟨k, hk, rfl, ?_⟩
  intro e' he'
  rw [he] at he'
  cases he'
  omega

/-- The owner of a held record is the only token with a live lease. -/
theorem Good.live_is_holder (hg : Good store claim w) {lease : ExecutionLease}
    (hh : Holds w.now w.key lease old) {lease_until : Nat}
    (hl : w.lease_until token = some lease_until) (hlive : w.now < lease_until)
    (hc : token ∉ w.closed) : token = lease.owner_token := by
  obtain ⟨record, hget, howner, -, -⟩ := hg.present hl hlive hc
  rw [hh.present] at hget
  cases hget
  rw [← howner, hh.owner]

/-- A script that writes a running record with a new lease keeps the invariant, when no other
lease is live. -/
theorem Good.lease (hg : Good store claim w) {lease_ms retention_ms : Nat} {used : List String}
    (houtlives : Outlives store) (ht : Timings store lease_ms retention_ms)
    (hb : is_blank claim.execution_key = false)
    (hid : Identifies record claim.execution_key claim.attempt) (hs : record.state = .running)
    (ho : record.owner = token) (hu : record.lease_until = some (lua.tostring (w.now + lease_ms)))
    (hused : ∀ t ∈ w.used, t ∈ used) (htoken : token ∈ used)
    (hother : ∀ t lease_until, t ≠ token → w.lease_until t = some lease_until →
      w.now < lease_until → t ∈ w.closed) :
    Good store claim
      ({ w with used }.lease token (some ⟨record, some (w.now + retention_ms)⟩)) where
  identity := by
    rintro k ⟨⟩
    exact hid
  usable := by
    rintro k ⟨⟩
    exact ⟨hb, lease_ms, retention_ms, ht⟩
  running := by
    rintro k ⟨⟩ -
    refine ⟨by simp [World.lease, ho, written], _, rfl, ?_⟩
    have hround := lua.tonumber_tostring_le (w.now + lease_ms)
    have hlt := houtlives lease_ms retention_ms ht
    simp only [hu, number, Option.map_some, Option.getD_some]
    omega
  used := by
    intro t lease_until hl
    by_cases heq : t = token
    · rw [heq]; exact htoken
    · simp only [World.lease, Function.update_of_ne heq] at hl
      exact hused t (hg.used t lease_until hl)
  live := by
    intro t lease_until hl hlive hc
    by_cases heq : t = token
    · exact ⟨_, rfl, by rw [heq]; exact ho, hs⟩
    · simp only [World.lease, Function.update_of_ne heq] at hl
      exact absurd (hother t lease_until heq hl hlive) hc

theorem good_initial (w : World) (h : (leaseSystem store claim).initial w) :
    Good store claim w := by
  obtain ⟨-, hkey, -, -, hlease⟩ := h
  constructor <;> simp [hkey, hlease]

theorem good_next (houtlives : Outlives store) (e : Event) (hg : Good store claim w)
    (ha : (leaseSystem store claim).allowed w e) :
    Good store claim ((leaseSystem store claim).next w e) := by
  simp only [leaseSystem] at ha ⊢
  cases e with
  | tick ms =>
    refine ⟨hg.identity, hg.usable, hg.running, hg.used, ?_⟩
    intro token lease_until hl hlive hc
    have hnow : w.now < lease_until := by
      simp only [World.next] at hlive
      omega
    exact hg.live token lease_until hl hnow hc
  | claim token =>
    rcases next_claim store claim w token with
      heq | ⟨lease_ms, retention_ms, record, ht, hb, hcl, hid, hs, ho, hu, heq⟩
    · rw [heq]
      exact ⟨hg.identity, hg.usable, hg.running,
        fun t u h => List.mem_cons_of_mem _ (hg.used t u h), hg.live⟩
    · rw [heq]
      refine hg.lease houtlives ht hb hid hs ho hu (fun t h => List.mem_cons_of_mem _ h)
        List.mem_cons_self ?_
      -- A live lease is in the record, and then the record cannot be claimed.
      intro t lease_until _ hl hlive
      by_contra hc
      obtain ⟨old, hget, -, hstate, hsame⟩ := hg.present hl hlive hc
      rcases hcl with hnone | ⟨old', hget', -, hexpired⟩
      · rw [hnone] at hget
        cases hget
      · rw [hget'] at hget
        cases hget
        omega
  | renew lease =>
    rcases next_renew store claim w lease with
      heq | ⟨lease_ms, retention_ms, old, ht, hh, heq⟩
    · rw [heq]; exact hg
    · rw [heq]
      obtain ⟨k, hk, rfl⟩ := get_of_holds hh
      have htoken : lease.owner_token ∈ w.used := by
        have hl := (hg.running k hk hh.running).1
        rw [hh.owner] at hl
        exact hg.used _ _ hl
      refine hg.lease houtlives ht (hg.usable k hk).1 (hg.identity k hk)
        hh.running hh.owner rfl (fun t h => h) htoken ?_
      intro t lease_until hne hl hlive
      by_contra hc
      exact hne (hg.live_is_holder hh hl hlive hc)
  | complete lease outcome =>
    rcases next_complete store claim w lease outcome with
      heq | ⟨old, -, -, -, heq⟩ | ⟨terminal_ms, old, -, hh, heq⟩
    · rw [heq]; exact hg
    · rw [heq]
      exact ⟨hg.identity, hg.usable, hg.running, hg.used,
        fun t u hl hlive hc => hg.live t u hl hlive (fun h => hc (List.mem_cons_of_mem _ h))⟩
    · rw [heq]
      obtain ⟨k, hk, rfl⟩ := get_of_holds hh
      refine ⟨?_, ?_, ?_, hg.used, ?_⟩
      · rintro k' ⟨⟩; exact hg.identity k hk
      · rintro k' ⟨⟩; exact hg.usable k hk
      · rintro k' ⟨⟩ hrunning
        cases hrunning
      · intro t u hl hlive hc
        simp only [List.mem_cons, not_or] at hc
        exact absurd (hg.live_is_holder hh hl hlive hc.2) hc.1
  | release lease =>
    rcases next_release store claim w lease with heq | ⟨old, hh, heq⟩
    · rw [heq]; exact hg
    · rw [heq]
      refine ⟨by simp, by simp, by simp, hg.used, ?_⟩
      intro t u hl hlive hc
      simp only [List.mem_cons, not_or] at hc
      exact absurd (hg.live_is_holder hh hl hlive hc.2) hc.1

theorem good_of_reachable (houtlives : Outlives store) (h : Reachable (leaseSystem store claim) w) :
    Good store claim w :=
  h.invariant good_initial (fun _ e hg ha => good_next houtlives e hg ha)

/-! ## A lost lease -/

/-- The token has lost the record: it is gone, another token owns it, or the lease has run out. -/
def Lost (token : String) (w : World) : Prop :=
  get w.now w.key = none ∨
    (∃ record, get w.now w.key = some record ∧ record.owner ≠ token) ∨
    ∃ lease_until, w.lease_until token = some lease_until ∧ lease_until ≤ w.now

/-- A token that has lost the record does not hold it. -/
theorem Lost.not_holds (hg : Good store claim w) {lease : ExecutionLease}
    (hlost : Lost lease.owner_token w) (hh : Holds w.now w.key lease old) : False := by
  rcases hlost with hnone | ⟨record, hget, hne⟩ | ⟨lease_until, hl, hle⟩
  · rw [hh.present] at hnone
    cases hnone
  · rw [hh.present] at hget
    cases hget
    exact hne hh.owner
  · obtain ⟨k, hk, rfl⟩ := get_of_holds hh
    have hwritten := (hg.running k hk hh.running).1
    rw [hh.owner, hl] at hwritten
    have hsame : lease_until = number k.value.lease_until := Option.some.inj hwritten
    have := hh.unexpired
    omega

theorem lost_of_holder (hg : Good store claim w) {lease : ExecutionLease} {ttl : Nat} {w' : World}
    (hlost : Lost token w) (hh : Holds w.now w.key lease old) (hnow : w'.now = w.now)
    (hkey : w'.key = some ⟨record, some (w.now + ttl)⟩) (howner : record.owner = old.owner)
    (hpos : 0 < ttl) : Lost token w' := by
  right; left
  refine ⟨record, ?_, ?_⟩
  · rw [hkey, hnow]
    exact get_of_lt _ (by omega)
  · rw [howner, hh.owner]
    intro heq
    rw [← heq] at hlost
    exact hlost.not_holds hg hh

/-- Once lost, the record stays lost: the token is used, and no claim makes it again. -/
theorem lost_next (houtlives : Outlives store) (e : Event)
    (hw : Reachable (leaseSystem store claim) w) (hlost : token ∈ w.used ∧ Lost token w)
    (ha : (leaseSystem store claim).allowed w e) :
    token ∈ ((leaseSystem store claim).next w e).used ∧
      Lost token ((leaseSystem store claim).next w e) := by
  have hg := good_of_reachable houtlives hw
  obtain ⟨hused, hlost⟩ := hlost
  simp only [leaseSystem] at ha ⊢
  cases e with
  | tick ms =>
    refine ⟨hused, ?_⟩
    rcases hlost with hnone | ⟨record, hget, hne⟩ | ⟨lease_until, hl, hle⟩
    · exact .inl (get_none_later (Nat.le_add_right _ _) hnone)
    · by_cases hgone : get (w.now + ms) w.key = none
      · exact .inl hgone
      · obtain ⟨later, hlater⟩ := Option.ne_none_iff_exists'.mp hgone
        have hsame := get_earlier (Nat.le_add_right _ _) hlater
        rw [hget] at hsame
        cases hsame
        exact .inr (.inl ⟨record, hlater, hne⟩)
    · refine .inr (.inr ⟨lease_until, hl, ?_⟩)
      simp only [World.next]
      omega
  | claim fresh =>
    rcases next_claim store claim w fresh with
      heq | ⟨lease_ms, retention_ms, record, ht, -, -, -, -, ho, -, heq⟩
    · rw [heq]
      exact ⟨List.mem_cons_of_mem _ hused, hlost⟩
    · rw [heq]
      refine ⟨List.mem_cons_of_mem _ hused, .inr (.inl ⟨record, ?_, ?_⟩)⟩
      · have hpos := (duration_ms_eq_ok.mp ht.2).2.1
        exact get_of_lt _ (by simp only [World.lease]; omega)
      · rintro rfl
        rw [ho] at hused
        exact ha hused
  | renew lease =>
    rcases next_renew store claim w lease with
      heq | ⟨lease_ms, retention_ms, old, ht, hh, heq⟩
    · rw [heq]; exact ⟨hused, hlost⟩
    · rw [heq]
      exact ⟨hused, lost_of_holder hg hlost hh rfl rfl rfl (duration_ms_eq_ok.mp ht.2).2.1⟩
  | complete lease outcome =>
    rcases next_complete store claim w lease outcome with
      heq | ⟨old, -, -, -, heq⟩ | ⟨terminal_ms, old, hpos, hh, heq⟩
    · rw [heq]; exact ⟨hused, hlost⟩
    · rw [heq]; exact ⟨hused, hlost⟩
    · rw [heq]
      exact ⟨hused, lost_of_holder hg hlost hh rfl rfl rfl hpos⟩
  | release lease =>
    rcases next_release store claim w lease with heq | ⟨old, -, heq⟩
    · rw [heq]; exact ⟨hused, hlost⟩
    · rw [heq]; exact ⟨hused, .inl rfl⟩

/-! ## A finished record -/

/-- The record stands as `k` until it expires. -/
def Stands (k : Key ExecutionRecord) (w : World) : Prop :=
  (∀ e, k.expires_at = some e → w.now < e) → w.key = some k

theorem now_le_next (e : Event) : w.now ≤ (w.next store claim e).now := by
  cases e with
  | tick ms => exact Nat.le_add_right _ _
  | claim token =>
    rcases next_claim store claim w token with
      heq | ⟨_, _, _, _, _, _, _, _, _, _, heq⟩ <;> simp [heq, World.lease]
  | renew lease =>
    rcases next_renew store claim w lease with
      heq | ⟨_, _, _, _, _, heq⟩ <;> simp [heq, World.lease]
  | complete lease outcome =>
    rcases next_complete store claim w lease outcome with
      heq | ⟨_, _, _, _, heq⟩ | ⟨_, _, _, _, heq⟩ <;> simp [heq]
  | release lease =>
    rcases next_release store claim w lease with
      heq | ⟨_, _, heq⟩ <;> simp [heq]

theorem stands_next {k : Key ExecutionRecord} {outcome : TerminalOutcome}
    (hk : k.value.state = .terminal outcome) (e : Event) (h : Stands k w) :
    Stands k (w.next store claim e) := by
  intro hlt
  have hbefore : ∀ e', k.expires_at = some e' → w.now < e' := fun e' he' =>
    Nat.lt_of_le_of_lt (now_le_next e) (hlt e' he')
  have hkey : w.key = some k := h hbefore
  have hget : get w.now w.key = some k.value := get_eq_some.mpr ⟨k, hkey, rfl, hbefore⟩
  -- No script that writes finds a finished record.
  have hnot : ∀ {old}, get w.now w.key = some old → old.state = .running → False := by
    intro old hold hrunning
    rw [hget] at hold
    cases hold
    rw [hk] at hrunning
    cases hrunning
  cases e with
  | tick ms => exact hkey
  | claim fresh =>
    rcases next_claim store claim w fresh with
      heq | ⟨_, _, _, _, _, hcl, _⟩
    · rw [heq]; exact hkey
    · rcases hcl with hnone | ⟨old, hold, hrunning, -⟩
      · rw [hget] at hnone
        cases hnone
      · exact (hnot hold hrunning).elim
  | renew lease =>
    rcases next_renew store claim w lease with
      heq | ⟨_, _, _, _, hh, _⟩
    · rw [heq]; exact hkey
    · exact (hnot hh.present hh.running).elim
  | complete lease outcome =>
    rcases next_complete store claim w lease outcome with
      heq | ⟨_, _, _, _, heq⟩ | ⟨_, _, _, hh, _⟩
    · rw [heq]; exact hkey
    · rw [heq]; exact hkey
    · exact (hnot hh.present hh.running).elim
  | release lease =>
    rcases next_release store claim w lease with heq | ⟨_, hh, _⟩
    · rw [heq]; exact hkey
    · exact (hnot hh.present hh.running).elim

/-! ## The law -/

/-- What a state of the record promises. -/
structure LeaseSafe (store : RedisIdempotencyStore) (claim : ExecutionClaim)
    (w : World) : Prop where
  /-- While a token's lease lasts and it has not closed it, it owns the record, and every claim
  is told to wait. -/
  live_lease_is_exclusive : ∀ token lease_until, w.lease_until token = some lease_until →
    w.now < lease_until → token ∉ w.closed →
    (∃ record, get w.now w.key = some record ∧ record.owner = token ∧ record.state = .running) ∧
      ∀ other, ∃ retry_after,
        store.claim w.now other claim w.key = (.ok (.Busy retry_after), w.key)
  /-- Once a token has lost the record, none of its calls changes it, in any later state. -/
  lost_lease_is_fenced : ∀ lease, LeaseOf claim lease → lease.owner_token ∈ w.used →
    Lost lease.owner_token w → ∀ es w', Run (leaseSystem store claim) w es w' →
    (∃ e, store.renew w'.now lease w'.key = (.error e, w'.key)) ∧
    (∀ outcome, (∃ e, store.complete w'.now lease outcome w'.key = (.error e, w'.key)) ∨
      ∃ record, get w'.now w'.key = some record ∧ record.owner = lease.owner_token ∧
        record.state = .terminal outcome ∧ store.complete w'.now lease outcome w'.key =
          (.ok ⟨outcome, number record.completed_at⟩, w'.key)) ∧
    ((∃ e, release w'.now lease w'.key = (.error e, w'.key)) ∨
      release w'.now lease w'.key = (.ok .AlreadyAbsent, w'.key))
  /-- A finished record is the same until it expires, and every claim reads its outcome. -/
  terminal_record_is_final : ∀ k outcome, w.key = some k → k.value.state = .terminal outcome →
    ∀ es w', Run (leaseSystem store claim) w es w' → (∀ e, k.expires_at = some e → w'.now < e) →
    w'.key = some k ∧ ∀ token, store.claim w'.now token claim w'.key =
      (.ok (.AlreadyCompleted ⟨outcome, number k.value.completed_at⟩), w'.key)

/-- A lease protects its execution in every store whose records outlive their leases: a live lease
excludes every other worker, a lost one can change nothing, and a finished execution stays finished
until its record expires. -/
theorem lease_safe_of_outlives {store : RedisIdempotencyStore} {claim : ExecutionClaim}
    {w : World} (houtlives : Outlives store) (hw : Reachable (leaseSystem store claim) w) :
    LeaseSafe store claim w := by
  have hgood := fun {w'} (h : Reachable (leaseSystem store claim) w') =>
    good_of_reachable houtlives h
  refine ⟨?_, ?_, ?_⟩
  · intro token lease_until hl hlive hc
    obtain ⟨record, hget, howner, hstate, hsame⟩ := (hgood hw).present hl hlive hc
    obtain ⟨k, hk, rfl, -⟩ := get_eq_some.mp hget
    obtain ⟨hblank, lease_ms, retention_ms, ht⟩ := (hgood hw).usable k hk
    have hunexpired : w.now < number k.value.lease_until := by omega
    exact ⟨⟨k.value, hget, howner, hstate⟩, fun other =>
      ⟨_, claim_busy ht hblank hget ((hgood hw).identity k hk) hstate hunexpired⟩⟩
  · intro lease _ hused hlost es w' hr
    have hg := hgood (hw.run hr)
    have hlater := (hr.stable (fun _ e hs hp ha => lost_next houtlives e hs hp ha) hw
      ⟨hused, hlost⟩).2
    refine ⟨?_, fun outcome => ?_, ?_⟩
    · rcases renew_cases store w'.now w'.key lease with
        ⟨hkey, e, he⟩ | ⟨_, _, old, _, hh, _⟩
      · exact ⟨e, Prod.ext he hkey⟩
      · exact (hlater.not_holds hg hh).elim
    · rcases complete_cases store w'.now w'.key lease outcome with
        ⟨hkey, e, he⟩ | ⟨old, hget, howner, hstate, heq⟩ | ⟨_, old, _, hh, _⟩
      · exact .inl ⟨e, Prod.ext he hkey⟩
      · exact .inr ⟨old, hget, howner, hstate, heq⟩
      · exact (hlater.not_holds hg hh).elim
    · rcases release_cases w'.now w'.key lease with
        ⟨hkey, ⟨e, he⟩ | habsent⟩ | ⟨old, hh, _⟩
      · exact .inl ⟨e, Prod.ext he hkey⟩
      · exact .inr (Prod.ext habsent hkey)
      · exact (hlater.not_holds hg hh).elim
  · intro k outcome hk hstate es w' hr hlt
    have hkey : w'.key = some k :=
      hr.stable (P := Stands k) (fun _ e _ hp _ => stands_next hstate e hp) hw (fun _ => hk) hlt
    refine ⟨hkey, fun token => ?_⟩
    have hg := hgood (hw.run hr)
    obtain ⟨hblank, lease_ms, retention_ms, ht⟩ := hg.usable k hkey
    exact claim_completed ht hblank (get_eq_some.mpr ⟨k, hkey, rfl, hlt⟩)
      (hg.identity k hkey) hstate

/-- Every store of a validated configuration is such a store. -/
theorem execution_leases_are_safe {parsers : Parsers} {config : AppConfig}
    (hvalid : config.validate parsers = .ok ()) {claim : ExecutionClaim} {w : World}
    (hw : Reachable (leaseSystem (execution_store config) claim) w) :
    LeaseSafe (execution_store config) claim w :=
  lease_safe_of_outlives (execution_store_outlives hvalid) hw

/-- Two workers on one record: the first completes, and the second finds the outcome. -/
theorem execution_leases_are_safe_after_completion :
    let store := execution_store (.defaults "node-1")
    let claim : ExecutionClaim := ⟨"run-1:slice-0-of-1", 0⟩
    let lease : ExecutionLease := ⟨"run-1:slice-0-of-1", 0, "a", 31000, store.lease_ttl, false⟩
    let w := .next store claim (.next store claim
      ⟨1000, none, [], fun _ => none, []⟩ (.claim "a")) (.complete lease .ResultPublished)
    (AppConfig.defaults "node-1").validate AppConfig.defaultParsers = .ok () ∧
      w.closed = ["a"] ∧ LeaseSafe store claim w := by
  intro store claim lease w
  have hw : Reachable (leaseSystem store claim) w := by
    refine ((Reachable.initial ?_).step (e := Event.claim "a") ?_).step
      (e := .complete lease .ResultPublished) ?_
    · exact ⟨by decide, rfl, rfl, rfl, fun _ => rfl⟩
    · exact List.not_mem_nil
    · exact ⟨rfl, rfl⟩
  exact ⟨AppConfig.validate_defaults, by decide,
    execution_leases_are_safe AppConfig.validate_defaults hw⟩

end pulse.execution_lease
