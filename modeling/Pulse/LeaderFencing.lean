-- The law of the leader fence: the fences of the leaders rise, one lease at most
-- passes the check of the dispatch scripts, and a lease that has ended changes
-- nothing any more, however late its calls arrive.
import Pulse.DispatchStore
import Pulse.Systems

open keyspace systems
open pulse.coordination pulse.leader_lock

namespace pulse.dispatch

open RedisLeaderElector

/-! ## The calls of the schedulers -/

/-- The keys of the schedulers at a Redis time: the lock and its counter, and the schedule of each
scenario. -/
structure World where
  now : Nat
  keys : LeaderKeys
  schedules : String → Schedule

/-- A call of any node, or time that passes. -/
inductive Op
  | acquire (elector : RedisLeaderElector) (uuid : String)
  | renew (elector : RedisLeaderElector) (lease : LeaderLease)
  | relinquish (elector : RedisLeaderElector) (lease : LeaderLease)
  | prepare_window (spec : DispatchSpec) (lease : LeaderLease)
  | ack_slice (window : DispatchWindow) (slice_index : UInt32) (lease : LeaderLease)
  | wait (ms : Nat)

namespace World

def set (w : World) (scenario_id : String) (s : Schedule) : World :=
  { w with schedules := Function.update w.schedules scenario_id s }

def step (w : World) : Op → World
  | .acquire elector uuid => { w with keys := (elector.acquire w.now uuid w.keys).2 }
  | .renew elector lease => { w with keys := (elector.renew w.now lease w.keys).2 }
  | .relinquish elector lease => { w with keys := (elector.relinquish w.now lease w.keys).2 }
  | .prepare_window spec lease =>
    w.set spec.scenario_id
      (prepare_window w.now w.keys spec lease (w.schedules spec.scenario_id)).2
  | .ack_slice window slice_index lease =>
    w.set window.scenario_id
      (ack_slice w.now w.keys window slice_index lease (w.schedules window.scenario_id)).2
  | .wait ms => { w with now := w.now + ms }

/-- The lease passes the check of the dispatch scripts. -/
def accepts (w : World) (lease : LeaderLease) : Prop :=
  leader_is_current w.now w.keys lease = true

end World

/-! ## The history -/

/-- The lease that the call hands out. -/
def granted (w : World) : Op → Option LeaderLease
  | .acquire elector uuid =>
    match (elector.acquire w.now uuid w.keys).1 with
    | .ok (.Acquired lease) => some lease
    | _ => none
  | _ => none

/-- The fence under which the call changes a schedule. -/
def mutation (w : World) : Op → Option Nat
  | .prepare_window spec lease =>
    if (prepare_window w.now w.keys spec lease (w.schedules spec.scenario_id)).2 =
        w.schedules spec.scenario_id then none
    else some lease.fencing_token
  | .ack_slice window slice_index lease =>
    if (ack_slice w.now w.keys window slice_index lease (w.schedules window.scenario_id)).2 =
        w.schedules window.scenario_id then none
    else some lease.fencing_token
  | _ => none

/-- The schedulers, with the leases in the order of acquisition and the fences of the changes. -/
structure Fencing where
  world : World
  acquired : List LeaderLease
  mutations : List Nat

/-- The call is made with the lease, or with a renewed copy of it. -/
def Op.presents (op : Op) (l : LeaderLease) : Prop :=
  ∃ lease : LeaderLease, lease.owner_token = l.owner_token ∧ lease.fencing_token = l.fencing_token ∧
    ((∃ elector, op = .renew elector lease) ∨ (∃ elector, op = .relinquish elector lease) ∨
      (∃ spec, op = .prepare_window spec lease) ∨ ∃ window index,
      op = .ack_slice window index lease)

/-- Nodes that share a lock: each acquisition has a fresh token, and every other call presents a
lease that was handed out, now or at any time before. -/
def fencingSystem : System Fencing Op where
  initial s := ∃ now fence schedules, s = ⟨⟨now, ⟨none, fence⟩, schedules⟩, [], []⟩
  allowed s op :=
    match op with
    | .acquire elector uuid => ∀ l ∈ s.acquired, l.owner_token ≠ elector.owner_token uuid
    | .wait _ => True
    | op => ∃ l ∈ s.acquired, op.presents l
  next s op := ⟨s.world.step op, s.acquired ++ (granted s.world op).toList,
    s.mutations ++ (mutation s.world op).toList⟩

/-! ## Leases that pass the check -/

section fenced

variable {w : World} {l lease : LeaderLease}

theorem accepts_iff : w.accepts lease ↔ ∃ k, w.keys.lock = some k ∧ k.expires_at ≠ none ∧
    get w.now w.keys.lock = some k.value ∧ k.value.owner = lease.owner_token ∧
    k.value.fence = .decimal lease.fencing_token := by
  unfold World.accepts leader_is_current
  rw [Bool.and_eq_true, is_held_by_iff]
  constructor
  · rintro ⟨hexpiry, record, hget, howner, hfence⟩
    obtain ⟨k, hk, rfl, -⟩ := get_eq_some.mp hget
    refine ⟨k, hk, ?_, hget, howner, hfence⟩
    rw [hk] at hexpiry
    intro hnone
    rw [Option.bind_some, hnone] at hexpiry
    cases hexpiry
  · rintro ⟨k, hk, hexpiry, hget, howner, hfence⟩
    refine ⟨?_, k.value, hget, howner, hfence⟩
    rw [hk, Option.bind_some]
    exact Option.isSome_iff_ne_none.mpr hexpiry

theorem accepts_congr (howner : lease.owner_token = l.owner_token)
    (hfence : lease.fencing_token = l.fencing_token) : w.accepts lease ↔ w.accepts l := by
  rw [accepts_iff, accepts_iff, howner, hfence]

theorem tostring_eq_decimal {m n : Nat} (h : lua.tostring m = .decimal n) : m = n := by
  unfold lua.tostring at h
  split at h
  · exact lua.Text.decimal.inj h
  · cases h

/-- A call with a lease that does not pass the check changes no schedule. -/
theorem prepare_rejected {spec : DispatchSpec} {s : Schedule} (h : ¬ w.accepts lease) :
    (prepare_window w.now w.keys spec lease s).2 = s := by
  unfold World.accepts at h
  unfold prepare_window
  split
  · rfl
  · rw [if_neg h]

theorem ack_rejected {window : DispatchWindow} {slice_index : UInt32} {s : Schedule}
    (h : ¬ w.accepts lease) : (ack_slice w.now w.keys window slice_index lease s).2 = s := by
  unfold World.accepts at h
  unfold ack_slice
  split
  · rfl
  · rw [if_neg h]

theorem World.set_self (w : World) (i : String) : w.set i (w.schedules i) = w := by
  unfold World.set
  rw [Function.update_eq_self]

/-! ## The invariant -/

/-- The lock is under the last lease that was handed out, and no change was made under a later
fence. -/
structure Fenced (s : Fencing) : Prop where
  rising : s.acquired.Pairwise fun a b => a.fencing_token < b.fencing_token
  bounded : ∀ l ∈ s.acquired, l.fencing_token ≤ s.world.keys.fence
  tokens : s.acquired.Pairwise fun a b => a.owner_token ≠ b.owner_token
  lock : ∀ k, s.world.keys.lock = some k → k.expires_at ≠ none ∧
    ∃ l ∈ s.acquired, k.value.owner = l.owner_token ∧
      k.value.fence = lua.tostring l.fencing_token ∧ l.fencing_token = s.world.keys.fence
  mutations : s.mutations.Pairwise (· ≤ ·)
  mutated : ∀ m ∈ s.mutations, m ≤ s.world.keys.fence

variable {s : Fencing}

/-- A lease that passes the check has the fence of the counter. -/
theorem Fenced.accepts_fence (hf : Fenced s) (h : s.world.accepts lease) :
    lease.fencing_token = s.world.keys.fence := by
  obtain ⟨k, hk, -, -, -, hfence⟩ := accepts_iff.mp h
  obtain ⟨-, l, -, -, htext, hl⟩ := hf.lock k hk
  rw [htext] at hfence
  rw [← tostring_eq_decimal hfence, hl]

theorem Fenced.acquire (hf : Fenced s) (elector : RedisLeaderElector) (uuid : String)
    (hfresh : ∀ l ∈ s.acquired, l.owner_token ≠ elector.owner_token uuid) :
    Fenced (fencingSystem.next s (.acquire elector uuid)) := by
  rcases acquire_cases elector s.world.now uuid s.world.keys with
    ⟨hkeys, hreply⟩ | ⟨ttl_ms, -, -, hnew⟩
  · have hnone : granted s.world (.acquire elector uuid) = none := by
      rcases hreply with ⟨e, he⟩ | ⟨retry_after, hr⟩
      · simp only [granted, he]
      · simp only [granted, hr]
    have hnext : fencingSystem.next s (.acquire elector uuid) = s := by
      simp [fencingSystem, World.step, hkeys, hnone, mutation]
    rw [hnext]
    exact hf
  · have hsome : granted s.world (.acquire elector uuid) = some ⟨elector.lock_key, elector.node_id,
        elector.owner_token uuid, s.world.keys.fence + 1, s.world.now + ttl_ms,
          elector.lock_ttl⟩ := by
      simp only [granted, hnew]
    have hkeys := congrArg Prod.snd hnew
    refine ⟨?_, ?_, ?_, ?_, ?_, ?_⟩
    · simp only [fencingSystem, hsome, Option.toList_some]
      refine List.pairwise_append.mpr ⟨hf.rising, List.pairwise_singleton _ _, ?_⟩
      intro a ha b hb
      cases List.mem_singleton.mp hb
      have := hf.bounded a ha
      dsimp only
      omega
    · simp only [fencingSystem, hsome, Option.toList_some, World.step, hkeys]
      intro a ha
      rcases List.mem_append.mp ha with hold | hlast
      · have := hf.bounded a hold
        omega
      · cases List.mem_singleton.mp hlast
        exact le_rfl
    · simp only [fencingSystem, hsome, Option.toList_some]
      refine List.pairwise_append.mpr ⟨hf.tokens, List.pairwise_singleton _ _, ?_⟩
      intro a ha b hb
      cases List.mem_singleton.mp hb
      exact hfresh a ha
    · simp only [fencingSystem, hsome, Option.toList_some, World.step, hkeys]
      rintro k ⟨⟩
      exact ⟨by simp, _, List.mem_append_right _ List.mem_cons_self, rfl, rfl, rfl⟩
    · simp only [fencingSystem, mutation, Option.toList_none, List.append_nil]
      exact hf.mutations
    · simp only [fencingSystem, mutation, Option.toList_none, List.append_nil, World.step, hkeys]
      intro m hm
      have := hf.mutated m hm
      omega

variable {op : Op}

/-- A step that leaves the counter and the record of the lock. -/
theorem Fenced.of_lock (hf : Fenced s) (hgrant : granted s.world op = none)
    (hmutation : mutation s.world op = none)
    (hfence : (s.world.step op).keys.fence = s.world.keys.fence)
    (hlock : ∀ k, (s.world.step op).keys.lock = some k → k.expires_at ≠ none ∧
      ∃ k', s.world.keys.lock = some k' ∧ k.value = k'.value) :
    Fenced (fencingSystem.next s op) := by
  have hnext : fencingSystem.next s op = ⟨s.world.step op, s.acquired, s.mutations⟩ := by
    simp [fencingSystem, hgrant, hmutation]
  rw [hnext]
  refine ⟨hf.rising, ?_, hf.tokens, ?_, hf.mutations, ?_⟩
  · intro l hl
    rw [hfence]
    exact hf.bounded l hl
  · intro k hk
    obtain ⟨hexpiry, k', hk', hvalue⟩ := hlock k hk
    refine ⟨hexpiry, ?_⟩
    rw [hfence, hvalue]
    exact (hf.lock k' hk').2
  · intro m hm
    rw [hfence]
    exact hf.mutated m hm

/-- A step of the dispatch scripts. -/
theorem Fenced.of_schedule (hf : Fenced s) (hgrant : granted s.world op = none)
    (hkeys : (s.world.step op).keys = s.world.keys)
    (hmutation : ∀ m, mutation s.world op = some m → m = s.world.keys.fence) :
    Fenced (fencingSystem.next s op) := by
  have hnext : fencingSystem.next s op =
      ⟨s.world.step op, s.acquired, s.mutations ++ (mutation s.world op).toList⟩ := by
    simp [fencingSystem, hgrant]
  rw [hnext]
  refine ⟨hf.rising, ?_, hf.tokens, ?_, ?_, ?_⟩
  · intro l hl
    rw [hkeys]
    exact hf.bounded l hl
  · intro k hk
    rw [hkeys] at hk ⊢
    exact hf.lock k hk
  · refine List.pairwise_append.mpr ⟨hf.mutations, ?_, ?_⟩
    · cases mutation s.world op with
      | none => exact List.Pairwise.nil
      | some m => exact List.pairwise_singleton _ _
    · intro m hm m' hm'
      rw [hmutation m' (Option.mem_toList.mp hm')]
      exact hf.mutated m hm
  · intro m hm
    rw [hkeys]
    rcases List.mem_append.mp hm with hold | hnew
    · exact hf.mutated m hold
    · exact (hmutation m (Option.mem_toList.mp hnew)).le

/-- A step that leaves the keys. -/
theorem Fenced.of_keys (hf : Fenced s) (hgrant : granted s.world op = none)
    (hmutation : mutation s.world op = none) (hkeys : (s.world.step op).keys = s.world.keys) :
    Fenced (fencingSystem.next s op) := by
  apply hf.of_lock hgrant hmutation
  · rw [hkeys]
  · rw [hkeys]
    intro k hk
    exact ⟨(hf.lock k hk).1, k, hk, rfl⟩

theorem step_fenced (hf : Fenced s) (hallowed : fencingSystem.allowed s op) :
    Fenced (fencingSystem.next s op) := by
  cases op with
  | acquire elector uuid => exact hf.acquire elector uuid hallowed
  | renew elector lease =>
    rcases renew_cases elector s.world.now lease s.world.keys with
      ⟨hkeys, -⟩ | ⟨ttl_ms, k, -, hk, -, -, -, hnew⟩
    · exact hf.of_keys rfl rfl (by simp only [World.step, hkeys])
    · have hkeys := congrArg Prod.snd hnew
      apply hf.of_lock rfl rfl
      · simp only [World.step, hkeys]
      · simp only [World.step, hkeys]
        rintro _ ⟨⟩
        exact ⟨by simp, k, hk, rfl⟩
  | relinquish elector lease =>
    rcases relinquish_cases elector s.world.now lease s.world.keys with
      ⟨hkeys, -⟩ | ⟨record, -, -, -, hnew⟩
    · exact hf.of_keys rfl rfl (by simp only [World.step, hkeys])
    · have hkeys := congrArg Prod.snd hnew
      apply hf.of_lock rfl rfl
      · simp only [World.step, hkeys]
      · simp only [World.step, hkeys]
        rintro _ ⟨⟩
  | prepare_window spec lease =>
    apply hf.of_schedule rfl rfl
    intro m hm
    unfold mutation at hm
    dsimp only at hm
    split at hm
    · cases hm
    · rename_i hchanged
      cases hm
      apply hf.accepts_fence
      by_contra hrejected
      exact hchanged (prepare_rejected hrejected)
  | ack_slice window slice_index lease =>
    apply hf.of_schedule rfl rfl
    intro m hm
    unfold mutation at hm
    dsimp only at hm
    split at hm
    · cases hm
    · rename_i hchanged
      cases hm
      apply hf.accepts_fence
      by_contra hrejected
      exact hchanged (ack_rejected hrejected)
  | wait ms => exact hf.of_keys rfl rfl rfl

theorem reachable_fenced (hs : Reachable fencingSystem s) : Fenced s := by
  refine Reachable.invariant ?_ ?_ hs
  · rintro s ⟨now, fence, schedules, rfl⟩
    refine ⟨List.Pairwise.nil, ?_, List.Pairwise.nil, ?_, List.Pairwise.nil, ?_⟩
    · intro l hl
      cases hl
    · rintro k ⟨⟩
    · intro m hm
      cases hm
  · intro s op hf hallowed
    exact step_fenced hf hallowed

/-! ## Leases that have ended -/

/-- The lock of the lease is gone, by its expiry or given up, or a later lease was handed out. -/
def Ended (s : Fencing) (l : LeaderLease) : Prop :=
  l ∈ s.acquired ∧ (get s.world.now s.world.keys.lock = none ∨
    ∃ l' ∈ s.acquired, l.fencing_token < l'.fencing_token)

theorem Ended.rejected (hf : Fenced s) (h : Ended s l) : ¬ s.world.accepts l := by
  intro haccepts
  rcases h.2 with hnone | ⟨l', hl', hlt⟩
  · obtain ⟨k, -, -, hget, -⟩ := accepts_iff.mp haccepts
    rw [hnone] at hget
    cases hget
  · have hfence := hf.accepts_fence haccepts
    have := hf.bounded l' hl'
    omega

/-- A lease that does not pass the check does not pass it after the step. -/
theorem step_rejected (hf : Fenced s) (hallowed : fencingSystem.allowed s op) (hl : l ∈ s.acquired)
    (h : ¬ s.world.accepts l) : ¬ (fencingSystem.next s op).world.accepts l := by
  have hsame : (s.world.step op).keys = s.world.keys → (s.world.step op).now = s.world.now →
      ¬ (s.world.step op).accepts l := by
    intro hkeys hnow haccepts
    apply h
    rw [accepts_iff] at haccepts ⊢
    rwa [hkeys, hnow] at haccepts
  change ¬ (s.world.step op).accepts l
  cases op with
  | acquire elector uuid =>
    rcases acquire_cases elector s.world.now uuid s.world.keys with
      ⟨hkeys, -⟩ | ⟨ttl_ms, -, -, hnew⟩
    · exact hsame hkeys rfl
    · -- the new record has a token that no lease has had
      intro haccepts
      obtain ⟨k, hk, -, -, howner, -⟩ := accepts_iff.mp haccepts
      simp only [World.step, hnew] at hk
      cases hk
      exact hallowed l hl howner.symm
  | renew elector lease =>
    rcases renew_cases elector s.world.now lease s.world.keys with
      ⟨hkeys, -⟩ | ⟨ttl_ms, k, -, hk, hget, -, -, hnew⟩
    · exact hsame hkeys rfl
    · intro haccepts
      obtain ⟨k', hk', -, -, howner, hfence⟩ := accepts_iff.mp haccepts
      simp only [World.step, hnew] at hk'
      cases hk'
      exact h (accepts_iff.mpr ⟨k, hk, (hf.lock k hk).1, hget, howner, hfence⟩)
  | relinquish elector lease =>
    rcases relinquish_cases elector s.world.now lease s.world.keys with
      ⟨hkeys, -⟩ | ⟨record, -, -, -, hnew⟩
    · exact hsame hkeys rfl
    · intro haccepts
      obtain ⟨k, hk, -⟩ := accepts_iff.mp haccepts
      simp only [World.step, hnew] at hk
      cases hk
  | prepare_window spec lease => exact hsame rfl rfl
  | ack_slice window slice_index lease => exact hsame rfl rfl
  | wait ms =>
    intro haccepts
    obtain ⟨k, hk, hexpiry, hget, howner, hfence⟩ := accepts_iff.mp haccepts
    refine h (accepts_iff.mpr ⟨k, hk, hexpiry, ?_, howner, hfence⟩)
    exact get_earlier (Nat.le_add_right s.world.now ms) hget

/-- A call with a lease that does not pass the check changes nothing. -/
theorem rejected_unchanged (hf : Fenced s) (h : ¬ s.world.accepts l) (hop : op.presents l) :
    s.world.step op = s.world := by
  obtain ⟨lease, howner, hfence, hcall⟩ := hop
  rw [← accepts_congr howner hfence] at h
  have hlock : ∀ record, get s.world.now s.world.keys.lock = some record →
      record.owner = lease.owner_token → record.fence ≠ .decimal lease.fencing_token := by
    intro record hget hrecord htext
    obtain ⟨k, hk, rfl, -⟩ := get_eq_some.mp hget
    exact h (accepts_iff.mpr ⟨k, hk, (hf.lock k hk).1, hget, hrecord, htext⟩)
  rcases hcall with ⟨elector, rfl⟩ | ⟨elector, rfl⟩ | ⟨spec, rfl⟩ | ⟨window, index, rfl⟩
  · rcases renew_cases elector s.world.now lease s.world.keys with
      ⟨hkeys, -⟩ | ⟨ttl_ms, k, -, -, hget, hrecord, htext, -⟩
    · simp only [World.step, hkeys]
    · exact absurd htext (hlock _ hget hrecord)
  · rcases relinquish_cases elector s.world.now lease s.world.keys with
      ⟨hkeys, -⟩ | ⟨record, hget, hrecord, htext, -⟩
    · simp only [World.step, hkeys]
    · exact absurd htext (hlock _ hget hrecord)
  · unfold World.step
    dsimp only
    rw [prepare_rejected h]
    exact World.set_self _ _
  · unfold World.step
    dsimp only
    rw [ack_rejected h]
    exact World.set_self _ _

/-- A lease that was given up has ended. -/
theorem relinquished_ended {elector : RedisLeaderElector} {lease : LeaderLease}
    (hl : l ∈ s.acquired)
    (h : (elector.relinquish s.world.now lease s.world.keys).1 = .ok ()) :
    Ended (fencingSystem.next s (.relinquish elector lease)) l := by
  refine ⟨List.mem_append_left _ hl, .inl ?_⟩
  simp only [fencingSystem, World.step]
  rcases relinquish_cases elector s.world.now lease s.world.keys with
    ⟨hkeys, ⟨e, he⟩ | ⟨hnone, -⟩⟩ | ⟨record, -, -, -, hnew⟩
  · rw [he] at h
    cases h
  · rw [hkeys, hnone]
  · rw [hnew]
    rfl

theorem run_rejected {s' : Fencing} {ops : List Op} (hs : Reachable fencingSystem s)
    (hrun : Run fencingSystem s ops s') (hl : l ∈ s.acquired) (h : ¬ s.world.accepts l) :
    ¬ s'.world.accepts l := by
  have hstable : l ∈ s'.acquired ∧ ¬ s'.world.accepts l := by
    refine Run.stable (P := fun s => l ∈ s.acquired ∧ ¬ s.world.accepts l) ?_ hrun hs ⟨hl, h⟩
    rintro s op hs ⟨hl, h⟩ hallowed
    exact ⟨List.mem_append_left _ hl, step_rejected (reachable_fenced hs) hallowed hl h⟩
  exact hstable.2

theorem Fenced.accepts_unique (hf : Fenced s) {l' : LeaderLease} (hl : l ∈ s.acquired)
    (hl' : l' ∈ s.acquired) (h : s.world.accepts l) (h' : s.world.accepts l') : l = l' := by
  have hfence : l.fencing_token = l'.fencing_token := by
    rw [hf.accepts_fence h, hf.accepts_fence h']
  have hnodup : (s.acquired.map (·.fencing_token)).Nodup :=
    (List.pairwise_map.mpr hf.rising).imp ne_of_lt
  exact List.inj_on_of_nodup_map hnodup hl hl' hfence

/-- The fences rise in the order of acquisition, one lease at most passes the check, and a call
with a lease that has ended changes nothing, at any later time. So no schedule is changed under a
fence that is lower than one before. -/
theorem ended_leaders_change_nothing (hs : Reachable fencingSystem s) :
    s.acquired.Pairwise (fun a b => a.fencing_token < b.fencing_token) ∧
    (∀ l ∈ s.acquired, ∀ l' ∈ s.acquired,
      s.world.accepts l → s.world.accepts l' → l = l') ∧
    (∀ l, Ended s l → ∀ ops s', Run fencingSystem s ops s' → ∀ op : Op, op.presents l →
      (s'.world.step op).keys = s'.world.keys ∧
        (s'.world.step op).schedules = s'.world.schedules) ∧
    (∀ l ∈ s.acquired, ∀ elector lease, lease.owner_token = l.owner_token →
      lease.fencing_token = l.fencing_token →
      (relinquish elector s.world.now lease s.world.keys).1 = .ok () →
      Ended (fencingSystem.next s (.relinquish elector lease)) l) ∧
    s.mutations.Pairwise (· ≤ ·) := by
  have hf := reachable_fenced hs
  refine ⟨hf.rising, ?_, ?_, ?_, hf.mutations⟩
  · intro l hl l' hl' h h'
    exact hf.accepts_unique hl hl' h h'
  · intro l hended ops s' hrun op hop
    have hrejected := run_rejected hs hrun hended.1 (hended.rejected hf)
    have hsame := rejected_unchanged (reachable_fenced (hs.run hrun)) hrejected hop
    rw [hsame]
    exact ⟨rfl, rfl⟩
  · intro l hl elector lease _ _ hok
    exact relinquished_ended hl hok

end fenced

/-! ## A lock that expires -/

def sampleElector (node_id : String) : RedisLeaderElector := ⟨"pulse:leader", node_id, 5000000000⟩

def sampleSpec : DispatchSpec := ⟨"checkout", 2, 4, .Every 60000000000, "v2:plan"⟩

/-- The first leader does not renew, and a second node gets the lock. -/
def takeover : Fencing :=
  [Op.acquire (sampleElector "node-1") "a", Op.wait 5000,
    Op.acquire (sampleElector "node-2") "b"].foldl fencingSystem.next
    ⟨⟨0, ⟨none, 0⟩, fun _ => .empty⟩, [], []⟩

def expiredLease : LeaderLease := ⟨"pulse:leader", "node-1", "node-1:a", 1, 5000, 5000000000⟩

theorem takeover_reachable : Reachable fencingSystem takeover := by
  apply Reachable.foldl
  · exact Reachable.initial ⟨0, 0, _, rfl⟩
  · refine ⟨?_, trivial, ?_, trivial⟩
    · intro l hl
      cases hl
    · intro l hl
      cases List.mem_singleton.mp hl
      decide

theorem expired_leader_changes_nothing :
    Ended takeover expiredLease ∧
      (takeover.world.step (.prepare_window sampleSpec expiredLease)).schedules =
        takeover.world.schedules := by
  have hended : Ended takeover expiredLease := by
    refine ⟨by decide, .inr ⟨⟨"pulse:leader", "node-2", "node-2:b", 2, 10000, 5000000000⟩, ?_⟩⟩
    decide
  refine ⟨hended, ?_⟩
  have hlaw := (ended_leaders_change_nothing takeover_reachable).2.2.1 _ hended _ _ (.done _)
  have hpresents : (Op.prepare_window sampleSpec expiredLease).presents expiredLease :=
    ⟨expiredLease, rfl, rfl, .inr (.inr (.inl ⟨sampleSpec, rfl⟩))⟩
  exact (hlaw _ hpresents).2

end pulse.dispatch
