-- The calls on the aggregation store as steps of one system, and the entry
-- of a run: its key, and its places in the deadlines, in the outbox and among
-- the active runs.
import Pulse.AggregationInput
import Pulse.Systems

open keyspace sorted_sets systems
open pulse.contracts

namespace pulse.aggregation

/-! ## Calls -/

/-- A call on the store by any node, or time that passes. -/
inductive Op
  | register_run (window : DispatchWindow) (load_duration : Nat)
  | ingest (result : ScenarioRunResult)
  | mark_expired (run_id : String)
  | finalize_run (run_id : String) (status : ScenarioRunSummaryStatus)
  | acknowledge_summary (run_id : String) (revision : UInt64)
  | clean_outbox (run_id : String)
  | wait (ms : Nat)

namespace World

/-- The empty store. -/
def start (now : Nat) : World := ⟨now, fun _ => none, ∅, ∅, ∅⟩

def step (store : RedisRunAggregationStore) (w : World) : Op → World
  | .register_run window load_duration =>
    (register_run (some store.registration) window load_duration w).2
  | .ingest result => (store.ingest result w).2
  | .mark_expired run_id => (store.mark_expired run_id w).2
  | .finalize_run run_id status => (store.finalize_run run_id status w).2
  | .acknowledge_summary run_id revision => (store.acknowledge_summary run_id revision w).2
  | .clean_outbox run_id => clean_outbox_script run_id w
  | .wait ms => { w with now := w.now + ms }

end World

/-- The store from its start, with the calls that `allowed` lets in and a clock below `limit`. -/
def storeSystem (store : RedisRunAggregationStore) (limit : Nat) (allowed : World → Op → Prop) :
    System World Op where
  initial w := ∃ now < limit, w = World.start now
  allowed w op := allowed w op ∧ (w.step store op).now < limit
  next := .step store

theorem reachable_start {store : RedisRunAggregationStore} {limit now : Nat}
    {allowed : World → Op → Prop} (h : now < limit) :
    Reachable (storeSystem store limit allowed) (.start now) :=
  Reachable.initial ⟨now, h, rfl⟩

/-! ## Entries -/

structure Entry where
  key : Option (Key RunHash)
  deadline : Option Nat
  outbox : Option Nat
  active : Option Nat

namespace Entry

def find (e : Entry) (now : Nat) : Option RunHash := get now e.key

def hset (e : Entry) (h : RunHash) : Entry :=
  { e with key := e.key.map fun k => { k with value := h } }

def prune (e : Entry) (now : Nat) : Entry :=
  { e with active := e.active.filter fun score => now < score }

def keep (e : Entry) (h : RunHash) : Entry :=
  { e with key := some ⟨h, none⟩, active := some lua.MAX_EXACT }

def expire (e : Entry) (time : Nat) (h : RunHash) : Entry :=
  { e with key := some ⟨h, some time⟩, active := some time }

def refresh (e : Entry) (now retention_ms : Nat) (h : RunHash) : Entry :=
  if h.isPending then e.keep h else e.expire (now + retention_ms) h

end Entry

namespace World

def entry (w : World) (run_id : String) : Entry :=
  ⟨w.runs run_id, zscore w.deadlines run_id, zscore w.outbox run_id, zscore w.active run_id⟩

variable (w : World)

theorem entry_find (i : String) : (w.entry i).find w.now = w.find i := rfl

theorem entry_prune (i : String) : w.prune.entry i = (w.entry i).prune w.now := by
  simp [entry, prune, Entry.prune, zscore_zremrangebyscore]

variable (i j : String)

theorem entry_hset (h : RunHash) :
    (w.hset i h).entry j = if j = i then (w.entry j).hset h else w.entry j := by
  by_cases hj : j = i
  · subst hj
    simp [entry, hset, Entry.hset]
  · simp [entry, hset, hj]

theorem entry_keep (h : RunHash) :
    (w.keep i h).entry j = if j = i then (w.entry j).keep h else w.entry j := by
  by_cases hj : j = i
  · subst hj
    simp [entry, keep, Entry.keep, zscore_zadd]
  · simp [entry, keep, zscore_zadd, hj]

theorem entry_expire (retention_ms : Nat) (h : RunHash) :
    (w.expire i retention_ms h).entry j =
      if j = i then (w.entry j).expire (w.now + retention_ms) h else w.entry j := by
  by_cases hj : j = i
  · subst hj
    simp [entry, expire, Entry.expire, zscore_zadd]
  · simp [entry, expire, zscore_zadd, hj]

theorem entry_refresh (retention_ms : Nat) (h : RunHash) :
    (w.refresh_retention i retention_ms h).entry j =
      if j = i then (w.entry j).refresh w.now retention_ms h else w.entry j := by
  unfold refresh_retention Entry.refresh
  split
  · exact entry_keep w i j h
  · exact entry_expire w i j retention_ms h

@[simp]
theorem refresh_retention_now (i : String) (retention_ms : Nat) (h : RunHash) :
    (w.refresh_retention i retention_ms h).now = w.now := by
  unfold refresh_retention
  split <;> rfl

theorem entry_zadd_deadlines (score : Nat) :
    ({ w with deadlines := zadd w.deadlines score i } : World).entry j =
      if j = i then { w.entry j with deadline := some score } else w.entry j := by
  by_cases hj : j = i <;> simp [entry, zscore_zadd, hj]

theorem entry_zrem_deadlines :
    ({ w with deadlines := zrem w.deadlines i } : World).entry j =
      if j = i then { w.entry j with deadline := none } else w.entry j := by
  by_cases hj : j = i <;> simp [entry, zscore_zrem, hj]

theorem entry_zrem_outbox :
    ({ w with outbox := zrem w.outbox i } : World).entry j =
      if j = i then { w.entry j with outbox := none } else w.entry j := by
  by_cases hj : j = i <;> simp [entry, zscore_zrem, hj]

/-- The indexes of a run that is finalized. -/
theorem entry_announce (now : Nat) :
    ({ w with deadlines := zrem w.deadlines i, outbox := zadd w.outbox now i } : World).entry j =
      if j = i then { w.entry j with deadline := none, outbox := some now } else w.entry j := by
  by_cases hj : j = i <;> simp [entry, zscore_zrem, zscore_zadd, hj]

theorem entry_forget :
    (w.forget i).entry j =
      if j = i then ⟨(w.entry j).key, none, none, none⟩ else w.entry j := by
  by_cases hj : j = i <;> simp [entry, forget, zscore_zrem, hj]

/-- Writing back what is there changes nothing. -/
theorem hset_self {w : World} {i : String} {h : RunHash} (hfind : w.find i = some h) :
    w.hset i h = w := by
  obtain ⟨k, hk, hv, -⟩ := get_eq_some.mp hfind
  unfold hset
  rw [hk, Option.map_some, ← hv, ← hk, Function.update_eq_self]

theorem hset_find {w : World} {i : String} {h : RunHash} (hfind : w.find i = some h) (g : RunHash) :
    (w.hset i g).find i = some g := by
  obtain ⟨k, hk, -, hlt⟩ := get_eq_some.mp hfind
  apply get_eq_some.mpr
  refine ⟨⟨g, k.expires_at⟩, ?_, rfl, hlt⟩
  simp [hset, hk]

end World

/-! ## The cases of `INGEST_SCRIPT` -/

namespace IngestArgs

/-- The script refuses the arguments. -/
def Refused (a : IngestArgs) (now : Nat) : Prop :=
  a.areInvalid now ∨ (∃ c ∈ a.slice.counts, lua.MAX_EXACT < c) ∨
    ∃ e ∈ a.slice.errors, lua.MAX_EXACT < e.2

/-- The hash of a run that exists, with its bounds set. -/
def bind (a : IngestArgs) (h : RunHash) : RunHash :=
  { h with histogram_bounds := a.histogram_bounds }

/-- The run is the one that the arguments are for, and its bounds are set or can be set. -/
structure Binds (a : IngestArgs) (h : RunHash) : Prop where
  agree : ¬ a.conflicts h
  unset : h.histogram_bounds = [] → h.received_slices = 0

theorem bind_eq_self {a : IngestArgs} {h : RunHash} (hagree : ¬ a.conflicts h)
    (hset : h.histogram_bounds ≠ []) : a.bind h = h := by
  have hbounds : h.histogram_bounds = a.histogram_bounds := by
    by_contra hne
    exact hagree (.inr (.inr (.inr (.inr ⟨hset, hne⟩))))
  unfold bind
  rw [← hbounds]

end IngestArgs

/-- The hash into which a slice is accepted, complete when the slice is the last one. -/
def accepted_hash (a : IngestArgs) (now : Nat) (h : RunHash) : RunHash :=
  let merged := merged_hash a now h
  if merged.received_slices = a.expected_slices then merged.finalize .Complete now else merged

/-- The reply and the world of `INGEST_SCRIPT`. -/
inductive Ingested (a : IngestArgs) (w : World) : Reply × World → Prop
  | refused {message : String} (hrefused : a.Refused w.now)
      (hmessage : ¬ is_permanent_result_conflict message) : Ingested a w (⟨5, message, none⟩, w)
  | full (hgone : w.find a.run_id = none) (hfull : a.max_active_runs ≤ zcard w.prune.active) :
      Ingested a w (⟨8, "bounded active-run capacity exceeded", none⟩, w.prune)
  | overflow {code : Nat} {message : String} (hgone : w.find a.run_id = none)
      (hrefusal : refusal a Tally.empty = some (code, message)) :
      Ingested a w (⟨code, message, none⟩, w.prune)
  | first (hgone : w.find a.run_id = none) (hfree : zcard w.prune.active < a.max_active_runs)
      (hrefusal : refusal a Tally.empty = none) :
      Ingested a w (accept a { w.prune with
          deadlines := zadd w.prune.deadlines (w.now + a.partial_timeout_ms) a.run_id }
        (first_hash a w.now))
  | conflict {h : RunHash} (hfind : w.find a.run_id = some h) (hconflict : a.conflicts h) :
      Ingested a w (⟨5, "scenario, schema, expected slices, or histogram bounds changed", some h⟩,
        w.prune)
  | unset {h : RunHash} (hfind : w.find a.run_id = some h) (hagree : ¬ a.conflicts h)
      (hbounds : h.histogram_bounds = []) (hreceived : h.received_slices ≠ 0) :
      Ingested a w (⟨5, "registered run histogram is unset after accepting slices",
        some h⟩, w.prune)
  | bound {h : RunHash} (hfind : w.find a.run_id = some h) (hbinds : a.Binds h) :
      Ingested a w (ingest_bound a (w.prune.hset a.run_id (a.bind h)) (a.bind h))

theorem ingest_script_cases (a : IngestArgs) (w : World) : Ingested a w (ingest_script a w) := by
  unfold ingest_script
  split
  · rename_i h
    exact .refused (.inl h) (by decide)
  split
  · rename_i h
    exact .refused (.inr (.inl h)) (by decide)
  split
  · rename_i h
    exact .refused (.inr (.inr h)) (by decide)
  dsimp only
  split
  · rename_i hgone
    split
    · rename_i hfull
      exact .full hgone hfull
    · rename_i hfree
      split
      · rename_i hrefusal
        exact .overflow hgone hrefusal
      · rename_i hrefusal
        exact .first hgone (Nat.not_le.mp hfree) hrefusal
  · rename_i h hfind
    split
    · rename_i hconflict
      exact .conflict hfind hconflict
    · rename_i hagree
      split
      · rename_i hbounds
        split
        · rename_i hreceived
          exact .unset hfind hagree hbounds hreceived
        · rename_i hreceived
          exact .bound hfind ⟨hagree, fun _ => not_not.mp hreceived⟩
      · rename_i hset
        have hbound := Ingested.bound hfind ⟨hagree, fun hnil => absurd hnil hset⟩
        rwa [IngestArgs.bind_eq_self hagree hset, World.hset_self (w := w.prune) hfind] at hbound

end pulse.aggregation
