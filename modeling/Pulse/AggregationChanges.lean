-- What a call can leave in the hash of a run, and what the ingest script
-- decides on a slice. The laws that only look at the hash are proved over
-- these cases.
import Pulse.AggregationEffects

open counters keyspace systems
open pulse.contracts

namespace pulse.aggregation

/-! ## Hashes -/

/-- What a call can leave in the key of the run `i`, after it found `found`. -/
inductive Change (store : RedisRunAggregationStore) (now : Nat) (i : String) :
    Op → Option RunHash → RunHash → Prop
  | same (op : Op) (h : RunHash) : Change store now i op (some h) h
  | registered {window : DispatchWindow} {load_duration : Nat} {a : RegisterArgs}
      (hargs : register_args store.registration window load_duration = .ok a)
      (hrun : a.run_id = i) (hexpected : 1 ≤ a.expected_slices) :
      Change store now i (.register_run window load_duration) none (registered_hash a)
  | first {result : ScenarioRunResult} {a : IngestArgs}
      (hargs : store.ingest_args result = .ok a) (hrun : a.run_id = i)
      (hrefusal : refusal a Tally.empty = none) :
      Change store now i (.ingest result) none (accepted_hash a now (first_hash a now))
  | bound {result : ScenarioRunResult} {a : IngestArgs} {h : RunHash}
      (hargs : store.ingest_args result = .ok a) (hrun : a.run_id = i) (hbinds : a.Binds h)
      (hverdict : verdict a (a.bind h) ≠ .Accept) :
      Change store now i (.ingest result) (some h) (a.bind h)
  | accepted {result : ScenarioRunResult} {a : IngestArgs} {h : RunHash}
      (hargs : store.ingest_args result = .ok a) (hrun : a.run_id = i) (hbinds : a.Binds h)
      (hverdict : verdict a (a.bind h) = .Accept) :
      Change store now i (.ingest result) (some h) (accepted_hash a now (a.bind h))
  | timed_out {h : RunHash} (hstatus : h.status = .Open)
      (hdeadline : lua.tonumber h.deadline_at ≤ now) :
      Change store now i (.mark_expired i) (some h) (h.finalize .TimedOut now)
  | finalized {h : RunHash} {status : ScenarioRunSummaryStatus} {requested : RunStatus}
      (hstatus : h.status = .Open) (hrequested : requested = .Partial ∨ requested = .Cancelled) :
      Change store now i (.finalize_run i status) (some h) (h.finalize requested now)
  | acknowledged {h : RunHash} {revision : UInt64} (hrevision : revision.toNat ≤ h.summary_revision)
      (hnew : lua.tonumber h.summary_ack_revision < revision.toNat) :
      Change store now i (.acknowledge_summary i revision) (some h) (h.acknowledge revision.toNat)

theorem Entry.refresh_key (e : Entry) (now retention_ms : Nat) (h : RunHash) :
    (e.refresh now retention_ms h).key =
      some ⟨h, if h.isPending then none else some (now + retention_ms)⟩ := by
  unfold refresh
  split <;> rfl

theorem Entry.accept_key (e : Entry) (now : Nat) (a : IngestArgs) (h : RunHash) :
    (e.accept now a h).key = some ⟨accepted_hash a now h,
      if (accepted_hash a now h).isPending then none else some (now + a.retention_ms)⟩ := by
  unfold accept accepted_hash
  dsimp only
  split <;> exact refresh_key _ _ _ _

theorem Entry.hset_key {e : Entry} {now : Nat} {h : RunHash} (hfind : e.find now = some h)
    (g : RunHash) : ∃ x, (e.hset g).key = some ⟨g, x⟩ := by
  obtain ⟨k, hk, -⟩ := get_eq_some.mp hfind
  exact ⟨k.expires_at, by simp [hset, hk]⟩

variable {store : RedisRunAggregationStore}

/-- The key stays, or it gets a hash that the call can leave. -/
theorem Effect.change {now : Nat} {i : String} {op : Op} {e e' : Entry}
    (heffect : Effect store now i op e e') :
    e'.key = e.key ∨ ∃ h x, e'.key = some ⟨h, x⟩ ∧ Change store now i op (e.find now) h := by
  cases heffect with
  | idle | pruned | forgotten | absent | cleaned => exact .inl rfl
  | registered hargs hrun hexpected hgone =>
    rw [hgone]
    exact .inr ⟨_, _, rfl, .registered hargs hrun hexpected⟩
  | registered_again hfind =>
    rw [hfind]
    exact .inr ⟨_, _, Entry.refresh_key _ _ _ _, .same _ _⟩
  | first hargs hrun hgone hrefusal =>
    rw [hgone]
    exact .inr ⟨_, _, Entry.accept_key _ _ _ _, .first hargs hrun hrefusal⟩
  | duplicate hargs hrun hfind hbinds hverdict =>
    rw [hfind]
    exact .inr ⟨_, _, Entry.refresh_key _ _ _ _, .bound hargs hrun hbinds (by simp [hverdict])⟩
  | rejected hargs hrun hfind hbinds hverdict =>
    obtain ⟨x, hx⟩ := Entry.hset_key (e := e.prune now) hfind _
    rw [hfind]
    exact .inr ⟨_, x, hx, .bound hargs hrun hbinds (by simp [hverdict])⟩
  | accepted hargs hrun hfind hbinds hverdict =>
    rw [hfind]
    exact .inr ⟨_, _, Entry.accept_key _ _ _ _, .accepted hargs hrun hbinds hverdict⟩
  | timed_out hfind hstatus hdeadline =>
    rw [hfind]
    exact .inr ⟨_, _, rfl, .timed_out hstatus hdeadline⟩
  | finalized hfind hstatus hrequested =>
    rw [hfind]
    exact .inr ⟨_, _, rfl, .finalized hstatus hrequested⟩
  | @touched _ _ h hfind =>
    unfold Entry.touch
    split
    · rw [hfind]
      exact .inr ⟨_, _, rfl, .same _ _⟩
    · exact .inl rfl
  | acknowledged_stale hfind hrevision hnew | acknowledged_other hfind hrevision hnew =>
    obtain ⟨x, hx⟩ := Entry.hset_key hfind _
    rw [hfind]
    exact .inr ⟨_, x, hx, .acknowledged hrevision.le hnew⟩
  | acknowledged_again hfind =>
    rw [hfind]
    exact .inr ⟨_, _, rfl, .same _ _⟩
  | acknowledged hfind hrevision hnew =>
    rw [hfind]
    exact .inr ⟨_, _, rfl, .acknowledged hrevision.le hnew⟩

/-- The hash that a script finds after a call is a change of the one that the call found. -/
theorem step_change {w : World} {op : Op} {i : String} {h : RunHash}
    (hfind : (w.step store op).find i = some h) : Change store w.now i op (w.find i) h := by
  have hnow : w.now ≤ (w.step store op).now := by
    rw [step_now]
    omega
  -- The key was there at the time of the call too.
  have hbefore : ((w.step store op).entry i).find w.now = some h := get_earlier hnow hfind
  rcases (step_effect store w op i).change with hsame | ⟨h', x, hkey, hchange⟩
  · rw [Entry.find, hsame] at hbefore
    change w.find i = some h at hbefore
    rw [hbefore]
    exact .same op h
  · obtain ⟨k, hk, rfl, -⟩ := get_eq_some.mp hbefore
    rw [hkey] at hk
    cases hk
    exact hchange

/-- What every change by an allowed call gives to the new hash holds for every hash that a script
finds in a reachable state. -/
theorem hash_invariant {limit : Nat} {allowed : World → Op → Prop} {P : String → RunHash → Prop}
    (hchange : ∀ {w op i found h}, w.now < limit → allowed w op →
      (∀ g, found = some g → P i g) → Change store w.now i op found h → P i h) {w : World}
    (hw : Reachable (storeSystem store limit allowed) w) {i : String} {h : RunHash}
    (hfind : w.find i = some h) : P i h := by
  have hinv : w.now < limit ∧ ∀ i h, w.find i = some h → P i h := by
    refine Reachable.invariant (I := fun w => w.now < limit ∧ ∀ i h, w.find i = some h → P i h)
      ?_ ?_ hw
    · rintro w ⟨now, hnow, rfl⟩
      refine ⟨hnow, fun i h hfind => ?_⟩
      cases hfind
    · rintro w op ⟨hnow, hp⟩ ⟨hallowed, hlimit⟩
      exact ⟨hlimit, fun i h hfind => hchange hnow hallowed (hp i) (step_change hfind)⟩
  exact hinv.2 i h hfind

/-! ## Verdicts -/

/-- The verdict on a slice, with the check that gave it. -/
inductive Decided (a : IngestArgs) (h : RunHash) : Verdict → Prop
  | unknown {text : String} (hstatus : h.status = .Other text) :
      Decided a h (.Reject 5 "stored aggregation status is invalid")
  | duplicate (hstatus : ∀ text, h.status ≠ .Other text)
      (hknown : h.slices.lookup a.slice.index = some a.slice.execution_key ∨
        h.executions.lookup a.slice.execution_key = some a.slice.index) :
      Decided a h .Duplicate
  | taken {key : String} (hslice : h.slices.lookup a.slice.index = some key)
      (hne : key ≠ a.slice.execution_key) :
      Decided a h (.Reject 5 "slice index already belongs to a different execution identity")
  | moved {index : Nat} (hslice : h.slices.lookup a.slice.index = none)
      (hexecution : h.executions.lookup a.slice.execution_key = some index)
      (hne : index ≠ a.slice.index) :
      Decided a h (.Reject 5 "execution identity already belongs to a different slice")
  | terminal (hslice : h.slices.lookup a.slice.index = none)
      (hexecution : h.executions.lookup a.slice.execution_key = none)
      (hstatus : h.status = .Complete ∨ h.status = .Cancelled) :
      Decided a h (.Reject 5 "terminal run cannot accept an unrecorded slice")
  | overrun (hstatus : h.status ≠ .Complete) (hreceived : a.expected_slices ≤ h.received_slices) :
      Decided a h (.Reject 5 "stored aggregation counters are invalid")
  | refused {code : Nat} {message : String} (hslice : h.slices.lookup a.slice.index = none)
      (hexecution : h.executions.lookup a.slice.execution_key = none)
      (hstatus : h.status = .Open ∨ h.isLate) (hreceived : h.received_slices < a.expected_slices)
      (hrefusal : refusal a h.toTally = some (code, message)) :
      Decided a h (.Reject code message)
  | accepted (hslice : h.slices.lookup a.slice.index = none)
      (hexecution : h.executions.lookup a.slice.execution_key = none)
      (hstatus : h.status = .Open ∨ h.isLate) (hreceived : h.received_slices < a.expected_slices)
      (hrefusal : refusal a h.toTally = none) :
      Decided a h .Accept

theorem verdict_cases (a : IngestArgs) (h : RunHash) : Decided a h (verdict a h) := by
  unfold verdict
  split
  · rename_i text hstatus
    exact .unknown hstatus
  · rename_i status hknown
    have hstatus : ∀ text, h.status ≠ .Other text := hknown
    split
    · rename_i key hslice
      split
      · rename_i hkey
        exact .duplicate hstatus (.inl (hkey ▸ hslice))
      · rename_i hne
        exact .taken hslice hne
    · rename_i index hslice hexecution
      split
      · rename_i hindex
        exact .duplicate hstatus (.inr (hindex ▸ hexecution))
      · rename_i hne
        exact .moved hslice hexecution hne
    · rename_i hslice hexecution
      split
      · rename_i hterminal
        exact .terminal hslice hexecution hterminal
      · rename_i hterminal
        have hopen : h.status = .Open ∨ h.isLate := by
          unfold RunHash.isLate
          cases hs : h.status with
          | Open | Partial | TimedOut => simp
          | Other text => exact absurd hs (hstatus text)
          | Complete => exact absurd (.inl hs) hterminal
          | Cancelled => exact absurd (.inr hs) hterminal
        split
        · rename_i hreceived
          exact .overrun (fun hs => hterminal (.inl hs)) hreceived
        · rename_i hreceived
          split
          · rename_i hrefusal
            exact .refused hslice hexecution hopen (Nat.not_le.mp hreceived) hrefusal
          · rename_i hrefusal
            exact .accepted hslice hexecution hopen (Nat.not_le.mp hreceived) hrefusal

theorem refusal_eq_none {a : IngestArgs} {t : Tally} (h : refusal a t = none) :
    t.error_kind_count + (a.slice.errors.filter fun e => e.1 ∉ t.errors).length ≤
        a.max_error_kinds ∧
      t.total + a.slice.total ≤ lua.MAX_EXACT ∧
      (∀ c ∈ indexed a.slice.counts, count t.latency c.1 + c.2 ≤ lua.MAX_EXACT) ∧
      ∀ e ∈ a.slice.errors, count t.errors e.1 + e.2 ≤ lua.MAX_EXACT := by
  unfold refusal at h
  dsimp only at h
  split at h
  · cases h
  rename_i hkinds
  split at h
  · cases h
  rename_i hsums
  split at h
  · cases h
  rename_i hlatency
  split at h
  · cases h
  rename_i herrors
  simp only [sum_is_exact, not_or, not_exists, not_and] at hsums hlatency herrors
  refine ⟨by omega, by omega, fun c hc => ?_, fun e he => ?_⟩
  · have := hlatency c hc
    omega
  · have := herrors e he
    omega

/-- A slice that passed the store's checks is never refused by a run without slices. -/
theorem refusal_empty {store : RedisRunAggregationStore} {result : ScenarioRunResult}
    {a : IngestArgs} (ha : Admissible store result a) : refusal a Tally.empty = none := by
  have hsuccess : a.slice.success ≤ lua.MAX_EXACT := by
    have := ha.outcome
    have := ha.total_exact
    omega
  have hfailure : a.slice.failure ≤ lua.MAX_EXACT := by
    have := ha.outcome
    have := ha.total_exact
    omega
  have hkinds := ha.kinds_limit
  have hfilter := List.length_filter_le (fun e => decide (e.1 ∉ Tally.empty.errors)) a.slice.errors
  have hzero : Tally.empty.error_kind_count = 0 := rfl
  unfold refusal
  dsimp only
  rw [if_neg (by rw [hzero, ha.max_error_kinds]; omega), if_neg, if_neg, if_neg]
  · rintro ⟨e, he, hexact⟩
    exact hexact ⟨Nat.zero_le _, ha.errors_exact e he⟩
  · rintro ⟨c, hc, hexact⟩
    obtain ⟨p, hp, rfl⟩ := List.mem_map.mp hc
    exact hexact ⟨Nat.zero_le _, ha.counts_exact _ (List.fst_mem_of_mem_zipIdx hp)⟩
  · simp only [sum_is_exact, Tally.empty, not_or, not_not]
    exact ⟨⟨Nat.zero_le _, ha.total_exact⟩, ⟨Nat.zero_le _, hsuccess⟩, Nat.zero_le _, hfailure⟩

end pulse.aggregation
