-- What `ingest` answers on the hash of a run that keeps the invariant: a
-- slice that the script accepts or knows gives an update, never an error.
import Pulse.AggregationDecode

open checks counters durations keyspace sorted_sets
open pulse.contracts

namespace pulse.aggregation

open RedisRunAggregationStore

/-! ## Updates -/

namespace RunAggregationUpdate

/-- The slice was new and is counted now. -/
def accepts : RunAggregationUpdate → Prop
  | .Accepted _ _ | .LateAccepted _ _ | .Completed _ | .LateCompleted _ => True
  | .Duplicate _ _ _ => False

/-- The slice was the last one of its run. -/
def completes : RunAggregationUpdate → Prop
  | .Completed _ | .LateCompleted _ => True
  | .Accepted _ _ | .LateAccepted _ _ | .Duplicate _ _ _ => False

end RunAggregationUpdate

section replies

variable {store : RedisRunAggregationStore} {result : ScenarioRunResult} {a : IngestArgs}
  {h : RunHash} {l : List Slice}

/-! ## The first checks of the script -/

/-- A store whose timeout is a millisecond at least keeps its runs for a millisecond at least. -/
theorem RedisRunAggregationStore.retention_pos (hpos : 1 ≤ store.partial_timeout_ms) :
    1 ≤ store.retention_ms :=
  Nat.le_trans hpos (Duration.as_millis_mono store.retention_exceeds.le)

/-- Arguments that passed the checks of the store pass the first checks of the script, as long as
the deadline is exact. -/
theorem Admissible.not_refused (ha : Admissible store result a)
    (hpos : 1 ≤ store.partial_timeout_ms) {now : Nat}
    (hexact : now + store.partial_timeout_ms ≤ lua.MAX_EXACT) : ¬ a.Refused now := by
  have hindex := ha.index_lt
  have htotal := ha.total_exact
  have houtcome := ha.outcome
  have hretention := ha.retention_ms
  have htimeout := ha.partial_timeout_ms
  have hkept := retention_pos hpos
  have hkinds := store.error_kinds_limit.1
  have hactive := store.active_runs_limit.1
  rintro (hargs | ⟨c, hc, hlt⟩ | ⟨e, he, hlt⟩)
  · unfold IngestArgs.areInvalid at hargs
    rw [ha.max_error_kinds, ha.max_active_runs] at hargs
    omega
  · have hle := ha.counts_exact c hc
    omega
  · have hle := ha.errors_exact e he
    omega

/-! ## Replies -/

theorem accept_reply (a : IngestArgs) (w : World) (h : RunHash) :
    (accept a w h).1 =
      ⟨if (merged_hash a w.now h).received_slices = a.expected_slices then
          if h.isLate then 4 else 3
        else if h.isLate then 7 else 1, "", some (accepted_hash a w.now h)⟩ := by
  unfold accept accepted_hash
  dsimp only
  split <;> rfl

variable {w : World}

section

variable (hg : Good store (accepted_hash a w.now h) l)
include hg

/-- The answer to the last slice of a run: the record is finalized and decodes to its summary. -/
theorem ingest_reply_last (ht : Timed (accepted_hash a w.now h))
    (hlast : (merged_hash a w.now h).received_slices = a.expected_slices) :
    ∃ first final, store.ingest_reply (accept a w h).1 =
      .ok (if h.isLate then .LateCompleted ((accepted_hash a w.now h).summary .Complete first final)
        else .Completed ((accepted_hash a w.now h).summary .Complete first final)) := by
  have hunset : l = [] → (accepted_hash a w.now h).histogram_bounds = [] := by
    intro hnil
    have hreceived := hg.received
    rw [(accepted_hash_fields a w.now h).1, hnil] at hreceived
    cases hreceived
  have hcomplete : (accepted_hash a w.now h).status = .Complete := by
    unfold accepted_hash
    dsimp only
    rw [if_pos hlast]
    rfl
  obtain ⟨status, first, final, hdecodes⟩ := hg.decodes ht hunset (by simp [hcomplete])
  have hstatus : status = .Complete := by
    have hread := (hdecodes "").1
    rw [hcomplete] at hread
    exact (Except.ok.inj hread).symm
  subst hstatus
  refine ⟨first, final, ?_⟩
  rw [accept_reply, if_pos hlast]
  by_cases hlate : h.isLate
  · simp only [if_pos hlate, ingest_reply, (hdecodes _).2]
    rfl
  · simp only [if_neg hlate, ingest_reply, (hdecodes _).2]
    rfl

/-- The answer to a slice after which the run waits for more. -/
theorem ingest_reply_waiting (hlast : (merged_hash a w.now h).received_slices ≠ a.expected_slices) :
    ∃ received expected, store.ingest_reply (accept a w h).1 =
      .ok (if h.isLate then .LateAccepted received expected else .Accepted received expected) := by
  have hprogress := hg.progress_ok "aggregation_ingest"
  refine ⟨(accepted_hash a w.now h).received_slices,
    lua.tonumber (accepted_hash a w.now h).expected_slices, ?_⟩
  rw [accept_reply, if_neg hlast]
  by_cases hlate : h.isLate
  · simp only [if_pos hlate, ingest_reply, hprogress]
    rfl
  · simp only [if_neg hlate, ingest_reply, hprogress]
    rfl

/-- The answer to a slice that is accepted. -/
theorem ingest_reply_accepted (ht : (merged_hash a w.now h).received_slices = a.expected_slices →
      Timed (accepted_hash a w.now h)) :
    ∃ update, store.ingest_reply (accept a w h).1 = .ok update ∧ update.accepts ∧
      (update.completes ↔ (merged_hash a w.now h).received_slices = a.expected_slices) := by
  by_cases hlast : (merged_hash a w.now h).received_slices = a.expected_slices
  · obtain ⟨first, final, hreply⟩ := ingest_reply_last hg (ht hlast) hlast
    refine ⟨_, hreply, ?_, ?_⟩
    · split <;> trivial
    · simp only [hlast, iff_true]
      split <;> trivial
  · obtain ⟨received, expected, hreply⟩ := ingest_reply_waiting hg hlast
    refine ⟨_, hreply, ?_, ?_⟩
    · split <;> trivial
    · simp only [hlast, iff_false]
      split <;> exact id

end

/-- The answer to a slice that the run has already. -/
theorem ingest_reply_duplicate (hg : Good store h l) :
    ∃ received expected status,
      store.ingest_reply ⟨2, "", some h⟩ = .ok (.Duplicate received expected status) := by
  have hfinal : ∃ status, ∀ operation, finalized_status h.status operation = .ok status := by
    cases hs : h.status with
    | Other text => exact absurd hs (hg.status text)
    | Open => exact ⟨none, fun _ => rfl⟩
    | Partial => exact ⟨some .Partial, fun _ => rfl⟩
    | TimedOut => exact ⟨some .TimedOut, fun _ => rfl⟩
    | Cancelled => exact ⟨some .Cancelled, fun _ => rfl⟩
    | Complete => exact ⟨some .Complete, fun _ => rfl⟩
  obtain ⟨status, hstatus⟩ := hfinal
  refine ⟨h.received_slices, lua.tonumber h.expected_slices, status, ?_⟩
  simp only [ingest_reply, hg.progress_ok, ok_bind, hstatus]
  rfl

/-! ## Slices that a run knows -/

theorem verdict_of_known (hstatus : ∀ text, h.status ≠ .Other text)
    (hknown : h.slices.lookup a.slice.index = some a.slice.execution_key) :
    verdict a h = .Duplicate := by
  unfold verdict
  split
  · rename_i text hs
    exact absurd hs (hstatus text)
  · rw [hknown]
    simp

theorem verdict_of_terminal (hslice : h.slices.lookup a.slice.index = none)
    (hexecution : h.executions.lookup a.slice.execution_key = none)
    (hstatus : h.status = .Complete ∨ h.status = .Cancelled) :
    verdict a h = .Reject 5 "terminal run cannot accept an unrecorded slice" := by
  unfold verdict
  rw [hslice, hexecution]
  rcases hstatus with hs | hs
  · rw [hs]
    rfl
  · rw [hs]
    rfl

/-- A slice that passes every check on a run that waits for slices is accepted. -/
theorem verdict_of_new (hslice : h.slices.lookup a.slice.index = none)
    (hexecution : h.executions.lookup a.slice.execution_key = none)
    (hstatus : h.status = .Open ∨ h.isLate) (hreceived : h.received_slices < a.expected_slices)
    (hrefusal : refusal a h.toTally = none) : verdict a h = .Accept := by
  unfold verdict
  split
  · rename_i text hs
    rcases hstatus with ho | ho | ho <;> rw [ho] at hs <;> cases hs
  · rw [hslice, hexecution]
    dsimp only
    rw [if_neg, if_neg (Nat.not_le.mpr hreceived), hrefusal]
    rcases hstatus with ho | ho | ho <;> simp [ho]

/-! ## The branches of the script -/

/-- The first slice of a run that is not there. -/
theorem ingest_first (hrefused : ¬ a.Refused w.now) (hgone : w.find a.run_id = none)
    (hfree : zcard w.prune.active < a.max_active_runs) (hrefusal : refusal a Tally.empty = none) :
    ingest_script a w = accept a
      { w.prune with deadlines := zadd w.prune.deadlines (w.now + a.partial_timeout_ms) a.run_id }
      (first_hash a w.now) := by
  have hcases := ingest_script_cases a w
  generalize ingest_script a w = outcome at hcases
  cases hcases with
  | refused h => exact absurd h hrefused
  | full _ h => omega
  | overflow _ h => rw [hrefusal] at h; cases h
  | first => rfl
  | conflict h => rw [hgone] at h; cases h
  | unset h => rw [hgone] at h; cases h
  | bound h => rw [hgone] at h; cases h

/-- A slice of a run that is there contradicts it, finds slices without bounds, or is bound to
it. -/
theorem ingest_found (hrefused : ¬ a.Refused w.now) (hfind : w.find a.run_id = some h) :
    a.conflicts h ∨
      (h.histogram_bounds = [] ∧ h.received_slices ≠ 0 ∧ ingest_script a w =
        (⟨5, "registered run histogram is unset after accepting slices", some h⟩, w.prune)) ∨
      (a.Binds h ∧
        ingest_script a w = ingest_bound a (w.prune.hset a.run_id (a.bind h)) (a.bind h)) := by
  have hcases := ingest_script_cases a w
  generalize ingest_script a w = outcome at hcases
  cases hcases with
  | refused h => exact absurd h hrefused
  | full h | overflow h | first h =>
    rw [hfind] at h
    cases h
  | conflict h hconflict =>
    rw [hfind] at h
    cases h
    exact .inl hconflict
  | unset h _ hbounds hreceived =>
    rw [hfind] at h
    cases h
    exact .inr (.inl ⟨hbounds, hreceived, rfl⟩)
  | bound h hbinds =>
    rw [hfind] at h
    cases h
    exact .inr (.inr ⟨hbinds, rfl⟩)

/-- A slice of a run that is there and agrees with it. -/
theorem ingest_existing (hrefused : ¬ a.Refused w.now) (hfind : w.find a.run_id = some h)
    (hbinds : a.Binds h) :
    ingest_script a w = ingest_bound a (w.prune.hset a.run_id (a.bind h)) (a.bind h) := by
  rcases ingest_found hrefused hfind with hconflict | ⟨hbounds, hreceived, -⟩ | ⟨-, heq⟩
  · exact absurd hconflict hbinds.agree
  · exact absurd (hbinds.unset hbounds) hreceived
  · exact heq

/-- Arguments that the script refuses change nothing. -/
theorem ingest_refused (hrefused : a.Refused w.now) : (ingest_script a w).2 = w := by
  unfold ingest_script
  split
  · rfl
  split
  · rfl
  split
  · rfl
  · rename_i hargs hcounts herrors
    rcases hrefused with h | h | h
    · exact absurd h hargs
    · exact absurd h hcounts
    · exact absurd h herrors

/-- A slice of a run that has slices and no bounds. -/
theorem ingest_unset (hrefused : ¬ a.Refused w.now) (hfind : w.find a.run_id = some h)
    (hagree : ¬ a.conflicts h) (hbounds : h.histogram_bounds = [])
    (hreceived : h.received_slices ≠ 0) :
    ingest_script a w =
      (⟨5, "registered run histogram is unset after accepting slices", some h⟩, w.prune) := by
  rcases ingest_found hrefused hfind with hconflict | ⟨-, -, heq⟩ | ⟨hbinds, -⟩
  · exact absurd hconflict hagree
  · exact heq
  · exact absurd (hbinds.unset hbounds) hreceived

variable {now retention_ms : Nat}

theorem get_refreshed (hpos : 1 ≤ retention_ms) (pending : Prop) [Decidable pending] (h : RunHash) :
    get now (some ⟨h, if pending then none else some (now + retention_ms)⟩) = some h := by
  split
  · rfl
  · exact get_of_lt h (by omega)

theorem accept_find (w : World) (hpos : 1 ≤ a.retention_ms) :
    (accept a w h).2.find a.run_id = some (accepted_hash a w.now h) := by
  have hentry := entry_accept a w h a.run_id
  rw [if_pos rfl] at hentry
  change get (accept a w h).2.now ((accept a w h).2.entry a.run_id).key = _
  rw [hentry, accept_now, Entry.accept_key]
  exact get_refreshed hpos _ _

theorem refresh_find (w : World) (i : String) (hpos : 1 ≤ retention_ms) (h : RunHash) :
    (w.refresh_retention i retention_ms h).find i = some h := by
  have hentry := World.entry_refresh w i i retention_ms h
  rw [if_pos rfl] at hentry
  change get (w.refresh_retention i retention_ms h).now
    ((w.refresh_retention i retention_ms h).entry i).key = _
  rw [hentry, World.refresh_retention_now, Entry.refresh_key]
  exact get_refreshed hpos _ _

/-! ## Sums within the exact range -/

theorem sum_is_exact_iff {current incoming : Nat} :
    sum_is_exact current incoming ↔ current + incoming ≤ lua.MAX_EXACT := by
  unfold sum_is_exact
  omega

/-- The script refuses a slice only when it makes too many kinds or a sum that is not exact. -/
theorem refusal_of_sums {t : Tally}
    (hkinds : t.error_kind_count + (a.slice.errors.filter fun e => e.1 ∉ t.errors).length ≤
      a.max_error_kinds)
    (htotal : t.total + a.slice.total ≤ lua.MAX_EXACT)
    (hsuccess : t.success + a.slice.success ≤ lua.MAX_EXACT)
    (hfailure : t.failure + a.slice.failure ≤ lua.MAX_EXACT)
    (hlatency : ∀ c ∈ indexed a.slice.counts, count t.latency c.1 + c.2 ≤ lua.MAX_EXACT)
    (herrors : ∀ e ∈ a.slice.errors, count t.errors e.1 + e.2 ≤ lua.MAX_EXACT) :
    refusal a t = none := by
  unfold refusal
  simp only [sum_is_exact_iff]
  rw [if_neg (Nat.not_lt.mpr hkinds), if_neg (by omega), if_neg, if_neg]
  · rintro ⟨e, he, hexact⟩
    exact hexact (herrors e he)
  · rintro ⟨c, hc, hexact⟩
    exact hexact (hlatency c hc)

end replies

end pulse.aggregation
