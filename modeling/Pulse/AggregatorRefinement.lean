-- The law of the two aggregators: the store in Redis answers the results and
-- the expiries of a run as the aggregator in memory does.
import Pulse.MirroredRun
import Pulse.RunDeadlines

open checks counters durations Duration keyspace sorted_sets systems
open pulse.contracts

namespace pulse.aggregation

open RedisRunAggregationStore

/-! ## Answers -/

/-- The answers of the two sides to a result say the same. -/
inductive Corresponds :
    StoreResult RunAggregationUpdate →
      Except AggregationError AggregationUpdate → Prop
  | accepted (received expected : Nat) : Corresponds (.ok (.Accepted received expected))
      (.ok .Accepted)
  | late_accepted (received expected : Nat) :
    Corresponds (.ok (.LateAccepted received expected)) (.ok .Accepted)
  | duplicate (received expected : Nat) (status : Option ScenarioRunSummaryStatus) :
    Corresponds (.ok (.Duplicate received expected status)) (.ok .Duplicate)
  | completed {redis memory : ScenarioRunSummary} (same : SameSummary redis memory) :
    Corresponds (.ok (.Completed redis)) (.ok (.Finalized memory))
  | late_completed {redis memory : ScenarioRunSummary} (same : SameSummary redis memory) :
    Corresponds (.ok (.LateCompleted redis)) (.ok (.LateUpdate memory))
  | refused (error : ContractError) : Corresponds (.error (.Contract error))
      (.error (.Contract error))

/-- The answers of the two sides to an expiry say the same: a run that is not due, or that has
ended, gives no summary in memory. -/
inductive ExpiryCorresponds :
    StoreResult RunExpiryOutcome → List ScenarioRunSummary → Prop
  | timed_out {redis memory : ScenarioRunSummary} (same : SameSummary redis memory)
      (status : redis.status = .TimedOut) : ExpiryCorresponds (.ok (.MarkedTimedOut redis)) [memory]
  | not_expired (retry_after : Nat) : ExpiryCorresponds (.ok (.NotExpired retry_after)) []
  | already_finalized (summary : ScenarioRunSummary) :
    ExpiryCorresponds (.ok (.AlreadyFinalized summary)) []

/-! ## The two sides of one run -/

/-- The status and the deadline of the record are those of the state. -/
structure Together (store : RedisRunAggregationStore) (state : RunState) (h : RunHash) : Prop where
  status : (h.status = .Open ∧ state.finalized_status = none) ∨
    (h.status = .TimedOut ∧ state.finalized_status = some .TimedOut) ∨
    (h.status = .Complete ∧ state.finalized_status = some .Complete)
  deadline : lua.tonumber h.deadline_at = state.first_result_at_unix_ms + store.partial_timeout_ms
  printed : lua.tonumber h.deadline_at < lua.FIRST_SCIENTIFIC

/-- The state of a run in memory and its record in Redis count the results `rs`. -/
structure Alike (store : RedisRunAggregationStore) (plan : RunPlan)
    (results rs : List ScenarioRunResult) (state : RunState) (h : RunHash) : Prop where
  subset : rs ⊆ results
  distinct : (rs.map (·.slice.index)).Nodup
  mirrors : Mirrors plan rs state
  holds : Holds store plan rs h
  together : Together store state h

section sides

variable {store : RedisRunAggregationStore} {plan : RunPlan} {results rs : List ScenarioRunResult}
  {r : ScenarioRunResult} {a : IngestArgs} {state : RunState} {h : RunHash} {w : World}

/-- A record that waits for slices is late when its state has ended. -/
theorem Together.late_iff (ht : Together store state h) (hwaits : h.status = .Open ∨ h.isLate) :
    h.isLate ↔ state.finalized_status.isSome = true := by
  unfold RunHash.isLate at *
  rcases ht.status with ⟨hs, hf⟩ | ⟨hs, hf⟩ | ⟨hs, hf⟩
  · simp [hs, hf]
  · simp [hs, hf]
  · simp [hs] at hwaits

/-- The record of a run that has ended decodes to a summary. -/
theorem Holds.decodes (hh : Holds store plan rs h) (hclosed : h.status ≠ .Open) :
    ∃ status first final, ∀ operation,
      summary_status h.status operation = .ok status ∧
        summary_from_snapshot (some h) operation = .ok (h.summary status first final) := by
  apply hh.good.decodes hh.timed _ hclosed
  intro hnil
  exact hh.unset (List.map_eq_nil_iff.mp hnil)

theorem Alike.summary (hl : Alike store plan results rs state h)
    (ha : Agreeing store plan results) (hne : rs ≠ []) (status : ScenarioRunSummaryStatus)
    (first final now : Nat) :
    SameSummary (h.summary status first final) (state.summary status now) :=
  mirrored_summary hl.mirrors hl.holds hne ha hl.subset hl.distinct status first final now

/-! ## A result -/

/-- The hash that a first result makes stands with the state that it makes. -/
theorem Together.first (hargs : store.ingest_args r = .ok a) {now : Nat}
    (hdeadline : now + store.partial_timeout_ms < lua.FIRST_SCIENTIFIC) :
    Together store (.from_first r now) { first_hash a now with histogram_bounds := [] } := by
  have ha := ingest_args_ok hargs
  have hnumber : lua.tonumber (first_hash a now).deadline_at = now + store.partial_timeout_ms := by
    rw [← ha.partial_timeout_ms] at hdeadline ⊢
    exact lua.tonumber_tostring hdeadline
  exact ⟨.inl ⟨rfl, rfl⟩, hnumber, hnumber.trans_lt hdeadline⟩

theorem accepted_hash_deadline (a : IngestArgs) (now : Nat) (h : RunHash) :
    (accepted_hash a now h).deadline_at = h.deadline_at := by
  unfold accepted_hash
  dsimp only
  split <;> rfl

theorem accepted_hash_status (a : IngestArgs) (now : Nat) (h : RunHash) :
    (accepted_hash a now h).status =
      if (merged_hash a now h).received_slices = a.expected_slices then .Complete
      else h.status := by
  unfold accepted_hash
  dsimp only
  split <;> rfl

/-- What the aggregator does with a result that is new to the run. -/
theorem Mirrors.ingest_new (hm : Mirrors plan rs state) (ha : Agreeing store plan results)
    (hr : r ∈ results) (hnew : ¬ state.knows r) (hroom : Room store state r)
    (hdistinct : ((rs ++ [r]).map (·.slice.index)).Nodup) (now : Nat) :
    ∃ merged, Mirrors plan (rs ++ [r]) merged ∧
      merged.finalized_status = state.finalized_status ∧
      merged.first_result_at_unix_ms = state.first_result_at_unix_ms ∧
      state.ingest r now =
        if rs.length + 1 = plan.total_slices.toNat then
          let final := { merged with finalized_status := some .Complete }
          (.ok (if state.finalized_status.isSome then .LateUpdate (final.summary .Complete now)
            else .Finalized (final.summary .Complete now)), final)
        else (.ok .Accepted, merged) := by
  obtain ⟨merged, hmerge, hmirrors, hstatus, hfirst⟩ := hm.merge ha hr hroom now
  refine ⟨merged, hmirrors, hstatus, hfirst, ?_⟩
  have hcard : merged.received_slice_indexes.card = rs.length + 1 := by
    rw [hmirrors.indexes, List.toFinset_card_of_nodup hdistinct]
    simp
  unfold RunState.ingest
  rw [hm.compatible_with ha hr]
  dsimp only
  rw [if_neg hnew, hmerge]
  dsimp only
  rw [hcard, hmirrors.expected_slices]

/-- A new result is accepted by both sides. -/
theorem Alike.accept (hl : Alike store plan results rs state h) (ha : Agreeing store plan results)
    (hr : r ∈ results) (hnew : ¬ state.knows r) (hroom : Room store state r)
    (hargs : store.ingest_args r = .ok a)
    (hnow : w.now < lua.FIRST_SCIENTIFIC) :
    Corresponds (store.ingest_reply (accept a w (a.bind h)).1) (state.ingest r w.now).1 ∧
      Alike store plan results (rs ++ [r]) (state.ingest r w.now).2
        (accepted_hash a w.now (a.bind h)) := by
  have hsub : rs ++ [r] ⊆ results := by simpa using ⟨hl.subset, hr⟩
  have hc := hl.mirrors.compatible ha hl.subset hl.distinct hr hnew hroom
  have hmem : r ∈ rs ++ [r] := by simp
  have hout : r ∉ rs := by
    intro hin
    exact hnew ((hl.mirrors.knows_iff ha hl.subset hr).mpr ⟨r, hin, rfl, rfl⟩)
  have hnodup : rs.Nodup := List.Nodup.of_map _ hl.distinct
  have hprior : rs ⊆ rs ++ [r] := List.subset_append_left _ _
  have hholds := hl.holds.accepted hc hnodup hprior hmem hout hargs hnow
  have hwaits := hl.holds.waits (hc.length_lt hnodup hprior hmem hout)
  have hlate : (a.bind h).isLate ↔ state.finalized_status.isSome = true :=
    hl.together.late_iff hwaits
  have hlast : (merged_hash a w.now (a.bind h)).received_slices = a.expected_slices ↔
      rs.length + 1 = plan.total_slices.toNat := by
    have hreceived : (merged_hash a w.now (a.bind h)).received_slices = rs.length + 1 := by
      change h.received_slices + 1 = _
      rw [hl.holds.good.received, List.length_map]
    rw [hreceived, ← (hl.holds.binds hc hmem hargs).expected, hl.holds.expected_slices]
  obtain ⟨merged, hmirrors, hstatus, hfirst, hingest⟩ :=
    hl.mirrors.ingest_new ha hr hnew hroom hc.indexes w.now
  have hdeadline : lua.tonumber (accepted_hash a w.now (a.bind h)).deadline_at =
      merged.first_result_at_unix_ms + store.partial_timeout_ms := by
    rw [accepted_hash_deadline, hfirst]
    exact hl.together.deadline
  have hprinted : lua.tonumber (accepted_hash a w.now (a.bind h)).deadline_at <
      lua.FIRST_SCIENTIFIC := by
    rw [accepted_hash_deadline]
    exact hl.together.printed
  rw [hingest]
  by_cases hend : rs.length + 1 = plan.total_slices.toNat
  · -- The last slice ends the run on both sides.
    obtain ⟨first, final, hreply⟩ := ingest_reply_last hholds.good hholds.timed (hlast.mpr hend)
    have halike : Alike store plan results (rs ++ [r])
        { merged with finalized_status := some .Complete } (accepted_hash a w.now (a.bind h)) := by
      refine ⟨hsub, hc.indexes, hmirrors.finalized _, hholds, ⟨?_, hdeadline, hprinted⟩⟩
      rw [accepted_hash_status, if_pos (hlast.mpr hend)]
      exact .inr (.inr ⟨rfl, rfl⟩)
    have hsame := halike.summary ha (by simp) .Complete first final w.now
    rw [if_pos hend, hreply]
    refine ⟨?_, halike⟩
    by_cases hs : state.finalized_status.isSome = true
    · simp only [if_pos hs, if_pos (hlate.mpr hs)]
      exact .late_completed hsame
    · simp only [if_neg hs, if_neg (mt hlate.mp hs)]
      exact .completed hsame
  · obtain ⟨received, expected, hreply⟩ := ingest_reply_waiting hholds.good (mt hlast.mp hend)
    rw [if_neg hend, hreply]
    constructor
    · split
      · exact .late_accepted _ _
      · exact .accepted _ _
    · refine ⟨hsub, hc.indexes, hmirrors, hholds, ⟨?_, hdeadline, hprinted⟩⟩
      rw [accepted_hash_status, if_neg (mt hlast.mp hend), hstatus]
      exact hl.together.status

/-- A run without results has room for each one. -/
theorem Agreeing.room_first (ha : Agreeing store plan results) (hr : r ∈ results) (now : Nat) :
    Room store (.from_first r now) r := by
  have hv := ha.isValid hr
  have htotal := ha.total r hr
  have houtcome := hv.outcome
  constructor
  · change 0 + r.total.toNat ≤ _
    omega
  · change 0 + r.success.toNat ≤ _
    omega
  · change 0 + r.failure.toNat ≤ _
    omega
  · intro bucket hb
    have hle := List.le_sum_of_mem (List.mem_map_of_mem (f := (·.count.toNat)) hb)
    rw [hv.counts (List.ne_nil_of_mem hb)] at hle
    change 0 + bucket.count.toNat ≤ _
    omega
  · intro error he
    change 0 + error.count.toNat ≤ _
    rw [Nat.zero_add]
    exact ha.errors r hr error he
  · have hle := (List.dedup_sublist (r.error_breakdown.map (·.kind))).length_le
    rw [List.length_map] at hle
    exact Nat.le_trans hle (ha.kinds r hr)

theorem not_knows_from_first (r : ScenarioRunResult) (now : Nat) :
    ¬ (RunState.from_first r now).knows r := by
  simp [RunState.knows, RunState.from_first]

/-- The store accepts each result. -/
theorem Agreeing.compatible_single (ha : Agreeing store plan results) (hr : r ∈ results) :
    Compatible store plan [r] :=
  (Mirrors.from_first ha hr 0).compatible ha (List.nil_subset _) List.nodup_nil hr
    (not_knows_from_first r 0) (ha.room_first hr 0)

/-- The first result of a run makes the record and the state. -/
theorem ingest_both_first (hpos : 1 ≤ store.partial_timeout_ms) (ha : Agreeing store plan results)
    (hr : r ∈ results) (hgone : w.find plan.run_id = none)
    (hdeadline : w.now + store.partial_timeout_ms < lua.FIRST_SCIENTIFIC)
    (hfree : zcard w.prune.active < store.max_active_runs) :
    Corresponds (store.ingest r w).1 ((RunState.from_first r w.now).ingest r w.now).1 ∧
      ∃ rs h', rs ≠ [] ∧ (store.ingest r w).2.find plan.run_id = some h' ∧
        Alike store plan results rs ((RunState.from_first r w.now).ingest r w.now).2 h' := by
  have hc := ha.compatible_single hr
  obtain ⟨a, hargs⟩ := hc.args List.mem_cons_self
  have hadm := ingest_args_ok hargs
  have harun : a.run_id = plan.run_id := hadm.run_id.trans (ha.run r hr).2.1
  have hnow : w.now < lua.FIRST_SCIENTIFIC := by omega
  have hexact : lua.FIRST_SCIENTIFIC ≤ lua.MAX_EXACT := by decide
  have hl : Alike store plan results [] (.from_first r w.now)
      { first_hash a w.now with histogram_bounds := [] } :=
    { subset := List.nil_subset _
      distinct := List.nodup_nil
      mirrors := .from_first ha hr w.now
      holds := .first hc List.mem_cons_self hargs hnow
      together := .first hargs hdeadline }
  have hrefused : ¬ a.Refused w.now := hadm.not_refused hpos (by omega)
  have hscript := ingest_first hrefused (by rw [harun]; exact hgone)
    (by rw [hadm.max_active_runs]; exact hfree) (refusal_empty hadm)
  rw [ingest_of_args hargs, hscript]
  obtain ⟨hcorresponds, halike⟩ := hl.accept ha hr (not_knows_from_first r w.now)
    (ha.room_first hr w.now) hargs
    (w := { w.prune with
      deadlines := zadd w.prune.deadlines (w.now + a.partial_timeout_ms) a.run_id }) hnow
  refine ⟨hcorresponds, _, _, by simp, ?_, halike⟩
  rw [← harun]
  apply accept_find
  rw [hadm.retention_ms]
  exact retention_pos hpos

/-- A later result of a run is new to both sides, or to none. -/
theorem Alike.ingest_both (hl : Alike store plan results rs state h) (hne : rs ≠ [])
    (hpos : 1 ≤ store.partial_timeout_ms) (ha : Agreeing store plan results)
    (hr : r ∈ results) (hfind : w.find plan.run_id = some h)
    (hdeadline : w.now + store.partial_timeout_ms < lua.FIRST_SCIENTIFIC)
    (hroom : ¬ state.knows r → Room store state r) :
    Corresponds (store.ingest r w).1 (state.ingest r w.now).1 ∧
      ∃ rs' h', rs' ≠ [] ∧ (store.ingest r w).2.find plan.run_id = some h' ∧
        Alike store plan results rs' (state.ingest r w.now).2 h' := by
  have hc := ha.compatible_single hr
  obtain ⟨a, hargs⟩ := hc.args List.mem_cons_self
  have hadm := ingest_args_ok hargs
  have harun : a.run_id = plan.run_id := hadm.run_id.trans (ha.run r hr).2.1
  have hexact : lua.FIRST_SCIENTIFIC ≤ lua.MAX_EXACT := by decide
  have hretention : 1 ≤ a.retention_ms := by
    rw [hadm.retention_ms]
    exact retention_pos hpos
  have hbinds := hl.holds.binds hc List.mem_cons_self hargs
  rw [ingest_of_args hargs, ingest_existing (hadm.not_refused hpos (by omega))
    (by rw [harun]; exact hfind) hbinds, ingest_bound]
  by_cases hknows : state.knows r
  · obtain ⟨r', hr', hindex, hkey⟩ := (hl.mirrors.knows_iff ha hl.subset hr).mp hknows
    have hset : h.histogram_bounds ≠ [] := by
      rw [hl.holds.bounds hne]
      exact ha.bounds_set
    have hmemory : state.ingest r w.now = (.ok .Duplicate, state) := by
      unfold RunState.ingest
      rw [hl.mirrors.compatible_with ha hr]
      dsimp only
      rw [if_pos hknows]
    obtain ⟨received, expected, status, hreply⟩ := ingest_reply_duplicate hl.holds.good
    rw [hl.holds.known hr' hindex hkey hargs, IngestArgs.bind_eq_self hbinds.agree hset, hmemory]
    dsimp only
    rw [hreply]
    refine ⟨.duplicate _ _ _, rs, h, hne, ?_, hl⟩
    rw [← harun]
    exact refresh_find _ _ hretention h
  · have hout : r ∉ rs := by
      intro hin
      exact hknows ((hl.mirrors.knows_iff ha hl.subset hr).mpr ⟨r, hin, rfl, rfl⟩)
    have hall := hl.mirrors.compatible ha hl.subset hl.distinct hr hknows (hroom hknows)
    rw [hl.holds.accepts hall (List.Nodup.of_map _ hl.distinct) (List.subset_append_left _ _)
      (by simp) hout hargs]
    obtain ⟨hcorresponds, halike⟩ := hl.accept ha hr hknows (hroom hknows) hargs
      (w := w.prune.hset a.run_id (a.bind h)) (Nat.lt_of_le_of_lt (Nat.le_add_right _ _) hdeadline)
    refine ⟨hcorresponds, _, _, by simp, ?_, halike⟩
    rw [← harun]
    exact accept_find _ hretention

/-- A result that the contract refuses is refused by both sides, and nothing changes. -/
theorem ingest_both_refused (store : RedisRunAggregationStore) (w : World)
    (aggregator : RunAggregator) (now : Nat) {error : ContractError}
    (hinvalid : r.validate = .error error) :
    store.ingest r w = (.error (.Contract error), w) ∧
      aggregator.ingest r now = (.error (.Contract error), aggregator) := by
  constructor
  · have hargs : store.ingest_args r = .error (.Contract error) := by
      simp only [ingest_args, normalize_result, check_result, hinvalid]
      rfl
    unfold ingest
    rw [hargs]
  · unfold RunAggregator.ingest
    rw [hinvalid]

/-! ## An expiry -/

/-- A run ends in memory when its record is open and due. -/
theorem Together.expires_iff (ht : Together store state h) (hpos : 1 ≤ store.partial_timeout_ms)
    (now : Nat) :
    (state.finalized_status.isSome ∨
      now - state.first_result_at_unix_ms < store.partial_timeout_ms) ↔
      ¬ (h.status = .Open ∧ lua.tonumber h.deadline_at ≤ now) := by
  rw [ht.deadline]
  rcases ht.status with ⟨hs, hf⟩ | ⟨hs, hf⟩ | ⟨hs, hf⟩
  · simp only [hs, hf, Option.isSome_none, Bool.false_eq_true, false_or, true_and]
    omega
  · simp [hs, hf]
  · simp [hs, hf]

/-- A run that is due is timed out by both sides. -/
theorem Alike.expire_due (hl : Alike store plan results rs state h) (hne : rs ≠ [])
    (hpos : 1 ≤ store.partial_timeout_ms) (ha : Agreeing store plan results)
    (hnow : w.now < lua.FIRST_SCIENTIFIC) (hexact : w.now + store.retention_ms ≤ lua.MAX_EXACT)
    (hid : validate_identity "run_id" plan.run_id = .ok ()) (hfind : w.find plan.run_id = some h)
    (hopen : h.status = .Open) (hdue : lua.tonumber h.deadline_at ≤ w.now) :
    ExpiryCorresponds (store.mark_expired plan.run_id w).1
        (state.expire w.now store.partial_timeout_ms).1.toList ∧
      (store.mark_expired plan.run_id w).2.find plan.run_id = some (h.finalize .TimedOut w.now) ∧
      Alike store plan results rs (state.expire w.now store.partial_timeout_ms).2
        (h.finalize .TimedOut w.now) := by
  have hmemory : state.expire w.now store.partial_timeout_ms =
      (some
          (({ state with finalized_status := some .TimedOut } : RunState).summary .TimedOut w.now),
        { state with finalized_status := some .TimedOut }) := by
    unfold RunState.expire
    rw [if_neg (mt (hl.together.expires_iff hpos w.now).mp (not_not.mpr ⟨hopen, hdue⟩))]
  have hholds := hl.holds.timed_out hopen hnow
  have halike : Alike store plan results rs { state with finalized_status := some .TimedOut }
      (h.finalize .TimedOut w.now) :=
    ⟨hl.subset, hl.distinct, hl.mirrors.finalized _, hholds,
      .inr (.inl ⟨rfl, rfl⟩), hl.together.deadline, hl.together.printed⟩
  obtain ⟨status, first, final, hdecodes⟩ := hholds.decodes (by simp [RunHash.finalize])
  have hstatus : status = .TimedOut := (Except.ok.inj (hdecodes "").1).symm
  subst hstatus
  rw [mark_expired_due hid (retention_pos hpos) hexact hfind hopen hdue, hmemory]
  refine ⟨?_, finalize_now_find _ _ _ _, halike⟩
  simp only [expiry_reply, (hdecodes _).2]
  exact .timed_out (halike.summary ha hne .TimedOut first final w.now) rfl

/-- A run that is not due, or has ended, gives no summary. -/
theorem Alike.expire_early (hl : Alike store plan results rs state h)
    (hpos : 1 ≤ store.partial_timeout_ms) (hexact : w.now + store.retention_ms ≤ lua.MAX_EXACT)
    (hid : validate_identity "run_id" plan.run_id = .ok ()) (hfind : w.find plan.run_id = some h)
    (hearly : ¬ (h.status = .Open ∧ lua.tonumber h.deadline_at ≤ w.now)) :
    ExpiryCorresponds (store.mark_expired plan.run_id w).1
        (state.expire w.now store.partial_timeout_ms).1.toList ∧
      (state.expire w.now store.partial_timeout_ms).2 = state := by
  have hmemory : state.expire w.now store.partial_timeout_ms = (none, state) := by
    unfold RunState.expire
    rw [if_pos ((hl.together.expires_iff hpos w.now).mpr hearly)]
  rw [hmemory]
  refine ⟨?_, rfl⟩
  have hretention := retention_pos hpos
  unfold mark_expired mark_expired_script
  rw [hid, store.checked_retention, hfind]
  dsimp only
  rw [if_neg (by omega)]
  rcases hl.together.status with ⟨hs, -⟩ | ⟨hs, -⟩ | ⟨hs, -⟩
  · have hlater : w.now < lua.tonumber h.deadline_at := by
      by_contra hle
      exact hearly ⟨hs, Nat.not_lt.mp hle⟩
    rw [hs]
    dsimp only
    have hprinted := hl.together.printed
    have hsmall : lua.FIRST_SCIENTIFIC ≤ U64_MAX := by decide
    rw [if_pos hlater, lua.tostring_of_lt (by omega)]
    simp only [expiry_reply]
    rw [lua.parse_decimal (by omega)]
    exact .not_expired _
  all_goals
    obtain ⟨status, first, final, hdecodes⟩ := hl.holds.decodes (by simp [hs])
    rw [hs]
    simp only [expiry_reply, (hdecodes _).2]
    exact .already_finalized _

end sides

/-! ## The run of both sides -/

/-- The store and the aggregator. -/
structure Twin where
  world : World
  aggregator : RunAggregator

/-- A result or an expiry that both sides get at the same time, or time that passes. -/
inductive TwinEvent
  | ingest (result : ScenarioRunResult)
  | expire
  | wait (ms : Nat)

namespace Twin

/-- The state that the aggregator merges the result into. -/
def state (s : Twin) (r : ScenarioRunResult) : RunState :=
  (s.aggregator.runs.lookup r.run_id).getD (.from_first r s.world.now)

/-- The record of the run has not expired. -/
def Retained (s : Twin) (plan : RunPlan) : Prop :=
  s.aggregator.runs ≠ [] → s.world.find plan.run_id ≠ none

/-- The calls: a result that is not valid, a result of the run, while there is room for it and the
deadline is one that Lua prints in full, and an expiry of the run, once it is there. -/
def allowed (store : RedisRunAggregationStore) (plan : RunPlan) (results : List ScenarioRunResult)
    (s : Twin) : TwinEvent → Prop
  | .ingest r => r.validate ≠ .ok () ∨
      (r ∈ results ∧ s.Retained plan ∧
        s.world.now + store.partial_timeout_ms < lua.FIRST_SCIENTIFIC ∧
        (s.world.find plan.run_id = none → zcard s.world.prune.active < store.max_active_runs) ∧
        (¬ (s.state r).knows r → Room store (s.state r) r))
  | .expire => s.aggregator.runs ≠ [] ∧ s.Retained plan ∧
      s.world.now + store.retention_ms ≤ lua.MAX_EXACT
  | .wait ms => s.world.now + ms < lua.FIRST_SCIENTIFIC

end Twin

def twinSystem (store : RedisRunAggregationStore) (plan : RunPlan)
    (results : List ScenarioRunResult) : System Twin TwinEvent where
  initial s := s.world.now < lua.FIRST_SCIENTIFIC ∧ s.world.find plan.run_id = none ∧
    s.aggregator.runs = []
  allowed := Twin.allowed store plan results
  next s
    | .ingest r => ⟨s.world.step store (.ingest r), (s.aggregator.ingest r s.world.now).2⟩
    | .expire => ⟨s.world.step store (.mark_expired plan.run_id),
        (s.aggregator.finalize_expired s.world.now store.partial_timeout).2⟩
    | .wait ms => ⟨s.world.step store (.wait ms), s.aggregator⟩

/-- Neither side has the run, or both count the same results for as long as the record is there. -/
structure Paired (store : RedisRunAggregationStore) (plan : RunPlan)
    (results : List ScenarioRunResult) (s : Twin) : Prop where
  clock : s.world.now < lua.FIRST_SCIENTIFIC
  runs : (s.aggregator.runs = [] ∧ s.world.find plan.run_id = none) ∨
    ∃ state, s.aggregator.runs = [(plan.run_id, state)] ∧
      ∀ h, s.world.find plan.run_id = some h →
        ∃ rs, rs ≠ [] ∧ Alike store plan results rs state h

section twins

variable {store : RedisRunAggregationStore} {plan : RunPlan} {results : List ScenarioRunResult}
  {r : ScenarioRunResult} {s : Twin} {aggregator : RunAggregator}

theorem RunAggregator.ingest_first_run (hvalid : r.validate = .ok ()) (hruns : aggregator.runs = [])
    (now : Nat) :
    aggregator.ingest r now =
      (((RunState.from_first r now).ingest r now).1, { aggregator with
          runs := [(r.run_id, ((RunState.from_first r now).ingest r now).2)] }) := by
  have hpos := aggregator.max_runs_pos
  unfold RunAggregator.ingest
  rw [hvalid, hruns]
  dsimp only
  rw [if_neg]
  · rfl
  · rintro ⟨-, hfull⟩
    exact absurd hfull (Nat.not_le.mpr hpos)

variable {state : RunState}

theorem RunAggregator.ingest_known_run (hvalid : r.validate = .ok ())
    (hruns : aggregator.runs = [(r.run_id, state)]) (now : Nat) :
    aggregator.ingest r now =
      ((state.ingest r now).1,
        { aggregator with runs := [(r.run_id, (state.ingest r now).2)] }) := by
  unfold RunAggregator.ingest
  rw [hvalid, hruns]
  simp [RunAggregator.put]

theorem RunAggregator.finalize_expired_run {run_id : String}
    (hruns : aggregator.runs = [(run_id, state)]) (now timeout : Nat) :
    aggregator.finalize_expired now timeout =
      ((state.expire now (as_millis timeout)).1.toList, { aggregator with
          runs := [(run_id, (state.expire now (as_millis timeout)).2)] }) := by
  unfold RunAggregator.finalize_expired
  rw [hruns]
  cases hexpire : (state.expire now (as_millis timeout)).1 with
  | none => simp [hexpire]
  | some summary => simp [hexpire]

theorem Paired.start (hs : (twinSystem store plan results).initial s) :
    Paired store plan results s :=
  ⟨hs.1, .inl ⟨hs.2.2, hs.2.1⟩⟩

theorem Paired.of_alike {rs : List ScenarioRunResult} {h : RunHash}
    (hclock : s.world.now < lua.FIRST_SCIENTIFIC)
    (hruns : s.aggregator.runs = [(plan.run_id, state)]) (hfind : s.world.find plan.run_id = some h)
    (hne : rs ≠ []) (hl : Alike store plan results rs state h) : Paired store plan results s := by
  refine ⟨hclock, .inr ⟨state, hruns, ?_⟩⟩
  intro g hg
  cases hfind.symm.trans hg
  exact ⟨rs, hne, hl⟩

section

variable (hp : Paired store plan results s)
include hp

/-- A result is answered alike, and both sides count it alike. -/
theorem Paired.ingest (hpos : 1 ≤ store.partial_timeout_ms) (ha : Agreeing store plan results)
    (hallowed : (twinSystem store plan results).allowed s (.ingest r)) :
    Corresponds (store.ingest r s.world).1 (s.aggregator.ingest r s.world.now).1 ∧
      Paired store plan results ((twinSystem store plan results).next s (.ingest r)) := by
  cases hvalid : r.validate with
  | error error =>
    obtain ⟨hredis, hmemory⟩ :=
      ingest_both_refused store s.world s.aggregator s.world.now hvalid
    have hnext : (twinSystem store plan results).next s (.ingest r) = s := by
      change (⟨(store.ingest r s.world).2, (s.aggregator.ingest r s.world.now).2⟩ : Twin) = s
      rw [hredis, hmemory]
    rw [hnext, hredis, hmemory]
    exact ⟨.refused error, hp⟩
  | ok =>
    obtain ⟨hr, hretained, hdeadline, hfree, hroom⟩ := hallowed.resolve_left (not_not.mpr hvalid)
    have hrun : r.run_id = plan.run_id := (ha.run r hr).2.1
    have hclock : (s.world.step store (.ingest r)).now < lua.FIRST_SCIENTIFIC := by
      rw [step_now]
      exact hp.clock
    have hruns' : ∀ {reply state}, s.aggregator.ingest r s.world.now =
        (reply, { s.aggregator with runs := [(r.run_id, state)] }) →
        ((twinSystem store plan results).next s (.ingest r)).aggregator.runs =
          [(plan.run_id, state)] := by
      intro reply state hmemory
      change (s.aggregator.ingest r s.world.now).2.runs = _
      rw [hmemory, hrun]
    rcases hp.runs with ⟨hruns, hgone⟩ | ⟨state, hruns, hrecord⟩
    · have hmemory := RunAggregator.ingest_first_run hvalid hruns s.world.now
      obtain ⟨hcorresponds, rs, h', hne, hfind', halike⟩ :=
        ingest_both_first hpos ha hr hgone hdeadline (hfree hgone)
      refine ⟨?_, Paired.of_alike hclock (hruns' hmemory) hfind' hne halike⟩
      rw [hmemory]
      exact hcorresponds
    · rw [← hrun] at hruns
      have hmemory := RunAggregator.ingest_known_run hvalid hruns s.world.now
      obtain ⟨h, hfind⟩ := Option.ne_none_iff_exists'.mp (hretained (by simp [hruns]))
      obtain ⟨rs, hne, hl⟩ := hrecord h hfind
      have hstate : s.state r = state := by simp [Twin.state, hruns]
      rw [hstate] at hroom
      obtain ⟨hcorresponds, rs', h', hne', hfind', halike⟩ :=
        hl.ingest_both hne hpos ha hr hfind hdeadline hroom
      refine ⟨?_, Paired.of_alike hclock (hruns' hmemory) hfind' hne' halike⟩
      rw [hmemory]
      exact hcorresponds

/-- An expiry is answered alike, and ends the run on both sides or on none. -/
theorem Paired.expire (hpos : 1 ≤ store.partial_timeout_ms) (ha : Agreeing store plan results)
    (hallowed : (twinSystem store plan results).allowed s .expire) :
    ExpiryCorresponds (store.mark_expired plan.run_id s.world).1
        (s.aggregator.finalize_expired s.world.now store.partial_timeout).1 ∧
      Paired store plan results ((twinSystem store plan results).next s .expire) := by
  obtain ⟨hexists, hretained, hexact⟩ := hallowed
  have hclock : (s.world.step store (.mark_expired plan.run_id)).now < lua.FIRST_SCIENTIFIC := by
    rw [step_now]
    exact hp.clock
  obtain ⟨state, hruns, hrecord⟩ := hp.runs.resolve_left fun hnone => hexists hnone.1
  obtain ⟨h, hfind⟩ := Option.ne_none_iff_exists'.mp (hretained hexists)
  obtain ⟨rs, hne, hl⟩ := hrecord h hfind
  have hid : validate_identity "run_id" plan.run_id = .ok () := by
    obtain ⟨r, hr⟩ := List.exists_mem_of_ne_nil _ hne
    have hv := (ha.isValid (hl.subset hr)).run_id
    have hbytes : MAX_CONTRACT_ID_BYTES = MAX_IDENTITY_BYTES := rfl
    rw [(ha.run r (hl.subset hr)).2.1] at hv
    apply rejectIf_eq_ok.mpr
    simp [hv.1]
    omega
  have hmemory := RunAggregator.finalize_expired_run hruns s.world.now store.partial_timeout
  have hnext : ((twinSystem store plan results).next s .expire).aggregator.runs =
      [(plan.run_id, (state.expire s.world.now store.partial_timeout_ms).2)] := by
    change (s.aggregator.finalize_expired s.world.now store.partial_timeout).2.runs = _
    rw [hmemory]
    rfl
  rw [hmemory]
  by_cases hdue : h.status = .Open ∧ lua.tonumber h.deadline_at ≤ s.world.now
  · obtain ⟨hcorresponds, hfind', halike⟩ :=
      hl.expire_due hne hpos ha hp.clock hexact hid hfind hdue.1 hdue.2
    exact ⟨hcorresponds, Paired.of_alike hclock hnext hfind' hne halike⟩
  · obtain ⟨hcorresponds, hsame⟩ := hl.expire_early hpos hexact hid hfind hdue
    refine ⟨hcorresponds, hclock, .inr ⟨_, hnext, ?_⟩⟩
    intro g hg
    have hchange := step_change hg
    rw [hfind] at hchange
    rw [hsame]
    cases hchange with
    | same => exact ⟨rs, hne, hl⟩
    | timed_out hopen hle => exact absurd ⟨hopen, hle⟩ hdue

/-- Time that passes may take the record away, and changes nothing else. -/
theorem Paired.wait {ms : Nat} (hallowed : (twinSystem store plan results).allowed s (.wait ms)) :
    Paired store plan results ((twinSystem store plan results).next s (.wait ms)) := by
  refine ⟨hallowed, ?_⟩
  rcases hp.runs with ⟨hruns, hgone⟩ | ⟨state, hruns, hrecord⟩
  · refine .inl ⟨hruns, ?_⟩
    cases hfind : (s.world.step store (.wait ms)).find plan.run_id with
    | none => exact hfind
    | some h =>
      have hchange := step_change hfind
      rw [hgone] at hchange
      cases hchange
  · refine .inr ⟨state, hruns, ?_⟩
    intro h hfind
    have hchange := step_change hfind
    generalize hfound : s.world.find plan.run_id = found at hchange
    cases hchange with
    | same => exact hrecord h hfound

end

theorem Paired.step (hpos : 1 ≤ store.partial_timeout_ms) (ha : Agreeing store plan results)
    {e : TwinEvent} (hp : Paired store plan results s)
    (hallowed : (twinSystem store plan results).allowed s e) :
    Paired store plan results ((twinSystem store plan results).next s e) := by
  cases e with
  | ingest r => exact (hp.ingest hpos ha hallowed).2
  | expire => exact (hp.expire hpos ha hallowed).2
  | wait ms => exact hp.wait hallowed

end twins

/-! ## The law -/

/-- Through every sequence of results and expiries of a run, for as long as its record does not
expire in Redis, the store answers as the aggregator in memory does. -/
theorem the_store_answers_as_the_aggregator {store : RedisRunAggregationStore} {plan : RunPlan}
    {results : List ScenarioRunResult} (hpos : 1 ≤ store.partial_timeout_ms)
    (ha : Agreeing store plan results) {s : Twin}
    (hs : Reachable (twinSystem store plan results) s) :
    (∀ r, (twinSystem store plan results).allowed s (.ingest r) →
      Corresponds (store.ingest r s.world).1 (s.aggregator.ingest r s.world.now).1) ∧
    ((twinSystem store plan results).allowed s .expire →
      ExpiryCorresponds (store.mark_expired plan.run_id s.world).1
        (s.aggregator.finalize_expired s.world.now store.partial_timeout).1) := by
  have hp : Paired store plan results s :=
    Reachable.invariant (I := Paired store plan results) (fun _ => .start)
      (fun _ _ hp hallowed => hp.step hpos ha hallowed) hs
  constructor
  · intro r hallowed
    exact (hp.ingest hpos ha hallowed).1
  · intro hallowed
    exact (hp.expire hpos ha hallowed).1

/-! ## Two results on both sides -/

theorem agreeing_samples : Agreeing defaultStore samplePlan [sampleResult, siblingResult] := by
  constructor <;> decide +kernel

/-- Both sides at the time `now`, without a run. -/
def startTwin (now : Nat) : Twin := ⟨.start now, .new 1 (by decide)⟩

/-- Both sides after the sibling is in. -/
def siblingTwin : Twin :=
  ⟨(World.start 0).step defaultStore (.ingest siblingResult),
    ((RunAggregator.new 1 (by decide)).ingest siblingResult 0).2⟩

/-- The other result completes the run, and an expiry comes too early, on both sides. -/
theorem the_sides_agree_on_two_results :
    Corresponds (defaultStore.ingest sampleResult siblingTwin.world).1
        (siblingTwin.aggregator.ingest sampleResult siblingTwin.world.now).1 ∧
      ExpiryCorresponds (defaultStore.mark_expired samplePlan.run_id siblingTwin.world).1
        (siblingTwin.aggregator.finalize_expired siblingTwin.world.now
          defaultStore.partial_timeout).1 := by
  have hstart : Reachable (twinSystem defaultStore samplePlan [sampleResult, siblingResult])
      (startTwin 0) := Reachable.initial ⟨by decide, rfl, rfl⟩
  have hroom : Room defaultStore ((startTwin 0).state siblingResult) siblingResult :=
    by constructor <;> decide +kernel
  have hs := hstart.step (e := TwinEvent.ingest siblingResult)
    (.inr ⟨by simp, fun hruns => absurd rfl hruns, by decide +kernel,
      fun _ => by decide +kernel, fun _ => hroom⟩)
  change Reachable _ siblingTwin at hs
  have hfound : siblingTwin.world.find samplePlan.run_id ≠ none :=
    Option.isSome_iff_ne_none.mp (by decide +kernel)
  have hruns : siblingTwin.aggregator.runs ≠ [] := List.ne_nil_of_length_pos (by decide +kernel)
  have hmore : Room defaultStore (siblingTwin.state sampleResult) sampleResult :=
    by constructor <;> decide +kernel
  obtain ⟨hingest, hexpire⟩ :=
    the_store_answers_as_the_aggregator (by decide +kernel) agreeing_samples hs
  exact ⟨hingest sampleResult (.inr ⟨by simp, fun _ => hfound, by decide +kernel,
      fun hnone => absurd hnone hfound, fun _ => hmore⟩),
    hexpire ⟨hruns, fun _ => hfound, by decide +kernel⟩⟩

/-- The sides answer differently when the record has expired, at times that Lua does not print in
full, with a timeout of less than a millisecond and when the retention ends beyond the exact
range. -/
theorem the_sides_part :
    Agreeing defaultStore samplePlan [sampleResult, siblingResult] ∧
    ((∃ received expected,
        (defaultStore.ingest siblingResult
          (siblingTwin.world.step defaultStore (.wait defaultStore.retention_ms))).1 =
            .ok (.Accepted received expected)) ∧
      (siblingTwin.aggregator.ingest siblingResult defaultStore.retention_ms).1 = .ok .Duplicate) ∧
    ((defaultStore.ingest singleResult (.start lua.FIRST_SCIENTIFIC)).1.isOk = false ∧
      ((startTwin lua.FIRST_SCIENTIFIC).aggregator.ingest singleResult
        lua.FIRST_SCIENTIFIC).1.isOk = true) ∧
    ((hastyStore.ingest siblingResult (.start 0)).1.isOk = false ∧
      ((startTwin 0).aggregator.ingest siblingResult 0).1.isOk = true) ∧
    ((longStore.mark_expired samplePlan.run_id ([.ingest siblingResult, .wait 60000].foldl
        (.step longStore) (.start 10000000000000))).1.isOk = false ∧
      (((startTwin 0).aggregator.ingest siblingResult 10000000000000).2.finalize_expired
        10000000060000 longStore.partial_timeout).1.map (·.status) = [.TimedOut]) := by
  refine ⟨agreeing_samples, ⟨⟨1, 2, rfl⟩, rfl⟩, ⟨?_, ?_⟩, ⟨?_, ?_⟩, ?_, ?_⟩ <;> decide +kernel

end pulse.aggregation
