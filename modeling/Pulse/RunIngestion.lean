-- The law of the ingest: on a result that the contract accepts, `ingest` gives
-- an update or says what is wrong with the result, except in a few states of
-- the store. They are named here, and one of them is met by legacy results.
import Pulse.AggregationReplies

open checks counters durations keyspace sorted_sets systems
open pulse.contracts

namespace pulse.aggregation

open RedisRunAggregationStore

/-! ## The checks of the store -/

/-- The error says that the store will not take the result: it is no fault of the store. -/
def RunAggregationStoreError.refusesResult : RunAggregationStoreError → Prop
  | .Contract _ | .InconsistentResult _ | .ErrorKindCapacity _ | .ActiveRunCapacity _ => True
  | .Unavailable _ _ | .Timeout _ | .InvalidState _ _ => False

def RunAggregationStoreError.isInvalidState : RunAggregationStoreError → Prop
  | .InvalidState _ _ => True
  | _ => False

section checks

variable {store : RedisRunAggregationStore} {result : ScenarioRunResult}

theorem exact_result_integer_fails (field : String) (value : Nat) :
    FailsOnly RunAggregationStoreError.refusesResult (exact_result_integer field value) :=
  FailsOnly.rejectIf fun _ => trivial

theorem validate_identity_fails {field value : String} (hblank : strings.is_blank value = false)
    (hlen : strings.len value ≤ MAX_CONTRACT_ID_BYTES) :
    FailsOnly RunAggregationStoreError.refusesResult (validate_identity field value) := by
  apply FailsOnly.rejectIf
  rintro (h | h)
  · rw [hblank] at h
    cases h
  · exact absurd hlen (Nat.not_le.mpr h)

theorem check_result_fails (hvalid : result.validate = .ok ()) :
    FailsOnly RunAggregationStoreError.refusesResult (store.check_result result) := by
  have hv := ScenarioRunResult.valid_of_validate hvalid
  unfold check_result
  rw [hvalid]
  refine .bind (.ok ()) fun _ _ => ?_
  refine .bind (.rejectIf fun h => absurd hv.slice.2 (UInt32.not_le.mpr h))
    fun _ _ => ?_
  refine .bind (.rejectIf fun h => absurd hv.buckets (Nat.not_le.mpr h))
    fun _ _ => ?_
  refine .bind (.rejectIf fun _ => trivial) fun _ _ => ?_
  refine .bind (validate_identity_fails hv.scenario_id.1 hv.scenario_id.2) fun _ _ => ?_
  refine .bind (validate_identity_fails hv.run_id.1 hv.run_id.2) fun _ _ => ?_
  refine .bind (validate_identity_fails hv.execution_key.1 hv.execution_key.2)
    fun _ _ => ?_
  iterate 2 refine .bind (exact_result_integer_fails _ _) fun _ _ => ?_
  exact exact_result_integer_fails _ _

/-- The errors that are left have valid kinds, distinct and not counted yet. -/
structure Countable (errors : List ErrorCount) (m : Counts String) : Prop where
  valid : ∀ e ∈ errors, strings.is_blank e.kind = false ∧
    strings.len e.kind ≤ MAX_CONTRACT_ERROR_KIND_BYTES
  nodup : (errors.map (·.kind)).Nodup
  fresh : ∀ e ∈ errors, count m e.kind = 0

theorem normalize_errors_fail {errors : List ErrorCount} {m : Counts String}
    (h : Countable errors m) :
    FailsOnly RunAggregationStoreError.refusesResult
      (errors.foldlM normalize_error m) := by
  refine .foldlM Countable ?_ h
  intro e errors m hm
  obtain ⟨hblank, hlen⟩ := hm.valid e List.mem_cons_self
  have hfresh := hm.fresh e List.mem_cons_self
  obtain ⟨hnew, hnodup⟩ := List.nodup_cons.mp hm.nodup
  have hroom : checked_add (count m e.kind) e.count.toNat ≠ none := by
    unfold checked_add
    rw [hfresh, Nat.zero_add, if_pos e.count.toNat_lt_size]
    simp
  constructor
  · unfold normalize_error
    refine .bind (.rejectIf ?_) fun _ _ => ?_
    · rintro (hb | hb)
      · rw [hblank] at hb
        cases hb
      · exact absurd hlen (Nat.not_le.mpr hb)
    refine .bind (exact_result_integer_fails _ _) fun _ _ => ?_
    refine .bind (.okOr fun hnone => absurd hnone hroom) fun _ _ => ?_
    refine .bind (exact_result_integer_fails _ _) fun _ _ => ?_
    exact .ok _
  · intro m' hm'
    simp only [normalize_error, bind_eq_ok] at hm'
    obtain ⟨_, -, _, -, _, -, _, -, hm'⟩ := hm'
    cases hm'
    refine ⟨fun e' he' => hm.valid e' (List.mem_cons_of_mem e he'), hnodup, ?_⟩
    intro e' he'
    rw [count_bump, if_neg]
    · exact hm.fresh e' (List.mem_cons_of_mem e he')
    · intro heq
      exact hnew (List.mem_map.mpr ⟨e', he', heq⟩)

/-- On a valid result, the store never blames itself for what the result has. -/
theorem ingest_args_fails (hvalid : result.validate = .ok ()) :
    FailsOnly RunAggregationStoreError.refusesResult (store.ingest_args result) := by
  have hv := ScenarioRunResult.valid_of_validate hvalid
  unfold ingest_args normalize_result
  rw [store.checked_retention, store.checked_partial_timeout]
  refine .bind ?_ fun _ _ => .ok _
  · refine .bind (check_result_fails hvalid) fun _ _ => ?_
    refine .bind (.forM fun bucket _ => exact_result_integer_fails _ _)
      fun _ _ => ?_
    apply FailsOnly.bind (normalize_errors_fail ⟨hv.kinds, hv.kinds_nodup, fun _ _ => rfl⟩)
    intro m _
    refine .bind (.rejectIf fun _ => trivial) fun _ _ => ?_
    exact .ok _

end checks

/-! ## Summaries that cannot be read -/

theorem parse_field_fails (operation field : String) (limit : Nat) (text : lua.Text) :
    FailsOnly RunAggregationStoreError.isInvalidState (parse_field operation field limit text) :=
  FailsOnly.okOr fun _ => trivial

theorem rejectIf_invalid_state (bad : Prop) [Decidable bad] (operation message : String) :
    FailsOnly RunAggregationStoreError.isInvalidState
      (rejectIf bad (invalid_state operation message)) :=
  FailsOnly.rejectIf fun _ => trivial

/-- A record that does not decode is a fault of the store. -/
theorem summary_from_snapshot_fails (snapshot : Option RunHash) (operation : String) :
    FailsOnly RunAggregationStoreError.isInvalidState
      (summary_from_snapshot snapshot operation) := by
  unfold summary_from_snapshot
  refine .bind (.okOr fun _ => trivial) fun h _ => ?_
  refine .bind ?_ fun status _ => ?_
  · cases h.status with
    | Open | Other => exact .error trivial
    | Partial | TimedOut | Cancelled | Complete => exact .ok _
  iterate 2 refine .bind (parse_field_fails _ _ _ _) fun _ _ => ?_
  iterate 5 refine .bind (rejectIf_invalid_state _ _ _) fun _ _ => ?_
  refine .bind (.foldlM (fun _ _ => True) ?_ trivial) fun _ _ => ?_
  · intro bucket _ _ _
    refine ⟨?_, fun _ _ => trivial⟩
    refine .bind (rejectIf_invalid_state _ _ _) fun _ _ => ?_
    refine .bind (.okOr fun _ => trivial) fun _ _ => ?_
    exact .bind (.okOr fun _ => trivial) fun _ _ => .ok _
  refine .bind (.mapM ?_) fun _ _ => ?_
  · intro e _
    exact .bind (.okOr fun _ => trivial) fun _ _ => .ok _
  refine .bind (parse_field_fails _ _ _ _) fun _ _ => ?_
  refine .bind (rejectIf_invalid_state _ _ _) fun _ _ => ?_
  iterate 3 refine .bind (parse_field_fails _ _ _ _) fun _ _ => ?_
  refine .bind (rejectIf_invalid_state _ _ _) fun _ _ => ?_
  refine .bind (.foldlM (fun _ _ => True) ?_ trivial) fun _ _ => ?_
  · intro bucket _ _ _
    exact ⟨.okOr fun _ => trivial, fun _ _ => trivial⟩
  refine .bind (rejectIf_invalid_state _ _ _) fun _ _ => ?_
  iterate 2 refine .bind (parse_field_fails _ _ _ _) fun _ _ => ?_
  exact .ok _

/-- A record whose last time is not printed in full does not decode. -/
theorem summary_needs_decimal {h : RunHash} {operation : String} {summary : ScenarioRunSummary}
    (hok : summary_from_snapshot (some h) operation = .ok summary) :
    lua.parse U128_MAX h.finalized_at ≠ none := by
  rw [(decoded_of_summary hok).finalized_at]
  simp

theorem accept_after_decimals {store : RedisRunAggregationStore} {a : IngestArgs} {w : World}
    {h : RunHash} (hlast : (merged_hash a w.now h).received_slices = a.expected_slices)
    (hnow : lua.FIRST_SCIENTIFIC ≤ w.now) :
    ∃ e, store.ingest_reply (accept a w h).1 = .error e ∧ e.isInvalidState := by
  have hfinal : (accepted_hash a w.now h).finalized_at = lua.tostring w.now := by
    unfold accepted_hash
    dsimp only
    rw [if_pos hlast]
    rfl
  have hfails := summary_from_snapshot_fails (some (accepted_hash a w.now h)) "aggregation_ingest"
  rw [accept_reply, if_pos hlast]
  cases hsummary : summary_from_snapshot (some (accepted_hash a w.now h)) "aggregation_ingest" with
  | ok summary =>
    have hdecimal := summary_needs_decimal hsummary
    rw [hfinal, lua.parse_tostring_of_le _ hnow] at hdecimal
    exact absurd rfl hdecimal
  | error e =>
    refine ⟨e, ?_, hfails e hsummary⟩
    by_cases hlate : h.isLate
    · simp only [if_pos hlate, ingest_reply, hsummary]
      rfl
    · simp only [if_neg hlate, ingest_reply, hsummary]
      rfl

/-! ## States in which a result is settled -/

/-- The slice is the last one that its run waits for. -/
def lastSlice (w : World) (a : IngestArgs) : Prop :=
  match w.find a.run_id with
  | none => zcard w.prune.active < a.max_active_runs ∧ a.expected_slices = 1
  | some h => a.Binds h ∧ verdict a (a.bind h) = .Accept ∧ h.received_slices + 1 = a.expected_slices

/-- The deadline is a time that the script accepts, the run has its bounds when it has slices, and
a run is not completed at a time that Lua prints with an exponent. -/
structure Ingestible (store : RedisRunAggregationStore) (w : World) (a : IngestArgs) : Prop where
  timeout : 1 ≤ store.partial_timeout_ms
  deadline : w.now + store.partial_timeout_ms ≤ lua.MAX_EXACT
  bounds : ∀ h, w.find a.run_id = some h → ¬ a.conflicts h → h.histogram_bounds = [] →
    h.received_slices = 0
  time : lastSlice w a → w.now < lua.FIRST_SCIENTIFIC

section settled

variable {store : RedisRunAggregationStore} {limit : Nat} {allowed : World → Op → Prop} {w : World}
  {result : ScenarioRunResult} {a : IngestArgs} {h : RunHash}

theorem Ingestible.binds (hi : Ingestible store w a) (hfind : w.find a.run_id = some h)
    (hagree : ¬ a.conflicts h) : a.Binds h :=
  ⟨hagree, hi.bounds h hfind hagree⟩

theorem refusal_code {t : Tally} {code : Nat} {message : String}
    (hrefusal : refusal a t = some (code, message)) : code = 6 ∨ code = 9 := by
  unfold refusal at hrefusal
  dsimp only at hrefusal
  split at hrefusal
  · cases hrefusal
    exact .inl rfl
  split at hrefusal
  · cases hrefusal
    exact .inr rfl
  split at hrefusal
  · cases hrefusal
    exact .inr rfl
  split at hrefusal
  · cases hrefusal
    exact .inr rfl
  · cases hrefusal

variable {g : RunHash}

section

variable (hw : Reachable (storeSystem store limit allowed) w)
include hw

/-- A slice that is accepted gives an update. -/
theorem accept_settles {found : Option RunHash} {w' : World} (hnow : w'.now = w.now)
    (hfound : ∀ h, found = some h → w.find a.run_id = some h)
    (hchange : Change store w.now a.run_id (.ingest result) found (accepted_hash a w.now g))
    (htime : (merged_hash a w.now g).received_slices = a.expected_slices →
      w.now < lua.FIRST_SCIENTIFIC) :
    ∃ update, store.ingest_reply (accept a w' g).1 = .ok update ∧ update.accepts := by
  obtain ⟨-, l, hg, -⟩ := hchange.kept fun h hh => reachable_kept hw (hfound h hh)
  have htimed : (merged_hash a w.now g).received_slices = a.expected_slices →
      Timed (accepted_hash a w.now g) := by
    intro hlast
    have hbelow := reachable_below hw (htime hlast)
    exact hchange.timed (htime hlast) fun h hh => reachable_timed le_rfl hbelow (hfound h hh)
  rw [← hnow] at hg htimed
  obtain ⟨update, hok, haccepts, -⟩ := ingest_reply_accepted hg htimed
  exact ⟨update, hok, haccepts⟩

variable (hargs : store.ingest_args result = .ok a)
include hargs

/-- A new slice of a run that waits for slices is accepted. -/
theorem ingest_waiting (hi : Ingestible store w a) (hfind : w.find a.run_id = some h)
    (hagree : ¬ a.conflicts h) (hverdict : verdict a (a.bind h) = .Accept) :
    ∃ update, (store.ingest result w).1 = .ok update ∧ update.accepts := by
  have ha := ingest_args_ok hargs
  have hbinds := hi.binds hfind hagree
  rw [ingest_of_args hargs, ingest_existing (ha.not_refused hi.timeout hi.deadline) hfind hbinds,
    ingest_bound, hverdict]
  have hchange : Change store w.now a.run_id (.ingest result) (some h)
      (accepted_hash a w.now (a.bind h)) := .accepted hargs rfl hbinds hverdict
  refine accept_settles hw rfl ?_ hchange ?_
  · rintro g ⟨⟩
    exact hfind
  · intro hlast
    apply hi.time
    unfold lastSlice
    rw [hfind]
    exact ⟨hbinds, hverdict, hlast⟩

/-- The first slice of a run is accepted when there is room for the run. -/
theorem ingest_new_run (hi : Ingestible store w a) (hgone : w.find a.run_id = none)
    (hfree : zcard w.prune.active < a.max_active_runs) :
    ∃ update, (store.ingest result w).1 = .ok update ∧ update.accepts := by
  have ha := ingest_args_ok hargs
  have hrefusal := refusal_empty ha
  rw [ingest_of_args hargs,
    ingest_first (ha.not_refused hi.timeout hi.deadline) hgone hfree hrefusal]
  have hchange : Change store w.now a.run_id (.ingest result) none
      (accepted_hash a w.now (first_hash a w.now)) := .first hargs rfl hrefusal
  refine accept_settles hw rfl (by rintro h ⟨⟩) hchange ?_
  intro hlast
  apply hi.time
  unfold lastSlice
  rw [hgone]
  exact ⟨hfree, hlast.symm⟩

/-- In a state where the result is ingestible, the script takes it or says what is wrong with it. -/
theorem ingest_settles (hi : Ingestible store w a) :
    FailsOnly RunAggregationStoreError.refusesResult (store.ingest result w).1 := by
  have ha := ingest_args_ok hargs
  have hrefused := ha.not_refused hi.timeout hi.deadline
  by_cases hwaiting : ∃ h, w.find a.run_id = some h ∧ ¬ a.conflicts h ∧
      verdict a (a.bind h) = .Accept
  · obtain ⟨h, hfind, hagree, hverdict⟩ := hwaiting
    exact .of_exists (ingest_waiting hw hargs hi hfind hagree hverdict)
  by_cases hnew : w.find a.run_id = none ∧ zcard w.prune.active < a.max_active_runs
  · exact .of_exists (ingest_new_run hw hargs hi hnew.1 hnew.2)
  rw [ingest_of_args hargs]
  have hcases := ingest_script_cases a w
  generalize ingest_script a w = outcome at hcases
  cases hcases with
  | refused h => exact absurd h hrefused
  | full => exact .error trivial
  | overflow _ hrefusal =>
    rw [refusal_empty ha] at hrefusal
    cases hrefusal
  | first hgone hfree => exact absurd ⟨hgone, hfree⟩ hnew
  | conflict => exact .error trivial
  | unset hfind hagree hbounds hreceived =>
      exact absurd (hi.bounds _ hfind hagree hbounds) hreceived
  | @bound h hfind hbinds =>
    obtain ⟨-, l, hg, -⟩ := reachable_kept hw hfind
    have hgood := hg.bind ha hbinds
    have hdecided := verdict_cases a (a.bind h)
    unfold ingest_bound
    generalize hverdict : verdict a (a.bind h) = v at hdecided
    cases hdecided with
    | unknown hs => exact absurd hs (hgood.status _)
    | duplicate =>
      obtain ⟨received, expected, status, hok⟩ := ingest_reply_duplicate hgood
      dsimp only
      rw [hok]
      exact .ok _
    | taken | moved | terminal => exact .error trivial
    | overrun hstatus hreceived =>
      have hlt := hgood.not_complete hstatus
      rw [hgood.received, ← hbinds.expected] at hreceived
      exact absurd hreceived (Nat.not_le.mpr hlt)
    | refused _ _ _ _ hrefusal =>
      rcases refusal_code hrefusal with rfl | rfl
      · exact .error trivial
      · exact .error trivial
    | accepted => exact absurd ⟨h, hfind, hbinds.agree, hverdict⟩ hwaiting

end

/-- In every other state, the answer is a fault of the store. -/
theorem ingest_sticks (hargs : store.ingest_args result = .ok a) (hnot : ¬ Ingestible store w a) :
    ∃ e, (store.ingest result w).1 = .error e ∧ e.isInvalidState := by
  have ha := ingest_args_ok hargs
  rw [ingest_of_args hargs]
  by_cases hdeadline : 1 ≤ store.partial_timeout_ms ∧
      w.now + store.partial_timeout_ms ≤ lua.MAX_EXACT
  · obtain ⟨hpos, hexact⟩ := hdeadline
    have hrefused := ha.not_refused hpos hexact
    by_cases hunset : ∃ h, w.find a.run_id = some h ∧ ¬ a.conflicts h ∧ h.histogram_bounds = [] ∧
        h.received_slices ≠ 0
    · obtain ⟨h, hfind, hagree, hbounds, hreceived⟩ := hunset
      refine ⟨invalid_state "aggregation_ingest"
        "registered run histogram is unset after accepting slices", ?_, trivial⟩
      rw [ingest_unset hrefused hfind hagree hbounds hreceived]
      rfl
    · -- What is left is a last slice at a time that is printed with an exponent.
      have hlast : lastSlice w a ∧ lua.FIRST_SCIENTIFIC ≤ w.now := by
        by_contra hlast
        refine hnot ⟨hpos, hexact, ?_, ?_⟩
        · intro h hfind hagree hbounds
          by_contra hreceived
          exact hunset ⟨h, hfind, hagree, hbounds, hreceived⟩
        · intro hslice
          by_contra htime
          exact hlast ⟨hslice, Nat.not_lt.mp htime⟩
      obtain ⟨hslice, htime⟩ := hlast
      unfold lastSlice at hslice
      cases hfind : w.find a.run_id with
      | none =>
        rw [hfind] at hslice
        rw [ingest_first hrefused hfind hslice.1 (refusal_empty ha)]
        exact accept_after_decimals hslice.2.symm htime
      | some h =>
        rw [hfind] at hslice
        obtain ⟨hbinds, hverdict, hreceived⟩ := hslice
        rw [ingest_existing hrefused hfind hbinds, ingest_bound, hverdict]
        exact accept_after_decimals hreceived htime
  · have hinvalid : a.areInvalid w.now := by
      unfold IngestArgs.areInvalid
      rw [ha.partial_timeout_ms]
      omega
    refine ⟨invalid_state "aggregation_ingest" "invalid aggregation script arguments", ?_, trivial⟩
    unfold ingest_script
    rw [if_pos hinvalid]
    rfl

variable {update : RunAggregationUpdate}

theorem ingestible_of_ok (hargs : store.ingest_args result = .ok a)
    (hok : (store.ingest result w).1 = .ok update) : Ingestible store w a := by
  by_contra hnot
  obtain ⟨e, herror, -⟩ := ingest_sticks hargs hnot
  rw [hok] at herror
  cases herror

/-! ## Slices that a run has accepted -/

/-- The record has the slice under its execution key, and agrees with its result. -/
structure Knows (a : IngestArgs) (h : RunHash) : Prop where
  agree : ¬ a.conflicts h
  slice : h.slices.lookup a.slice.index = some a.slice.execution_key

theorem Knows.received (hk : Knows a h) {i : String} (hkept : Kept store i h) :
    h.received_slices ≠ 0 := by
  obtain ⟨-, l, hg, -⟩ := hkept
  intro hzero
  rw [hg.received] at hzero
  have hslice := hk.slice
  rw [hg.tally, List.length_eq_zero_iff.mp hzero] at hslice
  cases hslice

theorem conflicts_congr (hs : h.scenario_id = g.scenario_id) (hr : h.run_id = g.run_id)
    (hv : h.schema_version = g.schema_version) (he : h.expected_slices = g.expected_slices)
    (hb : h.histogram_bounds = g.histogram_bounds) : a.conflicts h ↔ a.conflicts g := by
  unfold IngestArgs.conflicts
  rw [hs, hr, hv, he, hb]

theorem accepted_agrees {now : Nat} {b : IngestArgs} (hagree : ¬ a.conflicts h) :
    ¬ a.conflicts (accepted_hash b now h) := by
  obtain ⟨-, he, hb, hr⟩ := accepted_hash_fields b now h
  obtain ⟨hs, hv⟩ := accepted_hash_names b now h
  rwa [conflicts_congr hs hr hv he hb]

theorem bind_agrees (hagree : ¬ a.conflicts h) : ¬ a.conflicts (a.bind h) := by
  rintro (hne | hne | hne | hne | ⟨-, hne⟩)
  · exact hagree (.inl hne)
  · exact hagree (.inr (.inl hne))
  · exact hagree (.inr (.inr (.inl hne)))
  · exact hagree (.inr (.inr (.inr (.inl hne))))
  · exact hne rfl

theorem first_agrees (ha : Admissible store result a) (now : Nat) :
    ¬ a.conflicts (first_hash a now) := by
  have hsmall : a.expected_slices < lua.FIRST_SCIENTIFIC := by
    rw [ha.expected_slices]
    exact Nat.lt_trans result.slice.total.toNat_lt (by decide)
  rintro (hne | hne | hne | hne | ⟨-, hne⟩)
  · exact hne rfl
  · exact hne rfl
  · exact hne rfl
  · exact hne (lua.tonumber_tostring hsmall)
  · exact hne rfl

/-- An accepted slice is known to its record. -/
theorem Knows.accepted {now : Nat} (hagree : ¬ a.conflicts h) :
    Knows a (accepted_hash a now h) := by
  refine ⟨accepted_agrees hagree, ?_⟩
  rw [(accepted_hash_fields a now h).1]
  exact AList.lookup_insert _

/-- No call makes an existing record forget a slice. -/
theorem Change.knows {now : Nat} {i : String} {op : Op} (hk : Knows a g) (hkept : Kept store i g)
    (hchange : Change store now i op (some g) h) : Knows a h := by
  have hreceived := hk.received hkept
  cases hchange with
  | same => exact hk
  | bound hargs hrun hbinds =>
    rw [IngestArgs.bind_eq_self hbinds.agree fun hnil => hreceived (hbinds.unset hnil)]
    exact hk
  | @accepted _ b _ hargs hrun hbinds hverdict =>
    rw [IngestArgs.bind_eq_self hbinds.agree fun hnil =>
      hreceived (hbinds.unset hnil)] at hverdict ⊢
    refine ⟨accepted_agrees hk.agree, ?_⟩
    have hdecided := verdict_cases b g
    rw [hverdict] at hdecided
    cases hdecided with
    | accepted hslice =>
      have hne : a.slice.index ≠ b.slice.index := by
        intro heq
        rw [← heq, hk.slice] at hslice
        cases hslice
      rw [(accepted_hash_fields b now g).1]
      exact (AList.lookup_insert_ne hne).trans hk.slice
  | timed_out | finalized | acknowledged => exact ⟨hk.agree, hk.slice⟩

theorem accept_knows (hpos : 1 ≤ a.retention_ms) {w' : World} (hagree : ¬ a.conflicts g)
    (hfind : (accept a w' g).2.find a.run_id = some h) : Knows a h := by
  rw [accept_find w' hpos] at hfind
  cases hfind
  exact .accepted hagree

section

variable (hargs : store.ingest_args result = .ok a) (hok : (store.ingest result w).1 = .ok update)
include hargs hok

/-- An update comes from the script that accepts the slice, or finds it in the record. -/
theorem ingest_updated :
    (∃ w' g, ¬ a.conflicts g ∧ (store.ingest result w).2 = (accept a w' g).2) ∨
      ∃ w' g, w.find a.run_id = some g ∧ a.Binds g ∧ ¬ update.accepts ∧
        ((a.bind g).slices.lookup a.slice.index = some a.slice.execution_key ∨
          (a.bind g).executions.lookup a.slice.execution_key = some a.slice.index) ∧
        (store.ingest result w).2 =
          World.refresh_retention w' a.run_id a.retention_ms (a.bind g) := by
  have ha := ingest_args_ok hargs
  have hi := ingestible_of_ok hargs hok
  rw [ingest_of_args hargs] at hok ⊢
  have hcases := ingest_script_cases a w
  generalize ingest_script a w = outcome at hcases hok ⊢
  cases hcases with
  | refused hrefused => exact absurd hrefused (ha.not_refused hi.timeout hi.deadline)
  | full => cases hok
  | overflow _ hrefusal =>
    rw [refusal_empty ha] at hrefusal
    cases hrefusal
  | first => exact .inl ⟨_, _, first_agrees ha w.now, rfl⟩
  | conflict => cases hok
  | unset => cases hok
  | @bound g hfind hbinds =>
    have hdecided := verdict_cases a (a.bind g)
    unfold ingest_bound at hok ⊢
    generalize verdict a (a.bind g) = v at hdecided hok ⊢
    cases hdecided with
    | unknown | taken | moved | terminal | overrun => cases hok
    | duplicate _ hknown =>
      simp only [ingest_reply, bind_eq_ok] at hok
      obtain ⟨_, -, _, -, hupdate⟩ := hok
      cases hupdate
      exact .inr ⟨_, g, hfind, hbinds, id, hknown, rfl⟩
    | refused _ _ _ _ hrefusal =>
      rcases refusal_code hrefusal with rfl | rfl
      · cases hok
      · cases hok
    | accepted => exact .inl ⟨_, _, bind_agrees hbinds.agree, rfl⟩

theorem retention_pos_of_ok : 1 ≤ a.retention_ms := by
  rw [(ingest_args_ok hargs).retention_ms]
  exact retention_pos (ingestible_of_ok hargs hok).timeout

/-- What follows from an update that accepts the slice. -/
theorem ingest_knows (haccepts : update.accepts)
    (hfind : (store.ingest result w).2.find a.run_id = some h) : Knows a h := by
  rcases ingest_updated hargs hok with ⟨w', g, hagree, heq⟩ | ⟨_, _, _, _, hnot, _⟩
  · rw [heq] at hfind
    exact accept_knows (retention_pos_of_ok hargs hok) hagree hfind
  · exact absurd haccepts hnot

end

/-- A slice that its run knows is a duplicate. -/
theorem ingest_duplicate (hw : Reachable (storeSystem store limit allowed) w)
    (hargs : store.ingest_args result = .ok a) (hi : Ingestible store w a)
    (hfind : w.find a.run_id = some h) (hk : Knows a h) :
    ∃ received expected status,
      (store.ingest result w).1 = .ok (.Duplicate received expected status) := by
  have ha := ingest_args_ok hargs
  obtain ⟨-, l, hg, -⟩ := reachable_kept hw hfind
  have hbinds := hi.binds hfind hk.agree
  have hgood := hg.bind ha hbinds
  rw [ingest_of_args hargs, ingest_existing (ha.not_refused hi.timeout hi.deadline) hfind hbinds,
    ingest_bound, verdict_of_known hgood.status hk.slice]
  exact ingest_reply_duplicate hgood

theorem run_knows {es : List Op} {w' : World} {i : String}
    (hw : Reachable (storeSystem store limit fun _ _ => True) w)
    (hrun : Run (storeSystem store limit fun w _ => (w.find i).isSome = true) w es w')
    (hknows : ∀ h, w.find i = some h → Knows a h) :
    Reachable (storeSystem store limit fun _ _ => True) w' ∧
      ∀ h, w'.find i = some h → Knows a h := by
  induction hrun with
  | done => exact ⟨hw, hknows⟩
  | step _ hallowed ih =>
    obtain ⟨hreach, hk⟩ := ih
    refine ⟨hreach.step ⟨trivial, hallowed.2⟩, ?_⟩
    intro h hfind
    obtain ⟨g, hg⟩ := Option.isSome_iff_exists.mp hallowed.1
    have hchange := step_change hfind
    rw [hg] at hchange
    exact hchange.knows (hk g hg) (reachable_kept hreach hg)

/-- A valid result gets an update or a refusal exactly in the states where it is ingestible. There,
the result of an accepted slice is a duplicate for as long as the run is kept, and a new slice of a
run that waits for it is accepted. -/
theorem ingest_settles_valid_results (store : RedisRunAggregationStore) (limit : Nat) (w : World)
    (hw : Reachable (storeSystem store limit fun _ _ => True) w) (result : ScenarioRunResult)
    (hvalid : result.validate = .ok ()) :
    (FailsOnly RunAggregationStoreError.refusesResult (store.ingest result w).1 ↔
      ∀ a, store.ingest_args result = .ok a → Ingestible store w a) ∧
    (∀ a update, store.ingest_args result = .ok a → (store.ingest result w).1 = .ok update →
      update.accepts →
      ∀ es w', Run (storeSystem store limit fun w _ => (w.find a.run_id).isSome = true)
          (w.step store (.ingest result)) es w' →
        (w'.find a.run_id).isSome = true →
        ((∃ received expected status,
            (store.ingest result w').1 = .ok (.Duplicate received expected status)) ↔
          Ingestible store w' a)) ∧
    ∀ a h, store.ingest_args result = .ok a → w.find a.run_id = some h → ¬ a.conflicts h →
      h.slices.lookup a.slice.index = none → h.executions.lookup a.slice.execution_key = none →
      h.status = .Open ∨ h.isLate → h.received_slices < a.expected_slices →
      refusal a h.toTally = none →
      ((∃ update, (store.ingest result w).1 = .ok update ∧ update.accepts) ↔
        Ingestible store w a) := by
  refine ⟨⟨?_, ?_⟩, ?_, ?_⟩
  · intro hfails a hargs
    by_contra hnot
    obtain ⟨e, herror, hinvalid⟩ := ingest_sticks hargs hnot
    have hrefuses := hfails e herror
    cases e <;> simp_all [RunAggregationStoreError.refusesResult,
      RunAggregationStoreError.isInvalidState]
  · intro hi
    cases hargs : store.ingest_args result with
    | ok a => exact ingest_settles hw hargs (hi a hargs)
    | error e =>
      have hrefuses : e.refusesResult := ingest_args_fails hvalid e hargs
      unfold ingest
      rw [hargs]
      exact .error hrefuses
  · intro a update hargs hok haccepts es w' hrun hkept
    obtain ⟨h, hfind⟩ := Option.isSome_iff_exists.mp hkept
    have hnow : (w.step store (.ingest result)).now < limit := by
      rw [step_now]
      exact reachable_now hw
    have hnext := hw.step (e := .ingest result) ⟨trivial, hnow⟩
    obtain ⟨hw', hknows⟩ := run_knows hnext hrun fun h hfind =>
      ingest_knows hargs hok haccepts hfind
    constructor
    · rintro ⟨received, expected, status, hdup⟩
      exact ingestible_of_ok hargs hdup
    · intro hi
      exact ingest_duplicate hw' hargs hi hfind (hknows h hfind)
  · intro a h hargs hfind hagree hslice hexecution hstatus hreceived hrefusal
    constructor
    · rintro ⟨update, hok, -⟩
      exact ingestible_of_ok hargs hok
    · intro hi
      exact ingest_waiting hw hargs hi hfind hagree
        (verdict_of_new hslice hexecution hstatus hreceived hrefusal)

end settled

/-- The store with the first slice of a run. -/
def openWorld : World := (World.start 0).step defaultStore (.ingest sampleResult)

theorem open_world_bounds : ∀ h ∈ openWorld.find "run-1", h.histogram_bounds ≠ [] := by
  decide +kernel

theorem ingest_settles_sample_results :
    FailsOnly RunAggregationStoreError.refusesResult
      (defaultStore.ingest sampleResult (.start 0)).1 ∧
    ∃ received expected status,
      (defaultStore.ingest sampleResult openWorld).1 =
        .ok (.Duplicate received expected status) := by
  have hstart : Reachable (storeSystem defaultStore lua.FIRST_SCIENTIFIC fun _ _ => True)
      (.start 0) := reachable_start (by decide)
  obtain ⟨hsettles, hagain, -⟩ := ingest_settles_valid_results defaultStore _ _ hstart sampleResult
    (by decide +kernel)
  have hempty : ∀ a, Ingestible defaultStore (.start 0) a := by
    intro a
    exact ⟨by decide +kernel, by decide +kernel, fun h hfind => (by cases hfind),
      fun _ => by decide⟩
  refine ⟨hsettles.mpr fun a _ => hempty a, ?_⟩
  obtain ⟨a, hargs⟩ := isOk_iff.mp
    (by decide +kernel : (defaultStore.ingest_args sampleResult).isOk = true)
  have hrun : a.run_id = "run-1" := (ingest_args_ok hargs).run_id
  have hok : (defaultStore.ingest sampleResult (.start 0)).1 = .ok (.Accepted 1 2) := by
    decide +kernel
  refine (hagain a _ hargs hok trivial [] _ (Run.done _) ?_).mpr ?_
  · rw [hrun]
    decide +kernel
  · refine ⟨by decide +kernel, by decide +kernel, ?_, fun _ => by decide +kernel⟩
    intro h hfind _ hnil
    rw [hrun] at hfind
    exact absurd hnil (open_world_bounds h hfind)

/-! ## Results of version 1 -/

/-- The result of a worker that reports no latencies. -/
def legacyResult : ScenarioRunResult :=
  { sampleResult with schema_version := 1, latency_histogram := [] }

def legacySibling : ScenarioRunResult :=
  { legacyResult with
    execution_key := "run-1:slice-0-of-2"
    event_id := "run-1:slice-0-of-2:attempt-0:result"
    slice := ⟨0, 2⟩ }

def legacyWorld : World := (World.start 0).step defaultStore (.ingest legacyResult)

theorem legacy_world_reachable :
    Reachable (storeSystem defaultStore lua.FIRST_SCIENTIFIC fun _ _ => True) legacyWorld := by
  have hstart : Reachable (storeSystem defaultStore lua.FIRST_SCIENTIFIC fun _ _ => True)
      (.start 0) := reachable_start (by decide)
  exact hstart.step (e := .ingest legacyResult) ⟨trivial, by decide +kernel⟩

/-- The first slice without latencies is accepted. After it, the store takes neither the same result
again nor the result of the other slice. -/
theorem legacy_results_stick :
    legacyResult.validate = .ok () ∧ legacySibling.validate = .ok () ∧
    (defaultStore.ingest legacyResult (.start 0)).1 = .ok (.Accepted 1 2) ∧
    Reachable (storeSystem defaultStore lua.FIRST_SCIENTIFIC fun _ _ => True) legacyWorld ∧
    ∀ r ∈ [legacyResult, legacySibling], (defaultStore.ingest r legacyWorld).1 =
      .error (.InvalidState "aggregation_ingest"
        "registered run histogram is unset after accepting slices") :=
  ⟨by decide +kernel, by decide +kernel, by decide +kernel, legacy_world_reachable,
    by decide +kernel⟩

end pulse.aggregation
