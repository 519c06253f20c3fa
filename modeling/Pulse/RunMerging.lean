-- The law of the merge: the results of a run may arrive in any order and any
-- number of times. Each one is counted once, and the counters are the sums
-- over the results that arrived.
import Pulse.AggregationReplies
import Mathlib.Data.List.Dedup

open checks counters durations Duration sorted_sets systems
open pulse.contracts

namespace pulse.aggregation

open RedisRunAggregationStore

/-! ## The results of one run -/

/-- The slice that the store makes of a result. -/
def slice_of (result : ScenarioRunResult) : Slice where
  index := result.slice.index.toNat
  execution_key := result.execution_key
  total := result.total.toNat
  success := result.success.toNat
  failure := result.failure.toNat
  counts := result.latency_histogram.map (·.count.toNat)
  errors := error_pairs
    (bumpAll ∅ (result.error_breakdown.map fun e => (e.kind, e.count.toNat)))

/-- The observations in the bucket `j` of a result. -/
def bucket_count (result : ScenarioRunResult) (j : Nat) : Nat :=
  (result.latency_histogram.map (·.count.toNat)).getD j 0

/-- The errors of one kind in a result. -/
def error_count (result : ScenarioRunResult) (kind : String) : Nat :=
  added (result.error_breakdown.map fun e => (e.kind, e.count.toNat)) kind

/-- What the results of a run agree on. -/
structure RunPlan where
  scenario_id : String
  run_id : String
  schema_version : UInt16
  total_slices : UInt32
  histogram_bounds : List UInt64

/-- Results of one run that the store accepts, that agree with each other and that the counters of
the run have room for. -/
structure Compatible (store : RedisRunAggregationStore) (plan : RunPlan)
    (results : List ScenarioRunResult) : Prop where
  accepted : ∀ r ∈ results, (store.normalize_result r).isOk = true
  run : ∀ r ∈ results, r.scenario_id = plan.scenario_id ∧ r.run_id = plan.run_id ∧
    r.schema_version = plan.schema_version ∧ r.slice.total = plan.total_slices
  bounds : ∀ r ∈ results, r.latency_histogram.map (·.upper_bound_ms) = plan.histogram_bounds
  bounds_set : plan.histogram_bounds ≠ []
  indexes : (results.map (·.slice.index)).Nodup
  keys : (results.map (·.execution_key)).Nodup
  total : (results.map (·.total.toNat)).sum ≤ lua.MAX_EXACT
  success : (results.map (·.success.toNat)).sum ≤ lua.MAX_EXACT
  failure : (results.map (·.failure.toNat)).sum ≤ lua.MAX_EXACT
  latency : ∀ j, (results.map (bucket_count · j)).sum ≤ lua.MAX_EXACT
  errors : ∀ kind, (results.map (error_count · kind)).sum ≤ lua.MAX_EXACT
  kinds : (results.flatMap fun r => r.error_breakdown.map (·.kind)).dedup.length ≤
    store.max_error_kinds

section results

variable {store : RedisRunAggregationStore} {plan : RunPlan} {results : List ScenarioRunResult}
  {r : ScenarioRunResult} {a : IngestArgs}

theorem ingest_args_slice (hargs : store.ingest_args r = .ok a) : a.slice = slice_of r := by
  simp only [ingest_args, bind_eq_ok] at hargs
  obtain ⟨normalized, hnormal, _, -, _, -, ha⟩ := hargs
  cases ha
  simp only [normalize_result, bind_eq_ok] at hnormal
  obtain ⟨_, -, _, -, m, herrors, _, -, hnormal⟩ := hnormal
  cases hnormal
  obtain ⟨rfl, -⟩ := normalize_errors_ok herrors
  rfl

theorem added_slice_of (r : ScenarioRunResult) (kind : String) :
    added (slice_of r).errors kind = error_count r kind := by
  have hperm := perm_error_pairs
    (bumpAll ∅ (r.error_breakdown.map fun e => (e.kind, e.count.toNat)))
  have hadded := added_perm hperm kind
  rw [added_pairs, count_bumpAll, count_empty, Nat.zero_add] at hadded
  exact hadded

theorem mem_kinds_slice_of (r : ScenarioRunResult) (kind : String) :
    kind ∈ (slice_of r).errors.map (·.1) ↔ kind ∈ r.error_breakdown.map (·.kind) := by
  have hperm := perm_error_pairs
    (bumpAll ∅ (r.error_breakdown.map fun e => (e.kind, e.count.toNat)))
  have hmem : kind ∈ (slice_of r).errors.map (·.1) ↔
      kind ∈ bumpAll ∅ (r.error_breakdown.map fun e => (e.kind, e.count.toNat)) := by
    rw [AList.mem_keys, ← map_fst_pairs]
    exact (hperm.map _).mem_iff
  rw [hmem, mem_bumpAll, List.map_map]
  simp [Function.comp_def]

variable {rs : List ScenarioRunResult}

/-- Distinct results of a run, and one more of them, add up to no more than all of them. -/
theorem sum_map_with_le (hnodup : rs.Nodup) (hsub : rs ⊆ results) (hr : r ∈ results) (hnew : r ∉ rs)
    (f : ScenarioRunResult → Nat) : (rs.map f).sum + f r ≤ (results.map f).sum := by
  have hle := sum_map_le_of_subset f (List.nodup_cons.mpr ⟨hnew, hnodup⟩)
    (List.cons_subset.mpr ⟨hr, hsub⟩)
  rw [List.map_cons, List.sum_cons] at hle
  omega

namespace Compatible

variable (hc : Compatible store plan results)
include hc

/-- The store makes arguments of each result. -/
theorem args (hr : r ∈ results) : ∃ a, store.ingest_args r = .ok a := by
  have hok := hc.accepted r hr
  cases hnormal : store.normalize_result r with
  | error error =>
    rw [hnormal] at hok
    cases hok
  | ok normalized =>
    refine ⟨store.script_args r normalized store.retention_ms store.partial_timeout_ms, ?_⟩
    simp only [ingest_args, hnormal, ok_bind, store.checked_retention,
      store.checked_partial_timeout]
    rfl

variable {r' : ScenarioRunResult}

theorem same_of_index (hr : r ∈ results) (hr' : r' ∈ results)
    (h : r.slice.index.toNat = r'.slice.index.toNat) : r = r' :=
  List.inj_on_of_nodup_map hc.indexes hr hr' (UInt32.toNat_inj.mp h)

theorem same_of_key {r' : ScenarioRunResult} (hr : r ∈ results) (hr' : r' ∈ results)
    (h : r.execution_key = r'.execution_key) : r = r' :=
  List.inj_on_of_nodup_map hc.keys hr hr' h

theorem length_lt (hnodup : rs.Nodup) (hsub : rs ⊆ results) (hr : r ∈ results) (hnew : r ∉ rs) :
    rs.length < plan.total_slices.toNat := by
  have hall : r :: rs ⊆ results := List.cons_subset.mpr ⟨hr, hsub⟩
  have hmap : ((r :: rs).map (·.slice.index.toNat)).Nodup :=
    List.Nodup.map_on (fun x hx y hy h => hc.same_of_index (hall hx) (hall hy) h)
      (List.nodup_cons.mpr ⟨hnew, hnodup⟩)
  have hrange : (r :: rs).map (·.slice.index.toNat) ⊆ List.range plan.total_slices.toNat := by
    intro index hindex
    obtain ⟨x, hx, rfl⟩ := List.mem_map.mp hindex
    obtain ⟨a, hargs⟩ := hc.args (hall hx)
    have hlt := (ingest_args_ok hargs).valid.slice.1
    rw [(hc.run x (hall hx)).2.2.2] at hlt
    exact List.mem_range.mpr (UInt32.lt_iff_toNat_lt.mp hlt)
  have hle := (List.subperm_of_subset hmap hrange).length_le
  rw [List.length_map, List.length_cons, List.length_range] at hle
  exact hle

end Compatible

/-! ## The record of the results that are in -/

/-- The record `h` counts the results `rs`. -/
structure Holds (store : RedisRunAggregationStore) (plan : RunPlan) (rs : List ScenarioRunResult)
    (h : RunHash) : Prop where
  good : Good store h (rs.map slice_of)
  scenario_id : h.scenario_id = plan.scenario_id
  run_id : h.run_id = plan.run_id
  schema_version : h.schema_version = plan.schema_version
  expected_slices : lua.tonumber h.expected_slices = plan.total_slices.toNat
  unset : rs = [] → h.histogram_bounds = []
  bounds : rs ≠ [] → h.histogram_bounds = plan.histogram_bounds
  not_cancelled : h.status ≠ .Cancelled
  timed : Timed h

namespace Holds

variable {h : RunHash}

section

variable (hh : Holds store plan rs h)
include hh

theorem binds (hc : Compatible store plan results) (hr : r ∈ results)
    (hargs : store.ingest_args r = .ok a) : a.Binds h := by
  have ha := ingest_args_ok hargs
  obtain ⟨hscenario, hrun, hschema, htotal⟩ := hc.run r hr
  constructor
  · rintro (hne | hne | hne | hne | ⟨hset, hne⟩)
    · exact hne (by rw [hh.scenario_id, ha.scenario_id, hscenario])
    · exact hne (by rw [hh.run_id, ha.run_id, hrun])
    · exact hne (by rw [hh.schema_version, ha.schema_version, hschema])
    · exact hne (by rw [hh.expected_slices, ha.expected_slices, htotal])
    · have hnil : rs ≠ [] := fun hnil => hset (hh.unset hnil)
      exact hne (by rw [hh.bounds hnil, ha.bounds, hc.bounds r hr])
  · intro hbounds
    have hnil : rs = [] := by
      by_contra hne
      rw [hh.bounds hne] at hbounds
      exact hc.bounds_set hbounds
    rw [hh.good.received, hnil]
    rfl

/-- A result with the slice and the execution of one that is in is known to its record. -/
theorem known (hr : r' ∈ rs) (hindex : r'.slice.index = r.slice.index)
    (hkey : r'.execution_key = r.execution_key) (hargs : store.ingest_args r = .ok a) :
    verdict a (a.bind h) = .Duplicate := by
  apply verdict_of_known
  · exact hh.good.status
  · change h.slices.lookup _ = _
    rw [hh.good.tally, lookup_slices hh.good.indexes, ingest_args_slice hargs]
    refine ⟨slice_of r', List.mem_map_of_mem hr, ?_, hkey⟩
    exact congrArg UInt32.toNat hindex

/-- The counters of the record have room for a result that is not in. -/
theorem room (hc : Compatible store plan results) (hnodup : rs.Nodup) (hsub : rs ⊆ results)
    (hr : r ∈ results) (hnew : r ∉ rs) (hargs : store.ingest_args r = .ok a) :
    refusal a h.toTally = none := by
  have ha := ingest_args_ok hargs
  have hslice := ingest_args_slice hargs
  have hsum : ∀ f : ScenarioRunResult → Nat, (rs.map f).sum + f r ≤ (results.map f).sum :=
    sum_map_with_le hnodup hsub hr hnew
  rw [hh.good.tally]
  apply refusal_of_sums
  · -- The kinds that the record has and the new ones are distinct kinds of the results.
    rw [tally_kinds, ← List.length_map (fun e : String × Nat => e.1), ← List.length_append,
      ha.max_error_kinds]
    refine Nat.le_trans ?_ hc.kinds
    refine (List.subperm_of_subset ?_ ?_).length_le
    · rw [List.nodup_append]
      refine ⟨AList.keys_nodup _, ha.kinds_nodup.sublist (List.filter_sublist.map _), ?_⟩
      rintro kind hkind kind' hkind' rfl
      obtain ⟨e, he, rfl⟩ := List.mem_map.mp hkind'
      have hnot := (List.mem_filter.mp he).2
      simp only [decide_eq_true_eq] at hnot
      exact hnot (AList.mem_keys.mpr hkind)
    · intro kind hkind
      have hmem : ∃ r' ∈ results, kind ∈ (slice_of r').errors.map (·.1) := by
        rcases List.mem_append.mp hkind with hkind | hkind
        · obtain ⟨s, hs, hkind⟩ := (mem_tally_errors _ _).mp (AList.mem_keys.mpr hkind)
          obtain ⟨r', hr', rfl⟩ := List.mem_map.mp hs
          exact ⟨r', hsub hr', hkind⟩
        · obtain ⟨e, he, rfl⟩ := List.mem_map.mp hkind
          rw [hslice] at he
          exact ⟨r, hr, List.mem_map_of_mem (List.mem_of_mem_filter he)⟩
      obtain ⟨r', hr', hkind⟩ := hmem
      rw [List.mem_dedup, List.mem_flatMap]
      exact ⟨r', hr', (mem_kinds_slice_of r' kind).mp hkind⟩
  · rw [tally_total, List.map_map, ha.total]
    exact Nat.le_trans (hsum _) hc.total
  · rw [tally_success, List.map_map, ha.success]
    exact Nat.le_trans (hsum _) hc.success
  · rw [tally_failure, List.map_map, ha.failure]
    exact Nat.le_trans (hsum _) hc.failure
  · intro c hcount
    have hc2 : c.2 = bucket_count r c.1 := by
      rw [bucket_count, ← ha.counts, ← added_indexed]
      exact (added_of_mem (by rw [map_fst_indexed]; exact List.nodup_range) hcount).symm
    rw [tally_latency, List.map_map, hc2]
    exact Nat.le_trans (hsum fun r => bucket_count r c.1) (hc.latency c.1)
  · intro e he
    have he2 : e.2 = error_count r e.1 := by
      rw [← added_slice_of, ← hslice]
      exact (added_of_mem ha.kinds_nodup he).symm
    rw [tally_errors, List.map_map, he2]
    have hle := Nat.le_trans (hsum fun r => error_count r e.1) (hc.errors e.1)
    simpa only [Function.comp_def, added_slice_of] using hle

/-- A record without all its results waits for them. -/
theorem waits (hlt : rs.length < plan.total_slices.toNat) : h.status = .Open ∨ h.isLate := by
  have hcomplete : h.status ≠ .Complete := by
    intro hs
    have hlength := hh.good.complete.mp hs
    rw [List.length_map, hh.expected_slices] at hlength
    omega
  unfold RunHash.isLate
  cases hs : h.status with
  | Open | Partial | TimedOut => simp
  | Complete => exact absurd hs hcomplete
  | Cancelled => exact absurd hs hh.not_cancelled
  | Other text => exact absurd hs (hh.good.status text)

variable (hc : Compatible store plan results)
include hc

/-- Neither the slice nor the execution of a result that is not in is known to its record. -/
theorem unknown (hsub : rs ⊆ results) (hr : r ∈ results) (hnew : r ∉ rs)
    (hargs : store.ingest_args r = .ok a) :
    h.slices.lookup a.slice.index = none ∧ h.executions.lookup a.slice.execution_key = none := by
  rw [hh.good.tally, lookup_slices_eq_none, lookup_executions_eq_none, ingest_args_slice hargs,
    List.map_map, List.map_map]
  constructor
  · intro hmem
    obtain ⟨r', hr', hindex⟩ := List.mem_map.mp hmem
    exact hnew (hc.same_of_index (hsub hr') hr hindex ▸ hr')
  · intro hmem
    obtain ⟨r', hr', hkey⟩ := List.mem_map.mp hmem
    exact hnew (hc.same_of_key (hsub hr') hr hkey ▸ hr')

theorem accepts (hnodup : rs.Nodup) (hsub : rs ⊆ results) (hr : r ∈ results) (hnew : r ∉ rs)
    (hargs : store.ingest_args r = .ok a) : verdict a (a.bind h) = .Accept := by
  have hlt := hc.length_lt hnodup hsub hr hnew
  obtain ⟨hslice, hexecution⟩ := hh.unknown hc hsub hr hnew hargs
  apply verdict_of_new hslice hexecution (hh.waits hlt)
  · rw [hh.good.received, List.length_map, ← (hh.binds hc hr hargs).expected, hh.expected_slices]
    exact hlt
  · exact hh.room hc hnodup hsub hr hnew hargs

/-- The record after a result that was not in. -/
theorem accepted (hnodup : rs.Nodup) (hsub : rs ⊆ results) (hr : r ∈ results) (hnew : r ∉ rs)
    (hargs : store.ingest_args r = .ok a) {now : Nat} (hnow : now < lua.FIRST_SCIENTIFIC) :
    Holds store plan (rs ++ [r]) (accepted_hash a now (a.bind h)) := by
  have ha := ingest_args_ok hargs
  have hbinds := hh.binds hc hr hargs
  have hwaits := hh.waits (hc.length_lt hnodup hsub hr hnew)
  obtain ⟨hslice, hexecution⟩ := hh.unknown hc hsub hr hnew hargs
  have hgood := (hh.good.bind ha hbinds).accept ha hbinds.expected rfl hslice hexecution hwaits
    (hh.room hc hnodup hsub hr hnew hargs) now
  obtain ⟨-, hexpected, hbounds, hrun⟩ := accepted_hash_fields a now (a.bind h)
  obtain ⟨hscenario, hschema⟩ := accepted_hash_names a now (a.bind h)
  exact
    { good := by
        rw [ingest_args_slice hargs] at hgood
        rw [List.map_append]
        exact hgood
      scenario_id := hscenario.trans hh.scenario_id
      run_id := hrun.trans hh.run_id
      schema_version := hschema.trans hh.schema_version
      expected_slices := by
        rw [hexpected]
        exact hh.expected_slices
      unset := by simp
      bounds := by
        intro _
        rw [hbounds, ← hc.bounds r hr, ← ha.bounds]
        rfl
      not_cancelled := by
        unfold accepted_hash
        dsimp only
        split
        · simp [RunHash.finalize]
        · exact hh.not_cancelled
      timed := .accept a ⟨hh.timed.first, hh.timed.final⟩ hnow }

end

/-- The hash that a first result makes, before its bounds are set. -/
theorem first (hc : Compatible store plan results) (hr : r ∈ results)
    (hargs : store.ingest_args r = .ok a) {now : Nat} (hnow : now < lua.FIRST_SCIENTIFIC) :
    Holds store plan [] { first_hash a now with histogram_bounds := [] } := by
  have ha := ingest_args_ok hargs
  obtain ⟨hscenario, hrun, hschema, htotal⟩ := hc.run r hr
  have hindex := ha.index_lt
  have hle := ha.expected_le
  have hu32 : 4096 ≤ U32_MAX := by decide
  have hsmall : 4096 < lua.FIRST_SCIENTIFIC := by decide
  exact
    { good := .fresh (by omega) (by omega) rfl rfl List.Pairwise.nil rfl rfl rfl rfl
      scenario_id := ha.scenario_id.trans hscenario
      run_id := ha.run_id.trans hrun
      schema_version := ha.schema_version.trans hschema
      expected_slices := by
        rw [← htotal, ← ha.expected_slices]
        exact lua.tonumber_tostring (by omega)
      unset := fun _ => rfl
      bounds := fun hne => absurd rfl hne
      not_cancelled := by simp [first_hash]
      timed := ⟨tostring_decimal hnow, tostring_decimal (n := 0) (by decide)⟩ }

end Holds

end results

/-! ## The run of the store -/

/-- The store, with the results of the run that are in, oldest first. -/
structure Merging where
  world : World
  ingested : List ScenarioRunResult

/-- The run is not there, or a dispatcher has just registered it. -/
def Startable (store : RedisRunAggregationStore) (plan : RunPlan) (w : World) : Prop :=
  w.find plan.run_id = none ∨
    ∃ before window load_duration, before.find plan.run_id = none ∧
      window.run_id = plan.run_id ∧ window.scenario_id = plan.scenario_id ∧
      window.contract_version = plan.schema_version ∧ window.total_slices = plan.total_slices ∧
      register_run (some store.registration) window load_duration before = (.ok (), w)

/-- The call leaves the run alone, ingests one of its results while there is capacity for the run,
or is one of the calls that time out a run or acknowledge its summary. -/
def merges (store : RedisRunAggregationStore) (plan : RunPlan) (results : List ScenarioRunResult)
    (w : World) : Op → Prop
  | .ingest r => r.run_id ≠ plan.run_id ∨
      (r ∈ results ∧ w.now + store.partial_timeout_ms ≤ lua.MAX_EXACT ∧
        (w.find plan.run_id = none → zcard w.prune.active < store.max_active_runs))
  | .register_run window _ => window.run_id ≠ plan.run_id
  | .finalize_run run_id _ => run_id ≠ plan.run_id
  | .mark_expired _ | .acknowledge_summary _ _ | .clean_outbox _ | .wait _ => True

/-- The calls on the store while the record of the run does not expire. -/
def mergingSystem (store : RedisRunAggregationStore) (plan : RunPlan)
    (results : List ScenarioRunResult) : System Merging Op where
  initial s := s.world.now < lua.FIRST_SCIENTIFIC ∧ Startable store plan s.world ∧ s.ingested = []
  allowed s op := merges store plan results s.world op ∧
    (s.world.find plan.run_id = none → s.ingested = []) ∧
    (s.world.step store op).now < lua.FIRST_SCIENTIFIC
  next s op :=
    { world := s.world.step store op
      ingested :=
        match op with
        | .ingest r =>
          if r.run_id ≠ plan.run_id ∨ r ∈ s.ingested then s.ingested else s.ingested ++ [r]
        | _ => s.ingested }

/-- The record of the run counts the results that are in. -/
structure Merged (store : RedisRunAggregationStore) (plan : RunPlan)
    (results : List ScenarioRunResult) (s : Merging) : Prop where
  clock : s.world.now < lua.FIRST_SCIENTIFIC
  subset : s.ingested ⊆ results
  distinct : s.ingested.Nodup
  record : ∀ h, s.world.find plan.run_id = some h → Holds store plan s.ingested h

section merging

variable {store : RedisRunAggregationStore} {plan : RunPlan} {results : List ScenarioRunResult}
  {r : ScenarioRunResult} {a : IngestArgs} {rs : List ScenarioRunResult} {h : RunHash}

/-- A result that was not in is accepted, and is in the record then. -/
theorem accept_outcome (hpos : 1 ≤ store.partial_timeout_ms) (hc : Compatible store plan results)
    (hh : Holds store plan rs h) (hnodup : rs.Nodup) (hsub : rs ⊆ results) (hr : r ∈ results)
    (hnew : r ∉ rs) (hargs : store.ingest_args r = .ok a) {w : World}
    (hnow : w.now < lua.FIRST_SCIENTIFIC) :
    (∃ update, store.ingest_reply (accept a w (a.bind h)).1 = .ok update ∧ update.accepts ∧
      (update.completes ↔ rs.length + 1 = plan.total_slices.toNat)) ∧
    ∃ h', (accept a w (a.bind h)).2.find plan.run_id = some h' ∧
      Holds store plan (rs ++ [r]) h' := by
  have ha := ingest_args_ok hargs
  have hholds := hh.accepted hc hnodup hsub hr hnew hargs hnow
  have hrun : a.run_id = plan.run_id := ha.run_id.trans (hc.run r hr).2.1
  constructor
  · obtain ⟨update, hok, haccepts, hlast⟩ := ingest_reply_accepted hholds.good
      fun _ => hholds.timed
    refine ⟨update, hok, haccepts, hlast.trans ?_⟩
    have hreceived : (merged_hash a w.now (a.bind h)).received_slices = rs.length + 1 := by
      change h.received_slices + 1 = _
      rw [hh.good.received, List.length_map]
    rw [hreceived, ← (hh.binds hc hr hargs).expected, hh.expected_slices]
  · refine ⟨_, ?_, hholds⟩
    rw [← hrun]
    apply accept_find
    rw [ha.retention_ms]
    exact retention_pos hpos

variable {s : Merging}

theorem ingest_new (hpos : 1 ≤ store.partial_timeout_ms) (hc : Compatible store plan results)
    (hm : Merged store plan results s) (hr : r ∈ results) (hnew : r ∉ s.ingested)
    (hallowed : (mergingSystem store plan results).allowed s (.ingest r)) :
    (∃ update, (store.ingest r s.world).1 = .ok update ∧ update.accepts ∧
      (update.completes ↔ s.ingested.length + 1 = plan.total_slices.toNat)) ∧
    ∃ h', (store.ingest r s.world).2.find plan.run_id = some h' ∧
      Holds store plan (s.ingested ++ [r]) h' := by
  obtain ⟨hmerges, hgone, -⟩ := hallowed
  obtain ⟨hscenario, hrun, -⟩ := hc.run r hr
  obtain ⟨-, hexact, hfree⟩ := hmerges.resolve_left (not_not.mpr hrun)
  obtain ⟨a, hargs⟩ := hc.args hr
  have ha := ingest_args_ok hargs
  have hrefused := ha.not_refused hpos hexact
  have harun : a.run_id = plan.run_id := ha.run_id.trans hrun
  rw [ingest_of_args hargs]
  cases hfind : s.world.find plan.run_id with
  | none =>
    have hnil := hgone hfind
    rw [ingest_first hrefused (by rw [harun]; exact hfind)
      (by rw [ha.max_active_runs]; exact hfree hfind) (refusal_empty ha)]
    rw [hnil] at hnew ⊢
    exact accept_outcome hpos hc (.first hc hr hargs hm.clock) List.nodup_nil
      (List.nil_subset _) hr hnew hargs hm.clock
  | some h =>
    have hh := hm.record h hfind
    rw [ingest_existing hrefused (by rw [harun]; exact hfind) (hh.binds hc hr hargs), ingest_bound,
      hh.accepts hc hm.distinct hm.subset hr hnew hargs]
    exact accept_outcome hpos hc hh hm.distinct hm.subset hr hnew hargs hm.clock

theorem ingest_known (hpos : 1 ≤ store.partial_timeout_ms) (hc : Compatible store plan results)
    (hm : Merged store plan results s) (hr : r ∈ results) (hin : r ∈ s.ingested)
    (hallowed : (mergingSystem store plan results).allowed s (.ingest r)) :
    (∃ received expected status,
      (store.ingest r s.world).1 = .ok (.Duplicate received expected status)) ∧
    ∃ h', (store.ingest r s.world).2.find plan.run_id = some h' ∧
      Holds store plan s.ingested h' := by
  obtain ⟨hmerges, hgone, -⟩ := hallowed
  obtain ⟨hscenario, hrun, -⟩ := hc.run r hr
  obtain ⟨-, hexact, -⟩ := hmerges.resolve_left (not_not.mpr hrun)
  obtain ⟨a, hargs⟩ := hc.args hr
  have ha := ingest_args_ok hargs
  have harun : a.run_id = plan.run_id := ha.run_id.trans hrun
  have hne : s.ingested ≠ [] := List.ne_nil_of_mem hin
  obtain ⟨h, hfind⟩ := Option.ne_none_iff_exists'.mp fun hnone => hne (hgone hnone)
  have hh := hm.record h hfind
  have hbinds := hh.binds hc hr hargs
  have hset : h.histogram_bounds ≠ [] := by
    rw [hh.bounds hne]
    exact hc.bounds_set
  rw [ingest_of_args hargs, ingest_existing (ha.not_refused hpos hexact)
    (by rw [harun]; exact hfind) hbinds, ingest_bound, hh.known hin rfl rfl hargs,
    IngestArgs.bind_eq_self hbinds.agree hset]
  refine ⟨ingest_reply_duplicate hh.good, h, ?_, hh⟩
  rw [← harun]
  apply refresh_find
  rw [ha.retention_ms]
  exact retention_pos hpos

/-! ## Every call keeps the record -/

theorem Holds.registered {window : DispatchWindow} {load_duration : Nat} {a : RegisterArgs}
    (hargs : register_args store.registration window load_duration = .ok a)
    (hexpected : 1 ≤ a.expected_slices) (hrun : window.run_id = plan.run_id)
    (hscenario : window.scenario_id = plan.scenario_id)
    (hschema : window.contract_version = plan.schema_version)
    (htotal : window.total_slices = plan.total_slices) :
    Holds store plan [] (registered_hash a) := by
  obtain ⟨harun, hascenario, haschema, hatotal, -⟩ := register_args_ok hargs
  have hgood := Good.registered hargs hexpected
  obtain ⟨n, hn, -⟩ := hgood.expected
  have hsmall : U32_MAX < lua.FIRST_SCIENTIFIC := by decide
  have hle : a.expected_slices ≤ U32_MAX := by
    rw [hatotal]
    exact Nat.le_of_lt_succ window.total_slices.toNat_lt
  exact
    { good := hgood
      scenario_id := hascenario.trans hscenario
      run_id := harun.trans hrun
      schema_version := haschema.trans hschema
      expected_slices := by
        rw [← htotal, ← hatotal]
        exact lua.tonumber_tostring (by omega)
      unset := fun _ => rfl
      bounds := fun hne => absurd rfl hne
      not_cancelled := by simp [registered_hash]
      timed := ⟨tostring_decimal (n := 0) (by decide), tostring_decimal (n := 0) (by decide)⟩ }

theorem Holds.timed_out (hh : Holds store plan rs h) (hopen : h.status = .Open) {now : Nat}
    (hnow : now < lua.FIRST_SCIENTIFIC) : Holds store plan rs (h.finalize .TimedOut now) :=
  { hh with
    good := hh.good.finalize hopen (.inl rfl) now
    not_cancelled := by simp [RunHash.finalize]
    timed := ⟨hh.timed.first, tostring_decimal hnow⟩ }

theorem Holds.acknowledge (hh : Holds store plan rs h) {revision : Nat}
    (hle : revision ≤ h.summary_revision) : Holds store plan rs (h.acknowledge revision) :=
  { hh with
    good := hh.good.acknowledge hle
    timed := ⟨hh.timed.first, hh.timed.final⟩ }

/-- A call that ingests no result of the run leaves the results that are in. -/
theorem Merged.other (hm : Merged store plan results s) {op : Op}
    (hmerges : merges store plan results s.world op)
    (hop : ∀ r, op = .ingest r → r.run_id ≠ plan.run_id)
    (hfind : (s.world.step store op).find plan.run_id = some h) :
    Holds store plan s.ingested h := by
  have hforeign : ∀ {r a}, op = .ingest r → store.ingest_args r = .ok a →
    a.run_id ≠ plan.run_id := by
    intro r a hr hargs
    rw [(ingest_args_ok hargs).run_id]
    exact hop r hr
  have hchange := step_change hfind
  generalize hfound : s.world.find plan.run_id = found at hchange
  cases hchange with
  | same => exact hm.record _ hfound
  | registered hargs hrun =>
    rw [(register_args_ok hargs).1] at hrun
    exact absurd hrun hmerges
  | first hargs hrun | bound hargs hrun | accepted hargs hrun =>
    exact absurd hrun (hforeign rfl hargs)
  | timed_out hopen => exact (hm.record _ hfound).timed_out hopen hm.clock
  | finalized => exact absurd rfl hmerges
  | acknowledged hle => exact (hm.record _ hfound).acknowledge hle

theorem Merged.start (hs : (mergingSystem store plan results).initial s) :
    Merged store plan results s := by
  obtain ⟨hclock, hstart, hnil⟩ := hs
  refine ⟨hclock, by rw [hnil]; exact List.nil_subset _, by rw [hnil]; exact List.nodup_nil, ?_⟩
  intro h hfind
  rw [hnil]
  rcases hstart with hgone | ⟨before, window, load_duration, hgone, hrun, hscenario,
    hschema, htotal, hregister⟩
  · rw [hgone] at hfind
    cases hfind
  · have hworld : s.world = before.step store (.register_run window load_duration) := by
      change s.world = (register_run (some store.registration) window load_duration before).2
      rw [hregister]
    rw [hworld] at hfind
    have hchange := step_change hfind
    rw [hgone] at hchange
    cases hchange with
    | registered hargs _ hexpected =>
      exact .registered hargs hexpected hrun hscenario hschema htotal

theorem Merged.step (hpos : 1 ≤ store.partial_timeout_ms) (hc : Compatible store plan results)
    {op : Op} (hm : Merged store plan results s)
    (hallowed : (mergingSystem store plan results).allowed s op) :
    Merged store plan results ((mergingSystem store plan results).next s op) := by
  have hclock := hallowed.2.2
  by_cases hown : ∃ r, op = .ingest r ∧ r.run_id = plan.run_id
  · obtain ⟨r, rfl, hrun⟩ := hown
    have hr : r ∈ results := (hallowed.1.resolve_left (not_not.mpr hrun)).1
    by_cases hin : r ∈ s.ingested
    · obtain ⟨-, h', hfind', hholds⟩ := ingest_known hpos hc hm hr hin hallowed
      have hnext : (mergingSystem store plan results).next s (.ingest r) =
          ⟨s.world.step store (.ingest r), s.ingested⟩ := by
        simp [mergingSystem, hin]
      rw [hnext]
      refine ⟨hclock, hm.subset, hm.distinct, ?_⟩
      intro h hfind
      cases hfind'.symm.trans hfind
      exact hholds
    · obtain ⟨-, h', hfind', hholds⟩ := ingest_new hpos hc hm hr hin hallowed
      have hnext : (mergingSystem store plan results).next s (.ingest r) =
          ⟨s.world.step store (.ingest r), s.ingested ++ [r]⟩ := by
        simp [mergingSystem, hrun, hin]
      rw [hnext]
      refine ⟨hclock, ?_, ?_, ?_⟩
      · exact List.append_subset.mpr ⟨hm.subset, by simpa using hr⟩
      · rw [← List.concat_eq_append]
        exact List.Nodup.concat hin hm.distinct
      · intro h hfind
        cases hfind'.symm.trans hfind
        exact hholds
  · have hop : ∀ r, op = .ingest r → r.run_id ≠ plan.run_id := fun r hr hrun => hown ⟨r, hr, hrun⟩
    have hnext : (mergingSystem store plan results).next s op =
        ⟨s.world.step store op, s.ingested⟩ := by
      cases op with
      | ingest r => simp [mergingSystem, hop r rfl]
      | register_run | mark_expired | finalize_run | acknowledge_summary | clean_outbox
          | wait => rfl
    rw [hnext]
    exact ⟨hclock, hm.subset, hm.distinct, fun h hfind => hm.other hallowed.1 hop hfind⟩

end merging

/-! ## The law -/

/-- The counters of the record are the sums over the results. -/
structure Sums (h : RunHash) (rs : List ScenarioRunResult) : Prop where
  received : h.received_slices = rs.length
  total : h.total = (rs.map (·.total.toNat)).sum
  success : h.success = (rs.map (·.success.toNat)).sum
  failure : h.failure = (rs.map (·.failure.toNat)).sum
  latency : ∀ j, count h.latency j = (rs.map (bucket_count · j)).sum
  errors : ∀ kind, count h.errors kind = (rs.map (error_count · kind)).sum

variable {store : RedisRunAggregationStore}

theorem Holds.sums {plan : RunPlan} {h : RunHash} (hh : Holds store plan rs h) : Sums h rs where
  received := by rw [hh.good.received, List.length_map]
  total := by rw [hh.good.tally, tally_total, List.map_map]; rfl
  success := by rw [hh.good.tally, tally_success, List.map_map]; rfl
  failure := by rw [hh.good.tally, tally_failure, List.map_map]; rfl
  latency := by
    intro j
    rw [hh.good.tally, tally_latency, List.map_map]
    rfl
  errors := by
    intro kind
    rw [hh.good.tally, tally_errors, List.map_map]
    simp only [Function.comp_def, added_slice_of]

theorem Sums.perm {h : RunHash} {rs' : List ScenarioRunResult} (hs : Sums h rs)
    (hperm : rs.Perm rs') : Sums h rs' where
  received := by rw [hs.received, hperm.length_eq]
  total := by rw [hs.total, (hperm.map _).sum_eq]
  success := by rw [hs.success, (hperm.map _).sum_eq]
  failure := by rw [hs.failure, (hperm.map _).sum_eq]
  latency := fun j => by rw [hs.latency, (hperm.map _).sum_eq]
  errors := fun kind => by rw [hs.errors, (hperm.map _).sum_eq]

/-- The first ingest of each result is accepted, and completes the run when it is the last one;
every later one is a duplicate. The counters of the record are the sums over the distinct results
that are in, whatever the order in which they came. -/
theorem results_merge_in_any_order {store : RedisRunAggregationStore} {plan : RunPlan}
    {results : List ScenarioRunResult} (hpos : 1 ≤ store.partial_timeout_ms)
    (hc : Compatible store plan results) {s : Merging}
    (hs : Reachable (mergingSystem store plan results) s) :
    (∀ r ∈ results, (mergingSystem store plan results).allowed s (.ingest r) →
      (r ∉ s.ingested → ∃ update, (store.ingest r s.world).1 = .ok update ∧ update.accepts ∧
        (update.completes ↔ s.ingested.length + 1 = plan.total_slices.toNat)) ∧
      (r ∈ s.ingested → ∃ received expected status,
        (store.ingest r s.world).1 = .ok (.Duplicate received expected status))) ∧
    (∀ h, s.world.find plan.run_id = some h →
      Sums h s.ingested ∧ (h.status = .Complete ↔ s.ingested.length = plan.total_slices.toNat)) ∧
    ∀ s', Reachable (mergingSystem store plan results) s' →
      (∀ r, r ∈ s'.ingested ↔ r ∈ s.ingested) →
      ∀ h', s'.world.find plan.run_id = some h' → Sums h' s.ingested := by
  have hmerged : ∀ {t}, Reachable (mergingSystem store plan results) t →
      Merged store plan results t :=
    fun ht => Reachable.invariant (I := Merged store plan results) (fun _ => Merged.start)
      (fun _ _ hm hallowed => hm.step hpos hc hallowed) ht
  have hm := hmerged hs
  refine ⟨?_, ?_, ?_⟩
  · intro r hr hallowed
    constructor
    · intro hnew
      exact (ingest_new hpos hc hm hr hnew hallowed).1
    · intro hin
      exact (ingest_known hpos hc hm hr hin hallowed).1
  · intro h hfind
    have hh := hm.record h hfind
    refine ⟨hh.sums, ?_⟩
    rw [hh.good.complete, List.length_map, hh.expected_slices]
  · intro s' hs' hsame h' hfind
    have hm' := hmerged hs'
    exact (hm'.record h' hfind).sums.perm
      ((List.perm_ext_iff_of_nodup hm'.distinct hm.distinct).mpr hsame)

/-! ## Two results -/

/-- The other slice of the run of `sampleResult`. -/
def siblingResult : ScenarioRunResult :=
  { sampleResult with
    slice := ⟨0, 2⟩
    execution_key := "run-1:slice-0-of-2"
    event_id := "run-1:slice-0-of-2:attempt-0:result" }

def samplePlan : RunPlan := ⟨"checkout", "run-1", 2, 2, [10, 100]⟩

theorem sample_errors_le (kind : String) : error_count sampleResult kind ≤ 1 := by
  simp only [error_count, added, sampleResult, List.map_cons, List.map_nil]
  by_cases htimeout : "timeout" = kind
  · subst htimeout
    decide
  · by_cases hrefused : "refused" = kind
    · subst hrefused
      decide
    · simp [htimeout, hrefused]

theorem compatible_samples : Compatible defaultStore samplePlan [sampleResult, siblingResult] where
  accepted := by decide +kernel
  run := by decide +kernel
  bounds := by decide +kernel
  bounds_set := by decide
  indexes := by decide +kernel
  keys := by decide +kernel
  total := by decide +kernel
  success := by decide +kernel
  failure := by decide +kernel
  latency
    | 0 => by decide +kernel
    | 1 => by decide +kernel
    | _ + 2 => Nat.zero_le _
  errors := by
    intro kind
    have hle := sample_errors_le kind
    change error_count sampleResult kind + (error_count sampleResult kind + 0) ≤ lua.MAX_EXACT
    unfold lua.MAX_EXACT
    omega
  kinds := by decide +kernel

/-- The store after the sibling is in. -/
def siblingMerging : Merging :=
  ⟨(World.start 0).step defaultStore (.ingest siblingResult), [siblingResult]⟩

theorem results_merge_in_any_order_of_two :
    (∃ update, (defaultStore.ingest sampleResult siblingMerging.world).1 = .ok update ∧
      update.completes) ∧
    ∃ received expected status, (defaultStore.ingest siblingResult siblingMerging.world).1 =
      .ok (.Duplicate received expected status) := by
  have hstart : Reachable (mergingSystem defaultStore samplePlan [sampleResult, siblingResult])
      ⟨World.start 0, []⟩ := Reachable.initial ⟨by decide, .inl rfl, rfl⟩
  have hs := hstart.step (e := Op.ingest siblingResult)
    ⟨.inr ⟨by decide, by decide +kernel, fun _ => by decide +kernel⟩, fun _ => rfl,
      by decide +kernel⟩
  have hnext : (mergingSystem defaultStore samplePlan [sampleResult, siblingResult]).next
      ⟨World.start 0, []⟩ (.ingest siblingResult) = siblingMerging := by
    simp [mergingSystem, siblingMerging, samplePlan, siblingResult, sampleResult]
  rw [hnext] at hs
  have hfound : siblingMerging.world.find "run-1" ≠ none :=
    Option.isSome_iff_ne_none.mp (by decide +kernel)
  have hallowed : ∀ r ∈ [sampleResult, siblingResult],
      (mergingSystem defaultStore samplePlan [sampleResult, siblingResult]).allowed siblingMerging
        (.ingest r) := by
    intro r hr
    refine ⟨.inr ⟨hr, by decide +kernel, fun hgone => absurd hgone hfound⟩,
      fun hgone => absurd hgone hfound, ?_⟩
    rw [step_now]
    change siblingMerging.world.now < _
    decide +kernel
  obtain ⟨hlaw, -⟩ := results_merge_in_any_order (by decide +kernel) compatible_samples hs
  obtain ⟨update, hok, -, hlast⟩ := (hlaw sampleResult (by simp) (hallowed _ (by simp))).1
    (by decide +kernel)
  exact ⟨⟨update, hok, hlast.mpr rfl⟩,
    (hlaw siblingResult (by simp) (hallowed _ (by simp))).2 (by decide +kernel)⟩

/-! ## Times and settings with which a result is refused -/

/-- The plan of a run with one slice. -/
def singlePlan : RunPlan := { samplePlan with total_slices := 1 }

/-- The partial timeout is less than a millisecond. -/
def hastyStore : RedisRunAggregationStore :=
  { defaultStore with
    partial_timeout := 1
    partial_timeout_exact := by decide
    retention_exceeds := by decide }

theorem patient_timeout_exact : IsExact (from_millis 9000000000000000) := by decide

/-- The partial timeout is nearly the exact range of Lua. -/
def patientStore : RedisRunAggregationStore :=
  { defaultStore with
    partial_timeout := from_millis 9000000000000000
    retention_ttl := from_millis 9000000000000001
    partial_timeout_exact := patient_timeout_exact
    retention_exact := by decide
    retention_exceeds := by decide }

theorem compatible_single (hok : (store.normalize_result singleResult).isOk = true)
    (hkinds : 2 ≤ store.max_error_kinds) : Compatible store singlePlan [singleResult] where
  accepted := by simpa using hok
  run := by decide +kernel
  bounds := by decide +kernel
  bounds_set := by decide
  indexes := by decide +kernel
  keys := by decide +kernel
  total := by decide +kernel
  success := by decide +kernel
  failure := by decide +kernel
  latency
    | 0 => by decide +kernel
    | 1 => by decide +kernel
    | _ + 2 => Nat.zero_le _
  errors := by
    intro kind
    have hle := sample_errors_le kind
    change error_count sampleResult kind + 0 ≤ lua.MAX_EXACT
    unfold lua.MAX_EXACT
    omega
  kinds := by
    refine Nat.le_trans ?_ hkinds
    decide +kernel

/-- The only result of a run, that is not there, is refused: from 10^14 ms on, with a partial
timeout of less than a millisecond, and when the deadline would not be exact. -/
theorem compatible_results_are_refused :
    (Compatible defaultStore singlePlan [singleResult] ∧
      (defaultStore.ingest singleResult (.start lua.FIRST_SCIENTIFIC)).1.isOk = false) ∧
    (Compatible hastyStore singlePlan [singleResult] ∧
      (hastyStore.ingest singleResult (.start 0)).1.isOk = false) ∧
    (Compatible patientStore singlePlan [singleResult] ∧
      (patientStore.ingest singleResult (.start 10000000000000)).1.isOk = false) := by
  refine ⟨⟨?_, by decide +kernel⟩, ⟨?_, by decide +kernel⟩, ?_, by decide +kernel⟩
  · exact compatible_single (by decide +kernel) (by decide)
  · exact compatible_single (by decide +kernel) (by decide)
  · exact compatible_single (by decide +kernel) (by decide)

end pulse.aggregation
