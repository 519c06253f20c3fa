-- Reading back what the scripts wrote: the hash of a finalized run always
-- decodes to a summary, and the reply to an accepted slice always decodes.
import Pulse.AggregationRecord

open checks counters keyspace systems
open pulse.contracts

namespace pulse.aggregation

/-! ## The parts of a summary -/

variable {operation field : String} {limit n now : Nat}

theorem parse_count_ok (h : n ≤ limit) : parse_count operation field limit n = .ok n := by
  unfold parse_count parse_field
  rw [lua.parse_decimal h]
  rfl

theorem parse_field_ok (h : n ≤ limit) :
    parse_field operation field limit (.decimal n) = .ok n := parse_count_ok h

/-- Rising bounds with a count for each are read as they are. -/
theorem read_buckets_ok (operation : String) {latency : Counts Nat} {bounds : List UInt64}
    (offset : Nat) (previous : Option UInt64) (read : List (UInt64 × Nat))
    (hincrease : bounds.Pairwise (· < ·)) (habove : ∀ p ∈ previous, ∀ b ∈ bounds, p < b)
    (hmem : ∀ j, offset ≤ j → j < offset + bounds.length → j ∈ latency)
    (hexact : ∀ j, count latency j ≤ lua.MAX_EXACT) :
    ∃ last, (bounds.zipIdx offset).foldlM (read_bucket operation latency) (previous, read) =
      .ok (last, read ++ (bounds.zipIdx offset).map fun p => (p.1, count latency p.2)) := by
  induction bounds generalizing offset previous read with
  | nil => exact ⟨previous, by simp [pure, Except.pure]⟩
  | cons b bounds ih =>
    rw [List.pairwise_cons] at hincrease
    have hstep : read_bucket operation latency (previous, read) (b, offset) =
        .ok (some b, read ++ [(b, count latency offset)]) := by
      have hlookup := lookup_of_mem (hmem offset le_rfl (by simp))
      have hmax : lua.MAX_EXACT ≤ U64_MAX := by decide
      simp only [read_bucket, bind_eq_ok, rejectIf_eq_ok, okOr_eq_ok]
      refine ⟨(), ?_, _, hlookup, _, lua.parse_decimal (Nat.le_trans (hexact _) hmax), rfl⟩
      rintro ⟨p, hp, hle⟩
      exact absurd hle (UInt64.not_le.mpr (habove p hp b (by simp)))
    obtain ⟨last, hrest⟩ := ih (offset + 1) (some b)
      (read ++ [(b, count latency offset)]) hincrease.2
      (by
        rintro p hp b' hb'
        cases hp
        exact hincrease.1 b' hb')
      (by
        intro j hle hlt
        exact hmem j (by omega) (by rw [List.length_cons]; omega))
    refine ⟨last, ?_⟩
    rw [List.zipIdx_cons, List.foldlM_cons, hstep, ok_bind, hrest]
    simp

theorem mapM_ok {ε α β : Type} {f : α → Except ε β} {g : α → β} {l : List α}
    (h : ∀ a ∈ l, f a = .ok (g a)) : l.mapM f = .ok (l.map g) := by
  rw [mapM_eq_ok, List.forall₂_map_right_iff, List.forall₂_same]
  exact h

theorem read_errors_ok {errors : Counts String}
    (hexact : ∀ kind, count errors kind ≤ lua.MAX_EXACT) :
    read_errors operation errors = .ok (pairs errors) := by
  refine mapM_ok fun e he => ?_
  have hcount : count errors e.1 = e.2 := by
    have hlookup : errors.lookup e.1 = some e.2 := AList.mem_lookup_iff.mpr he
    simp [count, hlookup]
  have hmax : lua.MAX_EXACT ≤ U64_MAX := by decide
  have hle := hexact e.1
  rw [lua.parse_decimal (by omega)]
  rfl

theorem add_counts_ok {buckets : List (UInt64 × Nat)} {total : Nat}
    (h : total + (buckets.map (·.2)).sum < UInt64.size) :
    buckets.foldlM (add_count operation) total = .ok (total + (buckets.map (·.2)).sum) := by
  induction buckets generalizing total with
  | nil => rfl
  | cons b buckets ih =>
    rw [List.map_cons, List.sum_cons] at h
    have hstep : add_count operation total b = .ok (total + b.2) := by
      unfold add_count checked_add
      rw [if_pos (by omega)]
      rfl
    rw [List.foldlM_cons, hstep, ok_bind, ih (by omega), List.map_cons, List.sum_cons,
      Nat.add_assoc]

/-! ## The summary -/

namespace RunHash

/-- The bounds of a hash with their counts. -/
def histogram (h : RunHash) : List (UInt64 × Nat) :=
  h.histogram_bounds.zipIdx.map fun p => (p.1, count h.latency p.2)

/-- What the summary of a finalized hash says. -/
def summary (h : RunHash) (status : ScenarioRunSummaryStatus) (first_result_at finalized_at : Nat) :
    ScenarioRunSummary where
  schema_version := h.schema_version
  scenario_id := h.scenario_id
  run_id := h.run_id
  status := status
  expected_slices := lua.tonumber h.expected_slices
  received_slices := h.received_slices
  missing_slices := (List.range (lua.tonumber h.expected_slices)).filter fun i => i ∉ h.slices.keys
  total := h.total
  success := h.success
  failure := h.failure
  scenario_latency_p50_ms := histogram_quantile h.histogram .p50
  scenario_latency_p95_ms := histogram_quantile h.histogram .p95
  scenario_latency_p99_ms := histogram_quantile h.histogram .p99
  latency_histogram := h.histogram
  error_breakdown := by_kind (pairs h.errors)
  first_result_at_unix_ms := first_result_at
  finalized_at_unix_ms := finalized_at

theorem histogram_counts (h : RunHash) :
    (h.histogram.map (·.2)).sum =
      ((List.range h.histogram_bounds.length).map (count h.latency)).sum := by
  rw [List.range_eq_range', ← List.zipIdx_map_snd 0 h.histogram_bounds, histogram, List.map_map,
    List.map_map]
  rfl

theorem histogram_eq_nil (h : RunHash) : h.histogram = [] ↔ h.histogram_bounds = [] := by
  simp [histogram]

end RunHash

section decode

variable {store : RedisRunAggregationStore} {h : RunHash} {l : List Slice}

/-- The buckets of a hash are read, and their counts add up to the total. -/
theorem Good.histogram_ok (hg : Good store h l) (hunset : l = [] → h.histogram_bounds = [])
    (operation : String) :
    (∃ last, h.histogram_bounds.zipIdx.foldlM (read_bucket operation h.latency) (none, []) =
        .ok (last, h.histogram)) ∧
      h.histogram.foldlM (add_count operation) 0 = .ok (h.histogram.map (·.2)).sum ∧
      (h.histogram ≠ [] → (h.histogram.map (·.2)).sum = h.total) := by
  have hc := hg.consistent
  have hreceived := hg.received
  have hne : h.histogram_bounds ≠ [] → h.received_slices ≠ 0 := by
    intro hbounds hzero
    rw [hreceived] at hzero
    exact hbounds (hunset (List.length_eq_zero_iff.mp hzero))
  have hmem : ∀ j, 0 ≤ j → j < 0 + h.histogram_bounds.length → j ∈ h.latency := by
    intro j _ hj
    have hbounds : h.histogram_bounds ≠ [] := by
      intro hnil
      simp [hnil] at hj
    exact ((hc.latency hbounds (hne hbounds)).1 j).mpr (by omega)
  have hsum : h.histogram ≠ [] → (h.histogram.map (·.2)).sum = h.total := by
    intro hnil
    have hbounds := mt h.histogram_eq_nil.mpr hnil
    rw [h.histogram_counts]
    exact (hc.latency hbounds (hne hbounds)).2
  refine ⟨read_buckets_ok operation 0 none [] hg.bounds (by simp) hmem hc.latency_exact, ?_, hsum⟩
  have hmax : lua.MAX_EXACT < UInt64.size := by decide
  have htotal := hc.total_exact.1
  rw [add_counts_ok, Nat.zero_add]
  rw [Nat.zero_add]
  by_cases hnil : h.histogram = []
  · rw [hnil]
    decide
  · rw [hsum hnil]
    omega

/-- The hash of a finalized run decodes, when its times are printed in full. -/
theorem summary_from_snapshot_ok (hg : Good store h l) (hunset : l = [] → h.histogram_bounds = [])
    {status : ScenarioRunSummaryStatus} (hstatus : summary_status h.status operation = .ok status)
    {first final : Nat} (hfirst : h.first_result_at = .decimal first) (hfirst_le : first ≤ U128_MAX)
    (hfinal : h.finalized_at = .decimal final) (hfinal_le : final ≤ U128_MAX) :
    summary_from_snapshot (some h) operation = .ok (h.summary status first final) := by
  have hc := hg.consistent
  obtain ⟨n, hn, -, hu32⟩ := hg.expected
  have hexp : lua.tonumber h.expected_slices = n := by rw [hn]; rfl
  have hmax : lua.MAX_EXACT ≤ U64_MAX ∧ lua.MAX_EXACT < UInt64.size := by decide
  have hlength := length_le_expected hg.fits hg.indexes
  have hreceived := hg.received
  obtain ⟨htotal, hsuccess, hfailure⟩ := hc.total_exact
  have hkindcount := hc.slices_exact.2
  have houtcome := hc.outcome
  have hcomplete : status = .Complete ↔ h.received_slices = n := by
    rw [← hexp, ← hc.complete]
    unfold summary_status at hstatus
    split at hstatus <;> cases hstatus <;> simp_all
  have hkinds : (by_kind (pairs h.errors)).length = h.error_kind_count := by
    rw [by_kind, List.length_insertionSort, hc.kinds, ← map_fst_pairs, List.length_map]
  obtain ⟨⟨last, hbuckets⟩, hfold, hsum⟩ := hg.histogram_ok hunset operation
  -- The checks in the order of the source: each one is passed for one of the facts above.
  simp only [summary_from_snapshot, required, bind_eq_ok, rejectIf_eq_ok, okOr_eq_ok]
  refine ⟨h, rfl, status, hstatus, n, by rw [hn]; exact parse_field_ok hu32,
    h.received_slices, parse_count_ok (by omega), (), by omega, (), by tauto, (), by tauto,
    (), ?_, (), by simp [hc.received], _, hbuckets, _, read_errors_ok hc.errors_exact,
    h.error_kind_count, parse_count_ok (by omega), (), by simp [hkinds],
    h.total, parse_count_ok (by omega), h.success, parse_count_ok (by omega),
    h.failure, parse_count_ok (by omega), (), ?_, _, hfold, (), by tauto,
    first, by rw [hfirst]; exact parse_field_ok hfirst_le,
    final, by rw [hfinal]; exact parse_field_ok hfinal_le, ?_⟩
  · rintro ⟨i, hi, hle⟩
    have hlt := hc.indexes i hi
    omega
  · rw [checked_add, if_pos (by omega), houtcome]
    simp
  · rw [RunHash.summary, hexp]
    rfl

/-! ## Times -/

/-- The times of the summary are printed in full. -/
structure Timed (h : RunHash) : Prop where
  first : ∃ n < lua.FIRST_SCIENTIFIC, h.first_result_at = .decimal n
  final : ∃ n < lua.FIRST_SCIENTIFIC, h.finalized_at = .decimal n

theorem tostring_decimal (h : n < lua.FIRST_SCIENTIFIC) :
    ∃ m < lua.FIRST_SCIENTIFIC, lua.tostring n = .decimal m := ⟨n, h, lua.tostring_of_lt h⟩

theorem Timed.accept (a : IngestArgs) (ht : Timed h) (hnow : now < lua.FIRST_SCIENTIFIC) :
    Timed (accepted_hash a now h) := by
  have hfirst : ∃ n < lua.FIRST_SCIENTIFIC, (merged_hash a now h).first_result_at = .decimal n := by
    unfold merged_hash
    dsimp only
    split
    · exact tostring_decimal hnow
    · exact ht.first
  unfold accepted_hash
  dsimp only
  split
  · exact ⟨hfirst, tostring_decimal hnow⟩
  · exact ⟨hfirst, ht.final⟩

theorem Change.timed {i : String} {op : Op} {found : Option RunHash} {h' : RunHash}
    (hnow : now < lua.FIRST_SCIENTIFIC) (hfound : ∀ h, found = some h → Timed h)
    (hchange : Change store now i op found h') : Timed h' := by
  have hzero : ∃ n < lua.FIRST_SCIENTIFIC, lua.tostring 0 = .decimal n :=
    tostring_decimal (by decide)
  cases hchange with
  | same => exact hfound _ rfl
  | registered => exact ⟨hzero, hzero⟩
  | first => exact .accept _ ⟨tostring_decimal hnow, hzero⟩ hnow
  | bound | acknowledged => exact ⟨(hfound _ rfl).first, (hfound _ rfl).final⟩
  | accepted => exact .accept _ ⟨(hfound _ rfl).first, (hfound _ rfl).final⟩ hnow
  | timed_out | finalized => exact ⟨(hfound _ rfl).first, tostring_decimal hnow⟩

theorem reachable_timed {allowed : World → Op → Prop} {w : World}
    (hlimit : limit ≤ lua.FIRST_SCIENTIFIC) (hw : Reachable (storeSystem store limit allowed) w)
    {i : String} (hfind : w.find i = some h) : Timed h :=
  hash_invariant (P := fun _ h => Timed h)
    (fun hnow _ hfound hchange => hchange.timed (Nat.lt_of_lt_of_le hnow hlimit) hfound) hw hfind

/-! ## Finalized hashes -/

theorem summary_status_ok {status : RunStatus} (hopen : status ≠ .Open)
    (hknown : ∀ text, status ≠ .Other text) :
    ∃ final, ∀ operation, summary_status status operation = .ok final := by
  cases status with
  | Open => exact absurd rfl hopen
  | Other text => exact absurd rfl (hknown text)
  | Partial => exact ⟨.Partial, fun _ => rfl⟩
  | TimedOut => exact ⟨.TimedOut, fun _ => rfl⟩
  | Cancelled => exact ⟨.Cancelled, fun _ => rfl⟩
  | Complete => exact ⟨.Complete, fun _ => rfl⟩

/-- The hash of a finalized run decodes to one summary, whatever the operation. -/
theorem Good.decodes (hg : Good store h l) (ht : Timed h)
    (hunset : l = [] → h.histogram_bounds = []) (hopen : h.status ≠ .Open) :
    ∃ status first final, ∀ operation,
      summary_status h.status operation = .ok status ∧
        summary_from_snapshot (some h) operation = .ok (h.summary status first final) := by
  obtain ⟨status, hstatus⟩ := summary_status_ok hopen hg.status
  obtain ⟨first, hfirst_lt, hfirst⟩ := ht.first
  obtain ⟨final, hfinal_lt, hfinal⟩ := ht.final
  have hsmall : lua.FIRST_SCIENTIFIC ≤ U128_MAX := by decide
  exact ⟨status, first, final, fun operation => ⟨hstatus operation,
    summary_from_snapshot_ok hg hunset (hstatus operation) hfirst (by omega) hfinal (by omega)⟩⟩

/-- A hash that is read after an accepted or repeated slice shows its progress. -/
theorem Good.progress_ok (hg : Good store h l) (operation : String) :
    progress (some h) operation =
      .ok (h.received_slices, lua.tonumber h.expected_slices, h.status) := by
  obtain ⟨n, hn, -, hu32⟩ := hg.expected
  have hlength := length_le_expected hg.fits hg.indexes
  have hreceived := hg.received
  have hexp : lua.tonumber h.expected_slices = n := by rw [hn]; rfl
  have hknown := hg.status
  simp only [progress, required, bind_eq_ok, okOr_eq_ok]
  refine ⟨h, rfl, _, parse_count_ok (by omega), n, by rw [hn]; exact parse_field_ok hu32, ?_⟩
  rw [hexp]
  cases hs : h.status with
  | Other text => exact absurd hs (hknown text)
  | Open | Partial | TimedOut | Cancelled | Complete => rfl

end decode

end pulse.aggregation
