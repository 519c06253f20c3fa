-- The latency metrics of a worker (application/metrics.rs): observations are
-- recorded in a histogram and reported in mergeable buckets. Five bounds of the
-- buckets lie inside a class of the histogram, whose values two buckets count.
import Pulse.Contracts
import Pulse.Durations
import Pulse.Histograms

open checks histograms pulse.contracts

namespace pulse.metrics

/-! ## The model -/

def LATENCY_BUCKET_BOUNDS_MS : List UInt64 :=
  [1, 2, 5, 10, 25, 50, 100, 250, 500, 1000, 2500, 5000, 10000, 30000, 60000, 120000]

/-- The precision of `Histogram::new_with_bounds(1, 120_000, 3)`: width 1 below 2048. -/
def PRECISION : Nat := 10

def u64_MAX : Nat := 2 ^ 64 - 1

def saturating_add (a b : UInt64) : UInt64 := UInt64.ofNat (min (a.toNat + b.toNat) u64_MAX)

structure MetricsBucket where
  total : UInt64
  success : UInt64
  failure : UInt64
  latency_ms : Histogram
  latency_overflow : UInt64

namespace MetricsBucket

def new : MetricsBucket where
  total := 0
  success := 0
  failure := 0
  latency_ms := .empty
  latency_overflow := 0

/-- The milliseconds of an observation. -/
def observed_ms (duration : Nat) : Nat :=
  max (min (durations.Duration.as_millis duration) u64_MAX) 1

def record (metrics : MetricsBucket) (duration : Nat) (ok : Bool) : MetricsBucket :=
  let metrics := { metrics with total := metrics.total + 1 }
  let metrics :=
    if ok then { metrics with success := metrics.success + 1 }
    else { metrics with failure := metrics.failure + 1 }
  let ms := observed_ms duration
  if 120000 < ms then
    { metrics with latency_overflow := saturating_add metrics.latency_overflow 1 }
  else { metrics with latency_ms := metrics.latency_ms.record PRECISION ms }

def merge_from (metrics other : MetricsBucket) : MetricsBucket where
  total := metrics.total + other.total
  success := metrics.success + other.success
  failure := metrics.failure + other.failure
  latency_ms := metrics.latency_ms.add other.latency_ms
  latency_overflow := saturating_add metrics.latency_overflow other.latency_overflow

/-- The loop over the bounds, with the lower bound of the next bucket. -/
def latency_buckets_from (metrics : MetricsBucket) : UInt64 → List UInt64 → List LatencyBucket
  | _, [] => []
  | lower_bound, upper_bound_ms :: bounds =>
    let count :=
      if upper_bound_ms < lower_bound then 0
      else
        let counted :=
          metrics.latency_ms.count_between PRECISION lower_bound.toNat upper_bound_ms.toNat
        UInt64.ofNat (min counted u64_MAX)
    ⟨upper_bound_ms, count⟩ ::
      latency_buckets_from metrics (saturating_add upper_bound_ms 1) bounds

def mergeable_latency_buckets (metrics : MetricsBucket) : List LatencyBucket :=
  latency_buckets_from metrics 1 LATENCY_BUCKET_BOUNDS_MS ++
    [⟨UInt64.ofNat u64_MAX, metrics.latency_overflow⟩]

end MetricsBucket

/-- The calls that built a bucket; a bucket that is merged has its own calls. -/
inductive Calls
  | new
  | record (calls : Calls) (duration : Nat) (ok : Bool)
  | merge_from (calls other : Calls)

def Calls.run : Calls → MetricsBucket
  | .new => .new
  | .record calls duration ok => calls.run.record duration ok
  | .merge_from calls other => calls.run.merge_from other.run

/-- The milliseconds of all observations. -/
def Calls.observations : Calls → List Nat
  | .new => []
  | .record calls duration _ => MetricsBucket.observed_ms duration :: calls.observations
  | .merge_from calls other => other.observations ++ calls.observations

/-! ## What a bucket holds -/

/-- The observations are counted, those up to two minutes in the histogram. -/
structure Counts (metrics : MetricsBucket) (observations : List Nat) : Prop where
  positive : ∀ ms ∈ observations, ms ≠ 0
  total : metrics.total.toNat = observations.length
  histogram : metrics.latency_ms.Holds PRECISION (observations.filter fun ms => ms ≤ 120000)
  overflow : metrics.latency_overflow.toNat = observations.countP fun ms => 120000 < ms

theorem toNat_saturating_add {a b : UInt64} (h : a.toNat + b.toNat ≤ u64_MAX) :
    (saturating_add a b).toNat = a.toNat + b.toNat := by
  rw [saturating_add, Nat.min_eq_left h]
  exact UInt64.toNat_ofNat_of_lt' (by unfold u64_MAX at h; unfold UInt64.size; omega)

theorem toNat_add_of_lt {a b : UInt64} (h : a.toNat + b.toNat < 2 ^ 64) :
    (a + b).toNat = a.toNat + b.toNat := by
  rw [UInt64.toNat_add, Nat.mod_eq_of_lt h]

theorem observed_ms_pos (duration : Nat) : MetricsBucket.observed_ms duration ≠ 0 := by
  unfold MetricsBucket.observed_ms
  omega

variable {metrics : MetricsBucket} {observations : List Nat}

theorem Counts.record (h : Counts metrics observations) (hbound : observations.length + 1 < 2 ^ 64)
    (duration : Nat) (ok : Bool) :
    Counts (metrics.record duration ok) (MetricsBucket.observed_ms duration :: observations) := by
  have htotal : (metrics.total + 1).toNat = observations.length + 1 := by
    rw [toNat_add_of_lt (by rw [h.total]; exact hbound), h.total]
    rfl
  have hpositive : ∀ ms ∈ MetricsBucket.observed_ms duration :: observations, ms ≠ 0 := by
    intro ms hms
    rcases List.mem_cons.mp hms with rfl | hms
    · exact observed_ms_pos duration
    · exact h.positive ms hms
  have hle := List.countP_le_length (p := fun ms : Nat => decide (120000 < ms)) (l := observations)
  unfold MetricsBucket.record
  dsimp only
  by_cases hms : 120000 < MetricsBucket.observed_ms duration
  · rw [if_pos hms]
    have hoverflow : (saturating_add metrics.latency_overflow 1).toNat =
        (observations.countP fun ms => 120000 < ms) + 1 := by
      rw [toNat_saturating_add (by rw [h.overflow]; unfold u64_MAX; simp; omega), h.overflow]
      rfl
    cases ok <;> exact
      { positive := hpositive
        total := by simpa using htotal
        histogram := by simpa [Nat.not_le.mpr hms] using h.histogram
        overflow := by simpa [hms] using hoverflow }
  · rw [if_neg hms]
    have hhistogram := h.histogram.record PRECISION (MetricsBucket.observed_ms duration)
    cases ok <;> exact
      { positive := hpositive
        total := by simpa using htotal
        histogram := by simpa [Nat.not_lt.mp hms] using hhistogram
        overflow := by simpa [hms] using h.overflow }

theorem Counts.merge_from {other : MetricsBucket} {observations' : List Nat}
    (h : Counts metrics observations) (h' : Counts other observations')
    (hbound : observations.length + observations'.length < 2 ^ 64) :
    Counts (metrics.merge_from other) (observations' ++ observations) := by
  have hle := List.countP_le_length (p := fun ms : Nat => decide (120000 < ms)) (l := observations)
  have hle' :=
    List.countP_le_length (p := fun ms : Nat => decide (120000 < ms)) (l := observations')
  constructor
  · intro ms hms
    rcases List.mem_append.mp hms with hms | hms
    · exact h'.positive ms hms
    · exact h.positive ms hms
  · change (metrics.total + other.total).toNat = _
    rw [toNat_add_of_lt (by rw [h.total, h'.total]; exact hbound), h.total, h'.total,
      List.length_append, Nat.add_comm]
  · rw [List.filter_append]
    exact h.histogram.add PRECISION h'.histogram
  · change (saturating_add metrics.latency_overflow other.latency_overflow).toNat = _
    rw [toNat_saturating_add (by rw [h.overflow, h'.overflow]; unfold u64_MAX; omega), h.overflow,
      h'.overflow, List.countP_append, Nat.add_comm]

/-- Every run of calls counts its observations. -/
theorem Calls.counts (calls : Calls) (hbound : calls.observations.length < 2 ^ 64) :
    Counts calls.run calls.observations := by
  induction calls with
  | new => exact ⟨by simp [Calls.observations], rfl, rfl, rfl⟩
  | record calls duration ok ih =>
    rw [Calls.observations, List.length_cons] at hbound
    exact (ih (by omega)).record hbound duration ok
  | merge_from calls other ih ih' =>
    rw [Calls.observations, List.length_append] at hbound
    exact (ih (by omega)).merge_from (ih' (by omega)) (by omega)

/-! ## The sum of the buckets -/

/-- The bounds of the counts of the loop. -/
def RANGES : List (Nat × Nat) :=
  [(1, 1), (2, 2), (3, 5), (6, 10), (11, 25), (26, 50), (51, 100), (101, 250), (251, 500),
    (501, 1000), (1001, 2500), (2501, 5000), (5001, 10000), (10001, 30000), (30001, 60000),
    (60001, 120000)]

/-- The values that each of them counts: whole classes. -/
def EDGES : List (Nat × Nat) :=
  [(1, 2), (2, 3), (3, 6), (6, 11), (11, 26), (26, 51), (51, 101), (101, 251), (251, 501),
    (501, 1001), (1001, 2502), (2500, 5004), (5000, 10008), (10000, 30016), (30000, 60032),
    (60000, 120064)]

theorem edges_of_ranges :
    RANGES.map (fun range => (lowest PRECISION range.1, next PRECISION range.2)) = EDGES := by
  decide

/-- The milliseconds that two buckets count: the class of a bound below and above it. -/
def Doubled (ms : Nat) : Prop :=
  (2500 ≤ ms ∧ ms ≤ 2501) ∨ (5000 ≤ ms ∧ ms ≤ 5003) ∨ (10000 ≤ ms ∧ ms ≤ 10007) ∨
    (30000 ≤ ms ∧ ms ≤ 30015) ∨ (60000 ≤ ms ∧ ms ≤ 60031)

instance (ms : Nat) : Decidable (Doubled ms) := by
  unfold Doubled
  infer_instance

theorem mergeable_latency_buckets_eq (metrics : MetricsBucket) :
    metrics.mergeable_latency_buckets =
      (RANGES.map fun range => ⟨UInt64.ofNat range.2, UInt64.ofNat
        (min (metrics.latency_ms.count_between PRECISION range.1 range.2) u64_MAX)⟩) ++
        [⟨UInt64.ofNat u64_MAX, metrics.latency_overflow⟩] := by
  rfl

/-- Counting by ranges or by values is the same. -/
theorem sum_countP_comm {α β : Type} (values : List α) (ranges : List β) (p : β → α → Bool) :
    (ranges.map fun range => values.countP (p range)).sum =
      (values.map fun v => ranges.countP fun range => p range v).sum := by
  induction values with
  | nil =>
    induction ranges with
    | nil => rfl
    | cons range ranges ih => simp
  | cons v values ih =>
    have hsplit : (ranges.map fun range => (v :: values).countP (p range)).sum =
        (ranges.map fun range => values.countP (p range)).sum +
          ranges.countP fun range => p range v := by
      clear ih
      induction ranges with
      | nil => rfl
      | cons range ranges ih =>
        rw [List.map_cons, List.sum_cons, ih, List.map_cons, List.sum_cons, List.countP_cons,
          List.countP_cons]
        omega
    rw [hsplit, ih, List.map_cons, List.sum_cons, Nat.add_comm]

theorem countP_edges_doubled {ms : Nat} (h : Doubled ms) :
    (EDGES.countP fun edge => decide (edge.1 ≤ ms ∧ ms < edge.2)) = 2 := by
  unfold EDGES
  rcases h with h | h | h | h | h <;>
    simp (disch := omega) only [List.countP_cons, List.countP_nil, decide_eq_true_eq, if_pos,
      if_neg]

theorem countP_edges_once {ms : Nat} (hpos : ms ≠ 0) (hle : ms ≤ 120000) (h : ¬ Doubled ms) :
    (EDGES.countP fun edge => decide (edge.1 ≤ ms ∧ ms < edge.2)) = 1 := by
  unfold Doubled at h
  have hcases : ms < 2 ∨ (2 ≤ ms ∧ ms < 3) ∨ (3 ≤ ms ∧ ms < 6) ∨ (6 ≤ ms ∧ ms < 11) ∨
      (11 ≤ ms ∧ ms < 26) ∨ (26 ≤ ms ∧ ms < 51) ∨ (51 ≤ ms ∧ ms < 101) ∨ (101 ≤ ms ∧ ms < 251) ∨
      (251 ≤ ms ∧ ms < 501) ∨ (501 ≤ ms ∧ ms < 1001) ∨ (1001 ≤ ms ∧ ms < 2500) ∨
      (2502 ≤ ms ∧ ms < 5000) ∨ (5004 ≤ ms ∧ ms < 10000) ∨ (10008 ≤ ms ∧ ms < 30000) ∨
      (30016 ≤ ms ∧ ms < 60000) ∨ 60032 ≤ ms := by omega
  clear h
  unfold EDGES
  rcases hcases with h | h | h | h | h | h | h | h | h | h | h | h | h | h | h | h <;>
    simp (disch := omega) only [List.countP_cons, List.countP_nil, decide_eq_true_eq, if_pos,
      if_neg]

/-- A value is counted once, and once more in a class of two buckets. -/
theorem countP_edges {ms : Nat} (hpos : ms ≠ 0) (hle : ms ≤ 120000) :
    (EDGES.countP fun edge => decide (edge.1 ≤ ms ∧ ms < edge.2)) =
      1 + if Doubled ms then 1 else 0 := by
  by_cases h : Doubled ms
  · rw [if_pos h, countP_edges_doubled h]
  · rw [if_neg h, countP_edges_once hpos hle h]

theorem sum_countP_edges {values : List Nat} (h : ∀ ms ∈ values, ms ≠ 0 ∧ ms ≤ 120000) :
    (values.map fun ms => EDGES.countP fun edge => decide (edge.1 ≤ ms ∧ ms < edge.2)).sum =
      values.length + values.countP fun ms => decide (Doubled ms) := by
  induction values with
  | nil => rfl
  | cons ms values ih =>
    obtain ⟨hpos, hle⟩ := h ms List.mem_cons_self
    rw [List.map_cons, List.sum_cons, ih fun v hv => h v (List.mem_cons_of_mem ms hv),
      countP_edges hpos hle, List.countP_cons, List.length_cons]
    simp only [decide_eq_true_eq]
    omega

/-- No value above two minutes is in a class of two buckets. -/
theorem countP_doubled_filter (observations : List Nat) :
    ((observations.filter fun ms => decide (ms ≤ 120000)).countP fun ms => decide (Doubled ms)) =
      observations.countP fun ms => decide (Doubled ms) := by
  rw [List.countP_filter]
  apply List.countP_congr
  intro ms _
  simp only [Bool.and_eq_true, decide_eq_true_eq]
  constructor
  · exact fun h => h.1
  · intro h
    refine ⟨h, ?_⟩
    unfold Doubled at h
    omega

theorem length_filter_add_countP (observations : List Nat) :
    (observations.filter fun ms => decide (ms ≤ 120000)).length +
        (observations.countP fun ms => decide (120000 < ms)) = observations.length := by
  rw [← List.countP_eq_length_filter]
  have hsplit := List.length_eq_countP_add_countP (fun ms : Nat => decide (ms ≤ 120000))
    (l := observations)
  have hnot : (observations.countP fun ms => decide (120000 < ms)) =
      observations.countP fun ms => decide ¬ decide (ms ≤ 120000) = true := by
    apply List.countP_congr
    intro ms _
    simp
  omega

/-- The buckets count every observation once, and those of a class of two buckets once more. -/
theorem sum_of_buckets (h : Counts metrics observations) (hbound : observations.length < 2 ^ 64) :
    (metrics.mergeable_latency_buckets.map fun bucket => bucket.count.toNat).sum =
      observations.length + observations.countP fun ms => decide (Doubled ms) := by
  have hvalues : ∀ ms ∈ observations.filter (fun ms => decide (ms ≤ 120000)),
      ms ≠ 0 ∧ ms ≤ 120000 := by
    intro ms hms
    rw [List.mem_filter] at hms
    exact ⟨h.positive ms hms.1, by simpa using hms.2⟩
  have hcount : ∀ range ∈ RANGES,
      (UInt64.ofNat (min (metrics.latency_ms.count_between PRECISION range.1 range.2)
        u64_MAX)).toNat =
      (observations.filter fun ms => decide (ms ≤ 120000)).countP fun ms =>
        decide (lowest PRECISION range.1 ≤ ms ∧ ms < next PRECISION range.2) := by
    intro range hrange
    have hrange' : range.1 ≠ 0 ∧ range.2 ≠ 0 := by
      revert range
      decide
    rw [h.histogram.count_between PRECISION (fun ms hms => (hvalues ms hms).1) hrange'.1 hrange'.2]
    have hle := (List.countP_le_length (p := fun ms => decide
        (lowest PRECISION range.1 ≤ ms ∧ ms < next PRECISION range.2))
      (l := observations.filter fun ms => decide (ms ≤ 120000)))
    have hle' := List.length_filter_le (fun ms => decide (ms ≤ 120000)) observations
    rw [Nat.min_eq_left (by unfold u64_MAX; omega)]
    exact UInt64.toNat_ofNat_of_lt' (by unfold UInt64.size; omega)
  have hranges := List.map_congr_left hcount
  have hedges := congrArg (fun edges => (edges.map fun edge : Nat × Nat =>
    (observations.filter fun ms => decide (ms ≤ 120000)).countP fun ms =>
      decide (edge.1 ≤ ms ∧ ms < edge.2)).sum) edges_of_ranges
  rw [mergeable_latency_buckets_eq, List.map_append, List.sum_append, List.map_map]
  simp only [Function.comp_def, hranges, List.map_cons, List.map_nil, List.sum_cons,
    List.sum_nil, Nat.add_zero, h.overflow]
  simp only [List.map_map, Function.comp_def] at hedges
  rw [hedges, sum_countP_comm _ _ fun (edge : Nat × Nat) ms =>
    decide (edge.1 ≤ ms ∧ ms < edge.2), sum_countP_edges hvalues, countP_doubled_filter]
  have hlength := length_filter_add_countP observations
  omega

/-! ## The contract of the result -/

/-- The loop of `validate_latency_buckets` accepts buckets with rising bounds. -/
theorem validate_latency_bucket_run {buckets : List LatencyBucket} (previous : Option UInt64)
    (count : Nat) (hbounds : (buckets.map (·.upper_bound_ms)).Pairwise (· < ·))
    (hprevious : ∀ bound ∈ previous, ∀ bucket ∈ buckets, bound < bucket.upper_bound_ms)
    (hsum : count + (buckets.map fun bucket => bucket.count.toNat).sum < 2 ^ 64) :
    ∃ last, buckets.foldlM validate_latency_bucket (previous, count) =
      .ok (last, count + (buckets.map fun bucket => bucket.count.toNat).sum) := by
  induction buckets generalizing previous count with
  | nil => exact ⟨previous, rfl⟩
  | cons bucket buckets ih =>
    rw [List.map_cons, List.pairwise_cons] at hbounds
    rw [List.map_cons, List.sum_cons] at hsum ⊢
    have hrises : ¬ ∃ bound ∈ previous, bucket.upper_bound_ms ≤ bound := by
      rintro ⟨bound, hbound, hle⟩
      exact absurd hle (UInt64.not_le.mpr (hprevious bound hbound bucket List.mem_cons_self))
    have hadd : checked_add count bucket.count.toNat = some (count + bucket.count.toNat) := by
      rw [checked_add, if_pos]
      unfold UInt64.size
      omega
    obtain ⟨last, hlast⟩ := ih (some bucket.upper_bound_ms) (count + bucket.count.toNat) hbounds.2
      (by
        intro bound hbound next hnext
        cases hbound
        exact hbounds.1 _ (List.mem_map_of_mem hnext))
      (by omega)
    refine ⟨last, ?_⟩
    rw [List.foldlM_cons, validate_latency_bucket, rejectIf_neg _ hrises, ok_bind, hadd, okOr,
      ok_bind]
    simpa [Nat.add_assoc] using hlast

theorem bounds_of_buckets (metrics : MetricsBucket) :
    metrics.mergeable_latency_buckets.map (·.upper_bound_ms) =
      LATENCY_BUCKET_BOUNDS_MS ++ [UInt64.ofNat u64_MAX] := by
  rfl

/-- The buckets of a result are accepted exactly when they sum to its total. -/
theorem validate_latency_buckets_iff (metrics : MetricsBucket) (total : UInt64) :
    validate_latency_buckets metrics.mergeable_latency_buckets total = .ok () ↔
      (metrics.mergeable_latency_buckets.map fun bucket => bucket.count.toNat).sum =
        total.toNat := by
  have hlength : ¬ MAX_CONTRACT_HISTOGRAM_BUCKETS < metrics.mergeable_latency_buckets.length := by
    have := congrArg List.length (bounds_of_buckets metrics)
    rw [List.length_map] at this
    rw [this]
    decide
  have hne : metrics.mergeable_latency_buckets ≠ [] := by
    unfold MetricsBucket.mergeable_latency_buckets
    simp
  unfold validate_latency_buckets
  rw [rejectIf_neg _ hlength, ok_bind, if_neg hne]
  constructor
  · intro h
    obtain ⟨state, hfold, h⟩ := bind_eq_ok.mp h
    rw [rejectIf_eq_ok, not_not] at h
    have hsum := (ScenarioRunResult.validate_latency_buckets_fold hfold).2.2
    rw [Nat.zero_add] at hsum
    rw [← hsum, h]
  · intro h
    have hbounds : (metrics.mergeable_latency_buckets.map (·.upper_bound_ms)).Pairwise (· < ·) := by
      rw [bounds_of_buckets]
      decide
    obtain ⟨last, hfold⟩ := validate_latency_bucket_run none 0 hbounds
      (by simp) (by rw [Nat.zero_add, h]; exact total.toNat_lt)
    rw [hfold, ok_bind, Nat.zero_add, rejectIf_neg]
    simpa using h

/-- The counts sum to the total, and the contract accepts them. -/
def CountedOnce (metrics : MetricsBucket) : Prop :=
  (metrics.mergeable_latency_buckets.map fun bucket => bucket.count.toNat).sum =
      metrics.total.toNat ∧
    validate_latency_buckets metrics.mergeable_latency_buckets metrics.total = .ok ()

/-- Every observation is in one bucket exactly when none is in a class of two buckets. -/
theorem observations_are_counted_once_unless_doubled (calls : Calls)
    (hbound : calls.observations.length < 2 ^ 64) :
    CountedOnce calls.run ↔ ∀ ms ∈ calls.observations, ¬ Doubled ms := by
  have hcounts := calls.counts hbound
  have hsum := sum_of_buckets hcounts hbound
  have hiff : (calls.run.mergeable_latency_buckets.map fun bucket => bucket.count.toNat).sum =
      calls.run.total.toNat ↔ ∀ ms ∈ calls.observations, ¬ Doubled ms := by
    rw [hsum, hcounts.total, Nat.add_eq_left, List.countP_eq_zero]
    simp only [decide_eq_true_eq]
  rw [CountedOnce, validate_latency_buckets_iff, and_self, hiff]

theorem short_observations_are_counted_once :
    CountedOnce (Calls.record (.record .new 3000000 true) 120500000000 false).run :=
  (observations_are_counted_once_unless_doubled _ (by decide)).mpr (by decide)

/-- One observation of 2,500 milliseconds is counted twice. -/
theorem an_observation_is_counted_twice :
    ((Calls.record .new 2500000000 true).run.mergeable_latency_buckets.map
        fun bucket => bucket.count.toNat).sum = 2 ∧
      (Calls.record .new 2500000000 true).run.total = 1 ∧
      ¬ CountedOnce (Calls.record .new 2500000000 true).run := by
  have hsum : ((Calls.record .new 2500000000 true).run.mergeable_latency_buckets.map
      fun bucket => bucket.count.toNat).sum = 2 := by decide +kernel
  refine ⟨hsum, rfl, ?_⟩
  rintro ⟨hcounts, _⟩
  rw [hsum] at hcounts
  cases hcounts

end pulse.metrics
