-- What the tasks of a run record in their shards, and how the shards are merged
-- at the end (application/metrics.rs): every failure has one error kind.
import Pulse.Counters
import Pulse.LatencyMetrics
import Pulse.Tables

open counters tables

namespace pulse.metrics

/-! ## The model -/

structure WorkerMetrics where
  scenario_metrics : Table String MetricsBucket
  step_metrics : Table String MetricsBucket
  error_counts : counters.Counts String

namespace WorkerMetrics

def new : WorkerMetrics := ⟨∅, ∅, ∅⟩

def record_step (metrics : WorkerMetrics) (step_name : String) (duration : Nat) (ok : Bool) :
    WorkerMetrics :=
  { metrics with
    step_metrics := entry metrics.step_metrics step_name .new (·.record duration ok) }

def record_scenario (metrics : WorkerMetrics) (scenario_name : String) (duration : Nat)
    (ok : Bool) :
    WorkerMetrics :=
  { metrics with
    scenario_metrics := entry metrics.scenario_metrics scenario_name .new (·.record duration ok) }

def record_error_kind (metrics : WorkerMetrics) (kind : String) : WorkerMetrics :=
  { metrics with error_counts := bump metrics.error_counts kind 1 }

end WorkerMetrics

structure GlobalSummary where
  scenario_metrics : Table String MetricsBucket
  step_metrics : Table String MetricsBucket
  error_counts : counters.Counts String

def GlobalSummary.new : GlobalSummary := ⟨∅, ∅, ∅⟩

def GlobalSummary.merge_worker (summary : GlobalSummary) (worker : WorkerMetrics) :
    GlobalSummary where
  scenario_metrics :=
    merge summary.scenario_metrics worker.scenario_metrics .new MetricsBucket.merge_from
  step_metrics := merge summary.step_metrics worker.step_metrics .new MetricsBucket.merge_from
  error_counts := bumpAll summary.error_counts (pairs worker.error_counts)

/-! ## The books of one scenario -/

/-- The bucket of a scenario; before the first record it is a new one. -/
def bucketOf (metrics : Table String MetricsBucket) (name : String) : MetricsBucket :=
  (metrics.lookup name).getD .new

/-- Every observation is a success or a failure, and every failure has one error kind. -/
structure Balanced (metrics : Table String MetricsBucket) (errors : counters.Counts String)
    (name : String) : Prop where
  outcome : (bucketOf metrics name).total.toNat =
    (bucketOf metrics name).success.toNat + (bucketOf metrics name).failure.toNat
  errors : total errors = (bucketOf metrics name).failure.toNat

theorem balanced_empty (name : String) : Balanced ∅ ∅ name := ⟨rfl, rfl⟩

section records

variable {metrics : Table String MetricsBucket} {errors : counters.Counts String} {name : String}

@[simp]
theorem bucketOf_entry (f : MetricsBucket → MetricsBucket) :
    bucketOf (entry metrics name .new f) name = f (bucketOf metrics name) := by
  rw [bucketOf, lookup_entry, Option.getD_some]
  rfl

variable (bucket : MetricsBucket)

theorem record_total (duration : Nat) (ok : Bool) :
    (bucket.record duration ok).total = bucket.total + 1 := by
  unfold MetricsBucket.record
  cases ok <;> dsimp only <;> split <;> rfl

theorem record_success (duration : Nat) (ok : Bool) :
    (bucket.record duration ok).success = if ok then bucket.success + 1 else bucket.success := by
  unfold MetricsBucket.record
  cases ok <;> dsimp only <;> split <;> rfl

theorem record_failure (duration : Nat) (ok : Bool) :
    (bucket.record duration ok).failure = if ok then bucket.failure else bucket.failure + 1 := by
  unfold MetricsBucket.record
  cases ok <;> dsimp only <;> split <;> rfl

theorem toNat_add_one {n : UInt64} (h : n.toNat + 1 < 2 ^ 64) : (n + 1).toNat = n.toNat + 1 :=
  toNat_add_of_lt h

theorem toNat_total_record {bucket : MetricsBucket} (h : bucket.total.toNat + 1 < 2 ^ 64)
    (duration : Nat) (ok : Bool) :
    (bucket.record duration ok).total.toNat = bucket.total.toNat + 1 := by
  rw [record_total, toNat_add_one h]

theorem Balanced.success (h : Balanced metrics errors name)
    (hbound : (bucketOf metrics name).total.toNat + 1 < 2 ^ 64) (duration : Nat) :
    Balanced (entry metrics name .new (·.record duration true)) errors name := by
  have houtcome := h.outcome
  constructor
  · rw [bucketOf_entry, toNat_total_record hbound, record_success, record_failure, if_pos rfl,
      if_pos rfl, toNat_add_one (by omega)]
    omega
  · rw [bucketOf_entry, record_failure, if_pos rfl, h.errors]

theorem Balanced.failure (h : Balanced metrics errors name)
    (hbound : (bucketOf metrics name).total.toNat + 1 < 2 ^ 64) (duration : Nat) (kind : String) :
    Balanced (entry metrics name .new (·.record duration false)) (bump errors kind 1) name := by
  have houtcome := h.outcome
  have hfailure : ((bucketOf metrics name).failure + 1).toNat =
      (bucketOf metrics name).failure.toNat + 1 := toNat_add_one (by omega)
  constructor
  · rw [bucketOf_entry, toNat_total_record hbound, record_success, record_failure, if_neg (by simp),
      if_neg (by simp), hfailure]
    omega
  · rw [bucketOf_entry, record_failure, if_neg (by simp), hfailure, total_bump, h.errors]

end records

/-! ## The merge of the shards -/

section merges

variable {summary : GlobalSummary} {worker : WorkerMetrics} {name : String}

theorem bucketOf_merge (metrics other : Table String MetricsBucket) (name : String) :
    bucketOf (merge metrics other .new MetricsBucket.merge_from) name =
        (bucketOf metrics name).merge_from (bucketOf other name) ∨
      (other.lookup name = none ∧
        bucketOf (merge metrics other .new MetricsBucket.merge_from) name =
          bucketOf metrics name) := by
  unfold bucketOf
  cases h : other.lookup name with
  | none =>
    right
    rw [lookup_merge_of_none _ h]
    exact ⟨rfl, rfl⟩
  | some bucket =>
    left
    rw [lookup_merge_of_some _ h]
    rfl

/-- What a merge adds to the three counters of a scenario. -/
theorem toNat_merge (metrics other : Table String MetricsBucket) {name : String}
    (htotal : (bucketOf metrics name).total.toNat + (bucketOf other name).total.toNat < 2 ^ 64)
    (hsuccess : (bucketOf metrics name).success.toNat +
      (bucketOf other name).success.toNat < 2 ^ 64)
    (hfailure : (bucketOf metrics name).failure.toNat +
      (bucketOf other name).failure.toNat < 2 ^ 64) :
    let merged := bucketOf (merge metrics other .new MetricsBucket.merge_from) name
    merged.total.toNat = (bucketOf metrics name).total.toNat + (bucketOf other name).total.toNat ∧
      merged.success.toNat =
        (bucketOf metrics name).success.toNat + (bucketOf other name).success.toNat ∧
      merged.failure.toNat =
        (bucketOf metrics name).failure.toNat + (bucketOf other name).failure.toNat := by
  dsimp only
  rcases bucketOf_merge metrics other name with heq | ⟨hnone, heq⟩
  · rw [heq]
    exact ⟨toNat_add_of_lt htotal, toNat_add_of_lt hsuccess, toNat_add_of_lt hfailure⟩
  · have hnew : bucketOf other name = .new := by rw [bucketOf, hnone, Option.getD_none]
    rw [heq, hnew]
    exact ⟨rfl, rfl, rfl⟩

theorem Balanced.merge_worker
    (h : Balanced summary.scenario_metrics summary.error_counts name)
    (hworker : Balanced worker.scenario_metrics worker.error_counts name)
    (hbound : (bucketOf summary.scenario_metrics name).total.toNat +
      (bucketOf worker.scenario_metrics name).total.toNat < 2 ^ 64) :
    Balanced (summary.merge_worker worker).scenario_metrics
        (summary.merge_worker worker).error_counts name ∧
      (bucketOf (summary.merge_worker worker).scenario_metrics name).total.toNat =
        (bucketOf summary.scenario_metrics name).total.toNat +
          (bucketOf worker.scenario_metrics name).total.toNat := by
  have houtcome := h.outcome
  have houtcome' := hworker.outcome
  obtain ⟨htotal, hsuccess, hfailure⟩ :=
    toNat_merge summary.scenario_metrics worker.scenario_metrics hbound (by omega) (by omega)
  refine ⟨⟨?_, ?_⟩, htotal⟩
  · change (bucketOf (merge _ _ _ _) name).total.toNat = _ + _
    rw [htotal]
    change _ = (bucketOf (merge _ _ _ _) name).success.toNat +
      (bucketOf (merge _ _ _ _) name).failure.toNat
    rw [hsuccess, hfailure]
    omega
  · change total (bumpAll _ _) = (bucketOf (merge _ _ _ _) name).failure.toNat
    rw [total_bumpAll, hfailure, ← h.errors, ← hworker.errors]
    rfl

/-- The observations of a scenario in all shards. -/
def finishedIn (workers : List WorkerMetrics) (name : String) : Nat :=
  (workers.map fun worker => (bucketOf worker.scenario_metrics name).total.toNat).sum

/-- The summary of all shards has all their observations. -/
theorem Balanced.merge_workers {workers : List WorkerMetrics}
    (h : Balanced summary.scenario_metrics summary.error_counts name)
    (hworkers : ∀ worker ∈ workers, Balanced worker.scenario_metrics worker.error_counts name)
    (hbound : (bucketOf summary.scenario_metrics name).total.toNat + finishedIn workers name <
      2 ^ 64) : let merged := workers.foldl GlobalSummary.merge_worker summary
    Balanced merged.scenario_metrics merged.error_counts name ∧
      (bucketOf merged.scenario_metrics name).total.toNat =
        (bucketOf summary.scenario_metrics name).total.toNat + finishedIn workers name := by
  dsimp only
  induction workers generalizing summary with
  | nil => exact ⟨h, rfl⟩
  | cons worker workers ih =>
    have hsum : finishedIn (worker :: workers) name =
        (bucketOf worker.scenario_metrics name).total.toNat + finishedIn workers name := rfl
    rw [hsum] at hbound ⊢
    obtain ⟨hmerged, htotal⟩ := h.merge_worker (hworkers worker List.mem_cons_self) (by omega)
    rw [List.foldl_cons]
    have hrest := ih hmerged (fun w hw => hworkers w (List.mem_cons_of_mem _ hw)) (by omega)
    refine ⟨hrest.1, ?_⟩
    rw [hrest.2, htotal]
    omega

end merges

end pulse.metrics
