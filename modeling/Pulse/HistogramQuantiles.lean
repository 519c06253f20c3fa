-- The quantiles of a latency histogram: the bound of the bucket that holds the
-- observation of the nearest rank, also for histograms that were added up.
import Pulse.MemorySummaries
import Pulse.NearestRank
import Mathlib.Data.Rat.Floor
import Mathlib.Tactic.FieldSimp

open counters ranks

namespace pulse.aggregation

/-! ## The quantile of the in-memory aggregator -/

/-- The loop of the in-memory `histogram_quantile`, with its early return. -/
def memory.quantile_bound (rank : Nat) (histogram : List (UInt64 × Nat))
    (cumulative previous_bound : Nat) : Nat := Id.run do
  let mut cumulative := cumulative
  let mut previous_bound := previous_bound
  for (upper_bound_ms, count) in histogram do
    cumulative := min (cumulative + count) U64_MAX
    if rank ≤ cumulative then
      return if upper_bound_ms.toNat = U64_MAX then previous_bound else upper_bound_ms.toNat
    previous_bound := upper_bound_ms.toNat
  return previous_bound

/-- `histogram_quantile` of the in-memory aggregator. -/
def memory.histogram_quantile (histogram : List (UInt64 × Nat)) (quantile : Quantile) : Nat :=
  Id.run do
    let total := (histogram.map (·.2)).sum
    if total = 0 then
      return 0
    let rank := max (floats.mulCeil total quantile.mantissa) 1
    return memory.quantile_bound rank histogram 0 0

theorem memory.quantile_bound_cons (rank cumulative previous_bound : Nat)
    (bucket : UInt64 × Nat) (rest : List (UInt64 × Nat)) :
    memory.quantile_bound rank (bucket :: rest) cumulative previous_bound =
      if rank ≤ min (cumulative + bucket.2) U64_MAX then
        if bucket.1.toNat = U64_MAX then previous_bound else bucket.1.toNat
      else memory.quantile_bound rank rest (min (cumulative + bucket.2) U64_MAX)
        bucket.1.toNat := by
  unfold memory.quantile_bound
  simp only [List.forIn_cons]
  by_cases hreached : rank ≤ min (cumulative + bucket.2) U64_MAX
  · simp [hreached]
  · simp [hreached]

theorem memory.quantile_bound_eq (rank : Nat) (histogram : List (UInt64 × Nat))
    (cumulative previous_bound : Nat) :
    memory.quantile_bound rank histogram cumulative previous_bound =
      pulse.aggregation.quantile_bound rank histogram cumulative previous_bound := by
  induction histogram generalizing cumulative previous_bound with
  | nil => rfl
  | cons bucket rest ih =>
    rw [memory.quantile_bound_cons, pulse.aggregation.quantile_bound, ih]

theorem memory.histogram_quantile_eq (histogram : List (UInt64 × Nat)) (quantile : Quantile) :
    memory.histogram_quantile histogram quantile =
      pulse.aggregation.histogram_quantile histogram quantile := by
  unfold memory.histogram_quantile pulse.aggregation.histogram_quantile
  by_cases htotal : (histogram.map (·.2)).sum = 0
  · simp [htotal]
  · simp [htotal, memory.quantile_bound_eq]

/-! ## The loop -/

/-- What the loop answers for a bucket: the bound of the overflow bucket is not one to report, and
the bound before it is taken. -/
def reported (bounds : List Nat) (bound : Nat) : Nat :=
  if bound = U64_MAX then ((bounds.filter (· < bound)).max?).getD 0 else bound

variable {histogram : List (UInt64 × Nat)} {previous_bound total : Nat}

theorem le_quantile_bound (rank cumulative : Nat)
    (hrising : (previous_bound :: histogram.map (·.1.toNat)).Pairwise (· ≤ ·)) :
    previous_bound ≤ quantile_bound rank histogram cumulative previous_bound := by
  induction histogram generalizing cumulative previous_bound with
  | nil => exact Nat.le_refl _
  | cons bucket rest ih =>
    obtain ⟨hfirst, hrest⟩ := List.pairwise_cons.mp hrising
    have hle : previous_bound ≤ bucket.1.toNat := hfirst _ List.mem_cons_self
    simp only [quantile_bound]
    split
    · split
      · exact Nat.le_refl _
      · exact hle
    · exact hle.trans (ih _ hrest)

/-- A higher rank has a higher answer. -/
theorem quantile_bound_mono {low high : Nat} (hle : low ≤ high) {cumulative : Nat}
    (hrising : (previous_bound :: histogram.map (·.1.toNat)).Pairwise (· ≤ ·)) :
    quantile_bound low histogram cumulative previous_bound ≤
      quantile_bound high histogram cumulative previous_bound := by
  induction histogram generalizing cumulative previous_bound with
  | nil => exact Nat.le_refl _
  | cons bucket rest ih =>
    obtain ⟨hfirst, hrest⟩ := List.pairwise_cons.mp hrising
    have hbound : previous_bound ≤ bucket.1.toNat := hfirst _ List.mem_cons_self
    simp only [quantile_bound]
    by_cases hhigh : high ≤ min (cumulative + bucket.2) U64_MAX
    · rw [if_pos hhigh, if_pos (hle.trans hhigh)]
    · rw [if_neg hhigh]
      by_cases hlow : low ≤ min (cumulative + bucket.2) U64_MAX
      · rw [if_pos hlow]
        have hlater := le_quantile_bound high (min (cumulative + bucket.2) U64_MAX) hrest
        split
        · exact hbound.trans hlater
        · exact hlater
      · rw [if_neg hlow]
        exact ih hrest

/-- The loop stops at the bucket whose counts reach the rank. -/
theorem quantile_bound_append {rank : Nat} {front : List (UInt64 × Nat)} {b : UInt64 × Nat}
    (rest : List (UInt64 × Nat)) (cumulative previous_bound : Nat)
    (hbefore : cumulative + (front.map (·.2)).sum < rank)
    (hreach : rank ≤ cumulative + (front.map (·.2)).sum + b.2)
    (hfits : cumulative + (front.map (·.2)).sum + b.2 ≤ U64_MAX) :
    quantile_bound rank (front ++ b :: rest) cumulative previous_bound =
      if b.1.toNat = U64_MAX then (front.map (·.1.toNat)).getLastD previous_bound
      else b.1.toNat := by
  induction front generalizing cumulative previous_bound with
  | nil =>
    simp only [List.map_nil, List.sum_nil, Nat.add_zero] at hbefore hreach hfits
    simp only [List.nil_append, quantile_bound, List.map_nil, List.getLastD_nil]
    rw [if_pos (by omega)]
  | cons a front ih =>
    simp only [List.map_cons, List.sum_cons, ← Nat.add_assoc] at hbefore hreach hfits
    have hcumulative : min (cumulative + a.2) U64_MAX = cumulative + a.2 := by omega
    simp only [List.cons_append, quantile_bound, hcumulative]
    rw [if_neg (by omega), ih _ _ hbefore hreach hfits, List.map_cons, List.getLastD_cons]

theorem max?_of_rising {l : List Nat} (h : l.Pairwise (· < ·)) : l.max? = l.getLast? := by
  induction l using List.reverseRecOn with
  | nil => rfl
  | append_singleton l a =>
    rw [List.getLast?_concat, List.max?_eq_some_iff]
    obtain ⟨-, -, hbelow⟩ := List.pairwise_append.mp h
    refine ⟨by simp, ?_⟩
    intro b hb
    rcases List.mem_append.mp hb with hb | hb
    · exact Nat.le_of_lt (hbelow b hb a (by simp))
    · exact Nat.le_of_eq (List.mem_singleton.mp hb)

/-- In rising bounds, the bound before the overflow bucket is the largest one below it. -/
theorem reported_append {front rest : List Nat} {bound : Nat}
    (hsorted : (front ++ bound :: rest).Pairwise (· < ·)) :
    reported (front ++ bound :: rest) bound =
      if bound = U64_MAX then front.getLastD 0 else bound := by
  obtain ⟨hfront, hrest, hbelow⟩ := List.pairwise_append.mp hsorted
  have hfilter : (front ++ bound :: rest).filter (· < bound) = front := by
    rw [List.filter_append]
    have hall : front.filter (· < bound) = front := by
      rw [List.filter_eq_self]
      intro a ha
      simpa using hbelow a ha bound List.mem_cons_self
    have hnone : (bound :: rest).filter (· < bound) = [] := by
      rw [List.filter_eq_nil_iff]
      intro a ha
      rcases List.mem_cons.mp ha with rfl | ha
      · simp
      · have hlt := (List.pairwise_cons.mp hrest).1 a ha
        simp
        omega
    rw [hall, hnone, List.append_nil]
  unfold reported
  rw [hfilter, max?_of_rising hfront, List.getLastD_eq_getLast?]

/-! ## The rank -/

/-- The number that the double stands for. -/
def Quantile.value : Quantile → ℚ
  | .p50 => 1 / 2
  | .p95 => 19 / 20
  | .p99 => 99 / 100

/-- The rank of a quantile, computed exactly. -/
def exactRank (quantile : Quantile) (total : Nat) : Nat := max 1 ⌈quantile.value * total⌉₊

/-- The rank as `histogram_quantile` computes it. -/
def Quantile.rank (quantile : Quantile) (total : Nat) : Nat :=
  max (floats.mulCeil total quantile.mantissa) 1

variable (quantile : Quantile)

theorem histogram_quantile_eq_bound (hpos : 0 < (histogram.map (·.2)).sum) :
    histogram_quantile histogram quantile =
      quantile_bound (quantile.rank (histogram.map (·.2)).sum) histogram 0 0 := by
  have hne : (histogram.map (·.2)).sum ≠ 0 := by omega
  exact if_neg hne

theorem ceil_fraction (a b n : Nat) (hb : 0 < b) : ⌈(a / b : ℚ) * n⌉₊ = (a * n + (b - 1)) / b := by
  have hbq : (0 : ℚ) < b := by exact_mod_cast hb
  have hproduct : (a / b : ℚ) * n = (a * n : Nat) / b := by
    push_cast
    ring
  rw [hproduct]
  apply Nat.le_antisymm
  · rw [Nat.ceil_le, div_le_iff₀ hbq]
    have hlt := Nat.lt_div_mul_add hb (a := a * n + (b - 1))
    exact_mod_cast (by omega : a * n ≤ (a * n + (b - 1)) / b * b)
  · have hle := Nat.le_ceil ((a * n : Nat) / b : ℚ)
    rw [div_le_iff₀ hbq] at hle
    have hnat : a * n ≤ ⌈((a * n : Nat) / b : ℚ)⌉₊ * b := by exact_mod_cast hle
    apply Nat.le_of_lt_succ
    rw [Nat.div_lt_iff_lt_mul hb, Nat.succ_mul]
    omega

theorem exactRank_pos (total : Nat) : 1 ≤ exactRank quantile total :=
  Nat.le_max_left _ _

theorem exactRank_le (hpos : 0 < total) : exactRank quantile total ≤ total := by
  have hone : quantile.value ≤ 1 := by
    cases quantile <;> norm_num [Quantile.value]
  apply Nat.max_le.mpr
  refine ⟨hpos, ?_⟩
  rw [Nat.ceil_le]
  exact mul_le_of_le_one_left (Nat.cast_nonneg total) hone

/-- The ceiling in doubles is the exact one up to 2^46 observations. -/
theorem rank_eq_exactRank (hsmall : total ≤ 2 ^ 46) :
    quantile.rank total = exactRank quantile total := by
  unfold Quantile.rank exactRank
  rw [Nat.max_comm]
  congr 1
  cases quantile with
  | p50 =>
    rw [Quantile.mantissa, floats.mulCeil_eq_ceil (a := 1) (b := 2) (by omega) (by omega) (by omega)
      (by omega) (by omega), ← ceil_fraction 1 2 total (by omega)]
    norm_num [Quantile.value]
  | p95 =>
    rw [Quantile.mantissa, floats.mulCeil_eq_ceil (a := 19) (b := 20) (by omega) (by omega)
      (by omega) (by omega) (by omega), ← ceil_fraction 19 20 total (by omega)]
    norm_num [Quantile.value]
  | p99 =>
    rw [Quantile.mantissa, floats.mulCeil_eq_ceil (a := 99) (b := 100) (by omega) (by omega)
      (by omega) (by omega) (by omega), ← ceil_fraction 99 100 total (by omega)]
    norm_num [Quantile.value]

/-- From there on, the rounding of the product can lose a rank. -/
example : Quantile.p99.rank (2 ^ 48 + 43) + 1 = (99 * (2 ^ 48 + 43) + 99) / 100 := by
  decide +kernel

/-! ## The buckets as numbers -/

/-- The buckets with their bounds as numbers. -/
def inMs (histogram : List (UInt64 × Nat)) : List (Nat × Nat) :=
  histogram.map fun bucket => (bucket.1.toNat, bucket.2)

@[simp]
theorem map_fst_inMs (histogram : List (UInt64 × Nat)) :
    (inMs histogram).map (·.1) = histogram.map (·.1.toNat) := by
  simp [inMs]

@[simp]
theorem map_snd_inMs (histogram : List (UInt64 × Nat)) :
    (inMs histogram).map (·.2) = histogram.map (·.2) := by
  simp [inMs]

theorem added_inMs (histogram : List (UInt64 × Nat)) (bound : UInt64) :
    added (inMs histogram) bound.toNat = added histogram bound := by
  induction histogram with
  | nil => rfl
  | cons bucket rest ih =>
    change added ((bucket.1.toNat, bucket.2) :: inMs rest) bound.toNat = _
    rw [added_cons, added_cons, ih]
    simp only [UInt64.toNat_inj]

theorem inMs_merge (bounds : List UInt64) (histograms : List (List (UInt64 × Nat))) :
    inMs (merge bounds histograms) = merge (bounds.map (·.toNat)) (histograms.map inMs) := by
  simp only [inMs, merge, List.map_map]
  apply List.map_congr_left
  intro bound _
  simp only [Function.comp_apply, Prod.mk.injEq, true_and]
  congr 1
  apply List.map_congr_left
  intro histogram _
  exact (added_inMs histogram bound).symm

/-- The answer for a rank: the bucket of its observation, as the functions report it. -/
def nearestRank (bounds : List Nat) (values : Multiset Nat) (rank : Nat) : Option Nat :=
  ((nth values rank).bind (bucketOf bounds)).map (reported bounds)

section quantiles

theorem rising_toNat (hsorted : (histogram.map (·.1)).Pairwise (· < ·)) :
    (histogram.map (·.1.toNat)).Pairwise (· < ·) := by
  rw [List.pairwise_map] at hsorted ⊢
  exact hsorted.imp UInt64.lt_iff_toNat_lt.mp

/-- A loop that has the exact rank answers for its observation. -/
theorem quantile_bound_eq_nearestRank {values : Multiset Nat} {rank : Nat}
    (hsorted : (histogram.map (·.1)).Pairwise (· < ·)) (hfits : (histogram.map (·.2)).sum < 2 ^ 64)
    (hbinned : Binned (inMs histogram) values) (hpos : 1 ≤ rank)
    (hle : rank ≤ (histogram.map (·.2)).sum) :
    nearestRank (histogram.map (·.1.toNat)) values rank =
      some (quantile_bound rank histogram 0 0) := by
  have hrising := rising_toNat hsorted
  have hnodup : ((inMs histogram).map (·.1)).Nodup := by
    rw [map_fst_inMs]
    exact hrising.imp Nat.ne_of_lt
  have hcard := hbinned.card hnodup
  rw [map_snd_inMs] at hcard
  obtain ⟨v, front, b, rest, hnth, hbucket, hsplit, hbefore, hreach⟩ :=
    hbinned.stops hnodup hpos (hcard ▸ hle)
  -- the split of the numbered buckets is one of the buckets
  obtain ⟨front, tail, rfl, rfl, htail⟩ := List.map_eq_append_iff.mp hsplit
  obtain ⟨b, rest, rfl, rfl, rfl⟩ := List.map_eq_cons_iff.mp htail
  rw [map_fst_inMs] at hbucket
  simp only [List.map_map, Function.comp_def] at hbefore hreach
  simp only [List.map_append, List.map_cons, List.sum_append, List.sum_cons] at hfits
  have hloop := quantile_bound_append rest 0 0
    (by simpa using hbefore) (by simpa using hreach) (by unfold U64_MAX; omega)
  rw [List.map_append, List.map_cons] at hrising
  have hreported := reported_append hrising
  unfold nearestRank
  rw [hnth, Option.bind_some, hbucket, Option.map_some, hloop]
  simpa using hreported

theorem histogram_quantile_mono {low high : Quantile} (hle : low.mantissa ≤ high.mantissa)
    (hsorted : (histogram.map (·.1)).Pairwise (· < ·)) :
    histogram_quantile histogram low ≤ histogram_quantile histogram high := by
  have hrising : (0 :: histogram.map (·.1.toNat)).Pairwise (· ≤ ·) := by
    rw [List.pairwise_cons]
    exact ⟨fun _ _ => Nat.zero_le _, (rising_toNat hsorted).imp Nat.le_of_lt⟩
  unfold histogram_quantile
  by_cases htotal : (histogram.map (·.2)).sum = 0
  · simp [htotal]
  · simp only [htotal, if_false]
    apply quantile_bound_mono _ hrising
    exact max_le_max_right 1 (floats.mulCeil_mono hle)

/-- With the exact rank, the answer is the bucket of its observation. -/
theorem histogram_quantile_eq_nearestRank {quantile : Quantile} {values : Multiset Nat}
    (hsorted : (histogram.map (·.1)).Pairwise (· < ·)) (hpos : 0 < (histogram.map (·.2)).sum)
    (hfits : (histogram.map (·.2)).sum < 2 ^ 64) (hbinned : Binned (inMs histogram) values)
    (hexact : quantile.rank (histogram.map (·.2)).sum =
      exactRank quantile (histogram.map (·.2)).sum) :
    nearestRank (histogram.map (·.1.toNat)) values
        (exactRank quantile (histogram.map (·.2)).sum) =
      some (histogram_quantile histogram quantile) := by
  rw [histogram_quantile_eq_bound quantile hpos, hexact]
  exact quantile_bound_eq_nearestRank hsorted hfits hbinned (exactRank_pos quantile _)
    (exactRank_le quantile hpos)

/-- The sum of the histograms of slices counts the observations of all of them. -/
theorem binned_merge {bounds : List UInt64} {slices : List (List (UInt64 × Nat))}
    {values : List (Multiset Nat)} (hsorted : bounds.Pairwise (· < ·))
    (hslices : List.Forall₂ (fun slice vs => slice.map (·.1) = bounds ∧ Binned (inMs slice) vs)
      slices values) : Binned (inMs (merge bounds slices)) values.sum := by
  have hnodup : (bounds.map (·.toNat)).Nodup := by
    rw [List.Nodup, List.pairwise_map]
    exact hsorted.imp fun hlt => Nat.ne_of_lt (UInt64.lt_iff_toNat_lt.mp hlt)
  rw [inMs_merge]
  apply BinnedOver.merge hnodup
  rw [List.forall₂_map_left_iff]
  apply hslices.imp
  rintro slice vs ⟨rfl, hbinned⟩
  refine ⟨?_, hbinned⟩
  rw [map_fst_inMs, List.map_map]
  rfl

/-- For buckets with rising bounds and a positive count that is a `u64`, both functions answer the
same, and the answers rise with the quantile. With the rank computed exactly, which it is up to 2^46
observations, they answer the bound of the bucket of the observation of that rank, whatever the
observations are; and for a sum of histograms, of the one among the observations of all. -/
theorem histogram_quantiles_are_nearest_rank
    (hsorted : (histogram.map (·.1)).Pairwise (· < ·)) (hpos : 0 < (histogram.map (·.2)).sum)
    (hfits : (histogram.map (·.2)).sum < 2 ^ 64) :
    (∀ quantile, memory.histogram_quantile histogram quantile =
      histogram_quantile histogram quantile) ∧
    (histogram_quantile histogram .p50 ≤ histogram_quantile histogram .p95 ∧
      histogram_quantile histogram .p95 ≤ histogram_quantile histogram .p99) ∧
    (∀ quantile : Quantile, (histogram.map (·.2)).sum ≤ 2 ^ 46 →
      quantile.rank (histogram.map (·.2)).sum = exactRank quantile (histogram.map (·.2)).sum) ∧
    (∃ values, Binned (inMs histogram) values) ∧
    (∀ (quantile : Quantile) (values : Multiset Nat), Binned (inMs histogram) values →
      quantile.rank (histogram.map (·.2)).sum = exactRank quantile (histogram.map (·.2)).sum →
      nearestRank (histogram.map (·.1.toNat)) values
          (exactRank quantile (histogram.map (·.2)).sum) =
        some (histogram_quantile histogram quantile)) ∧
    (∀ (quantile : Quantile) (slices : List (List (UInt64 × Nat))) (values : List (Multiset Nat)),
      histogram = merge (histogram.map (·.1)) slices →
      List.Forall₂ (fun slice vs => slice.map (·.1) = histogram.map (·.1) ∧ Binned (inMs slice) vs)
        slices values →
      quantile.rank (histogram.map (·.2)).sum = exactRank quantile (histogram.map (·.2)).sum →
      nearestRank (histogram.map (·.1.toNat)) values.sum
          (exactRank quantile (histogram.map (·.2)).sum) =
        some (histogram_quantile histogram quantile)) := by
  refine ⟨memory.histogram_quantile_eq histogram, ⟨?_, ?_⟩,
    fun quantile hsmall => rank_eq_exactRank quantile hsmall, ?_, ?_, ?_⟩
  · exact histogram_quantile_mono (by decide) hsorted
  · exact histogram_quantile_mono (by decide) hsorted
  · refine ⟨_, binned_atBounds ?_⟩
    rw [map_fst_inMs]
    exact rising_toNat hsorted
  · intro quantile values hbinned hexact
    exact histogram_quantile_eq_nearestRank hsorted hpos hfits hbinned hexact
  · intro quantile slices values hsum hslices hexact
    have hbinned := binned_merge hsorted hslices
    rw [← hsum] at hbinned
    exact histogram_quantile_eq_nearestRank hsorted hpos hfits hbinned hexact

end quantiles

/-- Two slices of a run with an overflow bucket: the median is in the second bucket, and the last
observations are reported by the bound before theirs. -/
theorem two_slices_have_nearest_rank_quantiles :
    (∀ quantile, nearestRank [10, 20, U64_MAX] ({3, 12} + {15, 700}) (exactRank quantile 4) =
        some (histogram_quantile [(10, 1), (20, 2), (18446744073709551615, 1)] quantile)) ∧
      histogram_quantile [(10, 1), (20, 2), (18446744073709551615, 1)] .p50 = 20 ∧
      histogram_quantile [(10, 1), (20, 2), (18446744073709551615, 1)] .p99 = 20 := by
  refine ⟨fun quantile => ?_, by decide +kernel, by decide +kernel⟩
  have hlaws := @histogram_quantiles_are_nearest_rank
    [(10, 1), (20, 2), (18446744073709551615, 1)] (by decide) (by decide) (by decide)
  have hsum := hlaws.2.2.2.2.2 quantile [[(10, 1), (20, 1), (18446744073709551615, 0)],
    [(10, 0), (20, 1), (18446744073709551615, 1)]] [{3, 12}, {15, 700}] (by decide) ?_
    (hlaws.2.2.1 quantile (by decide))
  · simpa [U64_MAX] using hsum
  · refine .cons ⟨rfl, ?_, ?_⟩ (.cons ⟨rfl, ?_, ?_⟩ .nil) <;> decide

/-! ## The histogram of a run -/

theorem added_flatMap {κ β : Type} [DecidableEq κ] (f : β → List (κ × Nat)) (l : List β) (k : κ) :
    added (l.flatMap f) k = ((l.map f).map fun entries => added entries k).sum := by
  induction l with
  | nil => rfl
  | cons b l ih => rw [List.flatMap_cons, added_append, ih, List.map_cons, List.map_cons,
      List.sum_cons]

/-- The in-memory aggregator adds up the buckets of the slices of a run. -/
theorem Counting.by_bound_eq_merge {rs : List contracts.ScenarioRunResult} {state : RunState}
    (hc : Counting rs state) {bounds : List UInt64} (hsorted : bounds.Pairwise (· < ·))
    (hne : rs ≠ []) (hbounds : ∀ r ∈ rs, (bucketsOf r).map (·.1) = bounds) :
    by_bound (pairs state.histogram) = ranks.merge bounds (rs.map bucketsOf) := by
  have hmem : ∀ bound, bound ∈ state.histogram ↔ bound ∈ bounds := by
    intro bound
    rw [hc.histogram, mem_bumpAll, List.map_flatMap, List.mem_flatMap]
    constructor
    · rintro (hempty | ⟨r, hr, hbound⟩)
      · simp at hempty
      · exact hbounds r hr ▸ hbound
    · intro hbound
      obtain ⟨r, hr⟩ := List.exists_mem_of_ne_nil rs hne
      exact .inr ⟨r, hr, (hbounds r hr).symm ▸ hbound⟩
  have hread : by_bound (pairs state.histogram) =
      bounds.map fun bound => (bound, count state.histogram bound) := inOrder_pairs hsorted hmem
  rw [hread, ranks.merge]
  apply List.map_congr_left
  intro bound _
  rw [hc.histogram, count_bumpAll, count_empty, Nat.zero_add, added_flatMap]

open systems

theorem exact_of_reachable {s : Memory} (hs : Reachable (memorySystem Memory.Adds) s) :
    Exact s := by
  refine Reachable.invariant ?_ ?_ hs
  · rintro s ⟨max_runs, h, rfl⟩
    exact .start max_runs h
  · exact fun s op hs hadds => hs.next hadds

/-- After any calls whose counters stay within `u64`, the quantiles of a summary are those of the
observations of all slices that were merged into its run. -/
theorem the_summary_has_the_quantiles_of_all_slices {s : Memory}
    (hs : Reachable (memorySystem Memory.Adds) s) {run_id : String} {state : RunState}
    (hrun : (run_id, state) ∈ s.aggregator.runs) {bounds : List UInt64}
    (hsorted : bounds.Pairwise (· < ·)) {values : List (Multiset Nat)}
    (hvalues : List.Forall₂ (fun r vs => (bucketsOf r).map (·.1) = bounds ∧
      Binned (inMs (bucketsOf r)) vs) (s.accepted run_id) values)
    (hpos : 0 < values.sum.card) (hsmall : values.sum.card ≤ 2 ^ 46)
    (status : ScenarioRunSummaryStatus) (now : Nat) :
    nearestRank (bounds.map (·.toNat)) values.sum (exactRank .p50 values.sum.card) =
        some (state.summary status now).scenario_latency_p50_ms ∧
      nearestRank (bounds.map (·.toNat)) values.sum (exactRank .p95 values.sum.card) =
        some (state.summary status now).scenario_latency_p95_ms ∧
      nearestRank (bounds.map (·.toNat)) values.sum (exactRank .p99 values.sum.card) =
        some (state.summary status now).scenario_latency_p99_ms := by
  have hc := (exact_of_reachable hs).counting _ hrun
  have hslices : List.Forall₂ (fun slice vs => slice.map (·.1) = bounds ∧ Binned (inMs slice) vs)
      ((s.accepted run_id).map bucketsOf) values := List.forall₂_map_left_iff.mpr hvalues
  have hne : s.accepted run_id ≠ [] := by
    intro hnil
    rw [hnil] at hvalues
    cases hvalues
    simp at hpos
  have hbounds := ((List.forall₂_and_left _ _).mp hvalues).1
  have hbinned := binned_merge hsorted hslices
  rw [← hc.by_bound_eq_merge hsorted hne hbounds] at hbinned
  have hkeys : (by_bound (pairs state.histogram)).map (·.1) = bounds := by
    rw [hc.by_bound_eq_merge hsorted hne hbounds, map_fst_merge]
  have hrising : ((by_bound (pairs state.histogram)).map (·.1)).Pairwise (· < ·) := hkeys ▸ hsorted
  have hcard : ((by_bound (pairs state.histogram)).map (·.2)).sum = values.sum.card := by
    rw [← map_snd_inMs]
    refine hbinned.card ?_
    rw [map_fst_inMs]
    exact (rising_toNat hrising).imp Nat.ne_of_lt
  have hnumbers : (by_bound (pairs state.histogram)).map (·.1.toNat) = bounds.map (·.toNat) := by
    rw [← hkeys, List.map_map]
    rfl
  have hanswer : ∀ quantile : Quantile,
      nearestRank (bounds.map (·.toNat)) values.sum (exactRank quantile values.sum.card) =
        some (histogram_quantile (by_bound (pairs state.histogram)) quantile) := by
    intro quantile
    rw [← hcard, ← hnumbers]
    apply histogram_quantile_eq_nearestRank hrising
    · omega
    · omega
    · exact hbinned
    · exact rank_eq_exactRank quantile (by omega)
  exact ⟨hanswer .p50, hanswer .p95, hanswer .p99⟩

def twoSlices : Memory :=
  [.ingest sampleResult 0, .ingest siblingResult 1].foldl Memory.next (.start 1 Nat.one_pos)

theorem two_slices_have_one_median : ∃ state, ("run-1", state) ∈ twoSlices.aggregator.runs ∧
    nearestRank [10, 100] {3, 7, 50, 5, 8, 99} (exactRank .p50 6) =
      some (state.summary .Complete 1).scenario_latency_p50_ms := by
  have hs : Reachable (memorySystem Memory.Adds) twoSlices :=
    Reachable.foldl (S := memorySystem Memory.Adds) (.initial ⟨1, Nat.one_pos, rfl⟩)
      ⟨fun _ => fits64_of_sums (by decide) (by decide),
        fun _ => fits64_of_sums (by decide +kernel) (by decide +kernel), trivial⟩
  have hrun : ∃ entry ∈ twoSlices.aggregator.runs, entry.1 = "run-1" := by decide +kernel
  obtain ⟨⟨run_id, state⟩, hmem, rfl⟩ := hrun
  have hvalues : List.Forall₂ (fun r vs => (bucketsOf r).map (·.1) = [10, 100] ∧
      Binned (inMs (bucketsOf r)) vs) (twoSlices.accepted "run-1") [{3, 7, 50}, {5, 8, 99}] :=
    .cons ⟨rfl, by decide, by decide⟩ (.cons ⟨rfl, by decide, by decide⟩ .nil)
  exact ⟨state, hmem, (the_summary_has_the_quantiles_of_all_slices hs hmem (by decide) hvalues
    (by decide) (by decide) .Complete 1).1⟩

end pulse.aggregation
