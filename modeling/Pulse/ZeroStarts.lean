-- The slices of a scenario that starts without a burst. The cap of the slices
-- counts the starts of the whole rate, and the worker counts the starts of the
-- rounded share, so a share can fall short of one start by a rounding.
import Pulse.DoubleBoundaries
import Pulse.ScheduledJobs
import Pulse.WorkerChecks

open checks durations
open pulse.config pulse.contracts pulse.planning

namespace pulse.config

/-! ## Products of doubles -/

/-- A product above all doubles is not below one. -/
theorem F64.of_exact_lt_one {z : ℚ} (hz : 0 ≤ z) :
    (of_exact z).lt (.finite 1) = true ↔ floats.round z < 1 := by
  have hnonneg := floats.round_nonneg hz
  unfold of_exact
  dsimp only
  split
  · rename_i hlarge
    rw [abs_of_nonneg hnonneg] at hlarge
    have hone : (1 : ℚ) ≤ 2 ^ 1024 := one_le_pow₀ (by norm_num)
    refine iff_of_false ?_ (not_lt.mpr (hone.trans hlarge))
    simp [F64.lt, not_lt.mpr hnonneg]
  · simp [F64.lt]

end pulse.config

namespace pulse.planning

/-- The shortest window has more than `2^-30` seconds. -/
theorem le_as_secs_f64 {duration : Nat} (h : 0 < duration) :
    2 ^ (-30 : ℤ) ≤ as_secs_f64 duration := by
  have hwhole : (0 : ℚ) ≤ (duration / 1000000000 : Nat) := by positivity
  have hrest : (0 : ℚ) ≤ (duration % 1000000000 : Nat) / 1000000000 := by positivity
  have hdouble : floats.round (2 ^ (-30 : ℤ)) = 2 ^ (-30 : ℤ) := floats.round_two_zpow (by norm_num)
  -- One of the two summands is not below the double `2^-30`.
  have hsum : (2 : ℚ) ^ (-30 : ℤ) ≤ floats.round (duration / 1000000000 : Nat) +
      floats.round ((duration % 1000000000 : Nat) / 1000000000) := by
    by_cases hseconds : duration / 1000000000 = 0
    · have hnanos : (1 : ℚ) ≤ (duration % 1000000000 : Nat) := by
        exact_mod_cast (show 1 ≤ duration % 1000000000 by omega)
      have hle : (2 : ℚ) ^ (-30 : ℤ) ≤ (duration % 1000000000 : Nat) / 1000000000 := by
        rw [le_div_iff₀ (by norm_num)]
        refine le_trans ?_ hnanos
        norm_num
      have hmono := floats.round_mono (floats.two_zpow_pos _).le hle
      rw [hdouble] at hmono
      have hnonneg := floats.round_nonneg hwhole
      linarith
    · have hle : (2 : ℚ) ^ (-30 : ℤ) ≤ (duration / 1000000000 : Nat) := by
        have hone : (1 : ℚ) ≤ (duration / 1000000000 : Nat) := by
          exact_mod_cast Nat.one_le_iff_ne_zero.mpr hseconds
        exact le_trans (by norm_num) hone
      have hmono := floats.round_mono (floats.two_zpow_pos _).le hle
      rw [hdouble] at hmono
      have hnonneg := floats.round_nonneg hrest
      linarith
  have hmono := floats.round_mono (floats.two_zpow_pos _).le hsum
  rw [hdouble] at hmono
  exact hmono

/-- Without a burst, an accepted scenario has a start in its window. -/
theorem starts_of_validate {parsers : Parsers} {formats : Formats} {config : AppConfig}
    {scenarios : List Scenario} {scenario : Scenario}
    (h : validate_scenario_limits parsers formats config scenarios = .ok ())
    (hmem : scenario ∈ scenarios) (hburst : config.startup_burst = 0) :
    ¬ (scenario.config.scenarios_per_sec.value.mul (as_secs_f64 scenario.config.duration)).lt
      (.finite 1) = true := by
  simp only [validate_scenario_limits, seq_eq_ok, rejectIf_eq_ok, forM_eq_ok] at h
  obtain ⟨-, hload, -⟩ := h.2.2 scenario hmem
  simp only [validate_scenario_load, seq_eq_ok, rejectIf_eq_ok] at hload
  obtain ⟨-, -, hstart, -⟩ := hload
  exact fun hless => hstart ⟨hburst, hless⟩

end pulse.planning

namespace pulse.service

/-! ## The starts of a slice -/

/-- The exact share of the rate reaches the least double that gives a start in the window. -/
def SharesReachAStart (scenario : Scenario) : Prop :=
  ∀ rate, scenario.config.scenarios_per_sec.value = .finite rate →
    floats.Reaches (floats.up ((1 - 2 ^ (-54 : ℤ)) / as_secs_f64 scenario.config.duration))
      (rate / scenario.slices.toNat)

/-- The check of the worker for one share of a rate. -/
theorem share_starts_iff {rate : ℚ} {duration n : Nat} (hrate : 0 < rate) (hn : 0 < n)
    (hduration : 0 < duration) :
    ¬ (((F64.finite rate).div n).mul (as_secs_f64 duration)).lt (.finite 1) = true ↔
      floats.Reaches (floats.up ((1 - 2 ^ (-54 : ℤ)) / as_secs_f64 duration)) (rate / n) := by
  have hsecs := le_as_secs_f64 hduration
  have hpositive := (floats.two_zpow_pos _).trans_le hsecs
  have hshare : 0 < rate / n := div_pos hrate (by exact_mod_cast hn)
  rw [← floats.one_le_round_round_mul_iff hshare hpositive, ← not_lt]
  apply not_congr
  have hrounded := floats.round_nonneg hshare.le
  simp only [F64.div, F64.of_exact]
  split
  · -- a share above all doubles gives more than one start
    rename_i hlarge
    rw [abs_of_nonneg hrounded] at hlarge
    refine iff_of_false ?_ (not_lt.mpr ?_)
    · simp [F64.mul, F64.lt, hpositive.ne', not_lt.mpr hrounded]
    · have hproduct : (2 : ℚ) ^ 1024 * 2 ^ (-30 : ℤ) ≤
          floats.round (rate / n) * as_secs_f64 duration :=
        mul_le_mul hlarge hsecs (floats.two_zpow_pos _).le hrounded
      rw [floats.one_le_round_iff (mul_nonneg hrounded hpositive.le)]
      refine le_trans ?_ hproduct
      have hpow : (2 : ℚ) ^ 1024 * 2 ^ (-30 : ℤ) = 2 ^ 994 := by
        rw [← zpow_natCast, ← zpow_add₀ (by norm_num), ← zpow_natCast]
        rfl
      have hone : (1 : ℚ) ≤ 2 ^ 994 := one_le_pow₀ (by norm_num)
      rw [hpow]
      exact (sub_le_self _ (floats.two_zpow_pos _).le).trans hone
  · exact F64.of_exact_lt_one (mul_nonneg hrounded hpositive.le)

/-- Without a burst, the worker rejects no slice of an accepted scenario as long as the exact share
reaches a start, and rejects the slices when it does not. -/
theorem slices_start_iff_shares_reach_a_start {parsers : Parsers} {formats : Formats}
    {config : AppConfig} {scenarios : List Scenario} {scenario : Scenario}
    (hscenarios : validate_scenario_limits parsers formats config scenarios = .ok ())
    (hmem : scenario ∈ scenarios) (hburst : config.startup_burst = 0) :
    (∀ load ∈ planned_slice_loads scenario config.startup_burst, ¬ zero_start load) ↔
      SharesReachAStart scenario := by
  have haccepted := accepted_of_validate hscenarios hmem
  have hstarts := starts_of_validate hscenarios hmem hburst
  obtain ⟨rate, hvalue, hrate⟩ := haccepted.rate
  have hbounds := slice_bounds hvalue hrate haccepted.concurrency.1
  have hslices : max scenario.slices.toNat 1 = scenario.slices.toNat := max_eq_left hbounds.positive
  have hduration : 0 < scenario.config.duration := by
    rw [Nat.pos_iff_ne_zero]
    intro hzero
    have hsecs : as_secs_f64 0 = 0 := by simp [as_secs_f64]
    rw [hvalue, hzero, hsecs] at hstarts
    apply hstarts
    rw [F64.mul, mul_zero, F64.of_exact_lt_one le_rfl, floats.round_zero]
    exact one_pos
  have hiff := share_starts_iff hrate hbounds.positive hduration
  have hone : ∀ index, zero_start
      (slice_load scenario scenario.slices (UInt32.ofNat index) config.startup_burst) ↔
      (((F64.finite rate).div scenario.slices.toNat).mul
        (as_secs_f64 scenario.config.duration)).lt (.finite 1) = true := by
    intro index
    have hzero : slice_startup_burst 0 scenario.slices (UInt32.ofNat index) = 0 := by
      simp [slice_startup_burst, shares.share]
    simp only [zero_start, slice_load, hburst, hzero, true_and, Double.div, hvalue, hslices]
  constructor
  · intro hall rate' hrate'
    rw [hvalue] at hrate'
    cases hrate'
    have hfirst := hall _ (List.mem_map_of_mem (List.mem_range.mpr hbounds.positive))
    exact hiff.mp (mt (hone 0).mpr hfirst)
  · intro hreach load hload
    obtain ⟨index, -, rfl⟩ := List.mem_map.mp hload
    exact mt (hone index).mp (hiff.mpr (hreach rate hvalue))

theorem sample_slices_start :
    (AppConfig.defaults "node-1").startup_burst = 0 ∧
      ∀ load ∈ planned_slice_loads (sampleScenario 30000000000) 0, ¬ zero_start load := by
  refine ⟨rfl, ?_⟩
  have hlimits : validate_scenario_limits AppConfig.defaultParsers sampleFormats
      (.defaults "node-1") [sampleScenario 30000000000] = .ok () := by
    decide +kernel
  refine (slices_start_iff_shares_reach_a_start hlimits List.mem_cons_self rfl).mpr ?_
  rintro rate ⟨rfl⟩
  decide +kernel

/-- The double that is nearest to three tenths. -/
def threeTenths : Double := .of (3 / 10)

/-- Three starts in ten seconds, in three slices. -/
def slowScenario : Scenario where
  name := "checkout"
  steps := [⟨"step", "step", none⟩]
  config :=
    { endpoint := "http://127.0.0.1:8080"
      scenarios_per_sec := threeTenths
      max_concurrency := 75
      duration := 10000000000
      repeat_policy := .Every 60000000000
      partition_key_strategy := .ExecutionKey }

/-- A third of `0.3` is rounded below `0.1`, and ten seconds of it are below one start. -/
theorem slow_slices_do_not_start :
    (AppConfig.defaults "node-1").validate AppConfig.defaultParsers = .ok () ∧
      (AppConfig.defaults "node-1").startup_burst = 0 ∧
      validate_scenario_limits AppConfig.defaultParsers sampleFormats (.defaults "node-1")
        [slowScenario] = .ok () ∧
      (planned_slice_loads slowScenario 0).length = 3 ∧
      ∀ load ∈ planned_slice_loads slowScenario 0, zero_start load := by
  refine ⟨AppConfig.validate_defaults, rfl, ?_, ?_, ?_⟩
  · decide +kernel
  · decide +kernel
  · decide +kernel

end pulse.service
