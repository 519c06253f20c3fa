-- The plan of a scenario: into how many slices a window is cut, the part of
-- the load that each slice gets, and the fingerprint by which a worker sees
-- that its plan is the plan of the scheduler.
import Pulse.DispatchStore
import Pulse.JobContract
import Pulse.Shares
import Mathlib.Algebra.Order.Floor.Ring

open checks durations Duration strings shares
open pulse.config pulse.contracts pulse.dispatch

namespace pulse.planning

/-! ## The scenario -/

/-- A step, as far as the plan depends on it. -/
structure Step where
  name : String
  fingerprint_material : String
  dynamic_grpc_endpoint_override : Option String

structure ScenarioConfig where
  endpoint : String
  scenarios_per_sec : Double
  max_concurrency : Nat
  duration : Nat
  repeat_policy : RepeatPolicy
  partition_key_strategy : PartitionKeyStrategy

structure Scenario where
  name : String
  steps : List Step
  config : ScenarioConfig

structure ScenarioExecutionPlan where
  scenario : Scenario
  execution_semantics_fingerprint : String

/-! ## The slices -/

def TARGET_SPS_PER_SLICE : Nat := 10
def TARGET_CONCURRENCY_PER_SLICE : Nat := 25
def MAX_AUTO_SLICES : Nat := 128

/-- `as u32` of an `f64` that is not negative. -/
def as_u32 (x : ℚ) : Nat := min ⌊x⌋.toNat config.U32_MAX

/-- `Duration::as_secs_f64`. -/
def as_secs_f64 (duration : Nat) : ℚ :=
  floats.round (floats.round (duration / 1000000000 : Nat) +
    floats.round ((duration % 1000000000 : Nat) / 1000000000))

/-- One arrival for each slice. A product above all doubles is cut to the same maximum. -/
def expected_start_cap (rate : ℚ) (duration : Nat) : Nat :=
  as_u32 (min (max ⌊floats.round (rate * as_secs_f64 duration)⌋ 1) config.U32_MAX)

def calculate_slices (scenarios_per_sec : F64) (max_concurrency duration : Nat) : UInt32 :=
  match scenarios_per_sec with
  | .finite rate =>
    if rate ≤ 0 ∨ max_concurrency = 0 then 1
    else
      let slices_by_rate := as_u32 (max ⌈floats.round (rate / TARGET_SPS_PER_SLICE)⌉ 1)
      let slices_by_concurrency :=
        as_u32 ⌈floats.round (floats.round max_concurrency / TARGET_CONCURRENCY_PER_SLICE)⌉
      let concurrency_cap := min max_concurrency config.U32_MAX
      UInt32.ofNat (min (min (min (max (max slices_by_rate slices_by_concurrency) 1)
        concurrency_cap) (expected_start_cap rate duration)) MAX_AUTO_SLICES)
  | _ => 1

def slice_startup_burst (global_burst : Nat) (total_slices slice_index : UInt32) : Nat :=
  share global_burst (max total_slices.toNat 1) slice_index.toNat

def slice_load (scenario : Scenario) (total_slices slice_index : UInt32)
    (global_startup_burst : Nat) : JobLoadConfig where
  scenarios_per_sec := scenario.config.scenarios_per_sec.div (max total_slices.toNat 1)
  duration := scenario.config.duration
  max_concurrency :=
    share scenario.config.max_concurrency (max total_slices.toNat 1) slice_index.toNat
  startup_burst := slice_startup_burst global_startup_burst total_slices slice_index

def Scenario.slices (scenario : Scenario) : UInt32 :=
  calculate_slices scenario.config.scenarios_per_sec.value scenario.config.max_concurrency
    scenario.config.duration

def planned_slice_loads (scenario : Scenario) (global_startup_burst : Nat) : List JobLoadConfig :=
  (List.range scenario.slices.toNat).map fun index =>
    slice_load scenario scenario.slices (UInt32.ofNat index) global_startup_burst

/-! ## The fingerprint -/

def FNV_OFFSET : Nat := 0x6c62272e07bb014262b821756295c58d
def FNV_PRIME : Nat := 0x0000000001000000000000000000013b

def fnv1a_128 (bytes : List UInt8) : Nat :=
  bytes.foldl (fun hash byte => (hash ^^^ byte.toNat) * FNV_PRIME % 2 ^ 128) FNV_OFFSET

def repeat_material : RepeatPolicy → String
  | .Once => "once"
  | .Every interval => "every:" ++ toString (as_millis interval)

def partition_material : PartitionKeyStrategy → String
  | .ScenarioId => "ScenarioId"
  | .ExecutionKey => "ExecutionKey"

/-- The text that `scenario_plan_fingerprint` hashes. -/
def scenario_plan_material (scenario : Scenario) (slices : UInt32) (global_startup_burst : Nat)
    (worker_max_retries : UInt32) (execution_semantics_fingerprint : String) : String :=
  let material :=
    "v" ++ toString CURRENT_CONTRACT_VERSION ++ "|endpoint=" ++ scenario.config.endpoint ++
    "|rate=" ++ hex 16 scenario.config.scenarios_per_sec.value.to_bits ++
    "|duration_ms=" ++ toString (as_millis scenario.config.duration) ++
    "|concurrency=" ++ toString scenario.config.max_concurrency ++
    "|slices=" ++ toString slices ++ "|startup_burst=" ++ toString global_startup_burst ++
    "|max_retries=" ++ toString worker_max_retries ++
    "|repeat=" ++ repeat_material scenario.config.repeat_policy ++
    "|partition=" ++ partition_material scenario.config.partition_key_strategy ++
    "|execution_semantics=" ++ execution_semantics_fingerprint
  scenario.steps.foldl
    (fun material step => material ++ "|step=" ++ step.fingerprint_material) material

def scenario_plan_fingerprint (scenario : Scenario) (slices : UInt32) (global_startup_burst : Nat)
    (worker_max_retries : UInt32) (execution_semantics_fingerprint : String) : String :=
  let material := scenario_plan_material scenario slices global_startup_burst worker_max_retries
    execution_semantics_fingerprint
  "fnv128:" ++ hex 32 (fnv1a_128 material.toUTF8.data.toList)

def execution_plan_fingerprint (plan : ScenarioExecutionPlan) (slices : UInt32)
    (global_startup_burst : Nat) (worker_max_retries : UInt32) : String :=
  scenario_plan_fingerprint plan.scenario slices global_startup_burst worker_max_retries
    plan.execution_semantics_fingerprint

/-! ## The check of the worker -/

def plan_mismatch (formats : Formats) (expected found : JobLoadConfig) : String :=
  "job load does not match deterministic local slice plan: expected rate=" ++
    formats.f64 expected.scenarios_per_sec.value ++
    " duration_ms=" ++ toString (as_millis expected.duration) ++
    " concurrency=" ++ toString expected.max_concurrency ++
    " startup_burst=" ++ toString expected.startup_burst ++
    ", found rate=" ++ formats.f64 found.scenarios_per_sec.value ++
    " duration_ms=" ++ toString (as_millis found.duration) ++
    " concurrency=" ++ toString found.max_concurrency ++
    " startup_burst=" ++ toString found.startup_burst

def deterministic_job_plan_error (formats : Formats) (job : ScenarioJob)
    (plans : String → Option ScenarioExecutionPlan) (startup_burst : Nat)
    (worker_max_retries : UInt32) : Option String :=
  if worker_max_retries < job.max_retries then
    some ("job max_retries " ++ toString job.max_retries ++
      " exceeds configured worker ceiling " ++ toString worker_max_retries)
  else if job.schema_version < 2 then none
  else
    match plans job.scenario_id with
    | none => none
    | some plan =>
      let expected_load := slice_load plan.scenario job.slice.total job.slice.index startup_burst
      let expected_fingerprint :=
        execution_plan_fingerprint plan job.slice.total startup_burst worker_max_retries
      if job.load ≠ expected_load then some (plan_mismatch formats expected_load job.load)
      else if job.plan_fingerprint ≠ expected_fingerprint then
        some ("job plan fingerprint '" ++ job.plan_fingerprint ++
          "' does not match local plan '" ++ expected_fingerprint ++ "'")
      else none

variable {burst duration : Nat}

/-- A job without an error has the load of its slice. -/
theorem load_of_plan_error_none {formats : Formats} {job : ScenarioJob}
    {plans : String → Option ScenarioExecutionPlan} {plan : ScenarioExecutionPlan}
    {retries : UInt32} (hversion : ¬ job.schema_version < 2)
    (hplan : plans job.scenario_id = some plan)
    (h : deterministic_job_plan_error formats job plans burst retries = none) :
    job.load = slice_load plan.scenario job.slice.total job.slice.index burst := by
  unfold deterministic_job_plan_error at h
  rw [if_neg hversion, hplan] at h
  dsimp only at h
  by_contra hload
  rw [if_pos hload] at h
  split at h <;> cases h

/-! ## The checks of the scenarios -/

def MAX_CONFIGURED_SCENARIOS : Nat := 128
def MAX_CONFIGURED_SCENARIO_NAME_BYTES : Nat := 256
def MAX_CONFIGURED_STEPS_PER_SCENARIO : Nat := 128

def display : ConfigError → String
  | .Environment name reason => "failed to read environment setting " ++ name ++ ": " ++ reason
  | .File name path reason => "failed to load " ++ name ++ " from '" ++ path ++ "': " ++ reason
  | .Invalid name reason => "invalid configuration for " ++ name ++ ": " ++ reason

/-- The longest run id of the scenario. -/
def worst_window (scenario_id : String) : String :=
  "v" ++ toString CURRENT_CONTRACT_VERSION ++ ":s" ++ toString (len scenario_id) ++ ":" ++
    scenario_id ++ ":w" ++ toString (2 ^ 128 - 1) ++ ":n" ++ toString MAX_AUTO_SLICES

def worst_execution (scenario_id : String) : String :=
  worst_window scenario_id ++ ":slice-" ++ toString (MAX_AUTO_SLICES - 1) ++ "-of-" ++
    toString MAX_AUTO_SLICES

def validate_scenario_identity_budget (scenario_id : String) : Except String Unit :=
  [("scenario_id", scenario_id), ("run_id", worst_window scenario_id),
    ("execution_key", worst_execution scenario_id), ("result event_id",
      build_terminal_event_id (worst_execution scenario_id) MAX_CONTRACT_ATTEMPT "result"),
    ("summary event_id",
      worst_window scenario_id ++ ":summary:r" ++ toString (2 ^ 64 - 1) ++ ":timed-out")].forM
    fun (field, value) =>
      rejectIf (is_blank value = true ∨ MAX_CONTRACT_ID_BYTES < len value)
        ("generated " ++ field ++ " would exceed the " ++ toString MAX_CONTRACT_ID_BYTES ++
          "-byte contract identity bound")

/-- The repeat interval is shorter than the load. -/
def Scenario.overlaps (scenario : Scenario) : Bool :=
  match scenario.config.repeat_policy with
  | .Once => false
  | .Every interval => interval < scenario.config.duration

def repeat_millis : RepeatPolicy → Nat
  | .Once => 0
  | .Every interval => as_millis interval

variable (parsers : Parsers) (formats : Formats) (config : AppConfig)

def validate_scenario_shape (scenario : Scenario) : Except String Unit := do
  rejectIf (is_blank scenario.name = true ∨ MAX_CONFIGURED_SCENARIO_NAME_BYTES < len scenario.name)
    ("scenario name must be non-empty and at most " ++
      toString MAX_CONFIGURED_SCENARIO_NAME_BYTES ++ " bytes")
  rejectIf (scenario.steps = [] ∨ MAX_CONFIGURED_STEPS_PER_SCENARIO < scenario.steps.length)
    ("scenario '" ++ scenario.name ++ "' must contain between 1 and " ++
      toString MAX_CONFIGURED_STEPS_PER_SCENARIO ++ " steps")
  (validate_scenario_identity_budget scenario.name).mapError fun error =>
    "scenario '" ++ scenario.name ++ "': " ++ error

def validate_scenario_load (scenario : Scenario) : Except String Unit := do
  rejectIf (scenario.overlaps = true)
    ("scenario '" ++ scenario.name ++ "' repeat interval " ++
      toString (repeat_millis scenario.config.repeat_policy) ++ " ms is shorter than its " ++
      toString (as_millis scenario.config.duration) ++
      " ms load window and would overlap global concurrency budgets")
  rejectIf (config.max_duration < scenario.config.duration)
    ("scenario '" ++ scenario.name ++ "' duration " ++
      toString (as_millis scenario.config.duration) ++
      " ms exceeds PULSE_MAX_DURATION_MS=" ++ toString (as_millis config.max_duration))
  rejectIf (config.startup_burst = 0 ∧
      (scenario.config.scenarios_per_sec.value.mul (as_secs_f64 scenario.config.duration)).lt
        (.finite 1) = true)
    ("scenario '" ++ scenario.name ++ "' window is shorter than one " ++
      formats.f64_6 scenario.config.scenarios_per_sec.value ++ " SPS inter-arrival interval; " ++
      "increase duration or explicitly opt into PULSE_STARTUP_BURST")
  rejectIf (scenario.config.scenarios_per_sec.value.is_finite = false ∨
      scenario.config.scenarios_per_sec.value.le (.finite 0) = true ∨
      config.max_scenarios_per_sec.lt scenario.config.scenarios_per_sec.value = true)
    ("scenario '" ++ scenario.name ++ "' rate " ++
      formats.f64 scenario.config.scenarios_per_sec.value ++
      " is outside (0, PULSE_MAX_SCENARIOS_PER_SEC=" ++ formats.f64 config.max_scenarios_per_sec ++
      "]")
  rejectIf (scenario.config.max_concurrency = 0 ∨
      config.max_concurrency < scenario.config.max_concurrency)
    ("scenario '" ++ scenario.name ++ "' concurrency " ++
      toString scenario.config.max_concurrency ++
      " is outside [1, PULSE_MAX_CONCURRENCY=" ++ toString config.max_concurrency ++ "]")
  rejectIf (scenario.config.max_concurrency < config.startup_burst)
    ("scenario '" ++ scenario.name ++ "' startup burst " ++ toString config.startup_burst ++
      " exceeds its max concurrency " ++ toString scenario.config.max_concurrency)

def validate_scenario_targets (scenario : Scenario) : Except String Unit := do
  (config.validate_target_endpoint parsers scenario.config.endpoint).mapError fun error =>
    "scenario '" ++ scenario.name ++ "': " ++ display error
  scenario.steps.forM fun step =>
    match step.dynamic_grpc_endpoint_override with
    | none => .ok ()
    | some endpoint =>
      (config.validate_target_endpoint parsers endpoint).mapError fun error =>
        "scenario '" ++ scenario.name ++ "' step '" ++ step.name ++ "': " ++ display error

def validate_scenario_limits (scenarios : List Scenario) : Except String Unit := do
  rejectIf (scenarios = []) "scenario source contains zero scenarios"
  rejectIf (MAX_CONFIGURED_SCENARIOS < scenarios.length)
    ("scenario source contains " ++ toString scenarios.length ++ " scenarios; maximum is " ++
      toString MAX_CONFIGURED_SCENARIOS)
  scenarios.forM fun scenario => do
    validate_scenario_shape scenario
    validate_scenario_load formats config scenario
    validate_scenario_targets parsers config scenario

/-! ## What an accepted scenario promises -/

section accepted

variable {parsers : Parsers} {formats : Formats} {config : AppConfig} {scenario : Scenario}

structure Accepted (config : AppConfig) (scenario : Scenario) : Prop where
  name : is_blank scenario.name = false ∧ len scenario.name ≤ MAX_CONFIGURED_SCENARIO_NAME_BYTES
  execution_key : len (worst_execution scenario.name) ≤ MAX_CONTRACT_ID_BYTES
  interval : scenario.overlaps = false
  duration : scenario.config.duration ≤ config.max_duration
  rate : ∃ rate, scenario.config.scenarios_per_sec.value = .finite rate ∧ 0 < rate
  max_rate : config.max_scenarios_per_sec.lt scenario.config.scenarios_per_sec.value = false
  concurrency : 0 < scenario.config.max_concurrency ∧
    scenario.config.max_concurrency ≤ config.max_concurrency
  burst : config.startup_burst ≤ scenario.config.max_concurrency

theorem accepted_of_validate {scenarios : List Scenario}
    (h : validate_scenario_limits parsers formats config scenarios = .ok ())
    (hmem : scenario ∈ scenarios) : Accepted config scenario := by
  simp only [validate_scenario_limits, seq_eq_ok, rejectIf_eq_ok, forM_eq_ok] at h
  obtain ⟨hshape, hload, -⟩ := h.2.2 scenario hmem
  simp only [validate_scenario_shape, seq_eq_ok, rejectIf_eq_ok, mapError_eq_ok,
    validate_scenario_identity_budget, forM_eq_ok, not_or] at hshape
  obtain ⟨⟨hblank, hlen⟩, -, hbudget⟩ := hshape
  simp only [validate_scenario_load, seq_eq_ok, rejectIf_eq_ok, not_or] at hload
  obtain ⟨hinterval, hduration, -, ⟨hfinite, hpositive, hmax⟩, ⟨hzero, hconcurrency⟩, hburst⟩ :=
    hload
  have hexecution := (hbudget ("execution_key", worst_execution scenario.name) (by simp)).2
  refine ⟨⟨by simpa using hblank, by omega⟩, by simpa using hexecution, by simpa using hinterval,
    by omega, ?_, by simpa using hmax, ⟨by omega, by omega⟩, by omega⟩
  revert hfinite hpositive
  cases scenario.config.scenarios_per_sec.value with
  | finite rate => simp [F64.is_finite, F64.le, F64.lt]
  | infinite negative => simp [F64.is_finite]
  | nan => simp [F64.is_finite]

/-! ## The slices of an accepted scenario -/

theorem one_le_as_u32 {x : ℚ} (h : 1 ≤ x) : 1 ≤ as_u32 x := by
  have hfloor : 1 ≤ ⌊x⌋ := Int.le_floor.mpr (by exact_mod_cast h)
  unfold as_u32 config.U32_MAX
  omega

theorem one_le_expected_start_cap (rate : ℚ) (duration : Nat) :
    1 ≤ expected_start_cap rate duration := by
  apply one_le_as_u32
  apply le_min
  · exact le_max_right _ _
  · simp [config.U32_MAX]

/-- The limits of the number of slices. -/
structure SliceBounds (scenario : Scenario) (rate : ℚ) : Prop where
  positive : 1 ≤ scenario.slices.toNat
  auto : scenario.slices.toNat ≤ MAX_AUTO_SLICES
  concurrency : scenario.slices.toNat ≤ scenario.config.max_concurrency
  starts : scenario.slices.toNat ≤ expected_start_cap rate scenario.config.duration

theorem slice_bounds {rate : ℚ} (hvalue : scenario.config.scenarios_per_sec.value = .finite rate)
    (hrate : 0 < rate) (hconcurrency : 0 < scenario.config.max_concurrency) :
    SliceBounds scenario rate := by
  have hnot : ¬ (rate ≤ 0 ∨ scenario.config.max_concurrency = 0) := by
    rintro (h | h)
    · exact absurd hrate (not_lt.mpr h)
    · omega
  have hstarts := one_le_expected_start_cap rate scenario.config.duration
  obtain ⟨n, hn, hbound⟩ : ∃ n, scenario.slices = UInt32.ofNat n ∧ 1 ≤ n ∧ n ≤ MAX_AUTO_SLICES ∧
      n ≤ scenario.config.max_concurrency ∧
      n ≤ expected_start_cap rate scenario.config.duration := by
    unfold Scenario.slices calculate_slices
    rw [hvalue]
    dsimp only
    rw [if_neg hnot]
    refine ⟨_, rfl, ?_⟩
    unfold MAX_AUTO_SLICES config.U32_MAX
    omega
  have htoNat : scenario.slices.toNat = n := by
    rw [hn, UInt32.toNat_ofNat']
    apply Nat.mod_eq_of_lt
    unfold MAX_AUTO_SLICES at hbound
    omega
  rw [← htoNat] at hbound
  exact ⟨hbound.1, hbound.2.1, hbound.2.2.1, hbound.2.2.2⟩

/-- A day has less than `2^17` seconds. -/
theorem as_secs_f64_le (h : duration ≤ MAX_CONFIGURED_DURATION) :
    0 ≤ as_secs_f64 duration ∧ as_secs_f64 duration ≤ 2 ^ 17 := by
  have hsecs : duration / 1000000000 ≤ 86400 := by
    unfold MAX_CONFIGURED_DURATION from_secs at h
    omega
  have hwhole : floats.round (duration / 1000000000 : Nat) = (duration / 1000000000 : Nat) :=
    floats.round_natCast (by omega)
  set nanos : ℚ := (duration % 1000000000 : Nat) / 1000000000 with hnanos
  have hzero : 0 ≤ nanos := by positivity
  have hone : nanos ≤ 1 := by
    rw [hnanos, div_le_one (by norm_num)]
    have hlt : duration % 1000000000 ≤ 1000000000 := (Nat.mod_lt duration (by norm_num)).le
    exact_mod_cast hlt
  have hrounded : floats.round nanos ≤ 1 := by
    have hmono := floats.round_mono hzero hone
    rwa [show floats.round 1 = 1 by exact_mod_cast floats.round_natCast (n := 1) (by norm_num)]
      at hmono
  have hnonneg := floats.round_nonneg hzero
  have hsum : ((duration / 1000000000 : Nat) : ℚ) + floats.round nanos ≤ 2 ^ 17 := by
    have hcast : ((duration / 1000000000 : Nat) : ℚ) ≤ 86400 := by exact_mod_cast hsecs
    linarith
  have hpositive : 0 ≤ ((duration / 1000000000 : Nat) : ℚ) + floats.round nanos := by positivity
  unfold as_secs_f64
  rw [hwhole]
  refine ⟨floats.round_nonneg hpositive, ?_⟩
  have hmono := floats.round_mono hpositive hsum
  rwa [show floats.round (2 ^ 17) = 2 ^ 17 by
    exact_mod_cast floats.round_natCast (n := 2 ^ 17) (by norm_num)] at hmono

/-- With more than one slice the rate is at least one arrival in `2^17` seconds. -/
theorem rate_of_two_slices {rate : ℚ} (hrate : 0 < rate)
    (hduration : duration ≤ MAX_CONFIGURED_DURATION) (h : 2 ≤ expected_start_cap rate duration) :
    1 ≤ rate * 2 ^ 17 := by
  by_contra hless
  obtain ⟨hnonneg, hsecs⟩ := as_secs_f64_le hduration
  have hproduct : rate * as_secs_f64 duration ≤ 1 := by
    have hle := mul_le_mul_of_nonneg_left hsecs hrate.le
    linarith
  have hround : floats.round (rate * as_secs_f64 duration) ≤ 1 := by
    have hmono := floats.round_mono (mul_nonneg hrate.le hnonneg) hproduct
    rwa [show floats.round 1 = 1 by exact_mod_cast floats.round_natCast (n := 1) (by norm_num)]
      at hmono
  have hfloor : ⌊floats.round (rate * as_secs_f64 duration)⌋ ≤ 1 := by
    have hmono := Int.floor_mono hround
    rwa [Int.floor_one] at hmono
  have hmax : max (⌊floats.round (rate * as_secs_f64 duration)⌋ : ℚ) 1 = 1 :=
    max_eq_right (by exact_mod_cast hfloor)
  have hcap : expected_start_cap rate duration = 1 := by
    unfold expected_start_cap
    rw [hmax, min_eq_left (by norm_num [config.U32_MAX])]
    norm_num [as_u32, config.U32_MAX]
  omega

/-- The rate of a slice is positive and not above the rate of the scenario. -/
theorem slice_rate {rate : ℚ} {n : Nat} (x : Double) (hvalue : x.value = .finite rate)
    (hrate : 0 < rate) (hn : 1 ≤ n) (hauto : n ≤ MAX_AUTO_SLICES)
    (hsplit : n = 1 ∨ 1 ≤ rate * 2 ^ 17) :
    ∃ slice, (x.div n).value = .finite slice ∧ 0 < slice ∧ slice ≤ rate := by
  obtain ⟨hexact, hlt⟩ := x.exact rate hvalue
  have hncast : (1 : ℚ) ≤ n := by exact_mod_cast hn
  have hquotient : 0 ≤ rate / n := by positivity
  have hle : floats.round (rate / n) ≤ rate := by
    calc floats.round (rate / n) ≤ floats.round rate :=
          floats.round_mono hquotient (div_le_self hrate.le hncast)
      _ = rate := hexact
  have hpositive : 0 < floats.round (rate / n) := by
    rcases hsplit with rfl | hlarge
    · rw [Nat.cast_one, div_one, hexact]
      exact hrate
    · -- `2^-24` is a double below the quotient
      have hn128 : (n : ℚ) ≤ 128 := by exact_mod_cast hauto
      have hbelow : (2 : ℚ) ^ (-24 : ℤ) ≤ rate / n := by
        rw [le_div_iff₀ (by linarith)]
        norm_num
        linarith
      have hmono := floats.round_mono (floats.two_zpow_pos _).le hbelow
      rw [floats.round_two_zpow (by norm_num)] at hmono
      exact lt_of_lt_of_le (floats.two_zpow_pos _) hmono
  have hfinite : ¬ (2 : ℚ) ^ 1024 ≤ |floats.round (rate / n)| := by
    rw [abs_of_pos hpositive, not_le]
    rw [abs_of_pos hrate] at hlt
    exact hle.trans_lt hlt
  refine ⟨floats.round (rate / n), ?_, hpositive, hle⟩
  simp only [Double.div, hvalue, F64.div, F64.of_exact, if_neg hfinite]

/-- The limits of the configuration on a load. -/
structure Limits (config : AppConfig) : Prop where
  max_duration : config.max_duration ≤ MAX_CONFIGURED_DURATION
  max_rate : ∃ rate, config.max_scenarios_per_sec = .finite rate
  retries : config.worker_max_retries ≤ MAX_WORKER_RETRIES

theorem limits_of_validate (h : config.validate parsers = .ok ()) : Limits config := by
  simp only [AppConfig.validate, seq_eq_ok] at h
  obtain ⟨-, -, -, hretries, -, hload, -⟩ := h
  simp only [AppConfig.validate_retries, seq_eq_ok, rejectIf_eq_ok] at hretries
  simp only [AppConfig.validate_load, seq_eq_ok] at hload
  obtain ⟨hduration, hrate⟩ := hload
  refine ⟨?_, ?_, by omega⟩
  · simp only [validate_duration_upper_bound, rejectIf_eq_ok] at hduration
    omega
  · revert hrate
    cases config.max_scenarios_per_sec with
    | finite rate => exact fun _ => ⟨rate, rfl⟩
    | infinite negative => simp
    | nan => simp

theorem Limits.attempts (h : Limits config) :
    UInt32.ofNat config.worker_max_retries ≤ MAX_CONTRACT_ATTEMPT := by
  have hmax := h.retries
  unfold MAX_WORKER_RETRIES at hmax
  rwa [UInt32.le_iff_toNat_le, UInt32.toNat_ofNat_of_lt' (by unfold UInt32.size; omega)]

/-- The loads of the slices are shares of the concurrency and of the burst. -/
theorem sum_planned_slice_loads {total : Nat} (f : JobLoadConfig → Nat)
    (hslices : 1 ≤ scenario.slices.toNat)
    (hf : ∀ index, f (slice_load scenario scenario.slices index burst) =
      share total (max scenario.slices.toNat 1) index.toNat) :
    ((planned_slice_loads scenario burst).map f).sum = total := by
  have hmap : (planned_slice_loads scenario burst).map f =
      (List.range scenario.slices.toNat).map (share total scenario.slices.toNat) := by
    unfold planned_slice_loads
    rw [List.map_map]
    apply List.map_congr_left
    intro index hindex
    have hlt : index < UInt32.size := (List.mem_range.mp hindex).trans scenario.slices.toNat_lt
    rw [Function.comp_apply, hf, Nat.max_eq_left hslices, UInt32.toNat_ofNat_of_lt' hlt]
  rw [hmap]
  exact sum_shares hslices

/-- The shares of a slice. -/
theorem slice_shares (haccepted : Accepted config scenario) (index : UInt32) :
    1 ≤ (slice_load scenario scenario.slices index config.startup_burst).max_concurrency ∧
      (slice_load scenario scenario.slices index config.startup_burst).startup_burst ≤
        (slice_load scenario scenario.slices index config.startup_burst).max_concurrency := by
  obtain ⟨rate, hvalue, hrate⟩ := haccepted.rate
  have hbounds := slice_bounds hvalue hrate haccepted.concurrency.1
  unfold slice_load slice_startup_burst
  rw [Nat.max_eq_left hbounds.positive]
  exact ⟨one_le_share index.toNat hbounds.positive hbounds.concurrency,
    share_mono index.toNat haccepted.burst⟩

/-- The load of a slice is accepted, within the limits of the configuration. -/
theorem slice_load_valid (hlimits : Limits config) (haccepted : Accepted config scenario)
    (hduration : 0 < scenario.config.duration) (index : UInt32) :
    ScenarioJob.ValidLoad (slice_load scenario scenario.slices index config.startup_burst) ∧
      config.max_scenarios_per_sec.lt
        (slice_load scenario scenario.slices index config.startup_burst).scenarios_per_sec.value =
          false := by
  obtain ⟨rate, hvalue, hrate⟩ := haccepted.rate
  obtain ⟨max_rate, hmax⟩ := hlimits.max_rate
  have hle : rate ≤ max_rate := by
    have hlt := haccepted.max_rate
    rw [hmax, hvalue] at hlt
    simpa [F64.lt] using hlt
  obtain ⟨hpositive, hauto, -, hstarts⟩ := slice_bounds hvalue hrate haccepted.concurrency.1
  have hsplit : scenario.slices.toNat = 1 ∨ 1 ≤ rate * 2 ^ 17 := by
    rcases hpositive.eq_or_lt with hone | htwo
    · exact .inl hone.symm
    · have hcap : 2 ≤ expected_start_cap rate scenario.config.duration := by omega
      exact .inr (rate_of_two_slices hrate (haccepted.duration.trans hlimits.max_duration) hcap)
  obtain ⟨slice, hslice, hslicepos, hslicele⟩ := slice_rate scenario.config.scenarios_per_sec hvalue
    hrate hpositive hauto hsplit
  have hrated : (slice_load scenario scenario.slices index
      config.startup_burst).scenarios_per_sec.value = .finite slice := by
    unfold slice_load
    rw [Nat.max_eq_left hpositive]
    exact hslice
  obtain ⟨hone, hburst⟩ := slice_shares haccepted index
  refine ⟨⟨⟨slice, hrated, hslicepos⟩, hduration.ne', Nat.one_le_iff_ne_zero.mp hone, hburst⟩, ?_⟩
  rw [hmax, hrated]
  simpa [F64.lt] using hslicele.trans hle

end accepted

end pulse.planning
