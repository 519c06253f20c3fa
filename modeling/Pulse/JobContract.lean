-- The contract of a job: the slice of a run that a worker executes, with its
-- part of the load, and the checks that accept it.
import Pulse.Config
import Pulse.Contracts
import Pulse.Doubles

open checks strings
open pulse.config

namespace pulse.config

/-! ## Doubles -/

namespace F64

def is_finite : F64 → Bool
  | .finite _ => true
  | _ => false

/-- `x < y`: false when one of them is no number. -/
def lt : F64 → F64 → Bool
  | .finite x, .finite y => x < y
  | .finite _, .infinite negative => !negative
  | .infinite negative, .finite _ => negative
  | .infinite x, .infinite y => x && !y
  | _, _ => false

/-- `x <= y`. -/
def le : F64 → F64 → Bool
  | .nan, _ => false
  | _, .nan => false
  | x, y => !lt y x

/-- The result of an operation whose exact value is `x`. -/
def of_exact (x : ℚ) : F64 :=
  let y := floats.round x
  if 2 ^ 1024 ≤ |y| then .infinite (y < 0) else .finite y

/-- `x / n as f64` for a positive `n` of 32 bits. -/
def div : F64 → Nat → F64
  | .finite x, n => of_exact (x / n)
  | x, _ => x

/-- `x * y` for a `y` that is neither negative nor infinite. -/
def mul : F64 → ℚ → F64
  | .finite x, y => of_exact (x * y)
  | .infinite negative, y => if y = 0 then .nan else .infinite negative
  | .nan, _ => .nan

/-- The sign, the exponent and the fraction. -/
def to_bits : F64 → Nat
  | .nan => 0x7ff8000000000000
  | .infinite negative => (if negative then 2 ^ 63 else 0) + 0x7ff0000000000000
  | .finite x =>
    let last := floats.lastBit x
    let digits := (floats.nearest (|x| / 2 ^ last)).toNat
    (if x < 0 then 2 ^ 63 else 0) +
      if digits < 2 ^ 52 then digits else (last + 1075).toNat * 2 ^ 52 + (digits - 2 ^ 52)

end F64

/-- An `f64` of a load. -/
structure Double where
  value : F64
  exact : ∀ x, value = .finite x → floats.round x = x ∧ |x| < 2 ^ 1024
deriving DecidableEq

theorem F64.of_exact_exact {x y : ℚ} (h : of_exact x = .finite y) :
    floats.round y = y ∧ |y| < 2 ^ 1024 := by
  unfold of_exact at h
  dsimp only at h
  split at h
  · cases h
  · rename_i hlt
    cases h
    exact ⟨floats.round_round x, not_le.mp hlt⟩

/-- The double that is nearest to a number. -/
def Double.of (x : ℚ) : Double where
  value := .of_exact x
  exact _ := F64.of_exact_exact

/-- A whole number as a double. -/
def Double.whole (n : Nat) (h : n ≤ 2 ^ 53) : Double where
  value := .finite n
  exact := by
    rintro x ⟨⟩
    refine ⟨floats.round_natCast h, ?_⟩
    rw [Nat.abs_cast]
    calc (n : ℚ) ≤ 2 ^ 53 := by exact_mod_cast h
      _ < 2 ^ 1024 := pow_lt_pow_right₀ (by norm_num) (by norm_num)

def Double.div (x : Double) (n : Nat) : Double where
  value := x.value.div n
  exact := by
    intro y hy
    obtain ⟨value, hexact⟩ := x
    cases value with
    | finite x => exact F64.of_exact_exact hy
    | infinite negative => cases hy
    | nan => cases hy

end pulse.config

namespace pulse.contracts

/-! ## The job -/

structure JobLoadConfig where
  scenarios_per_sec : Double
  duration : Nat
  max_concurrency : Nat
  startup_burst : Nat
deriving DecidableEq

structure ScenarioJob where
  schema_version : UInt16
  scenario_id : String
  run_id : String
  execution_key : String
  plan_fingerprint : String
  scheduled_at_unix_ms : Nat
  not_before_unix_ms : Nat
  slice : JobSlice
  load : JobLoadConfig
  attempt : UInt32
  max_retries : UInt32
deriving DecidableEq

inductive PartitionKeyStrategy
  | ScenarioId
  | ExecutionKey
deriving DecidableEq, Repr

def PartitionKeyStrategy.key_for : PartitionKeyStrategy → ScenarioJob → String
  | .ScenarioId, job => job.scenario_id
  | .ExecutionKey, job => job.execution_key

/-- The formatters of the standard library: `{:?}` of a duration, `{}` and `{:.6}` of an `f64`. -/
structure Formats where
  duration : Nat → String
  f64 : F64 → String
  f64_6 : F64 → String

theorem validate_contract_version_iff {version : UInt16} :
    validate_contract_version version = .ok () ↔ 1 ≤ version ∧ version ≤ 2 := by
  simp only [validate_contract_version, seq_eq_ok, rejectIf_eq_ok, UInt16.not_lt]
  rfl

theorem validate_slice_iff {slice : JobSlice} : validate_slice slice = .ok () ↔
    slice.total ≤ MAX_CONTRACT_SLICES ∧ slice.index < slice.total := by
  simp only [validate_slice, seq_eq_ok, rejectIf_eq_ok, UInt32.not_lt, UInt32.not_le]
  constructor
  · rintro ⟨-, hmax, hindex⟩
    exact ⟨hmax, hindex⟩
  · rintro ⟨hmax, hindex⟩
    refine ⟨?_, hmax, hindex⟩
    intro hzero
    rw [hzero] at hindex
    exact absurd hindex (by simp)

namespace ScenarioJob

def validate_load (load : JobLoadConfig) : Except ContractError Unit := do
  rejectIf (load.scenarios_per_sec.value.is_finite = false ∨
      load.scenarios_per_sec.value.le (.finite 0) = true)
    (.InvalidLoad "scenarios_per_sec must be finite and > 0")
  rejectIf (load.duration = 0) (.InvalidLoad "duration must be greater than zero")
  rejectIf (load.max_concurrency = 0) (.InvalidLoad "max_concurrency must be greater than zero")
  rejectIf (load.max_concurrency < load.startup_burst)
    (.InvalidLoad ("startup_burst " ++ toString load.startup_burst ++
      " exceeds slice max_concurrency " ++ toString load.max_concurrency))

def validate_attempt (job : ScenarioJob) : Except ContractError Unit := do
  rejectIf (job.max_retries < job.attempt) (.InvalidAttempt job.attempt job.max_retries)
  rejectIf (MAX_CONTRACT_ATTEMPT < job.max_retries) (.InvalidAttempt job.attempt job.max_retries)
  rejectIf (2 ≤ job.schema_version ∧ 0 < job.attempt ∧ job.not_before_unix_ms = 0)
    (.InvalidAttempt job.attempt job.max_retries)

def validate (job : ScenarioJob) : Except ContractError Unit := do
  validate_contract_version job.schema_version
  require_non_empty "scenario_id" job.scenario_id
  require_non_empty "run_id" job.run_id
  require_non_empty "execution_key" job.execution_key
  rejectIf (2 ≤ job.schema_version ∧ is_blank job.plan_fingerprint = true)
    (.MissingField "plan_fingerprint")
  validate_identity_lengths [("scenario_id", job.scenario_id), ("run_id", job.run_id),
    ("execution_key", job.execution_key), ("plan_fingerprint", job.plan_fingerprint)]
  validate_slice job.slice
  validate_load job.load
  job.validate_attempt

def validate_limits (formats : Formats) (job : ScenarioJob) (max_duration : Nat) (max_rate : F64)
    (max_concurrency : Nat) : Except ContractError Unit := do
  job.validate
  rejectIf (max_duration < job.load.duration)
    (.SafetyLimit ("duration " ++ formats.duration job.load.duration ++ " exceeds maximum " ++
      formats.duration max_duration))
  rejectIf (max_rate.lt job.load.scenarios_per_sec.value = true)
    (.SafetyLimit ("rate " ++ formats.f64 job.load.scenarios_per_sec.value ++ " exceeds maximum " ++
      formats.f64 max_rate))
  rejectIf (max_concurrency < job.load.max_concurrency)
    (.SafetyLimit ("concurrency " ++ toString job.load.max_concurrency ++ " exceeds maximum " ++
      toString max_concurrency))

/-! ## What an accepted job promises -/

/-- A text that is neither blank nor longer than an identity. -/
def IsIdentity (value : String) : Prop := is_blank value = false ∧ len value ≤ MAX_CONTRACT_ID_BYTES

structure ValidLoad (load : JobLoadConfig) : Prop where
  scenarios_per_sec : ∃ rate, load.scenarios_per_sec.value = .finite rate ∧ 0 < rate
  duration : load.duration ≠ 0
  max_concurrency : load.max_concurrency ≠ 0
  startup_burst : load.startup_burst ≤ load.max_concurrency

structure Valid (job : ScenarioJob) : Prop where
  schema_version : 1 ≤ job.schema_version ∧ job.schema_version ≤ 2
  scenario_id : IsIdentity job.scenario_id
  run_id : IsIdentity job.run_id
  execution_key : IsIdentity job.execution_key
  plan_fingerprint : len job.plan_fingerprint ≤ MAX_CONTRACT_ID_BYTES ∧
    (2 ≤ job.schema_version → is_blank job.plan_fingerprint = false)
  slice : job.slice.total ≤ MAX_CONTRACT_SLICES ∧ job.slice.index < job.slice.total
  load : ValidLoad job.load
  attempt : job.attempt ≤ job.max_retries ∧ job.max_retries ≤ MAX_CONTRACT_ATTEMPT
  not_before : 2 ≤ job.schema_version → 0 < job.attempt → job.not_before_unix_ms ≠ 0

theorem validate_load_iff {load : JobLoadConfig} :
    validate_load load = .ok () ↔ ValidLoad load := by
  have hrate : ¬ (load.scenarios_per_sec.value.is_finite = false ∨
      load.scenarios_per_sec.value.le (.finite 0) = true) ↔
      ∃ rate, load.scenarios_per_sec.value = .finite rate ∧ 0 < rate := by
    cases load.scenarios_per_sec.value <;> simp [F64.is_finite, F64.le, F64.lt]
  simp only [validate_load, seq_eq_ok, rejectIf_eq_ok, hrate, Nat.not_lt]
  constructor
  · rintro ⟨h₁, h₂, h₃, h₄⟩
    exact ⟨h₁, h₂, h₃, h₄⟩
  · rintro ⟨h₁, h₂, h₃, h₄⟩
    exact ⟨h₁, h₂, h₃, h₄⟩

variable {job : ScenarioJob}

theorem validate_attempt_iff : job.validate_attempt = .ok () ↔
    (job.attempt ≤ job.max_retries ∧ job.max_retries ≤ MAX_CONTRACT_ATTEMPT) ∧
      (2 ≤ job.schema_version → 0 < job.attempt → job.not_before_unix_ms ≠ 0) := by
  simp only [validate_attempt, seq_eq_ok, rejectIf_eq_ok, UInt32.not_lt, not_and, and_assoc]

theorem validate_iff : job.validate = .ok () ↔ job.Valid := by
  have hlengths : validate_identity_lengths [("scenario_id", job.scenario_id),
      ("run_id", job.run_id), ("execution_key", job.execution_key),
      ("plan_fingerprint", job.plan_fingerprint)] = .ok () ↔
      len job.scenario_id ≤ MAX_CONTRACT_ID_BYTES ∧ len job.run_id ≤ MAX_CONTRACT_ID_BYTES ∧
        len job.execution_key ≤ MAX_CONTRACT_ID_BYTES ∧
        len job.plan_fingerprint ≤ MAX_CONTRACT_ID_BYTES := by
    simp [validate_identity_lengths, List.forM_eq_forM, List.forM_cons, List.forM_nil, seq_eq_ok]
  simp only [validate, seq_eq_ok, validate_contract_version_iff, validate_slice_iff, hlengths,
    validate_attempt_iff, validate_load_iff, require_non_empty, rejectIf_eq_ok, Bool.not_eq_true,
    not_and]
  constructor
  · rintro ⟨hv, hs, hr, he, hp, ⟨ls, lr, le, lp⟩, hslice, hload, hattempt, hdefer⟩
    exact ⟨hv, ⟨hs, ls⟩, ⟨hr, lr⟩, ⟨he, le⟩, ⟨lp, hp⟩, hslice, hload, hattempt, hdefer⟩
  · rintro ⟨hv, ⟨hs, ls⟩, ⟨hr, lr⟩, ⟨he, le⟩, ⟨lp, hp⟩, hslice, hload, hattempt, hdefer⟩
    exact ⟨hv, hs, hr, he, hp, ⟨ls, lr, le, lp⟩, hslice, hload, hattempt, hdefer⟩

/-- An accepted job is within the limits when its load is. -/
theorem validate_limits_ok {formats : Formats} {max_duration : Nat} {max_rate : F64}
    {max_concurrency : Nat} (h : job.Valid) (hduration : job.load.duration ≤ max_duration)
    (hrate : max_rate.lt job.load.scenarios_per_sec.value = false)
    (hconcurrency : job.load.max_concurrency ≤ max_concurrency) :
    job.validate_limits formats max_duration max_rate max_concurrency = .ok () := by
  simp only [validate_limits, seq_eq_ok, rejectIf_eq_ok, validate_iff, Nat.not_lt, Bool.not_eq_true]
  exact ⟨h, hduration, hrate, hconcurrency⟩

end ScenarioJob

end pulse.contracts
