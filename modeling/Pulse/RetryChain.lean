-- The chain of attempts of a job whose infrastructure fails again and again.
-- Each retry passes the checks of the job that it repeats, so only the last
-- attempt becomes a dead letter.
import Pulse.WorkerChecks

open checks durations Duration
open pulse.config pulse.contracts pulse.planning pulse.kafka

namespace pulse.service

section chain

variable {formats : Formats} {config : NodeRuntimeConfig} {plans : Plans} {job retry : ScenarioJob}
  {now : Nat}

/-! ## One retry -/

/-- The checks of a job, one by one. -/
theorem pre_claim_checks_eq_ok : pre_claim_checks formats config plans job now = .ok () ↔
    job.validate_limits formats config.max_job_duration config.max_scenarios_per_sec
        config.max_concurrency = .ok () ∧
      deterministic_job_plan_error formats job plans config.startup_burst
        config.worker_max_retries = none ∧
      deferred_job_delay job now ≤ config.worker_retry_max_delay ∧ ¬ zero_start job.load := by
  simp only [pre_claim_checks, seq_eq_ok, mapError_eq_ok, rejectIf_eq_ok, Nat.not_lt]
  cases deterministic_job_plan_error formats job plans config.startup_burst
    config.worker_max_retries with
  | none => simp
  | some reason => simp

/-- A job that repeats another one later. -/
structure Repeats (job retry : ScenarioJob) : Prop where
  same : retry = { job with
    attempt := retry.attempt
    not_before_unix_ms := retry.not_before_unix_ms }
  attempt : retry.attempt.toNat = job.attempt.toNat + 1

/-- A retry that the publisher and every worker accept from the time `now` on. -/
structure AcceptedRetry (formats : Formats) (config : NodeRuntimeConfig) (plans : Plans)
    (job retry : ScenarioJob) (now : Nat) : Prop where
  repeats : Repeats job retry
  published : ∀ to_string text, to_string retry = .ok text →
    serialize_validated_job to_string retry = .ok text
  accepted : ∀ later, now ≤ later → pre_claim_checks formats config plans retry later = .ok ()
  execution_key : retry.execution_key = job.execution_key
  slice : retry.slice = job.slice
  load : retry.load = job.load
  plan_fingerprint : retry.plan_fingerprint = job.plan_fingerprint
  waits : ∀ later, now ≤ later → deferred_job_delay retry later ≤ config.worker_retry_max_delay

theorem next_attempt_toNat {attempt max_retries : UInt32} (h : attempt < max_retries) :
    (next_attempt attempt).toNat = attempt.toNat + 1 := by
  have hlt := UInt32.lt_iff_toNat_lt.mp h
  have hmax := max_retries.toNat_lt
  unfold next_attempt config.U32_MAX
  rw [if_neg (by omega), UInt32.toNat_add, UInt32.toNat_one]
  omega

theorem Repeats.valid (h : Repeats job retry) (hjob : job.Valid)
    (hattempt : job.attempt < job.max_retries) (hdefer : retry.not_before_unix_ms ≠ 0) :
    retry.Valid := by
  have hnext : retry.attempt ≤ job.max_retries := by
    rw [UInt32.le_iff_toNat_le, h.attempt]
    exact UInt32.lt_iff_toNat_lt.mp hattempt
  rw [h.same]
  exact { hjob with
    attempt := ⟨hnext, hjob.attempt.2⟩
    not_before := fun _ _ => hdefer }

/-- A failure of the infrastructure, and the time when it is settled. -/
structure Failure where
  reason : String
  now_unix_ms : Nat

/-- The attempts of a chain, and the dead letter at its end. -/
structure FailureChain where
  attempts : List ScenarioJob
  dead_letter : Option FailedScenarioJob

/-- A chain is accepted up to its last attempt, and only that one is a dead letter. -/
structure Exhausts (formats : Formats) (config : NodeRuntimeConfig) (plans : Plans)
    (job : ScenarioJob) (failures : List Failure) (chain : FailureChain) : Prop where
  first : chain.attempts[0]? = some job
  retries : ∀ i retry, chain.attempts[i + 1]? = some retry → ∃ previous failure,
    chain.attempts[i]? = some previous ∧ failures[i]? = some failure ∧
      AcceptedRetry formats config plans previous retry failure.now_unix_ms
  length : chain.attempts.length + job.attempt.toNat ≤ job.max_retries.toNat + 1
  dead_letter : ∀ record, chain.dead_letter = some record → ∃ last failure,
    chain.attempts.getLast? = some last ∧ failures[chain.attempts.length - 1]? = some failure ∧
      last.attempt = job.max_retries ∧ last.max_retries = job.max_retries ∧
      record = failed_job last (exhausted_reason last failure.reason) failure.now_unix_ms
  exhausted : job.max_retries.toNat < job.attempt.toNat + failures.length →
    chain.dead_letter ≠ none

/-- One more attempt in front of a chain. -/
theorem Exhausts.cons {failure : Failure} {failures : List Failure} {chain : FailureChain}
    (h : Exhausts formats config plans retry failures chain)
    (haccepted : AcceptedRetry formats config plans job retry failure.now_unix_ms) :
    Exhausts formats config plans job (failure :: failures)
      ⟨job :: chain.attempts, chain.dead_letter⟩ := by
  have hattempt := haccepted.repeats.attempt
  have hretries : retry.max_retries = job.max_retries := by rw [haccepted.repeats.same]
  have hlength := h.length
  rw [hattempt, hretries] at hlength
  refine ⟨rfl, ?_, ?_, ?_, ?_⟩
  · intro i next hnext
    cases i with
    | zero =>
      have hfirst : some retry = some next := h.first.symm.trans hnext
      cases hfirst
      exact ⟨job, failure, rfl, rfl, haccepted⟩
    | succ i => exact h.retries i next hnext
  · rw [List.length_cons]
    omega
  · intro record hrecord
    obtain ⟨last, final, hlast, hfinal, hlimit, hmax, hsame⟩ := h.dead_letter record hrecord
    rw [hretries] at hlimit hmax
    have hne : chain.attempts ≠ [] := by
      rintro hnil
      rw [hnil] at hlast
      cases hlast
    refine ⟨last, final, ?_, ?_, hlimit, hmax, hsame⟩
    · rw [List.getLast?_cons, hlast]
      rfl
    · obtain ⟨n, hn⟩ := Nat.exists_eq_succ_of_ne_zero (List.length_pos_iff.mpr hne).ne'
      rw [hn] at hfinal
      rw [List.length_cons, hn]
      exact hfinal
  · intro hmore
    apply h.exhausted
    rw [hattempt, hretries]
    rw [List.length_cons] at hmore
    omega

end chain

/-- The defaults of a node. -/
def NodeRuntimeConfig.default : NodeRuntimeConfig where
  worker_max_retries := 2
  worker_retry_base_delay := from_millis 500
  worker_retry_max_delay := from_secs 30
  max_job_duration := from_secs 60
  max_scenarios_per_sec := .finite 1000
  max_concurrency := 256
  startup_burst := 0

/-- A job of one second that may be repeated once. -/
def repeatedJob : ScenarioJob :=
  { keyedJob "k" with
    load := { (keyedJob "k").load with duration := from_secs 1 }
    max_retries := 1 }

end pulse.service
