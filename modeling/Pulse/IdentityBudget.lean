-- The check of the identities at startup: it builds the longest identities of
-- a scenario once, and every identity that the scripts, the scheduler, the
-- workers and the aggregator build later is no longer than one of them.
import Pulse.AggregationSummary
import Pulse.FailedRecords
import Pulse.ScheduledJobs

open checks strings
open pulse.contracts pulse.dispatch pulse.kafka pulse.service

namespace pulse.planning

open pulse.aggregation ScenarioJob

/-! ## What the check promises -/

/-- The identities of the check have room. -/
structure BudgetHolds (scenario_id : String) : Prop where
  scenario : IsIdentity scenario_id
  window : len (worst_window scenario_id) ≤ MAX_CONTRACT_ID_BYTES
  execution : len (worst_execution scenario_id) ≤ MAX_CONTRACT_ID_BYTES
  result : len (build_terminal_event_id (worst_execution scenario_id) MAX_CONTRACT_ATTEMPT
    "result") ≤ MAX_CONTRACT_ID_BYTES
  summary : len (worst_window scenario_id ++ ":summary:r" ++ toString (2 ^ 64 - 1) ++
    ":timed-out") ≤ MAX_CONTRACT_ID_BYTES

theorem budget_holds {scenario_id : String}
    (h : validate_scenario_identity_budget scenario_id = .ok ()) : BudgetHolds scenario_id := by
  simp only [validate_scenario_identity_budget, forM_eq_ok, rejectIf_eq_ok, not_or, Nat.not_lt,
    Bool.not_eq_true] at h
  refine ⟨h ("scenario_id", scenario_id) (by simp), ?_, ?_, ?_, ?_⟩
  · exact (h ("run_id", worst_window scenario_id) (by simp)).2
  · exact (h ("execution_key", worst_execution scenario_id) (by simp)).2
  · exact (h _ (List.mem_of_getElem? (i := 3) rfl)).2
  · exact (h _ (List.mem_of_getElem? (i := 4) rfl)).2

/-! ## The identities that are built later -/

section built

variable {scenario_id : String} {time n index : Nat}

/-- The run of a scenario that the script starts at `time` with `n` slices. -/
def run_id_at (scenario_id : String) (time n : Nat) : String :=
  window_id CURRENT_CONTRACT_VERSION scenario_id (lua.tostring time) n

theorem v_mem_run_id (scenario_id : String) (time n : Nat) :
    'v' ∈ (run_id_at scenario_id time n).toList := by
  simp [run_id_at, window_id]

theorem run_id_fits (h : BudgetHolds scenario_id) (htime : time < 10 ^ 17)
    (hn : n ≤ MAX_AUTO_SLICES) : IsIdentity (run_id_at scenario_id time n) := by
  constructor
  · exact not_blank (v_mem_run_id scenario_id time n) (by decide)
  · exact (len_window_id htime hn).trans h.window

theorem len_execution_key_le (scenario_id : String) (htime : time < 10 ^ 17)
    (hn : n ≤ MAX_AUTO_SLICES) (hindex : index < n) :
    len (slice_key (run_id_at scenario_id time n) index n) ≤ len (worst_execution scenario_id) :=
  len_slice_key hindex hn (len_window_id htime hn)

theorem execution_key_fits (h : BudgetHolds scenario_id) (htime : time < 10 ^ 17)
    (hn : n ≤ MAX_AUTO_SLICES) (hindex : index < n) :
    IsIdentity (slice_key (run_id_at scenario_id time n) index n) := by
  constructor
  · apply not_blank (c := 'v') _ (by decide)
    simp [slice_key, v_mem_run_id scenario_id time n]
  · exact (len_execution_key_le scenario_id htime hn hindex).trans h.execution

/-- The identity of an event is no longer than the one of the last attempt. -/
theorem len_terminal_event_id_le {key worst : String} {attempt : UInt32} (kind : String)
    (h : len key ≤ len worst) (hattempt : attempt ≤ MAX_CONTRACT_ATTEMPT) :
    len (build_terminal_event_id key attempt kind) ≤
      len (build_terminal_event_id worst MAX_CONTRACT_ATTEMPT kind) := by
  have hle : attempt.toNat ≤ 32 := UInt32.le_iff_toNat_le.mp hattempt
  have hdigits : len (toString attempt.toNat) ≤ 2 := len_toString_le (by decide) (by omega)
  have hmax : len (toString MAX_CONTRACT_ATTEMPT.toNat) = 2 := by decide +kernel
  unfold build_terminal_event_id
  simp only [len_append]
  change _ + len (toString attempt.toNat) + _ + _ ≤
    _ + len (toString MAX_CONTRACT_ATTEMPT.toNat) + _ + _
  omega

theorem event_id_fits (h : BudgetHolds scenario_id) (htime : time < 10 ^ 17)
    (hn : n ≤ MAX_AUTO_SLICES) (hindex : index < n) {attempt : UInt32}
    (hattempt : attempt ≤ MAX_CONTRACT_ATTEMPT) :
    IsIdentity (build_terminal_event_id (slice_key (run_id_at scenario_id time n) index n) attempt
        "result") ∧
      IsIdentity (build_terminal_event_id (slice_key (run_id_at scenario_id time n) index n) attempt
        "dlq") := by
  have hkey := execution_key_fits h htime hn hindex
  have hworst := len_execution_key_le scenario_id htime hn hindex
  have hresult := (len_terminal_event_id_le "result" hworst hattempt).trans h.result
  have hshorter := len_terminal_event_id (slice_key (run_id_at scenario_id time n) index n) attempt
  refine ⟨⟨is_blank_terminal_event_id hkey.1 attempt "result", hresult⟩,
    ⟨is_blank_terminal_event_id hkey.1 attempt "dlq", ?_⟩⟩
  omega

theorem summary_event_id_fits (h : BudgetHolds scenario_id) (htime : time < 10 ^ 17)
    (hn : n ≤ MAX_AUTO_SLICES) {revision : Nat} (hrevision : revision < 2 ^ 64)
    (status : ScenarioRunSummaryStatus) :
    IsIdentity (summary_event_id (run_id_at scenario_id time n) revision status) := by
  constructor
  · apply not_blank (c := 'v') _ (by decide)
    simp [summary_event_id, v_mem_run_id scenario_id time n]
  · have hrun : len (run_id_at scenario_id time n) ≤ len (worst_window scenario_id) :=
      len_window_id htime hn
    have hdigits : len (toString revision) ≤ 20 := len_toString_le (by decide) (by omega)
    have hmax : len (toString (2 ^ 64 - 1)) = 20 := by decide +kernel
    have hlabel : len ":" + len (status_label status) ≤ len ":timed-out" := by
      cases status <;> decide
    have hsummary := h.summary
    unfold summary_event_id
    simp only [len_append] at hsummary ⊢
    omega

end built

/-! ## The law -/

/-- The job of a slice, with the identities of its run. -/
def identified (job : ScenarioJob) (scenario_id : String) (time n index : Nat) : ScenarioJob :=
  { job with
    scenario_id
    run_id := run_id_at scenario_id time n
    execution_key := slice_key (run_id_at scenario_id time n) index n }

/-- The checks of the records of a job. -/
structure RecordsPass (job : ScenarioJob) : Prop where
  validate : job.validate = .ok ()
  result : ∀ report, (run_result job report).validate_identity = .ok ()
  failed : ∀ reason now, is_blank reason = false →
    ∃ sent, validated_failed_job (failed_job job reason now) = .ok sent

/-- A scenario that passes the check has room for the identities of all its runs, and the records of
its jobs pass their checks. -/
theorem the_startup_budget_covers_every_identity {scenario_id : String}
    (hbudget : validate_scenario_identity_budget scenario_id = .ok ()) {time n index : Nat}
    (htime : time < 10 ^ 14) (hn : n ≤ MAX_AUTO_SLICES) (hindex : index < n) :
    IsIdentity (run_id_at scenario_id time n) ∧
    IsIdentity (slice_key (run_id_at scenario_id time n) index n) ∧
    (∀ attempt ≤ MAX_CONTRACT_ATTEMPT,
      IsIdentity (build_terminal_event_id (slice_key (run_id_at scenario_id time n) index n) attempt
          "result") ∧
        IsIdentity (build_terminal_event_id (slice_key (run_id_at scenario_id time n) index n)
          attempt "dlq")) ∧
    (∀ revision < 2 ^ 64, ∀ status,
      IsIdentity (summary_event_id (run_id_at scenario_id time n) revision status)) ∧
    ∀ job : ScenarioJob, job.Valid → RecordsPass (identified job scenario_id time n index) := by
  have h := budget_holds hbudget
  have htime' : time < 10 ^ 17 := htime.trans (by decide)
  have hrun := run_id_fits h htime' hn
  have hkey := execution_key_fits h htime' hn hindex
  refine ⟨hrun, hkey, fun attempt hattempt => event_id_fits h htime' hn hindex hattempt,
    fun revision hrevision status => summary_event_id_fits h htime' hn hrevision status, ?_⟩
  intro job hjob
  have hvalid : (identified job scenario_id time n index).Valid :=
    { hjob with scenario_id := h.scenario, run_id := hrun, execution_key := hkey }
  have hattempt := UInt32.le_trans hjob.attempt.1 hjob.attempt.2
  obtain ⟨hresult, hfailed⟩ := event_id_fits h htime' hn hindex hattempt
  exact
    { validate := ScenarioJob.validate_iff.mpr hvalid
      result := fun report => (run_result_identity_iff hvalid report).mpr hresult.2
      failed := fun reason now hreason => (failed_job_sent_iff hvalid hreason now).mpr hfailed.2 }

theorem checkout_has_room :
    IsIdentity (summary_event_id (run_id_at "checkout" 1700000000000 2) 1 .TimedOut) := by
  have hbudget : validate_scenario_identity_budget "checkout" = .ok () := by decide +kernel
  exact (the_startup_budget_covers_every_identity hbudget (by decide) (by decide)
    (by decide : 1 < 2)).2.2.2.1 1 (by decide) .TimedOut

end pulse.planning
