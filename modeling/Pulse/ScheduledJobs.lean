-- The jobs of the scheduler: a job that it builds for a window passes the checks
-- of a worker with the same plan and the same configuration, as long as the
-- worker reads the rate that was sent.
import Pulse.RecordTexts
import Pulse.ScheduleRecords

open checks shares strings systems
open pulse.config pulse.contracts pulse.coordination pulse.dispatch pulse.kafka pulse.leader_lock

namespace pulse.planning

/-! ## The job of a slice -/

/-- The spec with which the scheduler prepares the windows of a plan. -/
def dispatch_spec (plan : ScenarioExecutionPlan) (startup_burst : Nat)
    (worker_max_retries : UInt32) : DispatchSpec where
  scenario_id := plan.scenario.name
  contract_version := CURRENT_CONTRACT_VERSION
  total_slices := plan.scenario.slices
  repeat_policy := plan.scenario.config.repeat_policy
  plan_fingerprint :=
    execution_plan_fingerprint plan plan.scenario.slices startup_burst worker_max_retries

/-- The job of `scheduler_loop` for a slice of the window. -/
def scheduled_job (plan : ScenarioExecutionPlan) (startup_burst : Nat) (worker_max_retries : UInt32)
    (window : DispatchWindow) (slice_index : UInt32) : Option ScenarioJob :=
  (window.execution_key slice_index).map fun execution_key =>
    { schema_version := window.contract_version
      scenario_id := plan.scenario.name
      run_id := window.run_id
      execution_key
      plan_fingerprint := window.plan_fingerprint
      scheduled_at_unix_ms := window.scheduled_at_unix_ms
      not_before_unix_ms := 0
      slice := ⟨slice_index, window.total_slices⟩
      load := slice_load plan.scenario window.total_slices slice_index startup_burst
      attempt := 0
      max_retries := worker_max_retries }

/-! ## The identities of a job -/

section identities

variable {i : String} {now : Nat}

/-- The identity of a window is not longer than the longest one. -/
theorem len_window_id {time n : Nat} (htime : time < 10 ^ 17) (hn : n ≤ MAX_AUTO_SLICES) :
    len (window_id CURRENT_CONTRACT_VERSION i (lua.tostring time) n) ≤ len (worst_window i) := by
  have hversion : toString CURRENT_CONTRACT_VERSION.toNat = toString CURRENT_CONTRACT_VERSION := rfl
  have hrender := lua.len_render_le htime
  have hslices : len (toString n) ≤ 3 := by
    apply len_toString_le (by decide)
    unfold MAX_AUTO_SLICES at hn
    omega
  have hworst : len (toString (2 ^ 128 - 1)) = 39 := by decide +kernel
  have hmax : len (toString MAX_AUTO_SLICES) = 3 := by decide +kernel
  unfold window_id worst_window
  rw [hversion]
  simp only [len_append]
  omega

theorem len_slice_key {window_id : String} {index n : Nat} (hindex : index < n)
    (hn : n ≤ MAX_AUTO_SLICES) (h : len window_id ≤ len (worst_window i)) :
    len (slice_key window_id index n) ≤ len (worst_execution i) := by
  unfold MAX_AUTO_SLICES at hn
  have hfirst : len (toString index) ≤ 3 := len_toString_le (by decide) (by omega)
  have hslices : len (toString n) ≤ 3 := len_toString_le (by decide) (by omega)
  have hlast : len (toString (MAX_AUTO_SLICES - 1)) = 3 := by decide +kernel
  have hmax : len (toString MAX_AUTO_SLICES) = 3 := by decide +kernel
  unfold slice_key worst_execution
  simp only [len_append]
  omega

theorem fingerprint_identity (plan : ScenarioExecutionPlan) (slices : UInt32) (burst : Nat)
    (retries : UInt32) :
    ScenarioJob.IsIdentity (execution_plan_fingerprint plan slices burst retries) := by
  unfold execution_plan_fingerprint scenario_plan_fingerprint
  dsimp only
  generalize fnv1a_128 _ = hash
  constructor
  · exact not_blank (c := 'f') (by simp) (by decide)
  · have hname : len "fnv128:" = 7 := by decide
    rw [len_append, len_hex, hname]
    decide

end identities

/-! ## The checks of a scheduled job -/

section scheduled

variable {parsers : Parsers} {formats : Formats} {config : AppConfig} {plan : ScenarioExecutionPlan}
  {w : World} {lease : LeaderLease} {window : DispatchWindow} {index : UInt32} {job : ScenarioJob}
  {burst : Nat} {retries : UInt32}

/-- A window that a scheduler gets: its identity is one of the scenario, and each missing slice is
one of its slices. -/
structure Prepared (plan : ScenarioExecutionPlan) (burst : Nat) (retries : UInt32)
    (window : DispatchWindow) : Prop where
  identity : ∃ time < 10 ^ 17, window.run_id = window_id CURRENT_CONTRACT_VERSION plan.scenario.name
    (lua.tostring time) plan.scenario.slices.toNat
  window_id : window.window_id = window.run_id
  contract_version : window.contract_version = CURRENT_CONTRACT_VERSION
  total_slices : window.total_slices = plan.scenario.slices
  plan_fingerprint : window.plan_fingerprint =
    execution_plan_fingerprint plan plan.scenario.slices burst retries
  missing : ∀ index ∈ window.missing_slices, index < plan.scenario.slices

theorem prepared_of_ready (hw : w.recorded) (hnow : w.now < lua.MAX_EXACT)
    (h : (prepare_window w.now w.keys (dispatch_spec plan burst retries) lease
      (w.schedules plan.scenario.name)).1 = .ok (.Ready window)) :
    Prepared plan burst retries window := by
  have hs : Recorded (dispatch_spec plan burst retries).scenario_id w.now
      (w.schedules plan.scenario.name) := hw plan.scenario.name
  obtain ⟨active, hready⟩ := prepare_ready hs h
  have hnew : Recorded plan.scenario.name w.now (prepare_window w.now w.keys
      (dispatch_spec plan burst retries) lease (w.schedules plan.scenario.name)).2 := by
    have hstep : (w.step (.prepare_window (dispatch_spec plan burst retries) lease)).recorded :=
      step_recorded hw
    have hscenario := hstep plan.scenario.name
    simpa [World.step, World.schedules_set, World.set, dispatch_spec] using hscenario
  obtain ⟨time, htime, htext, -, hid⟩ := hnew.window active hready.active
  obtain ⟨hversion, htotal, hfingerprint⟩ := hready.of_spec
  refine ⟨⟨time, ?_, ?_⟩, ?_, hversion, htotal, hfingerprint, ?_⟩
  · unfold lua.MAX_EXACT at hnow
    omega
  · rw [hready.run_id, hid, htext, ← hready.contract_version, hversion,
      ← hready.total_slices, htotal]
    rfl
  · rw [hready.window_id, hready.run_id]
  · intro index hindex
    have hmem : index.toNat ∈ window.missing_slices.map (·.toNat) := List.mem_map_of_mem hindex
    rw [hready.missing, mem_missing, ← hready.total_slices, htotal] at hmem
    exact UInt32.lt_iff_toNat_lt.mpr hmem.1

theorem scheduled_job_some (hp : Prepared plan burst retries window)
    (hindex : index < plan.scenario.slices) :
    scheduled_job plan burst retries window index = some
      { schema_version := CURRENT_CONTRACT_VERSION
        scenario_id := plan.scenario.name
        run_id := window.run_id
        execution_key := slice_key window.run_id index.toNat plan.scenario.slices.toNat
        plan_fingerprint := execution_plan_fingerprint plan plan.scenario.slices burst retries
        scheduled_at_unix_ms := window.scheduled_at_unix_ms
        not_before_unix_ms := 0
        slice := ⟨index, plan.scenario.slices⟩
        load := slice_load plan.scenario plan.scenario.slices index burst
        attempt := 0
        max_retries := retries } := by
  unfold scheduled_job DispatchWindow.execution_key
  rw [hp.total_slices, if_pos hindex, hp.window_id, hp.contract_version, hp.plan_fingerprint]
  rfl

/-- A worker with the same plan sees no difference. -/
theorem plan_error_none {plans : String → Option ScenarioExecutionPlan}
    (hplan : plans plan.scenario.name = some plan) (hp : Prepared plan burst retries window)
    (hindex : index < plan.scenario.slices)
    (hjob : scheduled_job plan burst retries window index = some job) :
    deterministic_job_plan_error formats job plans burst retries = none := by
  rw [scheduled_job_some hp hindex] at hjob
  cases hjob
  unfold deterministic_job_plan_error
  dsimp only
  rw [if_neg (UInt32.lt_irrefl _), if_neg (by decide), hplan]
  simp

/-- The identities of a scheduled job are accepted. -/
theorem scheduled_identities (haccepted : Accepted config plan.scenario)
    (hp : Prepared plan burst retries window) (hindex : index < plan.scenario.slices) :
    ScenarioJob.IsIdentity plan.scenario.name ∧ ScenarioJob.IsIdentity window.run_id ∧
      ScenarioJob.IsIdentity (slice_key window.run_id index.toNat plan.scenario.slices.toNat) := by
  obtain ⟨rate, hvalue, hrate⟩ := haccepted.rate
  have hauto := (slice_bounds hvalue hrate haccepted.concurrency.1).auto
  obtain ⟨time, htime, hrun⟩ := hp.identity
  have hwindow : len window.run_id ≤ len (worst_window plan.scenario.name) := by
    rw [hrun]
    exact len_window_id htime hauto
  have hkey := len_slice_key (UInt32.lt_iff_toNat_lt.mp hindex) hauto hwindow
  have hworst : len (worst_window plan.scenario.name) ≤
    len (worst_execution plan.scenario.name) := by
    unfold worst_execution
    simp only [len_append]
    omega
  have hexecution := haccepted.execution_key
  have hv : 'v' ∈ window.run_id.toList := by
    rw [hrun]
    simp [window_id]
  refine ⟨⟨haccepted.name.1, ?_⟩, ⟨not_blank hv (by decide), by omega⟩, ⟨?_, by omega⟩⟩
  · exact haccepted.name.2.trans (by decide)
  · apply not_blank (c := 'v') _ (by decide)
    unfold slice_key
    simp [hv]

theorem scheduled_job_valid (hlimits : Limits config) (haccepted : Accepted config plan.scenario)
    (hduration : 0 < plan.scenario.config.duration)
    (hretries : retries = UInt32.ofNat config.worker_max_retries)
    (hp : Prepared plan config.startup_burst retries window) (hindex : index < plan.scenario.slices)
    (hjob : scheduled_job plan config.startup_burst retries window index = some job) :
    job.Valid := by
  obtain ⟨rate, hvalue, hrate⟩ := haccepted.rate
  have hauto := (slice_bounds hvalue hrate haccepted.concurrency.1).auto
  obtain ⟨hscenario, hrun, hkey⟩ := scheduled_identities haccepted hp hindex
  have hfingerprint := fingerprint_identity plan plan.scenario.slices config.startup_burst retries
  have hslices : plan.scenario.slices ≤ MAX_CONTRACT_SLICES := by
    rw [UInt32.le_iff_toNat_le]
    exact hauto.trans (by decide)
  have hattempts : retries ≤ MAX_CONTRACT_ATTEMPT := hretries ▸ hlimits.attempts
  rw [scheduled_job_some hp hindex] at hjob
  cases hjob
  exact
    { schema_version := ⟨(by decide : 1 ≤ CURRENT_CONTRACT_VERSION), UInt16.le_refl 2⟩
      scenario_id := hscenario
      run_id := hrun
      execution_key := hkey
      plan_fingerprint := ⟨hfingerprint.2, fun _ => hfingerprint.1⟩
      slice := ⟨hslices, hindex⟩
      load := (slice_load_valid hlimits haccepted hduration index).1
      attempt := ⟨UInt32.zero_le, hattempts⟩
      not_before := fun _ hzero => absurd hzero (UInt32.lt_irrefl 0) }

/-- The checks of a worker on a job that it has read. -/
def Passes (formats : Formats) (config : AppConfig) (plan : ScenarioExecutionPlan)
    (job : ScenarioJob) : Prop :=
  job.validate_limits formats config.max_duration config.max_scenarios_per_sec
      config.max_concurrency = .ok () ∧
    ∀ plans : String → Option ScenarioExecutionPlan, plans plan.scenario.name = some plan →
      deterministic_job_plan_error formats job plans config.startup_burst
        (UInt32.ofNat config.worker_max_retries) = none

theorem scheduled_job_passes (hlimits : Limits config) (haccepted : Accepted config plan.scenario)
    (hp : Prepared plan config.startup_burst (UInt32.ofNat config.worker_max_retries) window)
    (hindex : index < plan.scenario.slices)
    (hjob : scheduled_job plan config.startup_burst (UInt32.ofNat config.worker_max_retries) window
      index = some job) (hvalid : job.Valid) : Passes formats config plan job := by
  refine ⟨?_, fun plans hplan => plan_error_none hplan hp hindex hjob⟩
  rw [scheduled_job_some hp hindex] at hjob
  cases hjob
  apply ScenarioJob.validate_limits_ok hvalid haccepted.duration
  · exact (slice_load_valid hlimits haccepted (Nat.pos_of_ne_zero hvalid.load.duration) index).2
  · refine le_trans (share_le _ ?_) haccepted.concurrency.2
    exact lt_max_of_lt_right Nat.one_pos

/-- The slices share the load of the scenario. A job of the scheduler passes the checks of a worker
with the same plan and the same configuration exactly when the window has a length and the rate of a
slice is read back from its text. -/
theorem scheduled_jobs_match_iff_rates_are_read_back {scenarios : List Scenario} (codec : JobCodec)
    (hconfig : config.validate parsers = .ok ())
    (hscenarios : validate_scenario_limits parsers formats config scenarios = .ok ())
    (hmem : plan.scenario ∈ scenarios) :
    (1 ≤ plan.scenario.slices.toNat ∧
      plan.scenario.slices.toNat ≤ min MAX_AUTO_SLICES plan.scenario.config.max_concurrency) ∧
    (((planned_slice_loads plan.scenario config.startup_burst).map (·.max_concurrency)).sum =
        plan.scenario.config.max_concurrency ∧
      ((planned_slice_loads plan.scenario config.startup_burst).map (·.startup_burst)).sum =
        config.startup_burst) ∧
    (∀ load ∈ planned_slice_loads plan.scenario config.startup_burst,
      1 ≤ load.max_concurrency ∧ load.startup_burst ≤ load.max_concurrency) ∧
    ∀ w : World, Reachable (dispatchSystem lua.MAX_EXACT fun _ _ => True) w →
      ∀ lease window, (prepare_window w.now w.keys
        (dispatch_spec plan config.startup_burst (UInt32.ofNat config.worker_max_retries)) lease
        (w.schedules plan.scenario.name)).1 = .ok (.Ready window) →
      ∀ index ∈ window.missing_slices, ∃ job,
        scheduled_job plan config.startup_burst (UInt32.ofNat config.worker_max_retries) window
          index = some job ∧
        (codec.Reads job →
          let share := plan.scenario.config.scenarios_per_sec.div plan.scenario.slices.toNat
          ((∃ read, codec.received job = .ok read ∧ Passes formats config plan read) ↔
            0 < plan.scenario.config.duration ∧ read_rate codec.digits share = some share)) := by
  have hlimits := limits_of_validate hconfig
  have haccepted := accepted_of_validate hscenarios hmem
  obtain ⟨rate, hvalue, hrate⟩ := haccepted.rate
  have hbounds := slice_bounds hvalue hrate haccepted.concurrency.1
  refine ⟨⟨hbounds.positive, le_min hbounds.auto hbounds.concurrency⟩, ⟨?_, ?_⟩, ?_, ?_⟩
  · exact sum_planned_slice_loads _ hbounds.positive fun _ => rfl
  · exact sum_planned_slice_loads _ hbounds.positive fun _ => rfl
  · intro load hload
    obtain ⟨index, -, rfl⟩ := List.mem_map.mp hload
    exact slice_shares haccepted (UInt32.ofNat index)
  · intro w hw lease window hready index hindex
    obtain ⟨hrecorded, hnow⟩ := reachable_recorded hw
    have hp := prepared_of_ready hrecorded hnow hready
    have hslice := hp.missing index hindex
    have hjob := scheduled_job_some hp hslice
    refine ⟨_, hjob, fun hreads => ?_⟩
    dsimp only
    rw [JobCodec.received_with_load_iff hreads]
    · refine and_congr ⟨fun hvalid => Nat.pos_of_ne_zero hvalid.load.duration, fun hduration =>
        scheduled_job_valid hlimits haccepted hduration rfl hp hslice hjob⟩ ?_
      rw [slice_load, Nat.max_eq_left hbounds.positive]
    · rintro rate ⟨-, hplan⟩
      have hload := load_of_plan_error_none (by decide : ¬ CURRENT_CONTRACT_VERSION < 2) rfl
        (hplan (fun _ => some plan) rfl)
      exact congrArg JobLoadConfig.scenarios_per_sec hload
    · exact scheduled_job_passes hlimits haccepted hp hslice hjob

end scheduled

/-! ## Two scenarios -/

/-- Fifty scenarios at once, in a window of `duration`. -/
def ratedScenario (scenarios_per_sec : Double) (duration : Nat) : Scenario where
  name := "checkout"
  steps := [⟨"step", "step", none⟩]
  config :=
    { endpoint := "http://127.0.0.1:8080"
      scenarios_per_sec
      max_concurrency := 50
      duration
      repeat_policy := .Every 60000000000
      partition_key_strategy := .ExecutionKey }

/-- Twenty starts a second. -/
def sampleScenario (duration : Nat) : Scenario := ratedScenario (.whole 20 (by decide)) duration

def samplePlan (duration : Nat) : ScenarioExecutionPlan := ⟨sampleScenario duration, ""⟩

def sampleFormats : Formats := ⟨fun _ => "", fun _ => "", fun _ => ""⟩

def sampleLease : LeaderLease := ⟨"pulse:leader", "node-1", "node-1:a", 1, 5000, 5000000000⟩

/-- The lock of the leader. -/
def heldKeys : LeaderKeys := ⟨some ⟨⟨"node-1:a", "node-1", lua.tostring 1⟩, some 5000⟩, 1⟩

/-- The first window of a plan with this hash. -/
def firstWindow (slices : Nat) (hash : String) : DispatchWindow :=
  let id := window_id 2 "checkout" (lua.tostring 0) slices
  ⟨⟨"checkout", id, 0, 2, UInt32.ofNat slices⟩, id, "fnv128:" ++ hash,
    (List.range slices).map UInt32.ofNat⟩

def sampleWindow : DispatchWindow := firstWindow 2 "ba77605fe0fad1599fbbe61abca18d66"

theorem a_slice_of_ten_starts_a_second_is_accepted : ∃ job read,
    scheduled_job (samplePlan 30000000000) 0 2 sampleWindow 0 = some job ∧
      (codecOf [job]).received job = .ok read ∧
      Passes sampleFormats (.defaults "node-1") (samplePlan 30000000000) read := by
  have hlimits : validate_scenario_limits AppConfig.defaultParsers sampleFormats
      (.defaults "node-1") [(samplePlan 30000000000).scenario] = .ok () := by
    decide +kernel
  have hready : (prepare_window 0 heldKeys (dispatch_spec (samplePlan 30000000000) 0 2) sampleLease
      .empty).1 = .ok (.Ready sampleWindow) := by
    decide +kernel
  obtain ⟨sent, hsent⟩ := Option.isSome_iff_exists.mp (by decide +kernel : (scheduled_job
    (samplePlan 30000000000) 0 2 sampleWindow 0).isSome = true)
  obtain ⟨job, hjob, hiff⟩ := (scheduled_jobs_match_iff_rates_are_read_back (codecOf [sent])
    AppConfig.validate_defaults hlimits List.mem_cons_self).2.2.2 _
      (.initial ⟨0, by decide, heldKeys, rfl⟩) sampleLease _ hready 0 (by decide +kernel)
  cases hsent.symm.trans hjob
  have hshare : ((samplePlan 30000000000).scenario.config.scenarios_per_sec.div
      (samplePlan 30000000000).scenario.slices.toNat) = .whole 10 (by decide) := by
    decide +kernel
  have hrate : read_rate floats.Decimal.shortest (.whole 10 (by decide)) =
      some (.whole 10 (by decide)) := by
    decide +kernel
  obtain ⟨read, hread, hpasses⟩ := (hiff (codecOf_reads (List.nodup_singleton _)
    (List.mem_singleton_self _))).mpr ⟨by decide, hshare ▸ hrate⟩
  exact ⟨sent, read, hsent, hread, hpasses⟩

/-- A rate whose thirteenth has sixteen digits. -/
def unevenPlan : ScenarioExecutionPlan := ⟨ratedScenario (.whole 125 (by decide)) 30000000000, ""⟩

def unevenWindow : DispatchWindow := firstWindow 13 "c90d2feda10eb16fc65763a0a5d2bc50"

def unevenJob : ScenarioJob where
  schema_version := 2
  scenario_id := "checkout"
  run_id := "v2:s8:checkout:w0:n13"
  execution_key := "v2:s8:checkout:w0:n13:slice-0-of-13"
  plan_fingerprint := "fnv128:c90d2feda10eb16fc65763a0a5d2bc50"
  scheduled_at_unix_ms := 0
  not_before_unix_ms := 0
  slice := ⟨0, 13⟩
  load := slice_load unevenPlan.scenario 13 0 0
  attempt := 0
  max_retries := 2

/-- The rate of a slice is read as the next double, and the worker finds another load than the one
of its plan. -/
theorem a_thirteenth_of_a_rate_is_read_as_another_rate :
    (AppConfig.defaults "node-1").validate AppConfig.defaultParsers = .ok () ∧
      validate_scenario_limits AppConfig.defaultParsers sampleFormats (.defaults "node-1")
        [unevenPlan.scenario] = .ok () ∧
      unevenPlan.scenario.slices = 13 ∧
      (prepare_window 0 heldKeys (dispatch_spec unevenPlan 0 2) sampleLease .empty).1 =
        .ok (.Ready unevenWindow) ∧
      scheduled_job unevenPlan 0 2 unevenWindow 0 = some unevenJob ∧
      (codecOf [unevenJob]).Reads unevenJob ∧
      ∃ read, (codecOf [unevenJob]).received unevenJob = .ok read ∧
        deterministic_job_plan_error sampleFormats read (fun _ => some unevenPlan) 0 2 =
          some (plan_mismatch sampleFormats unevenJob.load read.load) := by
  have hreads : (codecOf [unevenJob]).Reads unevenJob :=
    codecOf_reads (List.nodup_singleton _) (List.mem_singleton_self _)
  have hread : ∃ read, (codecOf [unevenJob]).received unevenJob = .ok read ∧
      deterministic_job_plan_error sampleFormats read (fun _ => some unevenPlan) 0 2 =
        some (plan_mismatch sampleFormats unevenJob.load read.load) := by
    obtain ⟨read, hsome⟩ := Option.isSome_iff_exists.mp
      (by decide +kernel : (reread floats.Decimal.shortest unevenJob).isSome = true)
    have hall : ∀ read ∈ reread floats.Decimal.shortest unevenJob,
        unevenJob.validate = .ok () ∧ read.validate = .ok () ∧
          deterministic_job_plan_error sampleFormats read (fun _ => some unevenPlan) 0 2 =
            some (plan_mismatch sampleFormats unevenJob.load read.load) := by
      decide +kernel
    obtain ⟨hvalid, hvalidread, herror⟩ := hall read hsome
    exact ⟨read, (JobCodec.received_eq_ok hreads).mpr ⟨ScenarioJob.validate_iff.mp hvalid, hsome,
      ScenarioJob.validate_iff.mp hvalidread⟩, herror⟩
  exact ⟨AppConfig.validate_defaults, by decide +kernel, by decide +kernel, by decide +kernel,
    by decide +kernel, hreads, hread⟩

end pulse.planning
