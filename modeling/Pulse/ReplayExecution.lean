-- A replayed job goes through the checks of the workers. The replay builds the
-- load, the fingerprint and the identities with its own code, and a worker with
-- the same plans and configuration that reads the rate as it is finds them all
-- as it expects.
import Pulse.IdentityBudget
import Pulse.Identities
import Pulse.ReplayRecords
import Pulse.RetryChain
import Pulse.ZeroStarts

open checks strings
open pulse.config pulse.contracts pulse.planning pulse.service

namespace base64

/-! ## The length of a text -/

theorem length_groups (bytes : List UInt8) : 3 * (groups bytes).length ≤ 4 * bytes.length + 2 := by
  induction bytes using groups.induct with
  | case1 a b c rest ih =>
    simp only [groups, List.length_cons]
    omega
  | case2 a b => simp [groups]
  | case3 a => simp [groups]
  | case4 => simp [groups]

theorem alphabet_ascii : ∀ c ∈ ALPHABET, c.toNat < 128 := by
  have hall : (ALPHABET.all fun c => c.toNat < 128) = true := by decide
  simpa using hall

theorem len_encode (bytes : List UInt8) : 3 * len (encode bytes) ≤ 4 * bytes.length + 2 := by
  have hascii : ∀ c ∈ (groups bytes).map symbol, c.toNat < 128 := by
    intro c hc
    obtain ⟨group, hgroup, rfl⟩ := List.mem_map.mp hc
    exact alphabet_ascii _ (symbol_mem group (groups_lt hgroup))
  unfold encode
  rw [len_ascii hascii, List.length_map]
  exact length_groups bytes

end base64

namespace pulse.replay

open ScenarioJob pulse.kafka

/-! ## The identities of a replay -/

/-- A topic has at most 249 bytes, so the text of it at most 332. -/
theorem len_replay_run_id (source : ReplaySource) (hash : Nat) :
    len (replay_run_id source hash) ≤ 410 := by
  have htopic := base64.len_encode source.topic.toUTF8.data.toList
  have hbytes : source.topic.toUTF8.data.toList.length = len source.topic := by simp [len]
  have hlen := source.topic_ok.2
  have hpartition : len (toString source.partition) ≤ 10 := by
    have hlt := source.partition.toInt_lt
    exact len_int_le (by decide) (identities.toInt_partition_nonneg source) (by omega)
  have hoffset : len (toString source.offset) ≤ 19 := by
    have hlt := source.offset.toInt_lt
    exact len_int_le (by decide) (identities.toInt_offset_nonneg source) (by omega)
  have hversion : len (toString CURRENT_CONTRACT_VERSION) = 1 := by decide
  have hlabels : len "v" = 1 ∧ len ":replay:t" = 9 ∧ len ":p" = 2 ∧ len ":o" = 2 ∧
    len ":e" = 2 := by
    decide
  unfold replay_run_id
  simp only [len_append, len_hex]
  omega

theorem v_mem_replay_run_id (source : ReplaySource) (hash : Nat) :
    'v' ∈ (replay_run_id source hash).toList := by
  simp [replay_run_id]

/-- The key of a replay has room for every event. -/
theorem replay_event_id_fits (source : ReplaySource) (hash : Nat) {attempt : UInt32}
    (hattempt : attempt ≤ MAX_CONTRACT_ATTEMPT) :
    IsIdentity (replay_run_id source hash ++ ":slice-0-of-1") ∧
    IsIdentity (build_terminal_event_id (replay_run_id source hash ++ ":slice-0-of-1") attempt
      "result") ∧
    IsIdentity (build_terminal_event_id (replay_run_id source hash ++ ":slice-0-of-1") attempt
      "dlq") := by
  set key := replay_run_id source hash ++ ":slice-0-of-1" with hkey
  have hlen : len key ≤ 423 := by
    have hrun := len_replay_run_id source hash
    have hsuffix : len ":slice-0-of-1" = 13 := by decide
    rw [hkey, len_append]
    omega
  have hblank : is_blank key = false := by
    apply not_blank (c := 'v') _ (by decide)
    simp [hkey, v_mem_replay_run_id]
  have hdigits : len (toString attempt) ≤ 2 := by
    have hle : attempt.toNat ≤ 32 := UInt32.le_iff_toNat_le.mp hattempt
    exact len_toString_le (by decide) (show attempt.toNat < 10 ^ 2 by omega)
  have hlabels : len ":attempt-" = 9 ∧ len ":" = 1 ∧ len "result" = 6 ∧ len "dlq" = 3 := by decide
  refine ⟨⟨hblank, hlen.trans (by decide)⟩, ⟨is_blank_terminal_event_id hblank _ _, ?_⟩,
    ⟨is_blank_terminal_event_id hblank _ _, ?_⟩⟩
  all_goals
    unfold build_terminal_event_id MAX_CONTRACT_ID_BYTES
    simp only [len_append]
    omega

/-! ## The load of a replay -/

/-- A double is its own share when it is not split. -/
theorem one_share (x : Double) : x.div 1 = x := by
  have hdiv : x.value.div 1 = x.value := by
    obtain ⟨value, hexact⟩ := x
    cases value with
    | finite x =>
      obtain ⟨hround, hlt⟩ := hexact x rfl
      rw [F64.div, F64.of_exact, Nat.cast_one, div_one, hround, if_neg (not_le.mpr hlt)]
    | infinite negative => rfl
    | nan => rfl
  exact (Double.mk.injEq _ _ _ _).mpr hdiv

/-- The load of a replay is the load of the only slice. -/
theorem one_slice_load (scenario : Scenario) (burst : Nat) :
    slice_load scenario 1 0 burst =
      ⟨scenario.config.scenarios_per_sec, scenario.config.duration, scenario.config.max_concurrency,
        burst⟩ := by
  have hone : max (UInt32.toNat 1) 1 = 1 := rfl
  unfold slice_load slice_startup_burst
  rw [hone, one_share]
  simp [shares.share, Nat.mod_one]

/-! ## The law -/

/-- A record that the reader takes for a failed job has its identities. -/
theorem valid_failed_of_decode {decode : String → Except String (List UInt8)} {serde : json.Serde}
    {payload : List UInt8} {failed : FailedScenarioJob}
    (h : decode_replay_record decode serde payload = .ok (.FailedJob failed)) :
    ValidFailed failed := by
  simp only [decode_replay_record, bind_eq_ok] at h
  obtain ⟨value, -, h⟩ := h
  cases value with
  | Object members =>
    simp only [decode_members] at h
    split at h
    · simp only [decode_failed_job, bind_eq_ok] at h
      obtain ⟨_, -, parsed, -, _, hvalid, hsame⟩ := h
      cases hsame
      exact validate_failed_job_iff.mp hvalid
    · simp only [decode_poison, bind_eq_ok] at h
      obtain ⟨_, -, _, -, _, -, hsame⟩ := h
      cases hsame
    · cases h
    · cases h
  | Null => cases h
  | Bool _ => cases h
  | Number _ => cases h
  | String _ => cases h
  | Array _ => cases h

section replay

variable {failed : FailedScenarioJob} {parsers : Parsers} {formats : Formats} {config : AppConfig}
  {scenarios : List Scenario} {scenario : Scenario} {options : ReplayOptions}

/-- The identities always have room, so only the scale and the burst can stop a replay. -/
theorem build_replay_job_eq (failed : FailedScenarioJob) (source : ReplaySource) {burst : Nat}
    (hscale : options.scale = .finite 1) (hburst : burst ≤ scenario.config.max_concurrency) :
    build_replay_job failed source scenario burst options =
      .ok (replayed_job failed source scenario burst options) := by
  have hrun := len_replay_run_id source
    (fnv1a_128 (failed_event_identity failed).toUTF8.data.toList)
  obtain ⟨hkey, -, -⟩ := replay_event_id_fits source
    (fnv1a_128 (failed_event_identity failed).toUTF8.data.toList) (UInt32.zero_le)
  simp only [build_replay_job, seq_eq_ok, rejectIf_eq_ok, forM_eq_ok, List.forall_mem_cons,
    not_not, Nat.not_lt]
  exact ⟨hscale, hburst, ⟨hrun.trans (by decide), hkey.2, fun _ h => (by cases h)⟩, rfl⟩

theorem replayed_job_valid (options : ReplayOptions) (source : ReplaySource)
    (hfailed : ValidFailed failed)
    (haccepted : Accepted config scenario) (hduration : 0 < scenario.config.duration)
    (hretries : options.worker_max_retries ≤ MAX_CONTRACT_ATTEMPT) :
    (replayed_job failed source scenario config.startup_burst options).Valid := by
  set hash := fnv1a_128 (failed_event_identity failed).toUTF8.data.toList
  have hfingerprint := fingerprint_identity ⟨scenario, options.execution_semantics_fingerprint⟩ 1
    config.startup_burst options.worker_max_retries
  have hrun : IsIdentity (replay_run_id source hash) :=
    ⟨not_blank (v_mem_replay_run_id source hash) (by decide),
      (len_replay_run_id source hash).trans (by decide)⟩
  have hconcurrency := haccepted.concurrency.1.ne'
  exact
    { schema_version := ⟨(by decide : 1 ≤ CURRENT_CONTRACT_VERSION), UInt16.le_refl 2⟩
      scenario_id := hfailed.scenario_id
      run_id := hrun
      execution_key := (replay_event_id_fits source hash UInt32.zero_le).1
      plan_fingerprint := ⟨hfingerprint.2, fun _ => hfingerprint.1⟩
      slice := (by decide : (1 : UInt32) ≤ MAX_CONTRACT_SLICES ∧ (0 : UInt32) < 1)
      load := ⟨haccepted.rate, hduration.ne', hconcurrency, haccepted.burst⟩
      attempt := ⟨UInt32.zero_le, hretries⟩
      not_before := fun _ hzero => absurd hzero (UInt32.lt_irrefl 0) }

/-- A worker with the plan of the scenario finds no difference. -/
theorem replayed_plan_error_none {plans : Plans} {plan : ScenarioExecutionPlan}
    (source : ReplaySource) (hplan : plans failed.scenario_id = some plan)
    (hsemantics : plan.execution_semantics_fingerprint = options.execution_semantics_fingerprint)
    (formats : Formats) (burst : Nat) :
    deterministic_job_plan_error formats
      (replayed_job failed source plan.scenario burst options) plans burst
      options.worker_max_retries = none := by
  have hload := one_slice_load plan.scenario burst
  unfold deterministic_job_plan_error replayed_job
  dsimp only
  rw [if_neg (UInt32.lt_irrefl _), if_neg (by decide), hplan]
  simp [hload, execution_plan_fingerprint, hsemantics]

/-- A failed job of a configured scenario is replayed by one job, whose events have room for their
identities. Every worker with the same plans and configuration accepts it at any time exactly when
the window has a length and the rate is read back from its text. -/
theorem replays_are_executable_iff_rates_are_read_back
    {decode : String → Except String (List UInt8)} {serde : json.Serde}
    {payload : List UInt8} {plans : Plans} {plan : ScenarioExecutionPlan} (codec : JobCodec)
    (hfailed : decode_replay_record decode serde payload = .ok (.FailedJob failed))
    (source : ReplaySource) (hconfig : config.validate parsers = .ok ())
    (hscenarios : validate_scenario_limits parsers formats config scenarios = .ok ())
    (hmem : plan.scenario ∈ scenarios) (hscale : options.scale = .finite 1)
    (hretries : options.worker_max_retries = UInt32.ofNat config.worker_max_retries)
    (hplan : plans failed.scenario_id = some plan)
    (hsemantics : plan.execution_semantics_fingerprint = options.execution_semantics_fingerprint) :
    ∃ job, build_replay_job failed source plan.scenario config.startup_burst options = .ok job ∧
      (∀ attempt ≤ job.max_retries,
        IsIdentity (build_terminal_event_id job.execution_key attempt "result") ∧
          IsIdentity (build_terminal_event_id job.execution_key attempt "dlq")) ∧
      (∀ again, build_replay_job failed source plan.scenario config.startup_burst options =
        .ok again → again = job) ∧
      (codec.Reads job →
        ((∃ read, codec.received job = .ok read ∧
            ∀ now, pre_claim_checks formats (node_runtime_config config) plans read now = .ok ()) ↔
          0 < plan.scenario.config.duration ∧
            read_rate codec.digits plan.scenario.config.scenarios_per_sec =
              some plan.scenario.config.scenarios_per_sec)) := by
  have hlimits := limits_of_validate hconfig
  have haccepted := accepted_of_validate hscenarios hmem
  have hattempts : options.worker_max_retries ≤ MAX_CONTRACT_ATTEMPT := hretries ▸ hlimits.attempts
  have hbuild := build_replay_job_eq failed source hscale haccepted.burst
  refine ⟨_, hbuild, ?_, ?_, fun hreads => ?_⟩
  · intro attempt hattempt
    exact (replay_event_id_fits source _ (UInt32.le_trans hattempt hattempts)).2
  · intro again hagain
    rw [hbuild] at hagain
    exact (Except.ok.inj hagain).symm
  rw [JobCodec.received_with_load_iff hreads]
  · exact and_congr_left fun _ => ⟨fun hvalid => Nat.pos_of_ne_zero hvalid.load.duration,
      fun hduration => replayed_job_valid options source (valid_failed_of_decode hfailed)
        haccepted hduration hattempts⟩
  · intro rate hpasses
    have hnone := (pre_claim_checks_eq_ok.mp (hpasses 0)).2.1
    have hload := load_of_plan_error_none (by decide : ¬ CURRENT_CONTRACT_VERSION < 2) hplan hnone
    exact congrArg JobLoadConfig.scenarios_per_sec
      (hload.trans (one_slice_load plan.scenario config.startup_burst))
  · intro hvalid now
    refine pre_claim_checks_eq_ok.mpr ⟨?_, ?_, ?_, ?_⟩
    · exact ScenarioJob.validate_limits_ok hvalid haccepted.duration haccepted.max_rate
        haccepted.concurrency.2
    · have hnone := replayed_plan_error_none source hplan hsemantics formats config.startup_burst
      rwa [hretries] at hnone
    · simp [deferred_job_delay, replayed_job, durations.Duration.from_millis]
    · rintro ⟨hburst, hless⟩
      exact starts_of_validate hscenarios hmem hburst hless

end replay

/-! ## Two replays -/

def checkoutFailed : FailedScenarioJob :=
  failed_job { keyedJob "k" with scenario_id := "checkout" } "boom" 7

def sampleOptions : ReplayOptions := ⟨.finite 1, 2, ""⟩

def sampleSource : ReplaySource := ⟨"dlq", 0, 3, by decide, by decide, by decide⟩

theorem checkout_is_decoded :
    decode_replay_record (fun _ => .ok [0]) (json.serdeOf [.Object checkoutFailed.to_members])
        (json.printed (.Object checkoutFailed.to_members)).toUTF8.data.toList =
      .ok (.FailedJob checkoutFailed) := by
  have hvalid : ValidFailed checkoutFailed := validate_failed_job_iff.mp (by decide +kernel)
  exact (decode_replay_record_text (json.serdeOf_roundTrips _)).trans
    (decode_members_failed hvalid (by decide))

/-- The replay of the failed job with this rate, and its codec. -/
def checkoutJob (plan : ScenarioExecutionPlan) : ScenarioJob :=
  replayed_job checkoutFailed sampleSource plan.scenario 0 sampleOptions

theorem checkout_is_replayed : ∃ read,
    (codecOf [checkoutJob (samplePlan 30000000000)]).received
        (checkoutJob (samplePlan 30000000000)) = .ok read ∧
      ∀ now, pre_claim_checks sampleFormats (node_runtime_config (.defaults "node-1"))
        (fun _ => some (samplePlan 30000000000)) read now = .ok () := by
  have hlimits : validate_scenario_limits AppConfig.defaultParsers sampleFormats
      (.defaults "node-1") [sampleScenario 30000000000] = .ok () := by
    decide +kernel
  have hrate : read_rate floats.Decimal.shortest (.whole 20 (by decide)) =
      some (.whole 20 (by decide)) := by
    decide +kernel
  have hscale : sampleOptions.scale = .finite 1 := rfl
  let plans : Plans := fun _ => some (samplePlan 30000000000)
  have hplan : plans checkoutFailed.scenario_id = some (samplePlan 30000000000) := rfl
  obtain ⟨job, hbuild, -, -, hiff⟩ := replays_are_executable_iff_rates_are_read_back
    (codecOf [checkoutJob (samplePlan 30000000000)]) checkout_is_decoded sampleSource
    AppConfig.validate_defaults hlimits List.mem_cons_self hscale rfl hplan rfl
  cases hbuild.symm.trans (build_replay_job_eq checkoutFailed sampleSource rfl (by decide))
  exact (hiff (codecOf_reads (List.nodup_singleton _) (List.mem_singleton_self _))).mpr
    ⟨by decide, hrate⟩

/-- A rate of sixteen digits. -/
def longRatePlan : ScenarioExecutionPlan := ⟨ratedScenario (.of (125 / 13)) 30000000000, ""⟩

/-- The replay is sent with the rate of its plan, and read with another one. -/
theorem a_replay_is_read_with_another_rate :
    (AppConfig.defaults "node-1").validate AppConfig.defaultParsers = .ok () ∧
      validate_scenario_limits AppConfig.defaultParsers sampleFormats (.defaults "node-1")
        [longRatePlan.scenario] = .ok () ∧
      build_replay_job checkoutFailed sampleSource longRatePlan.scenario 0 sampleOptions =
        .ok (checkoutJob longRatePlan) ∧
      (codecOf [checkoutJob longRatePlan]).Reads (checkoutJob longRatePlan) ∧
      ∃ read, (codecOf [checkoutJob longRatePlan]).received (checkoutJob longRatePlan) = .ok read ∧
        ∀ now, ¬ pre_claim_checks sampleFormats (node_runtime_config (.defaults "node-1"))
          (fun _ => some longRatePlan) read now = .ok () := by
  have hreads : (codecOf [checkoutJob longRatePlan]).Reads (checkoutJob longRatePlan) :=
    codecOf_reads (List.nodup_singleton _) (List.mem_singleton_self _)
  refine ⟨AppConfig.validate_defaults, by decide +kernel,
    build_replay_job_eq checkoutFailed sampleSource rfl (by decide), hreads, ?_⟩
  obtain ⟨read, hsome⟩ := Option.isSome_iff_exists.mp
    (by decide +kernel : (reread floats.Decimal.shortest (checkoutJob longRatePlan)).isSome = true)
  have hall : ∀ read ∈ reread floats.Decimal.shortest (checkoutJob longRatePlan),
      (checkoutJob longRatePlan).validate = .ok () ∧ read.validate = .ok () ∧
        read.load ≠ (checkoutJob longRatePlan).load := by
    decide +kernel
  obtain ⟨hvalid, hvalidread, hload⟩ := hall read hsome
  refine ⟨read, (JobCodec.received_eq_ok hreads).mpr ⟨ScenarioJob.validate_iff.mp hvalid, hsome,
    ScenarioJob.validate_iff.mp hvalidread⟩, fun now hpasses => hload ?_⟩
  obtain ⟨rate, -, rfl⟩ := Option.map_eq_some_iff.mp hsome
  exact (load_of_plan_error_none (by decide : ¬ CURRENT_CONTRACT_VERSION < 2) rfl
    (pre_claim_checks_eq_ok.mp hpasses).2.1).trans (one_slice_load _ 0)

end pulse.replay
