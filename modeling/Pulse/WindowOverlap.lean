-- The windows of a scenario in time. The checks of the scenarios compare the
-- interval with the duration of the load, but a window that comes late is
-- followed by the next one at its own time, or at once.
import Pulse.ScheduledJobs
import Pulse.WindowSequence

open durations Duration systems
open pulse.config pulse.contracts pulse.dispatch pulse.leader_lock

namespace pulse.planning

/-- No window is activated later than the interval leaves room for the load. -/
def Punctual (i : String) (interval duration : Nat) (h : History) (op : Op) : Prop :=
  ∀ spec lease, op = .prepare_window spec lease → spec.scenario_id = i →
    (h.world.schedules i).active = none →
    (h.world.schedules i).due_at h.world.now ≤ h.world.now →
    from_millis h.world.now + duration ≤
      from_millis
        ((h.world.schedules i).due_at h.world.now + as_millis interval)

/-- The load of a window ends before the time of the next one. -/
def Prompt (interval duration : Nat) (act : Activation) : Prop :=
  from_millis act.activated_at + duration ≤
    from_millis (lua.tonumber act.window.scheduled_at + as_millis interval)

section punctual

variable {i : String} {interval duration : Nat} {h : History}

theorem step_prompt {op : Op} (hs : Sequenced h)
    (hprompt : ∀ act ∈ h.windows i, Prompt interval duration act)
    (hpunctual : Punctual i interval duration h op) :
    ∀ act ∈ (h.act op).windows i, Prompt interval duration act := by
  cases act_cases h op i with
  | kept _ hwindows _ | acknowledged _ _ _ _ _ _ _ hwindows _
  | completed _ _ _ _ _ _ _ hwindows _ =>
    rw [hwindows]
    exact hprompt
  | @activated spec lease a hop hi hargs hidle hopen hdue hnew hwindows hcompleted =>
    rw [hwindows]
    intro act hact
    rcases List.mem_append.mp hact with hold | hlast
    · exact hprompt act hold
    · rw [List.mem_singleton] at hlast
      subst hlast
      have hnow := hs.now
      have hread : lua.tonumber (lua.tostring ((h.world.schedules i).due_at h.world.now)) =
          (h.world.schedules i).due_at h.world.now := lua.tonumber_tostring (by omega)
      unfold Prompt
      rw [activated, hread]
      exact hpunctual spec lease hop hi hidle hdue

theorem reachable_prompt
    (hreach : Reachable (sequenceSystem i (.Every interval) (Punctual i interval duration)) h) :
    ∀ act ∈ h.windows i, Prompt interval duration act := by
  have hboth : Sequenced h ∧ ∀ act ∈ h.windows i, Prompt interval duration act := by
    refine Reachable.invariant (I := fun h => Sequenced h ∧
      ∀ act ∈ h.windows i, Prompt interval duration act) ?_ ?_ hreach
    · rintro h ⟨now, hnow, keys, rfl⟩
      refine ⟨start_sequenced hnow keys, ?_⟩
      rintro act ⟨⟩
    · rintro h op ⟨hs, hprompt⟩ ⟨-, hnow, hpunctual⟩
      exact ⟨step_sequenced hs hnow, step_prompt hs hprompt hpunctual⟩
  exact hboth.2

/-- Windows that are activated in time are apart by the duration of the load. -/
theorem punctual_windows_do_not_overlap {scenario : Scenario}
    (hpolicy : scenario.config.repeat_policy = .Every interval)
    (hreach : Reachable (sequenceSystem scenario.name scenario.config.repeat_policy
      (Punctual scenario.name interval scenario.config.duration)) h) :
    ∀ (k : Nat) (act act' : Activation), (h.windows scenario.name)[k]? = some act →
      (h.windows scenario.name)[k + 1]? = some act' →
      from_millis act.activated_at + scenario.config.duration ≤
        from_millis act'.activated_at := by
  rw [hpolicy] at hreach
  intro k act act' hact hact'
  have hs := reachable_sequenced hreach
  have hnow := hs.now
  obtain ⟨first, hp⟩ := reachable_periodic hreach
  obtain ⟨hscheduled, htime⟩ := hp.windows k act hact
  obtain ⟨-, htime'⟩ := hp.windows (k + 1) act' hact'
  have hpast := (hs.dated _ act (List.mem_of_getElem? hact)).past
  have hprompt := reachable_prompt hreach act (List.mem_of_getElem? hact)
  unfold Prompt at hprompt
  rw [hscheduled, lua.tonumber_tostring (by omega)] at hprompt
  have hnext : first + k * as_millis interval + as_millis interval ≤
      act'.activated_at := by
    rw [Nat.add_mul, Nat.one_mul] at htime'
    omega
  exact hprompt.trans (Nat.mul_le_mul_right _ hnext)

end punctual

/-! ## Late windows -/

/-- A load of a minute, every minute. -/
def minuteScenario : Scenario where
  name := "checkout"
  steps := [⟨"step", "step", none⟩]
  config :=
    { endpoint := "http://127.0.0.1:8080"
      scenarios_per_sec := .whole 5 (by decide)
      max_concurrency := 5
      duration := 60000000000
      repeat_policy := .Every 60000000000
      partition_key_strategy := .ExecutionKey }

/-- A leader is there when each window is due. -/
def onTime : List Op :=
  [.acquire (sampleElector "node-1") "a", .prepare_window minuteSpec firstLease,
    .ack_slice (minuteWindow 0) 0 firstLease, .wait 60000, .acquire (sampleElector "node-2") "b",
    .prepare_window minuteSpec ⟨"pulse:leader", "node-2", "node-2:b", 2, 65000, 5000000000⟩]

def afterOnTime : History := onTime.foldl History.act (.start 0 ⟨none, 0⟩)

/-- Calls other than `prepare_window` activate nothing. -/
theorem punctual_of_ne {i : String} {policy : RepeatPolicy} {interval duration : Nat} {h : History}
    {op : Op} (hop : ∀ spec lease, op ≠ .prepare_window spec lease)
    (hnow : (h.act op).world.now < lua.FIRST_SCIENTIFIC) :
    (sequenceSystem i policy (Punctual i interval duration)).allowed h op :=
  ⟨fun spec lease heq => absurd heq (hop spec lease), hnow,
    fun spec lease heq => absurd heq (hop spec lease)⟩

/-- A call of `minuteSpec` in time. -/
theorem punctual_minute {lease : LeaderLease} {h : History}
    (hnow : h.world.now < lua.FIRST_SCIENTIFIC)
    (hdue : (h.world.schedules "checkout").due_at h.world.now = h.world.now) :
    (sequenceSystem "checkout" (.Every 60000000000)
      (Punctual "checkout" 60000000000 60000000000)).allowed h
        (.prepare_window minuteSpec lease) := by
  refine ⟨?_, hnow, ?_⟩
  · rintro spec lease ⟨⟩ -
    rfl
  · rintro spec lease ⟨⟩ - - -
    rw [hdue, from_millis, from_millis, Nat.add_mul]
    exact Nat.le_refl _

theorem afterOnTime_reachable :
    Reachable (sequenceSystem minuteScenario.name minuteScenario.config.repeat_policy
      (Punctual minuteScenario.name 60000000000 minuteScenario.config.duration)) afterOnTime := by
  apply Reachable.foldl
  · exact Reachable.initial ⟨0, by decide, ⟨none, 0⟩, rfl⟩
  · refine ⟨punctual_of_ne ?_ ?_, punctual_minute ?_ ?_, punctual_of_ne ?_ ?_, punctual_of_ne ?_ ?_,
      punctual_of_ne ?_ ?_, punctual_minute ?_ ?_, trivial⟩
    all_goals first | decide +kernel | exact fun _ _ => by simp

theorem windows_on_time_are_apart :
    ∃ act act', (afterOnTime.windows "checkout")[0]? = some act ∧
      (afterOnTime.windows "checkout")[1]? = some act' ∧
      from_millis act.activated_at + 60000000000 ≤
        from_millis act'.activated_at := by
  have hlength : (afterOnTime.windows "checkout").length = 2 := by decide +kernel
  have hfirst := List.getElem?_eq_getElem (l := afterOnTime.windows "checkout") (i := 0) (by omega)
  have hsecond := List.getElem?_eq_getElem (l := afterOnTime.windows "checkout") (i := 1) (by omega)
  exact ⟨_, _, hfirst, hsecond,
    punctual_windows_do_not_overlap rfl afterOnTime_reachable 0 _ _ hfirst hsecond⟩

/-- The checks accept a minute of load every minute, and after a downtime two windows of it are
activated at one time. -/
theorem late_windows_are_activated_together :
    validate_scenario_limits AppConfig.defaultParsers sampleFormats (.defaults "node-1")
        [minuteScenario] = .ok () ∧
      minuteScenario.slices = minuteSpec.total_slices ∧
      Reachable (sequenceSystem minuteScenario.name minuteScenario.config.repeat_policy
        fun _ _ => True) afterDowntime ∧
      ((afterDowntime.windows "checkout")[1]?.map (·.activated_at)) = some 150000 ∧
      ((afterDowntime.windows "checkout")[2]?.map (·.activated_at)) = some 150000 := by
  refine ⟨by decide +kernel, by decide +kernel, afterDowntime_reachable, ?_, ?_⟩
  · decide +kernel
  · decide +kernel

end pulse.planning
