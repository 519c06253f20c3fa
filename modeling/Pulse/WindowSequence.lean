-- The sequence of the windows of a scenario that keeps its repeat policy: with
-- an interval, window `k` is scheduled `k` intervals after the first one, and
-- with `Once` there is one window at most.
import Pulse.Identities
import Pulse.WindowHistory

open durations Duration systems
open pulse.coordination pulse.leader_lock

namespace pulse.dispatch

/-- The calls for scenario `i` keep the policy. -/
def KeepsPolicy (i : String) (policy : RepeatPolicy) (op : Op) : Prop :=
  ∀ spec lease, op = .prepare_window spec lease → spec.scenario_id = i →
    spec.repeat_policy = policy

/-- The schedulers from empty schedules, while Redis times are written with all their digits.
Scenario `i` keeps its policy, and the steps are those that `allowed` lets in. -/
def sequenceSystem (i : String) (policy : RepeatPolicy) (allowed : History → Op → Prop) :
    System History Op where
  initial h := ∃ now < lua.FIRST_SCIENTIFIC, ∃ keys, h = History.start now keys
  allowed h op := KeepsPolicy i policy op ∧ (h.act op).world.now < lua.FIRST_SCIENTIFIC ∧
    allowed h op
  next := .act

/-! ## The windows of any scenario -/

/-- A window is not activated before its time, and its identity is made of it. -/
structure Dated (i : String) (now : Nat) (act : Activation) : Prop where
  past : act.activated_at ≤ now
  scheduled : ∃ time ≤ act.activated_at, act.window.scheduled_at = lua.tostring time ∧
    act.window.window_id =
      window_id act.window.contract_version i (lua.tostring time) act.window.total_slices

variable {h : History} {i : String}

theorem step_dated {op : Op} (hd : ∀ act ∈ h.windows i, Dated i h.world.now act) :
    ∀ act ∈ (h.act op).windows i, Dated i (h.act op).world.now act := by
  have hlater : ∀ act ∈ h.windows i, Dated i (h.act op).world.now act := by
    intro act hact
    obtain ⟨hpast, hscheduled⟩ := hd act hact
    exact ⟨hpast.trans (h.world.now_le_step op), hscheduled⟩
  cases act_cases h op i with
  | kept _ hwindows _ | acknowledged _ _ _ _ _ _ _ hwindows _
  | completed _ _ _ _ _ _ _ hwindows _ =>
    rw [hwindows]
    exact hlater
  | activated hop hi hargs hidle hopen hdue hnew hwindows hcompleted =>
    rw [hwindows]
    intro act hact
    rcases List.mem_append.mp hact with hold | hlast
    · exact hlater act hold
    · rw [List.mem_singleton] at hlast
      subst hlast
      refine ⟨h.world.now_le_step op, _, hdue, rfl, ?_⟩
      rw [← hi, ← hargs.scenario_id]
      rfl

/-- What holds of every history. -/
structure Sequenced (h : History) : Prop where
  now : h.world.now < lua.FIRST_SCIENTIFIC
  told : ∀ i, Told h i
  dated : ∀ i, ∀ act ∈ h.windows i, Dated i h.world.now act

variable {interval now k : Nat}

theorem start_sequenced (hnow : now < lua.FIRST_SCIENTIFIC) (keys : LeaderKeys) :
    Sequenced (.start now keys) := by
  refine ⟨hnow, start_told now keys, ?_⟩
  rintro i act ⟨⟩

theorem step_sequenced {op : Op} (hs : Sequenced h)
    (hnow : (h.act op).world.now < lua.FIRST_SCIENTIFIC) : Sequenced (h.act op) :=
  ⟨hnow, fun i => step_told (hs.told i), fun i => step_dated (hs.dated i)⟩

variable {allowed : History → Op → Prop}

theorem reachable_sequenced {policy : RepeatPolicy}
    (hreach : Reachable (sequenceSystem i policy allowed) h) : Sequenced h := by
  refine Reachable.invariant (I := Sequenced) ?_ ?_ hreach
  · rintro h ⟨now, hnow, keys, rfl⟩
    exact start_sequenced hnow keys
  · rintro h op hs ⟨-, hnow, -⟩
    exact step_sequenced hs hnow

/-! ## Windows at an interval -/

variable {spec : DispatchSpec} {a : PrepareArgs}

theorem every_args (hargs : a.Of spec) (hpolicy : spec.repeat_policy = .Every interval) :
    a.repeat_kind = .every ∧ a.repeat_ms = as_millis interval ∧ 0 < a.repeat_ms := by
  have hrepeat := hargs.repeat_args
  rw [hpolicy] at hrepeat
  simp only [repeat_args, checks.bind_eq_ok] at hrepeat
  obtain ⟨ms, hms, hpair⟩ := hrepeat
  obtain ⟨hkind, hargs⟩ := Prod.mk.inj (Except.ok.inj hpair)
  obtain ⟨rfl, hpos, -⟩ := duration_ms_eq_ok.mp hms
  rw [← hargs]
  exact ⟨hkind.symm, rfl, hpos⟩

/-- The windows of scenario `i` at an interval of `ms`, from the time of the first one. -/
structure PeriodicFrom (first ms : Nat) (h : History) (i : String) : Prop where
  windows : ∀ (k : Nat) (act : Activation), (h.windows i)[k]? = some act →
    act.window.scheduled_at = lua.tostring (first + k * ms) ∧ first + k * ms ≤ act.activated_at
  active : ∀ w, (h.world.schedules i).active = some w →
    w.repeat_kind = .every ∧ w.repeat_ms = lua.tostring ms
  next_at : (h.world.schedules i).active = none →
    (h.windows i = [] ∧ (h.world.schedules i).next_at = none) ∨
      ∃ time, (h.world.schedules i).next_at = some (lua.tostring time) ∧
        (time = first + (h.windows i).length * ms ∨ lua.FIRST_SCIENTIFIC ≤ time)
  positive : h.windows i ≠ [] → 0 < ms

section periodic

variable {op : Op} {first ms : Nat}

/-- A time that is due was written with all its digits. -/
theorem due_at_of_next {s : Schedule} {time : Nat} (hnow : now < lua.FIRST_SCIENTIFIC)
    (hnext : s.next_at = some (lua.tostring time)) (hdue : s.due_at now ≤ now) :
    s.due_at now = time ∧ time < lua.FIRST_SCIENTIFIC := by
  have hread : s.due_at now = lua.tonumber (lua.tostring time) := by
    unfold Schedule.due_at
    rw [hnext, Option.getD_some]
  by_cases hsmall : time < lua.FIRST_SCIENTIFIC
  · rw [lua.tonumber_tostring hsmall] at hread
    exact ⟨hread, hsmall⟩
  · have hlarge := lua.le_tonumber_tostring (Nat.not_lt.mp hsmall)
    omega

theorem due_at_first {s : Schedule} (hnow : now < lua.FIRST_SCIENTIFIC) (hnext : s.next_at = none) :
    s.due_at now = now := by
  unfold Schedule.due_at
  rw [hnext, Option.getD_none, lua.tonumber_tostring hnow]

/-- The window that is added is the next one of the sequence. -/
theorem getElem?_concat_cases {α : Type} {l : List α} {a b : α} (h : (l ++ [a])[k]? = some b) :
    l[k]? = some b ∨ (k = l.length ∧ b = a) := by
  by_cases hk : k < l.length
  · rw [List.getElem?_append_left hk] at h
    exact .inl h
  · rw [List.getElem?_append_right (Nat.not_lt.mp hk)] at h
    rcases hd : k - l.length with _ | d
    · rw [hd] at h
      exact .inr ⟨by omega, (Option.some.inj h).symm⟩
    · rw [hd] at h
      cases h

theorem PeriodicFrom.activate (hp : PeriodicFrom first ms h i)
    (hevery : a.repeat_kind = .every ∧ a.repeat_ms = ms ∧ 0 < a.repeat_ms)
    (hdue : (h.world.schedules i).due_at h.world.now = first + (h.windows i).length * ms)
    (hpast : (h.world.schedules i).due_at h.world.now ≤ h.world.now)
    (hnew : (h.act op).world.schedules i = { h.world.schedules i with
      active := some (activated a ((h.world.schedules i).due_at h.world.now)) })
    (hwindows : (h.act op).windows i = h.windows i ++
      [⟨activated a ((h.world.schedules i).due_at h.world.now), h.world.now⟩]) :
    PeriodicFrom first ms (h.act op) i := by
  refine ⟨?_, ?_, ?_, ?_⟩
  · intro k act hact
    rw [hwindows] at hact
    rcases getElem?_concat_cases hact with hold | ⟨rfl, rfl⟩
    · exact hp.windows k act hold
    · rw [← hdue]
      exact ⟨rfl, hpast⟩
  · intro w hw
    rw [hnew] at hw
    cases hw
    refine ⟨hevery.1, ?_⟩
    rw [← hevery.2.1]
    rfl
  · rw [hnew]
    rintro ⟨⟩
  · intro _
    rw [← hevery.2.1]
    exact hevery.2.2

/-- The time of the next window is one interval after the time of the window that is complete. -/
theorem PeriodicFrom.complete {active : ActiveWindow} {index : Nat} (hs : Sequenced h)
    (hp : PeriodicFrom first ms h i) (hactive : (h.world.schedules i).active = some active)
    (hnew : (h.act op).world.schedules i =
      ((h.world.schedules i).acknowledge active index).complete active h.world.now)
    (hwindows : (h.act op).windows i = h.windows i) : PeriodicFrom first ms (h.act op) i := by
  obtain ⟨hkind, hms⟩ := hp.active active hactive
  obtain ⟨act, hact, hwindow, hlength⟩ := (hs.told i).active active hactive
  obtain ⟨hscheduled, hpast⟩ := hp.windows _ act hact
  have hnow := hs.now
  have hdated := (hs.dated i act (List.mem_of_getElem? hact)).past
  have hread : lua.tonumber active.scheduled_at = first + h.completed i * ms := by
    have hsame : active.scheduled_at = act.window.scheduled_at := by rw [hwindow]
    rw [hsame, hscheduled, lua.tonumber_tostring (by omega)]
  refine ⟨?_, ?_, ?_, ?_⟩
  · rw [hwindows]
    exact hp.windows
  · rw [hnew]
    rintro w ⟨⟩
  · intro _
    right
    rw [hnew, hwindows, hlength]
    refine ⟨_, if_neg (by rw [hkind]; decide), ?_⟩
    rw [hread, hms]
    by_cases hsmall : ms < lua.FIRST_SCIENTIFIC
    · left
      rw [lua.tonumber_tostring hsmall]
      ring
    · right
      have hlarge := lua.le_tonumber_tostring (Nat.not_lt.mp hsmall)
      omega
  · rw [hwindows]
    exact hp.positive

theorem step_periodic (hs : Sequenced h) (hp : ∃ first, PeriodicFrom first (as_millis interval) h i)
    (hkeeps : KeepsPolicy i (.Every interval) op) :
    ∃ first, PeriodicFrom first (as_millis interval) (h.act op) i := by
  obtain ⟨first, hp⟩ := hp
  cases act_cases h op i with
  | kept hsame hwindows hcompleted =>
    refine ⟨first, ?_, ?_, ?_, ?_⟩
    · rw [hwindows]
      exact hp.windows
    · rw [hsame]
      exact hp.active
    · rw [hsame, hwindows]
      exact hp.next_at
    · rw [hwindows]
      exact hp.positive
  | @activated spec lease a hop hi hargs hidle hopen hdue hnew hwindows hcompleted =>
    have hevery := every_args hargs (hkeeps spec lease hop hi)
    rcases hp.next_at hidle with ⟨hnone, hnext⟩ | ⟨time, hnext, htime⟩
    · -- The first window starts the sequence now.
      have hnow := due_at_first hs.now hnext
      have hempty : PeriodicFrom h.world.now (as_millis interval) h i := by
        refine ⟨?_, hp.active, fun _ => .inl ⟨hnone, hnext⟩, hp.positive⟩
        rw [hnone]
        rintro k act ⟨⟩
      refine ⟨_, hempty.activate hevery ?_ hdue hnew hwindows⟩
      rw [hnow, hnone, List.length_nil, Nat.zero_mul, Nat.add_zero]
    · obtain ⟨hread, hsmall⟩ := due_at_of_next hs.now hnext hdue
      rcases htime with htime | hlarge
      · exact ⟨first, hp.activate hevery (hread.trans htime) hdue hnew hwindows⟩
      · omega
  | @acknowledged window index lease a active hop hi hargs hactive hfits hcount hnew hwindows
      hcompleted =>
    obtain ⟨w', hw', hsame⟩ := acknowledge_active (h.world.schedules i) a.slice_index hactive
    refine ⟨first, ?_, ?_, ?_, ?_⟩
    · rw [hwindows]
      exact hp.windows
    · intro w hw
      rw [hnew, hw'] at hw
      cases hw
      have hkind : w'.repeat_kind = active.repeat_kind := congrArg (·.repeat_kind) hsame
      have hms : w'.repeat_ms = active.repeat_ms := congrArg (·.repeat_ms) hsame
      rw [hkind, hms]
      exact hp.active active hactive
    · rw [hnew, hw']
      rintro ⟨⟩
    · rw [hwindows]
      exact hp.positive
  | completed hop hi hargs hactive hfits hcount hnew hwindows hcompleted =>
    exact ⟨first, hp.complete hs hactive hnew hwindows⟩

theorem reachable_periodic (hreach : Reachable (sequenceSystem i (.Every interval) allowed) h) :
    ∃ first, PeriodicFrom first (as_millis interval) h i := by
  have hboth : Sequenced h ∧ ∃ first, PeriodicFrom first (as_millis interval) h i := by
    refine Reachable.invariant (I := fun h => Sequenced h ∧
      ∃ first, PeriodicFrom first (as_millis interval) h i) ?_ ?_ hreach
    · rintro h ⟨now, hnow, keys, rfl⟩
      refine ⟨start_sequenced hnow keys, 0, ?_, ?_, ?_, ?_⟩
      · rintro k act ⟨⟩
      · rintro w ⟨⟩
      · exact fun _ => .inl ⟨rfl, rfl⟩
      · exact fun hne => absurd rfl hne
    · rintro h op ⟨hs, hp⟩ ⟨hkeeps, hnow, -⟩
      exact ⟨step_sequenced hs hnow, step_periodic hs hp hkeeps⟩
  exact hboth.2

end periodic

/-! ## One window -/

theorem once_args (hargs : a.Of spec) (hpolicy : spec.repeat_policy = .Once) :
    a.repeat_kind = .once := by
  have hrepeat := hargs.repeat_args
  rw [hpolicy] at hrepeat
  exact (Prod.mk.inj (Except.ok.inj hrepeat)).1.symm

/-- The scenario has its one window, and the schedule says when it is complete. -/
structure OnceOnly (h : History) (i : String) : Prop where
  active : ∀ w, (h.world.schedules i).active = some w → w.repeat_kind = .once
  once_done : (h.world.schedules i).once_done = true ↔ h.completed i ≠ 0
  windows : (h.windows i).length ≤ 1

theorem step_once {op : Op} (ht : Told h i) (ho : OnceOnly h i) (hkeeps : KeepsPolicy i .Once op) :
    OnceOnly (h.act op) i := by
  cases act_cases h op i with
  | kept hsame hwindows hcompleted =>
    refine ⟨?_, ?_, ?_⟩
    · rw [hsame]
      exact ho.active
    · rw [hsame, hcompleted]
      exact ho.once_done
    · rw [hwindows]
      exact ho.windows
  | @activated spec lease a hop hi hargs hidle hopen hdue hnew hwindows hcompleted =>
    have hkind := once_args hargs (hkeeps spec lease hop hi)
    have hnone : h.completed i = 0 := by
      by_contra hne
      exact hopen ⟨hkind, ho.once_done.mpr hne⟩
    refine ⟨?_, ?_, ?_⟩
    · rw [hnew]
      rintro w ⟨⟩
      exact hkind
    · rw [hnew, hcompleted]
      exact ho.once_done
    · rw [hwindows, List.length_append, ht.idle hidle, hnone]
      rfl
  | @acknowledged window index lease a active hop hi hargs hactive hfits hcount hnew hwindows
      hcompleted =>
    obtain ⟨w', hw', hsame⟩ := acknowledge_active (h.world.schedules i) a.slice_index hactive
    refine ⟨?_, ?_, ?_⟩
    · intro w hw
      rw [hnew, hw'] at hw
      cases hw
      have hkind : w'.repeat_kind = active.repeat_kind := congrArg (·.repeat_kind) hsame
      rw [hkind]
      exact ho.active active hactive
    · rw [hnew, hcompleted, ← ho.once_done]
      unfold Schedule.acknowledge
      split <;> rfl
    · rw [hwindows]
      exact ho.windows
  | completed hop hi hargs hactive hfits hcount hnew hwindows hcompleted =>
    refine ⟨?_, ?_, ?_⟩
    · rw [hnew]
      rintro w ⟨⟩
    · rw [hnew, hcompleted]
      simp [Schedule.complete, ho.active _ hactive]
    · rw [hwindows]
      exact ho.windows

theorem reachable_once (hreach : Reachable (sequenceSystem i .Once allowed) h) : OnceOnly h i := by
  have hboth : Told h i ∧ OnceOnly h i := by
    refine Reachable.invariant (I := fun h => Told h i ∧ OnceOnly h i) ?_ ?_ hreach
    · rintro h ⟨now, hnow, keys, rfl⟩
      refine ⟨start_told now keys i, ?_, ?_, ?_⟩
      · rintro w ⟨⟩
      · simp [History.start, Schedule.empty]
      · exact Nat.zero_le 1
    · rintro h op ⟨ht, ho⟩ ⟨hkeeps, -, -⟩
      exact ⟨step_told ht, step_once ht ho hkeeps⟩
  exact hboth.2

/-- After its one window, a scenario is finished for every leader. -/
theorem OnceOnly.prepare_finished {lease : LeaderLease} (ht : Told h i) (ho : OnceOnly h i)
    (hdone : h.completed i ≠ 0) (hpolicy : spec.repeat_policy = .Once)
    (hargs : prepare_args spec lease = .ok a) (hleader : h.world.accepts lease) :
    prepare_window h.world.now h.world.keys spec lease (h.world.schedules i) =
      (.ok .Finished, h.world.schedules i) := by
  have hidle : (h.world.schedules i).active = none := by
    cases hactive : (h.world.schedules i).active with
    | none => rfl
    | some w =>
      obtain ⟨-, -, -, hlength⟩ := ht.active w hactive
      have := ho.windows
      omega
  have hkind := once_args (prepare_args_ok hargs) hpolicy
  have hscript : prepare_script h.world.now a (h.world.schedules i) =
      (.finished, h.world.schedules i) := by
    unfold prepare_script
    rw [hidle]
    dsimp only
    rw [if_pos ⟨hkind, ho.once_done.mpr hdone⟩]
  rw [prepare_window_eq hargs hleader, hscript]
  rfl

/-! ## The law of the sequence -/

variable {act act' : Activation}

/-- A window is activated at the Redis time of the call, when all the windows before are
complete. -/
theorem activated_when_complete {op : Op} (ht : Told h i)
    (hnew : (h.act op).windows i = h.windows i ++ [act]) :
    act.activated_at = h.world.now ∧ h.completed i = (h.windows i).length := by
  cases act_cases h op i with
  | kept _ hwindows _ | acknowledged _ _ _ _ _ _ _ hwindows _
  | completed _ _ _ _ _ _ _ hwindows _ =>
    rw [hwindows] at hnew
    simp at hnew
  | activated hop hi hargs hidle hopen hdue _ hwindows hcompleted =>
    rw [hwindows, List.append_cancel_left_eq, List.cons.injEq] at hnew
    rw [← hnew.1]
    exact ⟨rfl, (ht.idle hidle).symm⟩

/-- The identity of a window names its scenario and its time. -/
theorem Sequenced.window_id_inj {j : String} (hs : Sequenced h) (hact : act ∈ h.windows i)
    (hact' : act' ∈ h.windows j) (hid : act.window.window_id = act'.window.window_id) :
    i = j ∧ act.window.scheduled_at = act'.window.scheduled_at := by
  obtain ⟨hpast, time, htime, hscheduled, hwindow⟩ := hs.dated i act hact
  obtain ⟨hpast', time', htime', hscheduled', hwindow'⟩ := hs.dated j act' hact'
  have hnow := hs.now
  rw [hwindow, hwindow'] at hid
  obtain ⟨-, hi, rfl, -⟩ := identities.window_id_inj (by omega) (by omega) hid
  rw [hscheduled, hscheduled']
  exact ⟨hi, rfl⟩

/-- Two windows of a sequence have two times. -/
theorem PeriodicFrom.index_inj {first ms k' : Nat} (hs : Sequenced h)
    (hp : PeriodicFrom first ms h i) (hact : (h.windows i)[k]? = some act)
    (hact' : (h.windows i)[k']? = some act')
    (hsame : act.window.scheduled_at = act'.window.scheduled_at) : k = k' := by
  obtain ⟨hscheduled, htime⟩ := hp.windows k act hact
  obtain ⟨hscheduled', htime'⟩ := hp.windows k' act' hact'
  have hpast := (hs.dated i act (List.mem_of_getElem? hact)).past
  have hpast' := (hs.dated i act' (List.mem_of_getElem? hact')).past
  have hnow := hs.now
  rw [hscheduled, hscheduled', lua.tostring_of_lt (by omega),
    lua.tostring_of_lt (by omega)] at hsame
  have htimes := lua.Text.decimal.inj hsame
  have hms : 0 < ms := by
    apply hp.positive
    intro hnil
    rw [hnil] at hact
    cases hact
  exact Nat.eq_of_mul_eq_mul_right hms (by omega)

/-- The windows of a scenario that repeats are at multiples of its interval in milliseconds. -/
theorem windows_at_multiples
    (hreach : Reachable (sequenceSystem i (.Every interval) fun _ _ => True) h) :
    ∃ first, ∀ (k : Nat) (act : Activation), (h.windows i)[k]? = some act →
      act.window.scheduled_at = .decimal (first + k * as_millis interval) ∧
      first + k * as_millis interval ≤ act.activated_at := by
  have hs := reachable_sequenced hreach
  obtain ⟨first, hp⟩ := reachable_periodic hreach
  refine ⟨first, ?_⟩
  intro k act hact
  obtain ⟨hscheduled, htime⟩ := hp.windows k act hact
  have hpast := (hs.dated i act (List.mem_of_getElem? hact)).past
  have hnow := hs.now
  rw [lua.tostring_of_lt (by omega)] at hscheduled
  exact ⟨hscheduled, htime⟩

/-- The windows of a scenario that keeps its policy, under any leaders and calls. -/
theorem windows_follow_the_repeat_policy {i : String} {policy : RepeatPolicy} {h : History}
    (hreach : Reachable (sequenceSystem i policy fun _ _ => True) h) :
    (∀ interval, policy = .Every interval → ∃ first, ∀ (k : Nat) (act : Activation),
      (h.windows i)[k]? = some act →
      act.window.scheduled_at = .decimal (first + k * as_millis interval) ∧
      first + k * as_millis interval ≤ act.activated_at) ∧
    (∀ d, policy = .Every (from_millis d) → ∃ first, ∀ (k : Nat) (act : Activation),
      (h.windows i)[k]? = some act →
      act.window.scheduled_at = .decimal (first + k * d) ∧ first + k * d ≤ act.activated_at) ∧
    (policy = .Once → (h.windows i).length ≤ 1 ∧
      (h.completed i ≠ 0 → ∀ (spec : DispatchSpec) (lease : LeaderLease) (a : PrepareArgs),
        spec.scenario_id = i → spec.repeat_policy = .Once → prepare_args spec lease = .ok a →
        h.world.accepts lease →
        prepare_window h.world.now h.world.keys spec lease (h.world.schedules i) =
          (.ok .Finished, h.world.schedules i))) ∧
    (∀ op act, (h.act op).windows i = h.windows i ++ [act] →
      act.activated_at = h.world.now ∧ h.completed i = (h.windows i).length) ∧
    (∀ (k k' : Nat) (act act' : Activation), (h.windows i)[k]? = some act →
      (h.windows i)[k']? = some act' → act.window.window_id = act'.window.window_id → k = k') ∧
    ∀ j, ∀ act ∈ h.windows i, ∀ act' ∈ h.windows j,
      act.window.window_id = act'.window.window_id → i = j := by
  have hs := reachable_sequenced hreach
  refine ⟨?_, ?_, ?_, ?_, ?_, ?_⟩
  · rintro interval rfl
    exact windows_at_multiples hreach
  · rintro d rfl
    simpa only [as_millis_from_millis] using windows_at_multiples hreach
  · rintro rfl
    have ho := reachable_once hreach
    refine ⟨ho.windows, ?_⟩
    intro hdone spec lease a _ hpolicy hargs hleader
    exact ho.prepare_finished (hs.told i) hdone hpolicy hargs hleader
  · intro op act hnew
    exact activated_when_complete (hs.told i) hnew
  · intro k k' act act' hact hact' hid
    have hmem := List.mem_of_getElem? hact
    have hmem' := List.mem_of_getElem? hact'
    obtain ⟨-, hscheduled⟩ := hs.window_id_inj hmem hmem' hid
    cases policy with
    | Once =>
      have hone := (reachable_once hreach).windows
      have hk := (List.getElem?_eq_some_iff.mp hact).1
      have hk' := (List.getElem?_eq_some_iff.mp hact').1
      omega
    | Every interval =>
      obtain ⟨first, hp⟩ := reachable_periodic hreach
      exact hp.index_inj hs hact hact' hscheduled
  · intro j act hact act' hact' hid
    exact (hs.window_id_inj hact hact' hid).1

/-! ## A scheduler that was down -/

def minuteSpec : DispatchSpec := ⟨"checkout", 2, 1, .Every 60000000000, "v2:plan"⟩

def minuteWindow (time : Nat) : DispatchWindow :=
  let id := window_id 2 "checkout" (lua.tostring time) 1
  ⟨⟨"checkout", id, time, 2, 1⟩, id, "v2:plan", [0]⟩

def firstLease : LeaderLease := ⟨"pulse:leader", "node-1", "node-1:a", 1, 5000, 5000000000⟩

def secondLease : LeaderLease := ⟨"pulse:leader", "node-2", "node-2:b", 2, 155000, 5000000000⟩

/-- The first leader dispatches a window. Two and a half minutes later a second one dispatches the
windows that are due. -/
def downtime : List Op :=
  [.acquire (sampleElector "node-1") "a", .prepare_window minuteSpec firstLease,
    .ack_slice (minuteWindow 0) 0 firstLease, .wait 150000,
    .acquire (sampleElector "node-2") "b", .prepare_window minuteSpec secondLease,
    .ack_slice (minuteWindow 60000) 0 secondLease, .prepare_window minuteSpec secondLease]

def afterDowntime : History := downtime.foldl History.act (.start 0 ⟨none, 0⟩)

theorem downtime_keeps_policy :
    ∀ op ∈ downtime, KeepsPolicy "checkout" (.Every 60000000000) op := by
  intro op hop spec lease hprepare _
  subst hprepare
  simp only [downtime, List.mem_cons, Op.prepare_window.injEq, reduceCtorEq, false_or,
    List.not_mem_nil, or_false] at hop
  rcases hop with ⟨rfl, -⟩ | ⟨rfl, -⟩ | ⟨rfl, -⟩ <;> rfl

theorem now_le_foldl (h : History) (ops : List Op) :
    h.world.now ≤ (ops.foldl History.act h).world.now := by
  induction ops generalizing h with
  | nil => exact Nat.le_refl _
  | cons op ops ih => exact (h.world.now_le_step op).trans (ih (h.act op))

/-- Calls that keep the policy lead to a reachable history while the clock is below the limit. -/
theorem reachable_foldl {policy : RepeatPolicy} {ops : List Op}
    (hreach : Reachable (sequenceSystem i policy fun _ _ => True) h)
    (hkeeps : ∀ op ∈ ops, KeepsPolicy i policy op)
    (hnow : (ops.foldl History.act h).world.now < lua.FIRST_SCIENTIFIC) :
    Reachable (sequenceSystem i policy fun _ _ => True) (ops.foldl History.act h) := by
  induction ops generalizing h with
  | nil => exact hreach
  | cons op ops ih =>
    have hfirst := now_le_foldl (h.act op) ops
    have hstep : Reachable (sequenceSystem i policy fun _ _ => True) (h.act op) :=
      hreach.step ⟨hkeeps op List.mem_cons_self, Nat.lt_of_le_of_lt hfirst hnow, trivial⟩
    exact ih hstep (fun op' hop' => hkeeps op' (List.mem_cons_of_mem op hop')) hnow

theorem afterDowntime_reachable :
    Reachable (sequenceSystem "checkout" (.Every 60000000000) fun _ _ => True) afterDowntime := by
  apply reachable_foldl _ downtime_keeps_policy (by decide +kernel)
  apply Reachable.initial
  exact ⟨0, by decide, ⟨none, 0⟩, rfl⟩

/-- A new leader goes on with the sequence of the leader before. -/
theorem downtime_skips_no_window :
    (afterDowntime.windows "checkout").length = 3 ∧
      ∃ first, ∀ (k : Nat) (act : Activation), (afterDowntime.windows "checkout")[k]? = some act →
        act.window.scheduled_at = .decimal (first + k * 60000) ∧
        first + k * 60000 ≤ act.activated_at := by
  refine ⟨by decide +kernel, ?_⟩
  exact (windows_follow_the_repeat_policy afterDowntime_reachable).2.1 60000 rfl

end pulse.dispatch
