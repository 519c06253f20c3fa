-- The windows of a scenario in the order of their activation. A window is
-- activated when no other one is active, so all the windows before it are
-- complete.
import Pulse.ScheduleRecords

open systems
open pulse.coordination pulse.leader_lock

namespace pulse.dispatch

/-! ## The history -/

/-- A window with the Redis time of its activation. -/
structure Activation where
  window : ActiveWindow
  activated_at : Nat
deriving DecidableEq, Repr

/-- The schedulers, with the windows of each scenario and the number of those that are complete. -/
structure History where
  world : World
  windows : String → List Activation
  completed : String → Nat

/-- The window that a step activates. -/
def started (now : Nat) (s s' : Schedule) : List Activation :=
  match s.active, s'.active with
  | none, some w => [⟨w, now⟩]
  | _, _ => []

/-- One when a step completes a window. -/
def finished (s s' : Schedule) : Nat :=
  match s.active, s'.active with
  | some _, none => 1
  | _, _ => 0

def History.start (now : Nat) (keys : LeaderKeys) : History :=
  ⟨⟨now, keys, fun _ => .empty⟩, fun _ => [], fun _ => 0⟩

def History.act (h : History) (op : Op) : History where
  world := h.world.step op
  windows i :=
    h.windows i ++ started h.world.now (h.world.schedules i) ((h.world.step op).schedules i)
  completed i := h.completed i + finished (h.world.schedules i) ((h.world.step op).schedules i)

/-! ## The steps of a history -/

/-- What a call makes of the history of scenario `i`. -/
inductive Acted (h : History) (op : Op) (i : String) : Prop
  | kept (hsame : (h.act op).world.schedules i = h.world.schedules i)
      (hwindows : (h.act op).windows i = h.windows i)
      (hcompleted : (h.act op).completed i = h.completed i)
  | activated {spec : DispatchSpec} {lease : LeaderLease} {a : PrepareArgs}
      (hop : op = .prepare_window spec lease) (hi : spec.scenario_id = i) (hargs : a.Of spec)
      (hidle : (h.world.schedules i).active = none)
      (hopen : ¬ (a.repeat_kind = .once ∧ (h.world.schedules i).once_done = true))
      (hdue : (h.world.schedules i).due_at h.world.now ≤ h.world.now)
      (hnew : (h.act op).world.schedules i = { h.world.schedules i with
        active := some (activated a ((h.world.schedules i).due_at h.world.now)) })
      (hwindows : (h.act op).windows i = h.windows i ++
        [⟨activated a ((h.world.schedules i).due_at h.world.now), h.world.now⟩])
      (hcompleted : (h.act op).completed i = h.completed i)
  | acknowledged {window : DispatchWindow} {index : UInt32} {lease : LeaderLease} {a : AckArgs}
      {active : ActiveWindow} (hop : op = .ack_slice window index lease)
      (hi : window.scenario_id = i) (hargs : ack_args window index lease = .ok a)
      (hactive : (h.world.schedules i).active = some active) (hfits : a.Fits active)
      (hcount : (h.world.schedules i).count_after active a.slice_index ≠ active.total_slices)
      (hnew : (h.act op).world.schedules i = (h.world.schedules i).acknowledge active a.slice_index)
      (hwindows : (h.act op).windows i = h.windows i)
      (hcompleted : (h.act op).completed i = h.completed i)
  | completed {window : DispatchWindow} {index : UInt32} {lease : LeaderLease} {a : AckArgs}
      {active : ActiveWindow} (hop : op = .ack_slice window index lease)
      (hi : window.scenario_id = i) (hargs : ack_args window index lease = .ok a)
      (hactive : (h.world.schedules i).active = some active) (hfits : a.Fits active)
      (hcount : (h.world.schedules i).count_after active a.slice_index = active.total_slices)
      (hnew : (h.act op).world.schedules i =
        ((h.world.schedules i).acknowledge active a.slice_index).complete active h.world.now)
      (hwindows : (h.act op).windows i = h.windows i)
      (hcompleted : (h.act op).completed i = h.completed i + 1)

theorem acknowledge_active (s : Schedule) {w : ActiveWindow} (index : Nat)
    (h : s.active = some w) : ∃ w', (s.acknowledge w index).active = some w' ∧
      { w' with ack_count := 0 } = { w with ack_count := 0 } := by
  unfold Schedule.acknowledge
  split
  · exact ⟨w, h, rfl⟩
  · exact ⟨_, rfl, rfl⟩

theorem act_cases (h : History) (op : Op) (i : String) : Acted h op i := by
  have hstep := schedule_step h.world op i
  generalize hnew : (h.world.step op).schedules i = s at hstep
  have hwindows : (h.act op).windows i =
      h.windows i ++ started h.world.now (h.world.schedules i) s := by
    rw [← hnew]
    rfl
  have hcompleted : (h.act op).completed i =
      h.completed i + finished (h.world.schedules i) s := by
    rw [← hnew]
    rfl
  cases hstep with
  | kept =>
    refine .kept hnew ?_ ?_
    · rw [hwindows]
      unfold started
      cases (h.world.schedules i).active <;> simp
    · rw [hcompleted]
      unfold finished
      cases (h.world.schedules i).active <;> simp
  | activated hop hi hargs hidle hopen hdue =>
    refine .activated hop hi hargs hidle hopen hdue hnew ?_ ?_
    · rw [hwindows]
      simp only [started, hidle]
    · rw [hcompleted]
      simp only [finished, hidle, Nat.add_zero]
  | @acknowledged window index lease a active hop hi hargs hactive hfits hcount =>
    obtain ⟨w', hw', -⟩ := acknowledge_active (h.world.schedules i) a.slice_index hactive
    refine .acknowledged hop hi hargs hactive hfits hcount hnew ?_ ?_
    · rw [hwindows]
      simp only [started, hactive, List.append_nil]
    · rw [hcompleted]
      simp only [finished, hactive, hw', Nat.add_zero]
  | completed hop hi hargs hactive hfits hcount =>
    refine .completed hop hi hargs hactive hfits hcount hnew ?_ ?_
    · rw [hwindows]
      simp only [started, hactive, List.append_nil]
    · rw [hcompleted]
      simp only [finished, hactive, Schedule.complete]

/-! ## What holds of every history -/

/-- The last window is the active one, and all the others are complete. -/
structure Told (h : History) (i : String) : Prop where
  active : ∀ w, (h.world.schedules i).active = some w →
    ∃ act, (h.windows i)[h.completed i]? = some act ∧ act.window = { w with ack_count := 0 } ∧
      (h.windows i).length = h.completed i + 1
  idle : (h.world.schedules i).active = none → (h.windows i).length = h.completed i
  last : ∀ id, (h.world.schedules i).last_completed_window = some id →
    ∃ k < h.completed i, ∃ act, (h.windows i)[k]? = some act ∧ act.window.window_id = id

theorem step_told {h : History} {op : Op} {i : String} (ht : Told h i) : Told (h.act op) i := by
  cases act_cases h op i with
  | kept hsame hwindows hcompleted =>
    refine ⟨?_, ?_, ?_⟩
    · rw [hsame, hwindows, hcompleted]
      exact ht.active
    · rw [hsame, hwindows, hcompleted]
      exact ht.idle
    · rw [hsame, hwindows, hcompleted]
      exact ht.last
  | activated hop hi hargs hidle hopen hdue hnew hwindows hcompleted =>
    have hlength := ht.idle hidle
    refine ⟨?_, ?_, ?_⟩
    · intro w hw
      rw [hnew] at hw
      cases hw
      rw [hwindows, hcompleted, ← hlength]
      refine ⟨_, List.getElem?_concat_length, rfl, ?_⟩
      rw [List.length_append, List.length_singleton]
    · rw [hnew]
      rintro ⟨⟩
    · rw [hnew, hwindows, hcompleted]
      intro id hid
      obtain ⟨k, hk, act, hact, hwindow⟩ := ht.last id hid
      refine ⟨k, hk, act, ?_, hwindow⟩
      rw [List.getElem?_append_left (by omega)]
      exact hact
  | @acknowledged window index lease a active hop hi hargs hactive hfits hcount hnew hwindows
      hcompleted =>
    obtain ⟨w', hw', hsame⟩ := acknowledge_active (h.world.schedules i) a.slice_index hactive
    refine ⟨?_, ?_, ?_⟩
    · intro w hw
      rw [hnew, hw'] at hw
      cases hw
      rw [hwindows, hcompleted, hsame]
      exact ht.active _ hactive
    · rw [hnew, hw']
      rintro ⟨⟩
    · rw [hnew, hwindows, hcompleted]
      intro id hid
      apply ht.last id
      unfold Schedule.acknowledge at hid
      split at hid
      · exact hid
      · exact hid
  | completed hop hi hargs hactive hfits hcount hnew hwindows hcompleted =>
    obtain ⟨act, hact, hwindow, hlength⟩ := ht.active _ hactive
    refine ⟨?_, ?_, ?_⟩
    · rw [hnew]
      rintro w ⟨⟩
    · intro _
      rw [hwindows, hcompleted, hlength]
    · rw [hnew, hwindows, hcompleted]
      rintro id ⟨⟩
      refine ⟨h.completed i, Nat.lt_succ_self _, act, hact, ?_⟩
      rw [hwindow]

theorem start_told (now : Nat) (keys : LeaderKeys) (i : String) : Told (.start now keys) i := by
  refine ⟨?_, fun _ => rfl, ?_⟩
  · rintro w ⟨⟩
  · rintro id ⟨⟩

/-- A window is complete when a later one was activated. -/
theorem Told.completed_of_lt {h : History} {i : String} {k : Nat} (ht : Told h i)
    (hk : k + 1 < (h.windows i).length) : k < h.completed i := by
  cases hactive : (h.world.schedules i).active with
  | none =>
    rw [ht.idle hactive] at hk
    omega
  | some w =>
    obtain ⟨-, -, -, hlength⟩ := ht.active w hactive
    omega

end pulse.dispatch
