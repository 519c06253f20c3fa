-- What the calls of the schedulers can do to the schedule of a scenario, and
-- what holds of every schedule: the count of the acknowledgements is right,
-- and none of them is left over from a window that is complete.
import Pulse.LeaderFencing

open checks durations systems
open pulse.coordination pulse.leader_lock

namespace pulse.dispatch

/-! ## The arguments of the scripts -/

/-- What the checks of `prepare_window` let through. -/
structure PrepareArgs.Of (a : PrepareArgs) (spec : DispatchSpec) : Prop where
  scenario_id : a.scenario_id = spec.scenario_id
  contract_version : a.contract_version = spec.contract_version
  total_slices : a.total_slices = spec.total_slices.toNat
  plan_fingerprint : a.plan_fingerprint = spec.plan_fingerprint
  repeat_args : repeat_args "dispatch_prepare_window" spec.repeat_policy =
    .ok (a.repeat_kind, a.repeat_ms)
  slices : 0 < a.total_slices ∧ a.total_slices ≤ MAX_DISPATCH_SLICES

theorem prepare_args_ok {spec : DispatchSpec} {leader : LeaderLease} {a : PrepareArgs}
    (h : prepare_args spec leader = .ok a) : a.Of spec := by
  simp only [prepare_args, seq_eq_ok, rejectIf_eq_ok] at h
  obtain ⟨-, -, hslices, -, hrest⟩ := h
  rw [bind_eq_ok] at hrest
  obtain ⟨⟨kind, ms⟩, hrepeat, hrest⟩ := hrest
  simp only [seq_eq_ok] at hrest
  obtain ⟨-, hlast⟩ := hrest
  cases hlast
  rw [not_or, Nat.not_lt] at hslices
  refine ⟨rfl, rfl, rfl, rfl, hrepeat, ?_, hslices.2⟩
  apply Nat.pos_of_ne_zero
  intro hzero
  exact hslices.1 (UInt32.toNat_inj.mp hzero)

theorem ack_args_ok {window : DispatchWindow} {slice_index : UInt32} {leader : LeaderLease}
    {a : AckArgs} (h : ack_args window slice_index leader = .ok a) :
    slice_index < window.total_slices ∧
      a = ⟨window.window_id, slice_index.toNat, window.total_slices.toNat,
        window.plan_fingerprint⟩ := by
  simp only [ack_args, seq_eq_ok, rejectIf_eq_ok] at h
  obtain ⟨hindex, -, -, hlast⟩ := h
  cases hlast
  exact ⟨UInt32.not_le.mp hindex, rfl⟩

/-! ## The steps of a schedule -/

/-- What a call makes of the schedule of scenario `i`. -/
inductive Stepped (w : World) (op : Op) (i : String) : Schedule → Prop
  | kept : Stepped w op i (w.schedules i)
  | activated {spec : DispatchSpec} {lease : LeaderLease} {a : PrepareArgs}
      (hop : op = .prepare_window spec lease) (hi : spec.scenario_id = i) (hargs : a.Of spec)
      (hidle : (w.schedules i).active = none)
      (hopen : ¬ (a.repeat_kind = .once ∧ (w.schedules i).once_done = true))
      (hdue : (w.schedules i).due_at w.now ≤ w.now) :
      Stepped w op i
        { w.schedules i with active := some (activated a ((w.schedules i).due_at w.now)) }
  | acknowledged {window : DispatchWindow} {index : UInt32} {lease : LeaderLease} {a : AckArgs}
      {active : ActiveWindow} (hop : op = .ack_slice window index lease)
      (hi : window.scenario_id = i) (hargs : ack_args window index lease = .ok a)
      (hactive : (w.schedules i).active = some active) (hfits : a.Fits active)
      (hcount : (w.schedules i).count_after active a.slice_index ≠ active.total_slices) :
      Stepped w op i ((w.schedules i).acknowledge active a.slice_index)
  | completed {window : DispatchWindow} {index : UInt32} {lease : LeaderLease} {a : AckArgs}
      {active : ActiveWindow} (hop : op = .ack_slice window index lease)
      (hi : window.scenario_id = i) (hargs : ack_args window index lease = .ok a)
      (hactive : (w.schedules i).active = some active) (hfits : a.Fits active)
      (hcount : (w.schedules i).count_after active a.slice_index = active.total_slices) :
      Stepped w op i (((w.schedules i).acknowledge active a.slice_index).complete active w.now)

theorem step_prepare (w : World) (spec : DispatchSpec) (lease : LeaderLease) :
    Stepped w (.prepare_window spec lease) spec.scenario_id
      (prepare_window w.now w.keys spec lease (w.schedules spec.scenario_id)).2 := by
  unfold prepare_window
  split
  · exact .kept
  · rename_i a hargs
    split
    · have hcases := prepare_script_cases w.now a (w.schedules spec.scenario_id)
      generalize prepare_script w.now a (w.schedules spec.scenario_id) = result at hcases
      cases hcases with
      | drifted | inconsistent | resumed | finished | not_due => exact .kept
      | activated hidle hopen hdue =>
        exact .activated rfl rfl (prepare_args_ok hargs) hidle hopen hdue
    · exact .kept

theorem step_ack (w : World) (window : DispatchWindow) (index : UInt32) (lease : LeaderLease) :
    Stepped w (.ack_slice window index lease) window.scenario_id
      (ack_slice w.now w.keys window index lease (w.schedules window.scenario_id)).2 := by
  unfold ack_slice
  split
  · exact .kept
  · rename_i a hargs
    split
    · have hcases := ack_script_cases w.now a (w.schedules window.scenario_id)
      generalize ack_script w.now a (w.schedules window.scenario_id) = result at hcases
      cases hcases with
      | repeated | refused => exact .kept
      | pending hactive hfits hless =>
        exact .acknowledged rfl rfl hargs hactive hfits hless.ne
      | exceeded hactive hfits hmore =>
        exact .acknowledged rfl rfl hargs hactive hfits hmore.ne'
      | completed hactive hfits hall => exact .completed rfl rfl hargs hactive hfits hall
    · exact .kept

theorem World.schedules_set (w : World) (i j : String) (s : Schedule) :
    (w.set i s).schedules j = if j = i then s else w.schedules j := by
  unfold World.set
  by_cases h : j = i
  · subst h
    simp
  · simp [h]

/-- Each step makes one of these changes to each schedule. -/
theorem schedule_step (w : World) (op : Op) (i : String) :
    Stepped w op i ((w.step op).schedules i) := by
  cases op with
  | acquire | renew | relinquish | wait => exact .kept
  | prepare_window spec lease =>
    simp only [World.step, World.schedules_set]
    split
    · rename_i hi
      subst hi
      exact step_prepare w spec lease
    · exact .kept
  | ack_slice window index lease =>
    simp only [World.step, World.schedules_set]
    split
    · rename_i hi
      subst hi
      exact step_ack w window index lease
    · exact .kept

/-! ## The record of a schedule -/

/-- What holds of the schedule of scenario `i` at a Redis time. -/
structure Recorded (i : String) (now : Nat) (s : Schedule) : Prop where
  idle : s.active = none → s.acks = ∅
  acks : ∀ w, s.active = some w →
    s.acks ⊆ Finset.range w.total_slices ∧ w.ack_count = s.acks.card ∧
      s.acks.card < w.total_slices
  window : ∀ w, s.active = some w → ∃ time ≤ now, w.scheduled_at = lua.tostring time ∧
    lua.tonumber w.scheduled_at = time ∧
    w.window_id = window_id w.contract_version i w.scheduled_at w.total_slices
  next_at : ∀ text, s.next_at = some text → ∃ time, text = lua.tostring time

section recorded

variable {i : String} {now : Nat} {s : Schedule} {w : ActiveWindow} {a : AckArgs}
  (hs : Recorded i now s)
include hs

theorem count_after_eq (hactive : s.active = some w) (index : Nat) :
    s.count_after w index = (insert index s.acks).card := by
  obtain ⟨-, hcount, -⟩ := hs.acks w hactive
  unfold Schedule.count_after
  split
  · rename_i hmem
    rw [hcount, Finset.insert_eq_of_mem hmem]
  · rename_i hnew
    rw [hcount, Finset.card_insert_of_notMem hnew]

/-- The fields of an acknowledgement that does not complete the window. -/
theorem acknowledge_acks (hactive : s.active = some w) (index : Nat) :
    (s.acknowledge w index).acks = insert index s.acks ∧
      (s.acknowledge w index).active =
        some { w with ack_count := (insert index s.acks).card } := by
  obtain ⟨-, hcount, -⟩ := hs.acks w hactive
  unfold Schedule.acknowledge
  split
  · rename_i hmem
    rw [Finset.insert_eq_of_mem hmem, ← hcount]
    exact ⟨rfl, hactive⟩
  · rename_i hnew
    rw [Finset.card_insert_of_notMem hnew, hcount]
    exact ⟨rfl, rfl⟩

theorem insert_subset (hactive : s.active = some w) (hfits : a.Fits w) :
    insert a.slice_index s.acks ⊆ Finset.range w.total_slices := by
  rw [Finset.insert_subset_iff, Finset.mem_range]
  exact ⟨hfits.index, (hs.acks w hactive).1⟩

theorem Recorded.later {later : Nat} (h : now ≤ later) : Recorded i later s := by
  refine ⟨hs.idle, hs.acks, ?_, hs.next_at⟩
  intro w hactive
  obtain ⟨time, htime, hrest⟩ := hs.window w hactive
  exact ⟨time, htime.trans h, hrest⟩

/-- The time of the next window was read from a text. -/
theorem Recorded.tonumber_due_at (time : Nat) :
    lua.tonumber (lua.tostring (s.due_at time)) = s.due_at time := by
  unfold Schedule.due_at
  cases hnext : s.next_at with
  | none => exact lua.tonumber_tostring_again time
  | some text =>
    obtain ⟨next, rfl⟩ := hs.next_at text hnext
    exact lua.tonumber_tostring_again next

theorem Recorded.activate {spec : DispatchSpec} {args : PrepareArgs} (hidle : s.active = none)
    (hargs : args.Of spec) (hi : spec.scenario_id = i) (hdue : s.due_at now ≤ now) :
    Recorded i now { s with active := some (activated args (s.due_at now)) } := by
  refine ⟨?_, ?_, ?_, hs.next_at⟩
  · rintro ⟨⟩
  · rintro w ⟨⟩
    rw [hs.idle hidle]
    exact ⟨Finset.empty_subset _, rfl, hargs.slices.1⟩
  · rintro w ⟨⟩
    refine ⟨s.due_at now, hdue, rfl, hs.tonumber_due_at now, ?_⟩
    rw [← hi, ← hargs.scenario_id]
    rfl

theorem Recorded.acknowledge (hactive : s.active = some w) (hfits : a.Fits w)
    (hcount : s.count_after w a.slice_index ≠ w.total_slices) :
    Recorded i now (s.acknowledge w a.slice_index) := by
  obtain ⟨hacks, hnext⟩ := acknowledge_acks hs hactive a.slice_index
  have hsubset := insert_subset hs hactive hfits
  refine ⟨?_, ?_, ?_, ?_⟩
  · intro hidle
    rw [hnext] at hidle
    cases hidle
  · intro w' hw'
    rw [hnext] at hw'
    cases hw'
    rw [hacks]
    refine ⟨hsubset, rfl, ?_⟩
    have hle := Finset.card_le_card hsubset
    rw [Finset.card_range] at hle
    rw [count_after_eq hs hactive] at hcount
    dsimp only
    omega
  · intro w' hw'
    rw [hnext] at hw'
    cases hw'
    exact hs.window w hactive
  · intro text htext
    apply hs.next_at text
    unfold Schedule.acknowledge at htext
    split at htext
    · exact htext
    · exact htext

/-- The last acknowledgement is for the last slice: no field is left over. -/
theorem Recorded.complete (hactive : s.active = some w) (hfits : a.Fits w) :
    Recorded i now ((s.acknowledge w a.slice_index).complete w now) := by
  obtain ⟨hacks, -⟩ := acknowledge_acks hs hactive a.slice_index
  refine ⟨?_, ?_, ?_, ?_⟩
  · intro _
    unfold Schedule.complete
    dsimp only
    rw [hacks, Finset.sdiff_eq_empty_iff_subset]
    exact insert_subset hs hactive hfits
  · rintro w' ⟨⟩
  · rintro w' ⟨⟩
  · intro text htext
    unfold Schedule.complete at htext
    dsimp only at htext
    split at htext
    · cases htext
    · cases htext
      exact ⟨_, rfl⟩

end recorded

/-- Every schedule is recorded. -/
def World.recorded (w : World) : Prop := ∀ i, Recorded i w.now (w.schedules i)

theorem World.now_le_step (w : World) (op : Op) : w.now ≤ (w.step op).now := by
  cases op with
  | wait ms => exact Nat.le_add_right w.now ms
  | acquire | renew | relinquish | prepare_window | ack_slice => exact le_rfl

theorem step_recorded {w : World} {op : Op} (hw : w.recorded) : (w.step op).recorded := by
  intro i
  apply Recorded.later _ (w.now_le_step op)
  have hstep := schedule_step w op i
  generalize (w.step op).schedules i = s at hstep
  cases hstep with
  | kept => exact hw i
  | activated _ hi hargs hidle _ hdue => exact (hw i).activate hidle hargs hi hdue
  | acknowledged _ _ _ hactive hfits hcount => exact (hw i).acknowledge hactive hfits hcount
  | completed _ _ _ hactive hfits _ => exact (hw i).complete hactive hfits

/-! ## The windows of `prepare_window` -/

theorem parse_missing_slice_ok {operation : String} {total : UInt32} {slices : List UInt32}
    {index : Nat} (hindex : index < total.toNat) (hfull : total.toNat ≤ lua.FIRST_SCIENTIFIC)
    (hlast : ∀ previous ∈ slices.getLast?, previous.toNat < index) :
    parse_missing_slice operation total slices (lua.tostring index) =
      .ok (slices ++ [UInt32.ofNat index]) := by
  have hsmall : index ≤ aggregation.U32_MAX := by
    have := total.toNat_lt
    unfold aggregation.U32_MAX
    omega
  have hordered : ¬ (total.toNat ≤ index ∨
      ∃ previous ∈ slices.getLast?, index ≤ previous.toNat) := by
    rintro (hle | ⟨previous, hprevious, hle⟩)
    · omega
    · have := hlast previous hprevious
      omega
  unfold parse_missing_slice
  rw [lua.tostring_of_lt (by omega), lua.parse_decimal hsmall]
  simp only [okOr, ok_bind, rejectIf_neg _ hordered]
  rfl

/-- The loop reads rising indexes in range as they are. -/
theorem parse_missing_slices_ok {operation : String} {total : UInt32} {indexes : List Nat}
    (hbound : ∀ index ∈ indexes, index < total.toNat) (hrising : indexes.Pairwise (· < ·))
    (hfull : total.toNat ≤ lua.FIRST_SCIENTIFIC) :
    parse_missing_slices operation (indexes.map lua.tostring) total =
      .ok (indexes.map UInt32.ofNat) := by
  -- the loop has read the slices `read`, whose last one is below what is left
  suffices hloop : ∀ read : List UInt32,
      (∀ last ∈ read.getLast?, ∀ index ∈ indexes, last.toNat < index) →
      (indexes.map lua.tostring).foldlM (parse_missing_slice operation total) read =
        .ok (read ++ indexes.map UInt32.ofNat) by
    exact hloop [] (by simp)
  induction indexes with
  | nil =>
    intro read _
    simp [pure, Except.pure]
  | cons index indexes ih =>
    intro read hread
    have hindex := hbound index List.mem_cons_self
    rw [List.map_cons, List.foldlM_cons, parse_missing_slice_ok hindex hfull
      (fun last hlast => hread last hlast index List.mem_cons_self), ok_bind]
    rw [ih (fun x hx => hbound x (List.mem_cons_of_mem _ hx)) hrising.of_cons]
    · simp
    · intro last hlast x hx
      rw [List.getLast?_concat] at hlast
      cases hlast
      rw [UInt32.toNat_ofNat_of_lt' (hindex.trans total.toNat_lt)]
      exact (List.pairwise_cons.mp hrising).1 x hx

theorem missing_rises (s : Schedule) (n : Nat) : (s.missing n).Pairwise (· < ·) :=
  List.pairwise_lt_range.sublist List.filter_sublist

theorem mem_missing {s : Schedule} {n index : Nat} :
    index ∈ s.missing n ↔ index < n ∧ index ∉ s.acks := by
  simp [Schedule.missing]

/-- The window that a scheduler gets is the active window of the schedule, with the slices that are
missing. -/
structure ReadyFor (spec : DispatchSpec) (s : Schedule) (w : ActiveWindow)
    (window : DispatchWindow) : Prop where
  active : s.active = some w
  scenario_id : window.scenario_id = spec.scenario_id
  run_id : window.run_id = w.window_id
  window_id : window.window_id = w.window_id
  scheduled_at : window.scheduled_at_unix_ms = lua.tonumber w.scheduled_at
  contract_version : window.contract_version = w.contract_version
  total_slices : window.total_slices.toNat = w.total_slices
  plan_fingerprint : window.plan_fingerprint = w.plan_fingerprint
  of_spec : window.contract_version = spec.contract_version ∧
    window.total_slices = spec.total_slices ∧ window.plan_fingerprint = spec.plan_fingerprint
  missing : window.missing_slices.map (·.toNat) = s.missing w.total_slices

section ready

variable {i : String} {now : Nat} {keys : LeaderKeys} {spec : DispatchSpec} {lease : LeaderLease}
  {s : Schedule} {a : PrepareArgs} {window : DispatchWindow}

theorem prepare_window_eq (hargs : prepare_args spec lease = .ok a)
    (hcurrent : leader_is_current now keys lease = true) :
    prepare_window now keys spec lease s =
      (prepare_reply spec (prepare_script now a s).1, (prepare_script now a s).2) := by
  unfold prepare_window
  rw [hargs]
  dsimp only
  rw [if_pos hcurrent]

/-- The reply with indexes that are read back gives the window. -/
theorem prepare_reply_ready {window_id : String} {time : Nat} {indexes : List Nat}
    (hargs : a.Of spec) (hbound : ∀ index ∈ indexes, index < a.total_slices)
    (hrising : indexes.Pairwise (· < ·)) (hsome : indexes ≠ []) :
    prepare_reply spec (.ready window_id time (indexes.map lua.tostring)) =
      .ok (.Ready ⟨⟨spec.scenario_id, window_id, time, spec.contract_version, spec.total_slices⟩,
        window_id, spec.plan_fingerprint, indexes.map UInt32.ofNat⟩) := by
  have hfull : spec.total_slices.toNat ≤ lua.FIRST_SCIENTIFIC := by
    have := hargs.slices.2
    rw [hargs.total_slices] at this
    unfold MAX_DISPATCH_SLICES at this
    unfold lua.FIRST_SCIENTIFIC
    omega
  rw [hargs.total_slices] at hbound
  unfold prepare_reply
  dsimp only
  rw [parse_missing_slices_ok hbound hrising hfull, ok_bind, rejectIf_neg]
  · rfl
  · simpa using hsome

theorem toNat_ofNat_missing (s : Schedule) {n : Nat} (h : n ≤ MAX_DISPATCH_SLICES) :
    ((s.missing n).map UInt32.ofNat).map (·.toNat) = s.missing n := by
  rw [List.map_map]
  conv => rhs; rw [← List.map_id (s.missing n)]
  apply List.map_congr_left
  intro index hindex
  have hlt := (mem_missing.mp hindex).1
  unfold MAX_DISPATCH_SLICES at h
  rw [Function.comp_apply, UInt32.toNat_ofNat_of_lt' (by unfold UInt32.size; omega)]
  rfl

/-- The active window goes with the spec. -/
structure ActiveWindow.Of (w : ActiveWindow) (a : PrepareArgs) : Prop where
  contract_version : w.contract_version = a.contract_version
  total_slices : w.total_slices = a.total_slices
  plan_fingerprint : w.plan_fingerprint = a.plan_fingerprint

variable {w : ActiveWindow}

theorem of_not_drifts (h : ¬ w.drifts a) : w.Of a := by
  simp only [ActiveWindow.drifts, not_or, not_not] at h
  exact ⟨h.1, h.2.1, h.2.2.2.2⟩

/-- The window of a schedule whose active window goes with the spec. -/
theorem ready_of_active (hargs : a.Of spec) (hactive : s.active = some w) (hsame : w.Of a)
    (hsome : s.missing w.total_slices ≠ []) :
    ∃ window, prepare_reply spec (.ready w.window_id (lua.tonumber w.scheduled_at)
        ((s.missing w.total_slices).map lua.tostring)) = .ok (.Ready window) ∧
      ReadyFor spec s w window := by
  obtain ⟨hversion, htotal, hfingerprint⟩ := hsame
  have hbound : ∀ index ∈ s.missing w.total_slices, index < a.total_slices := by
    intro index hindex
    rw [← htotal]
    exact (mem_missing.mp hindex).1
  refine ⟨_, prepare_reply_ready hargs hbound (missing_rises s _) hsome, ?_⟩
  refine ⟨hactive, rfl, rfl, rfl, rfl, ?_, ?_, ?_, ⟨rfl, rfl, rfl⟩, ?_⟩
  · rw [hversion, hargs.contract_version]
  · rw [htotal, hargs.total_slices]
  · rw [hfingerprint, hargs.plan_fingerprint]
  · apply toNat_ofNat_missing
    rw [htotal]
    exact hargs.slices.2

section

variable (hs : Recorded i now s)
include hs

/-- Some slice of an active window is missing. -/
theorem Recorded.missing_ne_nil (hactive : s.active = some w) :
    s.missing w.total_slices ≠ [] := by
  obtain ⟨hsubset, -, hless⟩ := hs.acks w hactive
  intro hnil
  have hall : Finset.range w.total_slices ⊆ s.acks := by
    intro index hindex
    by_contra hmissing
    have hmem : index ∈ s.missing w.total_slices :=
      mem_missing.mpr ⟨Finset.mem_range.mp hindex, hmissing⟩
    rw [hnil] at hmem
    cases hmem
  have hcard := Finset.card_le_card hall
  rw [Finset.card_range] at hcard
  omega

theorem Recorded.count_eq (hactive : s.active = some w) :
    w.ack_count = ((List.range w.total_slices).filter (· ∈ s.acks)).length := by
  obtain ⟨hsubset, hcount, -⟩ := hs.acks w hactive
  have hfilter : ((List.range w.total_slices).filter (· ∈ s.acks)).toFinset = s.acks := by
    ext index
    simp only [List.mem_toFinset, List.mem_filter, List.mem_range, decide_eq_true_eq]
    exact ⟨fun h => h.2, fun h => ⟨Finset.mem_range.mp (hsubset h), h⟩⟩
  rw [hcount, ← List.toFinset_card_of_nodup (List.nodup_range.filter _), hfilter]

/-- A window that is active is resumed, unless the spec has changed. -/
theorem prepare_resumes (hargs : prepare_args spec lease = .ok a)
    (hcurrent : leader_is_current now keys lease = true) (hactive : s.active = some w)
    (hsame : ¬ w.drifts a) :
    ∃ window, prepare_window now keys spec lease s = (.ok (.Ready window), s) ∧
      ReadyFor spec s w window := by
  have hof := of_not_drifts hsame
  have hscript : prepare_script now a s =
      (.ready w.window_id (lua.tonumber w.scheduled_at)
        ((s.missing w.total_slices).map lua.tostring), s) := by
    unfold prepare_script
    rw [hactive]
    dsimp only
    rw [if_neg hsame, ← hof.total_slices, if_neg (not_not.mpr (hs.count_eq hactive))]
  obtain ⟨window, hreply, hready⟩ := ready_of_active (prepare_args_ok hargs) hactive hof
    (hs.missing_ne_nil hactive)
  refine ⟨window, ?_, hready⟩
  rw [prepare_window_eq hargs hcurrent, hscript, hreply]

/-- A new window starts with all of its slices. -/
theorem prepare_activates (hargs : prepare_args spec lease = .ok a) (hi : spec.scenario_id = i)
    (hcurrent : leader_is_current now keys lease = true) (hidle : s.active = none)
    (hopen : ¬ (a.repeat_kind = .once ∧ s.once_done = true)) (hdue : s.due_at now ≤ now) :
    ∃ window, prepare_window now keys spec lease s =
        (.ok (.Ready window), { s with active := some (activated a (s.due_at now)) }) ∧
      ReadyFor spec { s with active := some (activated a (s.due_at now)) }
        (activated a (s.due_at now)) window := by
  have hof := prepare_args_ok hargs
  have hnew := hs.activate hidle hof hi hdue
  have hall : ({ s with active := some (activated a (s.due_at now)) } : Schedule).missing
      a.total_slices = List.range a.total_slices := by
    simp [Schedule.missing, hs.idle hidle]
  have hscript : prepare_script now a s =
      (.ready (activated a (s.due_at now)).window_id (s.due_at now)
        ((List.range a.total_slices).map lua.tostring),
        { s with active := some (activated a (s.due_at now)) }) := by
    unfold prepare_script
    rw [hidle]
    dsimp only
    rw [if_neg hopen, if_neg (Nat.not_lt.mpr hdue)]
  obtain ⟨window, hreply, hready⟩ := ready_of_active hof rfl ⟨rfl, rfl, rfl⟩
    (hnew.missing_ne_nil rfl)
  refine ⟨window, ?_, hready⟩
  rw [prepare_window_eq hargs hcurrent, hscript, ← hall]
  have htime : lua.tonumber (activated a (s.due_at now)).scheduled_at = s.due_at now :=
    hs.tonumber_due_at now
  rw [htime] at hreply
  exact Prod.ext hreply rfl

end

/-- Every window that a scheduler gets is the active window after the call. -/
theorem prepare_ready (hs : Recorded spec.scenario_id now s)
    (h : (prepare_window now keys spec lease s).1 = .ok (.Ready window)) :
    ∃ w, ReadyFor spec (prepare_window now keys spec lease s).2 w window := by
  cases hargs : prepare_args spec lease with
  | error e =>
    simp only [prepare_window, hargs] at h
    cases h
  | ok a =>
    by_cases hcurrent : leader_is_current now keys lease = true
    · have hcases := prepare_script_cases now a s
      have hreply := h
      rw [prepare_window_eq hargs hcurrent] at hreply
      generalize prepare_script now a s = result at hcases hreply
      cases hcases with
      | drifted | inconsistent | finished | not_due => cases hreply
      | resumed hactive hsame =>
        obtain ⟨window', hwindow, hready⟩ := prepare_resumes hs hargs hcurrent hactive hsame
        rw [hwindow] at h ⊢
        cases h
        exact ⟨_, hready⟩
      | activated hidle hopen hdue =>
        obtain ⟨window', hwindow, hready⟩ :=
          prepare_activates hs hargs rfl hcurrent hidle hopen hdue
        rw [hwindow] at h ⊢
        cases h
        exact ⟨_, hready⟩
    · simp only [prepare_window, hargs, if_neg hcurrent] at h
      cases h

end ready

/-- The schedulers from empty schedules, with the calls that `allowed` lets in and a clock below
`limit`. -/
def dispatchSystem (limit : Nat) (allowed : World → Op → Prop) : System World Op where
  initial w := ∃ now < limit, ∃ keys, w = ⟨now, keys, fun _ => .empty⟩
  allowed w op := allowed w op ∧ (w.step op).now < limit
  next := .step

theorem empty_recorded (i : String) (now : Nat) : Recorded i now Schedule.empty := by
  refine ⟨fun _ => rfl, ?_, ?_, ?_⟩
  · rintro w ⟨⟩
  · rintro w ⟨⟩
  · rintro text ⟨⟩

theorem reachable_recorded {limit : Nat} {allowed : World → Op → Prop} {w : World}
    (h : Reachable (dispatchSystem limit allowed) w) : w.recorded ∧ w.now < limit := by
  refine Reachable.invariant (I := fun w => w.recorded ∧ w.now < limit) ?_ ?_ h
  · rintro w ⟨now, hnow, keys, rfl⟩
    exact ⟨fun i => empty_recorded i now, hnow⟩
  · rintro w op ⟨hw, -⟩ ⟨-, hnow⟩
    exact ⟨step_recorded hw, hnow⟩

end pulse.dispatch
