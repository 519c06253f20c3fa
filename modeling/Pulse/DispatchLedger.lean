-- The scheduler loops of all nodes over one ledger. A slice is acknowledged
-- in the ledger only after the job topic has acknowledged its job, so a
-- window that is complete has a job for each slice, whoever led and whatever
-- failed on the way.
import Pulse.PlanMaterial
import Pulse.ScheduledJobs
import Pulse.WindowHistory

open durations systems
open pulse.contracts pulse.coordination pulse.dispatch pulse.leader_lock pulse.planning

namespace pulse.ledger

/-! ## The loops -/

/-- The plan and the settings with which a node schedules. -/
structure Scheduler where
  plan : ScenarioExecutionPlan
  startup_burst : Nat
  worker_max_retries : UInt32

namespace Scheduler

def spec (scheduler : Scheduler) : DispatchSpec :=
  dispatch_spec scheduler.plan scheduler.startup_burst scheduler.worker_max_retries

def scenario_id (scheduler : Scheduler) : String := scheduler.plan.scenario.name

/-- The text behind the fingerprint. -/
def material (scheduler : Scheduler) : String :=
  scenario_plan_material scheduler.plan.scenario scheduler.plan.scenario.slices
    scheduler.startup_burst scheduler.worker_max_retries
    scheduler.plan.execution_semantics_fingerprint

/-- The text tells the load: the endpoint does not hold the label that follows it, and the duration
is one of whole milliseconds. -/
structure Readable (scheduler : Scheduler) : Prop where
  endpoint : ¬ strings.contains scheduler.plan.scenario.config.endpoint "|rate="
  duration : ∃ ms, scheduler.plan.scenario.config.duration = Duration.from_millis ms

def job (scheduler : Scheduler) (window : DispatchWindow) (index : UInt32) : Option ScenarioJob :=
  scheduled_job scheduler.plan scheduler.startup_burst scheduler.worker_max_retries window index

end Scheduler

/-- A window in the hands of a scheduler, and its number among the windows of the scenario. -/
structure Dispatch where
  scheduler : Scheduler
  window : DispatchWindow
  activation : Nat

/-- Where the loop of a node is. -/
inductive Node
  | idle
  | prepared (d : Dispatch)
  | dispatching (d : Dispatch) (left : List UInt32)
  | published (d : Dispatch) (index : UInt32) (left : List UInt32)

def Node.dispatch : Node → Option Dispatch
  | .idle => none
  | .prepared d => some d
  | .dispatching d _ => some d
  | .published d _ _ => some d

/-! ## The history -/

/-- A job that was appended to the topic. -/
structure Sent where
  dispatch : Dispatch
  index : UInt32
  job : ScenarioJob

/-- An acknowledgement in the ledger, and how many jobs the topic had acknowledged before. -/
structure Receipt where
  scenario_id : String
  activation : Nat
  index : Nat
  confirmed : Nat

structure Ledger where
  history : History
  nodes : Nat → Node
  sent : List Sent
  /-- The jobs that the topic acknowledged. -/
  confirmed : List ScenarioJob
  receipts : List Receipt

namespace Ledger

def become (s : Ledger) (n : Nat) (node : Node) : Ledger :=
  { s with nodes := Function.update s.nodes n node }

/-- The receipt of a call that changes the ledger. -/
def recorded (s : Ledger) : Op → List Receipt
  | .ack_slice window index lease =>
    if (s.history.act (.ack_slice window index lease)).world.schedules window.scenario_id =
        s.history.world.schedules window.scenario_id then []
    else
      [⟨window.scenario_id, s.history.completed window.scenario_id, index.toNat,
        s.confirmed.length⟩]
  | _ => []

def act (s : Ledger) (op : Op) : Ledger :=
  { s with history := s.history.act op, receipts := s.receipts ++ s.recorded op }

end Ledger

/-! ## The steps -/

/-- The end of a publication: the topic acknowledged the job, or the producer reports a failure and
the job is in the topic or not. -/
inductive Publication
  | confirmed
  | failed (appended : Bool)

/-- A call on the store: it is answered, its answer is lost, or it does not reach the store. -/
inductive Delivery
  | answered
  | lost
  | unsent

inductive Event
  /-- A call of the elector of some node, or time that passes. -/
  | leader (op : Op)
  | prepare (n : Nat) (scheduler : Scheduler) (lease : LeaderLease) (delivery : Delivery)
  | register (n : Nat) (ok : Bool)
  | publish (n : Nat) (publication : Publication)
  | ack (n : Nat) (lease : LeaderLease) (delivery : Delivery)
  /-- The loop is left: a crash, a shutdown or a lease that is lost. -/
  | leave (n : Nat)

/-- The call is one of an elector. -/
def isElector : Op → Bool
  | .prepare_window _ _ => false
  | .ack_slice _ _ _ => false
  | _ => true

namespace Ledger

/-- The window of the answer is the one that is active then. -/
def prepared (s : Ledger) (scheduler : Scheduler) (lease : LeaderLease) : Node :=
  match (prepare_window s.history.world.now s.history.world.keys scheduler.spec lease
    (s.history.world.schedules scheduler.scenario_id)).1 with
  | .ok (.Ready window) =>
    .prepared ⟨scheduler, window,
      (s.history.act (.prepare_window scheduler.spec lease)).completed scheduler.scenario_id⟩
  | _ => .idle

def prepare (s : Ledger) (n : Nat) (scheduler : Scheduler) (lease : LeaderLease) :
    Delivery → Ledger
  | .answered => (s.act (.prepare_window scheduler.spec lease)).become n
      (s.prepared scheduler lease)
  | .lost => s.act (.prepare_window scheduler.spec lease)
  | .unsent => s

def publish (s : Ledger) (n : Nat) (d : Dispatch) (index : UInt32) (left : List UInt32)
    (job : ScenarioJob) : Publication → Ledger
  | .confirmed =>
    become { s with sent := s.sent ++ [⟨d, index, job⟩], confirmed := s.confirmed ++ [job] } n
      (.published d index left)
  | .failed true => become { s with sent := s.sent ++ [⟨d, index, job⟩] } n .idle
  | .failed false => s.become n .idle

def ack (s : Ledger) (n : Nat) (d : Dispatch) (index : UInt32) (left : List UInt32)
    (lease : LeaderLease) : Delivery → Ledger
  | .answered =>
    (s.act (.ack_slice d.window index lease)).become n
      (if (ack_slice s.history.world.now s.history.world.keys d.window index lease
          (s.history.world.schedules d.window.scenario_id)).1.isOk
        then .dispatching d left else .idle)
  | .lost => (s.act (.ack_slice d.window index lease)).become n .idle
  | .unsent => s.become n .idle

def step (s : Ledger) : Event → Ledger
  | .leader op => s.act op
  | .prepare n scheduler lease delivery =>
    match s.nodes n with
    | .idle => s.prepare n scheduler lease delivery
    | _ => s
  | .register n ok =>
    match s.nodes n with
    | .prepared d => s.become n (if ok then .dispatching d d.window.missing_slices else .idle)
    | _ => s
  | .publish n publication =>
    match s.nodes n with
    | .dispatching _ [] => s.become n .idle
    | .dispatching d (index :: left) =>
      match d.scheduler.job d.window index with
      | none => s.become n .idle
      | some job => s.publish n d index left job publication
    | _ => s
  | .ack n lease delivery =>
    match s.nodes n with
    | .published d index left => s.ack n d index left lease delivery
    | _ => s
  | .leave n => s.become n .idle

end Ledger

def ledgerSystem : System Ledger Event where
  initial s := ∃ now keys, s = ⟨.start now keys, fun _ => .idle, [], [], []⟩
  allowed _ event :=
    match event with
    | .leader op => isElector op = true
    | _ => True
  next := .step

/-! ## The receipts -/

/-- The receipt is for the slice `index` of window `k` of scenario `i`. -/
structure Receipt.At (r : Receipt) (i : String) (k index : Nat) : Prop where
  scenario_id : r.scenario_id = i
  activation : r.activation = k
  index : r.index = index

/-- The job is for the slice `index` of the window. -/
structure IsSlice (job : ScenarioJob) (w : ActiveWindow) (index : Nat) : Prop where
  run_id : job.run_id = w.window_id
  execution_key : job.execution_key = slice_key w.window_id index w.total_slices

/-- Each acknowledgement in the ledger has a receipt, and each receipt a job that the topic had
acknowledged before. -/
structure Receipted (s : Ledger) : Prop where
  active : ∀ i, ∀ index ∈ (s.history.world.schedules i).acks, ∃ r ∈ s.receipts,
    r.At i (s.history.completed i) index
  completed : ∀ i, ∀ k < s.history.completed i, ∀ act, (s.history.windows i)[k]? = some act →
    ∀ index < act.window.total_slices, ∃ r ∈ s.receipts, r.At i k index
  confirmed : ∀ r ∈ s.receipts, r.confirmed ≤ s.confirmed.length ∧
    ∃ act, (s.history.windows r.scenario_id)[r.activation]? = some act ∧
      ∃ job ∈ s.confirmed.take r.confirmed, IsSlice job act.window r.index

section receipted

variable {s : Ledger} {op : Op} {i : String}

/-- Windows are only added. -/
theorem act_windows {k : Nat} {act : Activation} (h : (s.history.windows i)[k]? = some act) :
    ((s.history.act op).windows i)[k]? = some act := by
  obtain ⟨hk, -⟩ := List.getElem?_eq_some_iff.mp h
  unfold History.act
  dsimp only
  rw [List.getElem?_append_left hk]
  exact h

theorem mem_act_receipts {r : Receipt} (h : r ∈ s.receipts) : r ∈ (s.act op).receipts :=
  List.mem_append_left _ h

theorem exists_act_receipt {k index : Nat} (h : ∃ r ∈ s.receipts, r.At i k index) :
    ∃ r ∈ (s.act op).receipts, r.At i k index := by
  obtain ⟨r, hr, hat⟩ := h
  exact ⟨r, mem_act_receipts hr, hat⟩

variable {window : DispatchWindow} {lease : LeaderLease} {index : UInt32}

/-- A call that changes the ledger leaves a receipt. -/
theorem act_receipt (hop : op = .ack_slice window index lease) (hi : window.scenario_id = i)
    (hchanged : (s.history.act op).world.schedules i ≠ s.history.world.schedules i) :
    ∃ r ∈ (s.act op).receipts, r.At i (s.history.completed i) index.toNat := by
  subst hop hi
  refine ⟨⟨window.scenario_id, s.history.completed window.scenario_id, index.toNat,
    s.confirmed.length⟩, List.mem_append_right _ ?_, ⟨rfl, rfl, rfl⟩⟩
  unfold Ledger.recorded
  dsimp only
  rw [if_neg hchanged]
  exact List.mem_singleton_self _

theorem receipted_active (hs : Receipted s) (hw : s.history.world.recorded) (i : String) :
    ∀ index ∈ ((s.history.act op).world.schedules i).acks,
      ∃ r ∈ (s.act op).receipts, r.At i ((s.history.act op).completed i) index := by
  have hnew : Recorded i (s.history.act op).world.now ((s.history.act op).world.schedules i) :=
    step_recorded hw i
  cases act_cases s.history op i with
  | kept hsame hwindows hcompleted =>
    intro index hindex
    rw [hsame] at hindex
    rw [hcompleted]
    exact exists_act_receipt (hs.active i index hindex)
  | activated hop hi hargs hidle hopen hdue hnext hwindows hcompleted =>
    intro index hindex
    rw [hnext] at hindex
    dsimp only at hindex
    rw [(hw i).idle hidle] at hindex
    cases hindex
  | @acknowledged window slice lease a active hop hi hargs hactive hfits hcount hnext hwindows
      hcompleted =>
    obtain ⟨hacks, -⟩ := acknowledge_acks (hw i) hactive a.slice_index
    obtain ⟨-, rfl⟩ := ack_args_ok hargs
    intro index hindex
    rw [hnext, hacks, Finset.mem_insert] at hindex
    rw [hcompleted]
    by_cases hold : index ∈ (s.history.world.schedules i).acks
    · exact exists_act_receipt (hs.active i index hold)
    · rcases hindex with rfl | hmem
      · apply act_receipt hop hi
        intro hsame
        apply hold
        rw [← hsame]
        rw [hnext, hacks]
        exact Finset.mem_insert_self _ _
      · exact absurd hmem hold
  | completed hop hi hargs hactive hfits hcount hnext hwindows hcompleted =>
    intro index hindex
    have hidle : ((s.history.act op).world.schedules i).active = none := by
      rw [hnext]
      rfl
    rw [hnew.idle hidle] at hindex
    cases hindex

/-- The slices that are acknowledged with the last one are all the slices of the window. -/
theorem acks_of_completed {slice : UInt32} {a : AckArgs} {active : ActiveWindow}
    (hw : s.history.world.recorded) (hargs : ack_args window slice lease = .ok a)
    (hactive : (s.history.world.schedules i).active = some active) (hfits : a.Fits active)
    (hcount : (s.history.world.schedules i).count_after active a.slice_index =
      active.total_slices) {index : Nat} (hindex : index < active.total_slices) :
    index ∈ (s.history.world.schedules i).acks ∨ index = slice.toNat := by
  obtain ⟨-, rfl⟩ := ack_args_ok hargs
  have hall : insert slice.toNat (s.history.world.schedules i).acks =
      Finset.range active.total_slices := by
    apply Finset.eq_of_subset_of_card_le (insert_subset (hw i) hactive hfits)
    rw [Finset.card_range, ← hcount, count_after_eq (hw i) hactive]
  have hmem : index ∈ insert slice.toNat (s.history.world.schedules i).acks := by
    rw [hall]
    exact Finset.mem_range.mpr hindex
  rcases Finset.mem_insert.mp hmem with heq | hold
  · exact .inr heq
  · exact .inl hold

theorem receipted_completed (hs : Receipted s) (hw : s.history.world.recorded)
    (ht : Told s.history i) :
    ∀ k < (s.history.act op).completed i, ∀ act, ((s.history.act op).windows i)[k]? = some act →
      ∀ index < act.window.total_slices, ∃ r ∈ (s.act op).receipts, r.At i k index := by
  -- the windows that were complete before keep their receipts
  have hbefore : ∀ k < s.history.completed i, ∀ act,
      ((s.history.act op).windows i)[k]? = some act →
      ∀ index < act.window.total_slices, ∃ r ∈ (s.act op).receipts, r.At i k index := by
    intro k hk act hact index hindex
    have hlength : k < (s.history.windows i).length := by
      cases hactive : (s.history.world.schedules i).active with
      | none =>
        rw [ht.idle hactive]
        exact hk
      | some w =>
        obtain ⟨-, -, -, hlength⟩ := ht.active w hactive
        omega
    have hold : (s.history.windows i)[k]? = some act := by
      have hgrown : ((s.history.act op).windows i)[k]? = some (s.history.windows i)[k] :=
        act_windows (List.getElem?_eq_getElem hlength)
      rw [hact] at hgrown
      rw [List.getElem?_eq_getElem hlength, hgrown]
    exact exists_act_receipt (hs.completed i k hk act hold index hindex)
  cases act_cases s.history op i with
  | kept _ _ hcompleted | activated _ _ _ _ _ _ _ _ hcompleted
  | acknowledged _ _ _ _ _ _ _ _ hcompleted =>
    rw [hcompleted]
    exact hbefore
  | completed hop hi hargs hactive hfits hcount hnext hwindows hcompleted =>
    rw [hcompleted]
    intro k hk act hact index hindex
    rcases Nat.lt_succ_iff_lt_or_eq.mp hk with hless | rfl
    · exact hbefore k hless act hact index hindex
    · obtain ⟨act', hact', hwindow, -⟩ := ht.active _ hactive
      rw [act_windows hact'] at hact
      cases hact
      rw [hwindow] at hindex
      rcases acks_of_completed hw hargs hactive hfits hcount hindex with hold | rfl
      · exact exists_act_receipt (hs.active i index hold)
      · apply act_receipt hop hi
        rw [hnext]
        intro hsame
        rw [← hsame] at hactive
        cases hactive

/-- The topic has acknowledged the job of the slice that the call acknowledges. -/
def Confirms (s : Ledger) (op : Op) : Prop :=
  ∀ window index lease, op = .ack_slice window index lease →
    ∃ job ∈ s.confirmed, job.run_id = window.window_id ∧
      job.execution_key = slice_key window.window_id index.toNat window.total_slices.toNat

variable {job : ScenarioJob}

/-- The job of a slice of the active window. -/
theorem slice_of_ack {a : AckArgs} {active : ActiveWindow}
    (hargs : ack_args window index lease = .ok a) (hfits : a.Fits active)
    (hrun : job.run_id = window.window_id) (hkey : job.execution_key =
      slice_key window.window_id index.toNat window.total_slices.toNat) :
    IsSlice job active index.toNat := by
  obtain ⟨-, rfl⟩ := ack_args_ok hargs
  refine ⟨?_, ?_⟩
  · rw [hrun, hfits.window_id]
  · rw [hkey, hfits.window_id, hfits.total_slices]

/-- Only an acknowledgement of a slice of the active window changes the ledger. -/
theorem active_of_changed
    (h : (s.history.act (.ack_slice window index lease)).world.schedules window.scenario_id ≠
      s.history.world.schedules window.scenario_id) :
    ∃ a active, ack_args window index lease = .ok a ∧ a.Fits active ∧
      (s.history.world.schedules window.scenario_id).active = some active := by
  cases act_cases s.history (.ack_slice window index lease) window.scenario_id with
  | kept hsame _ _ => exact absurd hsame h
  | activated hop => cases hop
  | acknowledged hop _ hargs hactive hfits | completed hop _ hargs hactive hfits =>
    cases hop
    exact ⟨_, _, hargs, hfits, hactive⟩

theorem receipted_confirmed (hs : Receipted s) (ht : ∀ i, Told s.history i)
    (hop : Confirms s op) :
    ∀ r ∈ (s.act op).receipts, r.confirmed ≤ s.confirmed.length ∧
      ∃ act, ((s.history.act op).windows r.scenario_id)[r.activation]? = some act ∧
        ∃ job ∈ s.confirmed.take r.confirmed, IsSlice job act.window r.index := by
  intro r hr
  rcases List.mem_append.mp hr with hold | hnew
  · obtain ⟨hle, act, hact, hjob⟩ := hs.confirmed r hold
    exact ⟨hle, act, act_windows hact, hjob⟩
  · cases op with
    | acquire | renew | relinquish | prepare_window | wait => cases hnew
    | ack_slice window index lease =>
      unfold Ledger.recorded at hnew
      dsimp only at hnew
      split at hnew
      · cases hnew
      · rename_i hchanged
        cases List.mem_singleton.mp hnew
        obtain ⟨a, active, hargs, hfits, hactive⟩ := active_of_changed hchanged
        obtain ⟨act, hact, hwindow, -⟩ := (ht window.scenario_id).active active hactive
        obtain ⟨job, hmem, hrun, hkey⟩ := hop window index lease rfl
        obtain ⟨hslicerun, hslicekey⟩ := slice_of_ack hargs hfits hrun hkey
        refine ⟨le_rfl, act, act_windows hact, job, ?_, ?_⟩
        · dsimp only
          rwa [List.take_length]
        · rw [hwindow]
          exact ⟨hslicerun, hslicekey⟩

theorem act_receipted (hs : Receipted s) (hw : s.history.world.recorded)
    (ht : ∀ i, Told s.history i) (hop : Confirms s op) : Receipted (s.act op) :=
  ⟨receipted_active hs hw, fun i => receipted_completed hs hw (ht i), receipted_confirmed hs ht hop⟩

end receipted

/-! ## The loops -/

/-- The scheduler has the window as it was activated. -/
structure Dispatch.Of (d : Dispatch) (w : ActiveWindow) : Prop where
  run_id : d.window.run_id = w.window_id
  window_id : d.window.window_id = w.window_id
  scheduled_at : d.window.scheduled_at_unix_ms = lua.tonumber w.scheduled_at
  total_slices : d.window.total_slices.toNat = w.total_slices
  plan_fingerprint : d.window.plan_fingerprint = w.plan_fingerprint

/-- The window is the one with the number that the scheduler has for it. -/
def Dispatch.Holds (d : Dispatch) (h : History) : Prop :=
  ∃ act, (h.windows d.scheduler.scenario_id)[d.activation]? = some act ∧ d.Of act.window

/-- Every scheduler and every job has the window of its number, and a scheduler that is about to
acknowledge a slice has published its job. -/
structure Dispatched (s : Ledger) : Prop where
  nodes : ∀ n d, (s.nodes n).dispatch = some d → d.Holds s.history
  published : ∀ n d index left, s.nodes n = .published d index left →
    ∃ job ∈ s.confirmed, job.run_id = d.window.window_id ∧
      job.execution_key = slice_key d.window.window_id index.toNat d.window.total_slices.toNat
  sent : ∀ p ∈ s.sent, p.dispatch.Holds s.history ∧
    p.dispatch.scheduler.job p.dispatch.window p.index = some p.job

section dispatched

variable {s : Ledger} {op : Op} {n : Nat} {node : Node} {d : Dispatch}

theorem Dispatch.Holds.act (h : d.Holds s.history) : d.Holds (s.history.act op) := by
  obtain ⟨act, hact, hof⟩ := h
  exact ⟨act, act_windows hact, hof⟩

theorem act_dispatched (hs : Dispatched s) : Dispatched (s.act op) := by
  refine ⟨?_, hs.published, ?_⟩
  · intro n d hd
    exact (hs.nodes n d hd).act
  · intro p hp
    exact ⟨(hs.sent p hp).1.act, (hs.sent p hp).2⟩

theorem become_dispatched (hs : Dispatched s)
    (hnode : ∀ d, node.dispatch = some d → d.Holds s.history)
    (hpublished : ∀ d index left, node = .published d index left →
      ∃ job ∈ s.confirmed, job.run_id = d.window.window_id ∧
        job.execution_key = slice_key d.window.window_id index.toNat d.window.total_slices.toNat) :
    Dispatched (s.become n node) := by
  have hnodes : ∀ m, (s.become n node).nodes m = if m = n then node else s.nodes m := by
    intro m
    unfold Ledger.become
    by_cases hm : m = n
    · subst hm
      simp
    · simp [hm]
  refine ⟨?_, ?_, hs.sent⟩
  · intro m d hd
    rw [hnodes] at hd
    split at hd
    · exact hnode d hd
    · exact hs.nodes m d hd
  · intro m d index left hm
    rw [hnodes] at hm
    split at hm
    · exact hpublished d index left hm
    · exact hs.published m d index left hm

theorem idle_dispatched (hs : Dispatched s) : Dispatched (s.become n .idle) := by
  apply become_dispatched hs
  · rintro d ⟨⟩
  · rintro d index left ⟨⟩

/-- What a scheduled job has from its window. -/
theorem job_fields {scheduler : Scheduler} {window : DispatchWindow}
    (h : scheduler.job window index = some job) :
    job.run_id = window.run_id ∧
      job.execution_key = slice_key window.window_id index.toNat window.total_slices.toNat ∧
      job.scheduled_at_unix_ms = window.scheduled_at_unix_ms ∧
      job.plan_fingerprint = window.plan_fingerprint ∧
      job.load = slice_load scheduler.plan.scenario window.total_slices index
        scheduler.startup_burst := by
  unfold Scheduler.job scheduled_job DispatchWindow.execution_key at h
  split at h
  · cases h
    exact ⟨rfl, rfl, rfl, rfl, rfl⟩
  · cases h

theorem publish_dispatched {left : List UInt32} (hs : Dispatched s) (hd : d.Holds s.history)
    (hjob : d.scheduler.job d.window index = some job) (publication : Publication) :
    Dispatched (s.publish n d index left job publication) := by
  have hsent : ∀ p ∈ s.sent ++ [⟨d, index, job⟩], p.dispatch.Holds s.history ∧
      p.dispatch.scheduler.job p.dispatch.window p.index = some p.job := by
    intro p hp
    rcases List.mem_append.mp hp with hold | hnew
    · exact hs.sent p hold
    · cases List.mem_singleton.mp hnew
      exact ⟨hd, hjob⟩
  cases publication with
  | confirmed =>
    apply become_dispatched
    · refine ⟨hs.nodes, ?_, hsent⟩
      intro m d' index' left' hm
      obtain ⟨job', hmem, hrest⟩ := hs.published m d' index' left' hm
      exact ⟨job', List.mem_append_left _ hmem, hrest⟩
    · rintro d' ⟨⟩
      exact hd
    · rintro d' index' left' ⟨⟩
      obtain ⟨hrun, hkey, -⟩ := job_fields hjob
      obtain ⟨act, -, hof⟩ := hd
      refine ⟨job, List.mem_append_right _ (List.mem_singleton_self job), ?_, hkey⟩
      rw [hrun, hof.run_id, hof.window_id]
  | failed appended =>
    cases appended with
    | true => exact idle_dispatched ⟨hs.nodes, hs.published, hsent⟩
    | false => exact idle_dispatched hs

variable {lease : LeaderLease}

/-- The window of an answer is the active window of its number. -/
theorem prepared_holds {scheduler : Scheduler} (hw : s.history.world.recorded)
    (ht : ∀ i, Told s.history i) (h : (s.prepared scheduler lease).dispatch = some d) :
    d.Holds (s.history.act (.prepare_window scheduler.spec lease)) := by
  unfold Ledger.prepared at h
  split at h
  · rename_i window hready
    cases h
    obtain ⟨w, hready⟩ := prepare_ready (hw scheduler.spec.scenario_id) hready
    have hactive : ((s.history.act (.prepare_window scheduler.spec lease)).world.schedules
        scheduler.scenario_id).active = some w := by
      have hnew := hready.active
      change ((s.history.world.step (.prepare_window scheduler.spec lease)).schedules
        scheduler.spec.scenario_id).active = some w
      simpa [World.step, World.schedules_set] using hnew
    obtain ⟨act, hact, hwindow, -⟩ := (step_told (ht scheduler.scenario_id)).active w hactive
    refine ⟨act, hact, ?_⟩
    rw [hwindow]
    exact ⟨hready.run_id, hready.window_id, hready.scheduled_at, hready.total_slices,
      hready.plan_fingerprint⟩
  · cases h

end dispatched

/-! ## Every reachable ledger -/

structure Kept (s : Ledger) : Prop where
  recorded : s.history.world.recorded
  told : ∀ i, Told s.history i
  receipted : Receipted s
  dispatched : Dispatched s

section kept

variable {s : Ledger} {n : Nat} {d : Dispatch} {index : UInt32} {left : List UInt32}

theorem act_kept {op : Op} (hs : Kept s) (hop : Confirms s op) : Kept (s.act op) :=
  ⟨step_recorded hs.recorded, fun i => step_told (hs.told i),
    act_receipted hs.receipted hs.recorded hs.told hop, act_dispatched hs.dispatched⟩

/-- A step of a loop that leaves the ledger as it is. -/
theorem become_kept {node : Node} (hs : Kept s) (hd : Dispatched (s.become n node)) :
    Kept (s.become n node) :=
  ⟨hs.recorded, hs.told, ⟨hs.receipted.active, hs.receipted.completed, hs.receipted.confirmed⟩, hd⟩

theorem idle_kept (hs : Kept s) : Kept (s.become n .idle) :=
  become_kept hs (idle_dispatched hs.dispatched)

theorem prepare_confirms (scheduler : Scheduler) (lease : LeaderLease) :
    Confirms s (.prepare_window scheduler.spec lease) := by
  rintro window index lease' ⟨⟩

theorem prepare_kept {scheduler : Scheduler} (hs : Kept s) (delivery : Delivery) :
    Kept (s.prepare n scheduler lease delivery) := by
  have hact := act_kept hs (prepare_confirms scheduler lease)
  cases delivery with
  | answered =>
    apply become_kept hact
    apply become_dispatched hact.dispatched
    · intro d hd
      exact prepared_holds hs.recorded hs.told hd
    · intro d index left hd
      unfold Ledger.prepared at hd
      split at hd
      · cases hd
      · cases hd
  | lost => exact hact
  | unsent => exact hs

theorem publish_kept (hs : Kept s) (hd : d.Holds s.history)
    (hjob : d.scheduler.job d.window index = some job) (publication : Publication) :
    Kept (s.publish n d index left job publication) := by
  have hdispatched : Dispatched (s.publish n d index left job publication) :=
    publish_dispatched hs.dispatched hd hjob publication
  cases publication with
  | confirmed =>
    refine ⟨hs.recorded, hs.told, ⟨hs.receipted.active, hs.receipted.completed, ?_⟩, hdispatched⟩
    intro r hr
    obtain ⟨hle, act, hact, job', hmem, hslice⟩ := hs.receipted.confirmed r hr
    change r.confirmed ≤ (s.confirmed ++ [job]).length ∧ ∃ act,
      (s.history.windows r.scenario_id)[r.activation]? = some act ∧
        ∃ job' ∈ (s.confirmed ++ [job]).take r.confirmed, IsSlice job' act.window r.index
    refine ⟨?_, act, hact, job', ?_, hslice⟩
    · rw [List.length_append]
      omega
    · rwa [List.take_append_of_le_length hle]
  | failed appended =>
    cases appended with
    | true =>
      exact ⟨hs.recorded, hs.told,
        ⟨hs.receipted.active, hs.receipted.completed, hs.receipted.confirmed⟩, hdispatched⟩
    | false => exact idle_kept hs

theorem ack_kept (hs : Kept s) (hnode : s.nodes n = .published d index left) (delivery : Delivery) :
    Kept (s.ack n d index left lease delivery) := by
  have hconfirms : Confirms s (.ack_slice d.window index lease) := by
    rintro window index' lease' ⟨⟩
    exact hs.dispatched.published n d index left hnode
  have hact := act_kept hs hconfirms
  have hd : d.Holds (s.history.act (.ack_slice d.window index lease)) := by
    apply Dispatch.Holds.act
    apply hs.dispatched.nodes n
    rw [hnode]
    rfl
  cases delivery with
  | answered =>
    apply become_kept hact
    apply become_dispatched hact.dispatched
    · intro d' hd'
      split at hd'
      · cases hd'
        exact hd
      · cases hd'
    · intro d' index' left' hd'
      split at hd'
      · cases hd'
      · cases hd'
  | lost => exact idle_kept hact
  | unsent => exact idle_kept hs

theorem step_kept {event : Event} (hs : Kept s) (hallowed : ledgerSystem.allowed s event) :
    Kept (s.step event) := by
  cases event with
  | leader op =>
    apply act_kept hs
    rintro window index lease rfl
    cases hallowed
  | prepare n scheduler lease delivery =>
    unfold Ledger.step
    dsimp only
    split
    · exact prepare_kept hs delivery
    · exact hs
  | register n ok =>
    unfold Ledger.step
    dsimp only
    split
    · rename_i d hnode
      apply become_kept hs
      apply become_dispatched hs.dispatched
      · intro d' hd'
        apply hs.dispatched.nodes n d'
        rw [hnode]
        split at hd'
        · exact hd'
        · cases hd'
      · intro d' index left hd'
        split at hd'
        · cases hd'
        · cases hd'
    · exact hs
  | publish n publication =>
    unfold Ledger.step
    dsimp only
    split
    · exact idle_kept hs
    · rename_i d index left hnode
      split
      · exact idle_kept hs
      · rename_i job hjob
        apply publish_kept hs _ hjob
        apply hs.dispatched.nodes n
        rw [hnode]
        rfl
    · exact hs
  | ack n lease delivery =>
    unfold Ledger.step
    dsimp only
    split
    · rename_i d index left hnode
      exact ack_kept hs hnode delivery
    · exact hs
  | leave n => exact idle_kept hs

theorem reachable_kept (hs : Reachable ledgerSystem s) : Kept s := by
  refine Reachable.invariant ?_ ?_ hs
  · rintro s ⟨now, keys, rfl⟩
    refine ⟨fun i => empty_recorded i now, fun i => start_told now keys i, ⟨?_, ?_, ?_⟩,
      ⟨?_, ?_, ?_⟩⟩
    · intro i index hindex
      cases hindex
    · intro i k hk
      cases hk
    · intro r hr
      cases hr
    · rintro n d ⟨⟩
    · rintro n d index left ⟨⟩
    · intro p hp
      cases hp
  · intro s event hs hallowed
    exact step_kept hs hallowed

/-- Each slice of the window has a receipt, and the topic had acknowledged its job before. -/
def Settled (s : Ledger) (i : String) (k : Nat) (act : Activation) : Prop :=
  ∀ index < act.window.total_slices, ∃ r ∈ s.receipts, r.At i k index ∧
    ∃ job ∈ s.confirmed.take r.confirmed, IsSlice job act.window index

theorem Kept.settled {i : String} {k : Nat} {act : Activation} (hs : Kept s)
    (hk : k < s.history.completed i) (hact : (s.history.windows i)[k]? = some act) :
    Settled s i k act := by
  intro index hindex
  obtain ⟨r, hr, hat⟩ := hs.receipted.completed i k hk act hact index hindex
  obtain ⟨-, act', hact', job, hjob, hslice⟩ := hs.receipted.confirmed r hr
  rw [hat.scenario_id, hat.activation, hact] at hact'
  cases hact'
  rw [hat.index] at hslice
  exact ⟨r, hr, hat, job, hjob, hslice⟩

/-- Two jobs for one slice of one window. -/
structure SameSlice (p p' : Sent) : Prop where
  scenario_id : p.dispatch.scheduler.scenario_id = p'.dispatch.scheduler.scenario_id
  activation : p.dispatch.activation = p'.dispatch.activation
  index : p.index = p'.index

/-- Schedulers with one text split the load in the same way. -/
theorem same_slice_load {scheduler scheduler' : Scheduler}
    (hmaterial : scheduler.material = scheduler'.material) (hread : scheduler.Readable)
    (hread' : scheduler'.Readable) (total index : UInt32) :
    slice_load scheduler.plan.scenario total index scheduler.startup_burst =
      slice_load scheduler'.plan.scenario total index scheduler'.startup_burst := by
  have hfields := same_fields hread.endpoint hread'.endpoint hmaterial
  obtain ⟨ms, hms⟩ := hread.duration
  obtain ⟨ms', hms'⟩ := hread'.duration
  have hduration : scheduler.plan.scenario.config.duration =
      scheduler'.plan.scenario.config.duration := by
    have hmillis := hfields.duration
    rw [hms, hms'] at hmillis ⊢
    unfold Duration.as_millis Duration.from_millis NANOS_PER_MILLI at *
    omega
  unfold slice_load
  rw [hfields.rate, hfields.concurrency, hfields.burst, hduration]

theorem Kept.same_job {p p' : Sent} (hs : Kept s) (hp : p ∈ s.sent) (hp' : p' ∈ s.sent)
    (hsame : SameSlice p p') :
    p.job.run_id = p'.job.run_id ∧ p.job.execution_key = p'.job.execution_key ∧
      p.job.scheduled_at_unix_ms = p'.job.scheduled_at_unix_ms ∧
      p.job.plan_fingerprint = p'.job.plan_fingerprint ∧
      (p.dispatch.scheduler.material = p'.dispatch.scheduler.material →
        p.dispatch.scheduler.Readable → p'.dispatch.scheduler.Readable →
        p.job.load = p'.job.load) := by
  obtain ⟨⟨act, hact, hof⟩, hjob⟩ := hs.dispatched.sent p hp
  obtain ⟨⟨act', hact', hof'⟩, hjob'⟩ := hs.dispatched.sent p' hp'
  rw [hsame.scenario_id, hsame.activation, hact'] at hact
  cases hact
  obtain ⟨hrun, hkey, htime, hfingerprint, hload⟩ := job_fields hjob
  obtain ⟨hrun', hkey', htime', hfingerprint', hload'⟩ := job_fields hjob'
  have htotal : p.dispatch.window.total_slices = p'.dispatch.window.total_slices := by
    apply UInt32.toNat_inj.mp
    rw [hof.total_slices, hof'.total_slices]
  refine ⟨?_, ?_, ?_, ?_, ?_⟩
  · rw [hrun, hrun', hof.run_id, hof'.run_id]
  · rw [hkey, hkey', hof.window_id, hof'.window_id, hsame.index, htotal]
  · rw [htime, htime', hof.scheduled_at, hof'.scheduled_at]
  · rw [hfingerprint, hfingerprint', hof.plan_fingerprint, hof'.plan_fingerprint]
  · intro hmaterial hread hread'
    rw [hload, hload', htotal, hsame.index]
    exact same_slice_load hmaterial hread hread' _ _

/-- The ledger counts its acknowledgements, a window is resumed with the slices that are missing,
and a window that is complete has a job for each of its slices that the topic acknowledged before
the ledger did. The jobs for one slice of one window have the same identities and time, and the
same load when the texts behind their fingerprint are the same and tell the load. -/
theorem every_slice_is_dispatched (hs : Reachable ledgerSystem s) :
    (∀ i, ((s.history.world.schedules i).active = none →
        (s.history.world.schedules i).acks = ∅) ∧
      ∀ w, (s.history.world.schedules i).active = some w →
        w.ack_count = (s.history.world.schedules i).acks.card ∧
        (s.history.world.schedules i).acks ⊆ Finset.range w.total_slices ∧
        ∀ index ∈ (s.history.world.schedules i).acks,
          ∃ r ∈ s.receipts, r.At i (s.history.completed i) index) ∧
    (∀ w spec lease a, (s.history.world.schedules spec.scenario_id).active = some w →
      prepare_args spec lease = .ok a →
      leader_is_current s.history.world.now s.history.world.keys lease = true → ¬ w.drifts a →
      ∃ window, prepare_window s.history.world.now s.history.world.keys spec lease
          (s.history.world.schedules spec.scenario_id) =
            (.ok (.Ready window), s.history.world.schedules spec.scenario_id) ∧
        window.missing_slices.map (·.toNat) = (List.range w.total_slices).filter
          (· ∉ (s.history.world.schedules spec.scenario_id).acks)) ∧
    (∀ i k act, (s.history.windows i)[k]? = some act → k + 1 < (s.history.windows i).length →
      Settled s i k act) ∧
    (∀ i id, (s.history.world.schedules i).last_completed_window = some id →
      ∃ k act, (s.history.windows i)[k]? = some act ∧ act.window.window_id = id ∧
        Settled s i k act) ∧
    (∀ p ∈ s.sent, ∀ p' ∈ s.sent, SameSlice p p' →
      p.job.run_id = p'.job.run_id ∧ p.job.execution_key = p'.job.execution_key ∧
        p.job.scheduled_at_unix_ms = p'.job.scheduled_at_unix_ms ∧
        p.job.plan_fingerprint = p'.job.plan_fingerprint ∧
        (p.dispatch.scheduler.material = p'.dispatch.scheduler.material →
          p.dispatch.scheduler.Readable → p'.dispatch.scheduler.Readable →
          p.job.load = p'.job.load)) := by
  have hk := reachable_kept hs
  refine ⟨?_, ?_, ?_, ?_, ?_⟩
  · intro i
    refine ⟨(hk.recorded i).idle, ?_⟩
    intro w hw
    obtain ⟨hsubset, hcount, -⟩ := (hk.recorded i).acks w hw
    exact ⟨hcount, hsubset, hk.receipted.active i⟩
  · intro w spec lease a hactive hargs hcurrent hsame
    obtain ⟨window, hwindow, hready⟩ :=
      prepare_resumes (hk.recorded spec.scenario_id) hargs hcurrent hactive hsame
    exact ⟨window, hwindow, hready.missing⟩
  · intro i k act hact hlater
    exact hk.settled ((hk.told i).completed_of_lt hlater) hact
  · intro i id hid
    obtain ⟨k, hlt, act, hact, hwindow⟩ := (hk.told i).last id hid
    exact ⟨k, act, hact, hwindow, hk.settled hlt hact⟩
  · intro p hp p' hp' hsame
    exact hk.same_job hp hp' hsame

end kept

/-! ## Two runs -/

def startLedger : Ledger := ⟨.start 0 ⟨none, 0⟩, fun _ => .idle, [], [], []⟩

/-- The scheduler of a scenario whose window is a second and some nanoseconds. -/
def sampleScheduler (nanos : Nat) : Scheduler := ⟨samplePlan (1000000000 + nanos), 0, 2⟩

theorem reachable_events {events : List Event}
    (h : ∀ event ∈ events, ∀ s, ledgerSystem.allowed s event) :
    Reachable ledgerSystem (events.foldl Ledger.step startLedger) := by
  apply Reachable.foldl (S := ledgerSystem)
  · exact Reachable.initial ⟨0, ⟨none, 0⟩, rfl⟩
  · generalize startLedger = s
    induction events generalizing s with
    | nil => exact trivial
    | cons event events ih =>
      refine ⟨h event List.mem_cons_self s, ih ?_ _⟩
      intro e he
      exact h e (List.mem_cons_of_mem _ he)

/-- The answer to the first acknowledgement is lost, and another node resumes the window. -/
def resumedEvents : List Event :=
  [.leader (.acquire (sampleElector "node-1") "a"),
    .prepare 0 (sampleScheduler 0) sampleLease .answered, .register 0 true, .publish 0 .confirmed,
    .ack 0 sampleLease .lost,
    .prepare 1 (sampleScheduler 0) sampleLease .answered, .register 1 true, .publish 1 .confirmed,
    .ack 1 sampleLease .answered]

def resumedLedger : Ledger := resumedEvents.foldl Ledger.step startLedger

theorem resumed_reachable : Reachable ledgerSystem resumedLedger := by
  apply reachable_events
  simp [resumedEvents, ledgerSystem, isElector]

theorem resumed_window_is_settled :
    ∃ k act, (resumedLedger.history.windows "checkout")[k]? = some act ∧
      act.window.window_id = "v2:s8:checkout:w0:n2" ∧ Settled resumedLedger "checkout" k act := by
  have hlast : (resumedLedger.history.world.schedules "checkout").last_completed_window =
      some "v2:s8:checkout:w0:n2" := by
    decide +kernel
  exact (every_slice_is_dispatched resumed_reachable).2.2.2.1 "checkout" _ hlast

/-- The first node fails in its first slice, and the second one resumes the window. -/
def mixedEvents (first second : Scheduler) : List Event :=
  [.leader (.acquire (sampleElector "node-1") "a"),
    .prepare 0 first sampleLease .answered, .register 0 true, .publish 0 (.failed true),
    .prepare 1 second sampleLease .answered, .register 1 true, .publish 1 .confirmed]

def mixedLedger (first second : Scheduler) : Ledger :=
  (mixedEvents first second).foldl Ledger.step startLedger

theorem mixed_reachable (first second : Scheduler) :
    Reachable ledgerSystem (mixedLedger first second) := by
  apply reachable_events
  simp [mixedEvents, ledgerSystem, isElector]

/-- Two jobs for one slice with one fingerprint and two loads. -/
def TwoLoads (s : Ledger) : Prop :=
  ∃ p ∈ s.sent, ∃ p' ∈ s.sent,
    (p.dispatch.scheduler.scenario_id = p'.dispatch.scheduler.scenario_id ∧
      p.dispatch.activation = p'.dispatch.activation ∧ p.index = p'.index) ∧
    p.job.plan_fingerprint = p'.job.plan_fingerprint ∧ p.job.load ≠ p'.job.load

instance (s : Ledger) : Decidable (TwoLoads s) :=
  inferInstanceAs (Decidable (∃ p ∈ s.sent, _))

/-- A scheduler whose endpoint and step are free texts. -/
def textScheduler (rate : ℚ) (endpoint step : String) : Scheduler :=
  let scenario := ratedScenario (.of rate) 1000000000
  ⟨⟨{ scenario with
      steps := [⟨"step", step, none⟩]
      config := { scenario.config with endpoint } }, ""⟩, 0, 2⟩

/-- The fields of the text between the rate and the steps. -/
def otherFields : String :=
  "|duration_ms=1000|concurrency=50|slices=2|startup_burst=0|max_retries=2|repeat=every:60000" ++
    "|partition=ExecutionKey|execution_semantics=|step="

/-- Twenty starts a second, and a step that goes on like a plan. -/
def plainEndpoint : Scheduler :=
  textScheduler 20 "edge" ("a|rate=402e000000000000" ++ otherFields ++ "b")

/-- Fifteen starts a second, behind an endpoint that goes on like a plan. -/
def longEndpoint : Scheduler :=
  textScheduler 15 ("edge|rate=4034000000000000" ++ otherFields ++ "a") "b"

/-- The fingerprint does not see the nanoseconds of a duration, nor where an endpoint ends. -/
theorem equal_fingerprints_of_two_loads :
    (Reachable ledgerSystem (mixedLedger (sampleScheduler 0) (sampleScheduler 1)) ∧
      (sampleScheduler 0).material = (sampleScheduler 1).material ∧
      TwoLoads (mixedLedger (sampleScheduler 0) (sampleScheduler 1))) ∧
    Reachable ledgerSystem (mixedLedger plainEndpoint longEndpoint) ∧
      plainEndpoint.material = longEndpoint.material ∧
      TwoLoads (mixedLedger plainEndpoint longEndpoint) :=
  ⟨⟨mixed_reachable _ _, by decide +kernel, by decide +kernel⟩,
    mixed_reachable _ _, by decide +kernel, by decide +kernel⟩

end pulse.ledger
