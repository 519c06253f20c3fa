-- The law of the outbox from end to end: a revision of a summary leaves the
-- outbox only after its event has reached the topic. Passes of any number of
-- processes may fail, stop and overlap in any way.
import Pulse.Maintenance
import Pulse.RunDeadlines
import Pulse.RunOutbox

open checks consumers keyspace systems
open pulse.contracts

namespace pulse.aggregation

/-! ## Acknowledged revisions -/

/-- The revision that the record has as acknowledged. -/
def RunHash.acknowledged (h : RunHash) : Nat := lua.tonumber h.summary_ack_revision

section acknowledged

variable {store : RedisRunAggregationStore} {w : World} {now : Nat} {i : String} {op : Op}
  {g h : RunHash} {l : List Slice}

theorem accepted_hash_acknowledged (a : IngestArgs) (now : Nat) (h : RunHash) :
    (accepted_hash a now h).acknowledged = h.acknowledged := by
  unfold accepted_hash
  dsimp only
  split <;> rfl

theorem Kept.revision_le (hk : Kept store i h) : h.summary_revision ≤ 2 := by
  obtain ⟨-, l, hg, -⟩ := hk
  have hle := hg.revision
  split at hle <;> omega

/-- Only an acknowledgement changes the acknowledged revision of a record. -/
theorem Change.acknowledged_cases {found : Option RunHash}
    (hchange : Change store now i op found h) (hk : Kept store i h) :
    h.acknowledged = 0 ∨ (∃ g, found = some g ∧ h.acknowledged = g.acknowledged) ∨
      ∃ revision : UInt64, op = .acknowledge_summary i revision ∧
        h.acknowledged = revision.toNat := by
  have hzero : lua.tonumber (lua.tostring 0) = 0 := lua.tonumber_tostring (by decide)
  cases hchange with
  | same | bound | timed_out | finalized => exact .inr (.inl ⟨_, rfl, rfl⟩)
  | registered => exact .inl hzero
  | first =>
    rw [accepted_hash_acknowledged]
    exact .inl hzero
  | accepted =>
    rw [accepted_hash_acknowledged]
    exact .inr (.inl ⟨_, rfl, rfl⟩)
  | @acknowledged g revision hrevision =>
    refine .inr (.inr ⟨revision, rfl, lua.tonumber_tostring ?_⟩)
    have hle := hk.revision_le
    change g.summary_revision ≤ 2 at hle
    have hsmall : (2 : Nat) < lua.FIRST_SCIENTIFIC := by decide
    omega

theorem Change.revision_le (hchange : Change store now i op (some g) h) :
    g.summary_revision ≤ h.summary_revision := by
  cases hchange with
  | same | bound | acknowledged => exact le_rfl
  | accepted =>
    rw [accepted_hash_revision]
    split
    · exact Nat.le_succ _
    · exact le_rfl
  | timed_out | finalized => exact Nat.le_succ _

/-- The record of a finalized run that is not pending has its revision acknowledged. -/
theorem Good.settled_revision (hg : Good store h l) (hsettled : ¬ h.isPending) :
    h.acknowledged = h.summary_revision := by
  have hle := hg.acknowledged_le
  rw [hg.isPending_iff] at hsettled
  unfold RunHash.acknowledged
  omega

end acknowledged

end pulse.aggregation

namespace pulse.maintenance

open pulse.aggregation

variable {ν : Type} [DecidableEq ν] {store : RedisRunAggregationStore}
  {config : AggregationRuntimeConfig} {s : Maintenance ν}

/-! ## Where the summaries come from -/

/-- What a task holds: a summary with a revision that a record can have, or an event that is in the
topic. -/
def Task.Holds (events : List ScenarioRunSummaryEvent) : Task → Prop
  | .publish durable => durable.revision ≤ 2
  | .acknowledge event => event ∈ events

def Phase.Holds (events : List ScenarioRunSummaryEvent) : Phase → Prop
  | .reading _ snapshots => ∀ j g, (j, some g) ∈ snapshots → g.summary_revision ≤ 2
  | .cleaning _ summaries => ∀ durable ∈ summaries, durable.revision ≤ 2
  | .publishing tasks _ => ∀ task ∈ tasks, task.Holds events
  | _ => True

/-- An acknowledgement is of an event that is in the topic. -/
def Backed (events : List ScenarioRunSummaryEvent) (op : Op) : Prop :=
  acknowledges op → ∃ event ∈ events, op = acknowledgement event

/-- What the processes hold, and what is on its way, is of revisions that records can have; what is
acknowledged is in the topic. -/
structure Traced (s : Maintenance ν) : Prop where
  phases : ∀ node, (s.phase node).Holds s.events
  events : ∀ event ∈ s.events, event.revision ≤ 2
  late_events : ∀ event ∈ s.late_events, event.revision ≤ 2
  late_calls : ∀ op ∈ s.late_calls, Backed s.events op

section traced

variable {events events' : List ScenarioRunSummaryEvent}

theorem Backed.mono {op : Op} (h : Backed events op) (hevents : events ⊆ events') :
    Backed events' op := by
  intro hop
  obtain ⟨event, hevent, heq⟩ := h hop
  exact ⟨event, hevents hevent, heq⟩

variable {phase : Phase}

theorem Phase.Holds.mono (h : phase.Holds events) (hevents : events ⊆ events') :
    phase.Holds events' := by
  cases phase with
  | idle | expiring | scanning | reading | cleaning | failed => exact h
  | publishing tasks first_error =>
    intro task hmem
    have htask := h task hmem
    cases task with
    | publish => exact htask
    | acknowledge => exact hevents htask

theorem Phase.holds_unread (events : List ScenarioRunSummaryEvent) (run_ids : List String) :
    (Phase.reading run_ids []).Holds events := nofun

namespace Traced

section

variable (hs : Traced s)
include hs

variable (node : ν)

/-- A process goes on, and a call of it is late or not. -/
theorem move (world : World) {calls : List Op} (hphase : phase.Holds s.events)
    (hcalls : ∀ op ∈ calls, Backed s.events op) :
    Traced ({ s with world, late_calls := s.late_calls ++ calls }.setPhase node phase) where
  phases := forall_update (fun n _ => hs.phases n) hphase
  events := hs.events
  late_events := hs.late_events
  late_calls op hop := (List.mem_append.mp hop).elim (hs.late_calls op) (hcalls op)

theorem setPhase (hphase : phase.Holds s.events) : Traced (s.setPhase node phase) where
  phases := forall_update (fun n _ => hs.phases n) hphase
  events := hs.events
  late_events := hs.late_events
  late_calls := hs.late_calls

/-- What the tasks of a process have sent may arrive after its end. -/
theorem leave (hphase : phase.Holds s.events) : Traced (s.leave node phase) := by
  have hold := hs.phases node
  refine ⟨forall_update (fun n _ => hs.phases n) hphase, hs.events, ?_, ?_⟩
  · intro event hevent
    rcases List.mem_append.mp hevent with hlate | hnew
    · exact hs.late_events event hlate
    · cases hnow : s.phase node with
      | publishing tasks first_error =>
        rw [hnow] at hold hnew
        obtain ⟨task, htask, heq⟩ := List.mem_filterMap.mp hnew
        cases task with
        | publish durable =>
          cases heq
          exact hold _ htask
        | acknowledge => cases heq
      | idle | expiring | scanning | reading | cleaning | failed =>
        rw [hnow] at hnew
        cases hnew
  · intro op hop
    rcases List.mem_append.mp hop with hlate | hnew
    · exact hs.late_calls op hlate
    · cases hnow : s.phase node with
      | publishing tasks first_error =>
        rw [hnow] at hold hnew
        obtain ⟨task, htask, heq⟩ := List.mem_filterMap.mp hnew
        cases task with
        | publish => cases heq
        | acknowledge event =>
          cases heq
          exact fun _ => ⟨event, hold _ htask, rfl⟩
      | expiring | cleaning =>
        rw [hnow] at hnew
        obtain ⟨run_id, -, rfl⟩ := List.mem_map.mp hnew
        exact False.elim
      | idle | scanning | reading | failed =>
        rw [hnow] at hnew
        cases hnew

variable {event : ScenarioRunSummaryEvent}

omit [DecidableEq ν] in
/-- An event comes to the topic. -/
theorem append (hevent : event.revision ≤ 2) {late_events : List ScenarioRunSummaryEvent}
    (hlate : late_events ⊆ s.late_events) :
    Traced { s with events := s.events ++ [event], late_events := late_events } where
  phases node := (hs.phases node).mono (List.subset_append_left _ _)
  events := List.forall_mem_append.mpr ⟨hs.events, List.forall_mem_singleton.mpr hevent⟩
  late_events e he := hs.late_events e (hlate he)
  late_calls op hop := (hs.late_calls op hop).mono (List.subset_append_left _ _)

theorem collect (call : Call) : Traced (s.collect node call) := by
  unfold Maintenance.collect
  split
  · rename_i snapshots hphase
    have hold := hs.phases node
    rw [hphase] at hold
    split
    · rename_i summaries stale hok
      simp only [bind_eq_ok] at hok
      obtain ⟨read, hread, hok⟩ := hok
      have hsame : read = snapshots := by
        cases call <;> cases hread
        rfl
      subst hsame
      refine hs.setPhase node ?_
      intro durable hdurable
      obtain ⟨j, g, hmem, hfrom⟩ := collect_pending_ok hok durable hdurable
      exact (durable_summary_ok hfrom).2.1.trans_le (hold j g hmem)
    · exact hs.setPhase node trivial
  · exact hs

theorem publish (durable : DurableRunSummary) (publication : Publication) :
    Traced (s.publish node durable publication) := by
  unfold Maintenance.publish
  split
  · rename_i tasks first_error hphase
    have hold := hs.phases node
    rw [hphase] at hold
    split
    · rename_i hmem
      have hsent : (summary_event durable).revision ≤ 2 := hold _ hmem
      have hleft : ∀ first_error,
          (Phase.publishing (tasks.erase (.publish durable)) first_error).Holds s.events :=
        fun _ task htask => hold task (List.mem_of_mem_erase htask)
      dsimp only
      split
      · refine (hs.append hsent (fun _ h => h)).setPhase node ?_
        intro task htask
        rcases List.mem_cons.mp htask with rfl | htask
        · exact List.mem_append_right _ List.mem_cons_self
        · exact (hleft none).mono (List.subset_append_left _ _) task htask
      · exact hs.setPhase node (hleft _)
      · exact (hs.append hsent (fun _ h => h)).setPhase node
          ((hleft _).mono (List.subset_append_left _ _))
      · refine .setPhase (s := { s with late_events := s.late_events ++ _ })
          ⟨hs.phases, hs.events, ?_, hs.late_calls⟩ node (hleft _)
        exact List.forall_mem_append.mpr ⟨hs.late_events, List.forall_mem_singleton.mpr hsent⟩
    · exact hs
  · exact hs

theorem acknowledge (event : ScenarioRunSummaryEvent) (call : Call) :
    Traced (s.acknowledge store node event call) := by
  unfold Maintenance.acknowledge
  split
  · rename_i tasks first_error hphase
    have hold := hs.phases node
    rw [hphase] at hold
    split
    · rename_i hmem
      have hleft : ∀ first_error, (Phase.publishing (tasks.erase (.acknowledge event))
          first_error).Holds s.events :=
        fun _ task htask => hold task (List.mem_of_mem_erase htask)
      refine hs.move node _ (hleft _) ?_
      intro op hop
      cases call with
      | Answered | Failed | Lost => cases hop
      | Late =>
        rw [List.mem_singleton.mp hop]
        exact fun _ => ⟨event, hold _ hmem, rfl⟩
    · exact hs
  · exact hs

end

/-- A call that acknowledges nothing may be late. -/
theorem backed_late {op : Op} (hop : ¬ acknowledges op) (call : Call)
    (events : List ScenarioRunSummaryEvent) : ∀ op' ∈ call.late op, Backed events op' := by
  intro op' hmem
  cases call with
  | Answered | Failed | Lost => cases hmem
  | Late =>
    rw [List.mem_singleton.mp hmem]
    exact fun h => absurd h hop

theorem step (hs : Traced s)
    (hfound : ∀ j g, s.world.find j = some g → g.summary_revision ≤ 2)
    (event : Event ν) : Traced (s.step store config event) := by
  cases event with
  | call op => exact ⟨hs.phases, hs.events, hs.late_events, hs.late_calls⟩
  | arrive place =>
    simp only [Maintenance.step]
    split
    · exact ⟨hs.phases, hs.events, hs.late_events,
        fun op hop => hs.late_calls op (List.mem_of_mem_eraseIdx hop)⟩
    · exact hs
  | appear place =>
    simp only [Maintenance.step]
    split
    · rename_i event hevent
      exact hs.append (hs.late_events event (List.mem_of_getElem? hevent))
        (List.eraseIdx_subset)
    · exact hs
  | maintain node | expired node | flush node | scan node | finish node =>
    simp only [Maintenance.step, Maintenance.maintain, Maintenance.expired, Maintenance.flush,
      Maintenance.scan, Maintenance.finish]
    repeat' split
    all_goals first
      | exact hs.setPhase node trivial
      | exact hs.setPhase node (Phase.holds_unread _ _)
      | exact hs
  | expire node run_id call =>
    simp only [Maintenance.step, Maintenance.expire]
    repeat' split
    · exact hs.move node _ (by trivial) (backed_late id call _)
    all_goals exact hs
  | snapshot node =>
    simp only [Maintenance.step, Maintenance.snapshot]
    split
    · rename_i run_id left snapshots hphase
      have hold := hs.phases node
      rw [hphase] at hold
      refine hs.setPhase node ?_
      intro j g hmem
      rcases List.mem_append.mp hmem with hmem | hmem
      · exact hold j g hmem
      · exact hfound run_id g (congrArg Prod.snd (List.mem_singleton.mp hmem)).symm
    · exact hs
  | collect node call => exact hs.collect node call
  | clean node run_id call =>
    simp only [Maintenance.step, Maintenance.clean]
    split
    · rename_i left summaries hphase
      have hold := hs.phases node
      rw [hphase] at hold
      split
      · have hleft : (Phase.cleaning (left.erase run_id) summaries).Holds s.events := hold
        have hmoved := hs.move node
          (call.run (.ok (), s.world.step store (.clean_outbox run_id)) s.world).2 hleft
          (backed_late (show ¬ acknowledges (.clean_outbox run_id) from id) call _)
        split
        · exact hmoved
        · exact hmoved.leave node trivial
      · exact hs
    · exact hs
  | spawn node =>
    simp only [Maintenance.step, Maintenance.spawn]
    split
    · rename_i summaries hphase
      have hold := hs.phases node
      rw [hphase] at hold
      refine hs.setPhase node ?_
      intro task htask
      obtain ⟨durable, hdurable, rfl⟩ := List.mem_map.mp htask
      exact hold durable hdurable
    · exact hs
  | publish node durable publication => exact hs.publish node durable publication
  | acknowledge node event call => exact hs.acknowledge node event call
  | stop node => exact hs.leave node trivial

end Traced

end traced

/-! ## What is acknowledged is published -/

section published

variable {limit : Nat} {i : String} {h : RunHash}

theorem events_subset (event : Event ν) : s.events ⊆ (s.step store config event).events := by
  cases event with
  | call | stop => exact List.Subset.refl _
  | arrive | appear | maintain | expire | expired | flush | scan | snapshot | collect | clean
  | spawn | publish | acknowledge | finish =>
    simp only [Maintenance.step, Maintenance.maintain, Maintenance.expire, Maintenance.expired,
      Maintenance.flush, Maintenance.scan, Maintenance.snapshot, Maintenance.collect,
      Maintenance.clean, Maintenance.spawn, Maintenance.publish, Maintenance.acknowledge,
      Maintenance.finish]
    repeat' split
    all_goals first | exact List.Subset.refl _ | exact List.subset_append_left _ _

omit [DecidableEq ν] in
/-- An acknowledgement that runs in Redis is of an event that is in the topic. -/
theorem op_backed (hs : Traced s) {event : Event ν} {op : Op} (hop : event.op s = some op)
    (hcall : ∀ op, event = .call op → ¬ acknowledges op) : Backed s.events op := by
  cases event with
  | call op' =>
    cases hop
    exact fun h => absurd h (hcall op rfl)
  | arrive place => exact hs.late_calls op (List.mem_of_getElem? hop)
  | expire node run_id call | clean node run_id call =>
    simp only [Event.op] at hop
    repeat' split at hop
    all_goals cases hop
    exact False.elim
  | acknowledge node event call =>
    have hold := hs.phases node
    simp only [Event.op] at hop
    split at hop
    · rename_i tasks first_error hphase
      rw [hphase] at hold
      split at hop
      · rename_i hmem
        cases hop
        exact fun _ => ⟨event, hold _ hmem.1, rfl⟩
      · cases hop
    · cases hop
  | appear | maintain | expired | flush | scan | snapshot | collect | spawn | publish | finish
  | stop => cases hop

/-- The revision that the record has as acknowledged is in the topic. -/
def Announced (events : List ScenarioRunSummaryEvent) (i : String) (h : RunHash) : Prop :=
  h.acknowledged = 0 ∨
    ∃ event ∈ events, event.summary.run_id = i ∧ event.revision = h.acknowledged

theorem traced_of_reachable (hs : Reachable (maintenanceSystem ν store config limit) s) :
    Traced s := by
  refine Reachable.induct ?_ ?_ hs
  · rintro s ⟨now, hnow, rfl⟩
    exact ⟨fun _ => trivial, nofun, nofun, nofun⟩
  · intro s event hs htraced hallowed
    exact htraced.step (fun j g hg => (reachable_kept (store_reachable hs) hg).revision_le) event

omit [DecidableEq ν] in
/-- An acknowledgement names the revision of its event. -/
theorem Traced.toNat_revision (hs : Traced s) (hevent : event ∈ s.events) :
    (UInt64.ofNat event.revision).toNat = event.revision := by
  have hle := hs.events event hevent
  have hsize : (2 : Nat) < UInt64.size := by decide
  exact UInt64.toNat_ofNat_of_lt' (by omega)

theorem announced_of_reachable
    (hs : Reachable (maintenanceSystem ν store config limit) s) :
    ∀ i h, s.world.find i = some h → Announced s.events i h := by
  refine Reachable.induct (P := fun s => ∀ i h, s.world.find i = some h → Announced s.events i h)
    ?_ ?_ hs
  · rintro s ⟨now, hnow, rfl⟩
    exact nofun
  · intro s event hs hannounced hallowed i h hfind
    have htraced := traced_of_reachable hs
    have hgrow : ∀ {g}, Announced s.events i g → h.acknowledged = g.acknowledged →
        Announced (s.step store config event).events i h := by
      rintro g (hzero | ⟨e, he, hrun, hrevision⟩) hsame
      · exact .inl (hsame.trans hzero)
      · exact .inr ⟨e, events_subset event he, hrun, hrevision.trans hsame.symm⟩
    change (s.step store config event).world.find i = some h at hfind
    rcases step_cases store config s event with ⟨-, hworld⟩ | ⟨op, hop, hworld⟩
    · rw [hworld] at hfind
      exact hgrow (hannounced i h hfind) rfl
    have hkept := reachable_kept (store_reachable (hs.step hallowed)) hfind
    rw [hworld] at hfind
    rcases (step_change hfind).acknowledged_cases hkept with
      hzero | ⟨g, hg, hsame⟩ | ⟨revision, rfl, hrevision⟩
    · exact .inl hzero
    · exact hgrow (hannounced i g hg) hsame
    · -- The task that acknowledges the revision has published its event.
      obtain ⟨e, he, heq⟩ := op_backed htraced hop hallowed.1 trivial
      cases heq
      exact .inr ⟨e, events_subset event he, rfl,
        (hrevision.trans (htraced.toNat_revision he)).symm⟩

/-- A finalized run that is not pending has an event of its revision in the topic. -/
theorem settled_published (hs : Reachable (maintenanceSystem ν store config limit) s)
    (hfind : s.world.find i = some h) (hclosed : h.status ≠ .Open) (hsettled : ¬ h.isPending) :
    ∃ event ∈ s.events, event.summary.run_id = i ∧ event.revision = h.summary_revision := by
  obtain ⟨-, l, hg, -⟩ := reachable_kept (store_reachable hs) hfind
  have hrevision := hg.settled_revision hsettled
  rcases announced_of_reachable hs i h hfind with hzero | ⟨e, he, hrun, heq⟩
  · exact absurd (hg.opened.mpr (hrevision.symm.trans hzero)) hclosed
  · exact ⟨e, he, hrun, heq.trans hrevision⟩

/-! ## The law -/

/-- The run has an event of the revision, or a later one, in the topic, or it waits for one. -/
def Reported (i : String) (revision : Nat) (s : Maintenance ν) : Prop :=
  (∃ event ∈ s.events, event.summary.run_id = i ∧ revision ≤ event.revision) ∨
    ∃ h, s.world.find i = some h ∧ h.isPending ∧ revision ≤ h.summary_revision

theorem reported_of_find (hs : Reachable (maintenanceSystem ν store config limit) s)
    (hfind : s.world.find i = some h) (hclosed : h.status ≠ .Open) {revision : Nat}
    (hle : revision ≤ h.summary_revision) : Reported i revision s := by
  by_cases hpending : h.isPending
  · exact .inr ⟨h, hfind, hpending, hle⟩
  · obtain ⟨event, hevent, hrun, hrevision⟩ := settled_published hs hfind hclosed hpending
    exact .inl ⟨event, hevent, hrun, hle.trans_eq hrevision.symm⟩

/-- A pending run stays in the outbox, or its own revision is acknowledged and so published. -/
theorem Reported.step (hs : Reachable (maintenanceSystem ν store config limit) s)
    {event : Event ν} (hallowed : (maintenanceSystem ν store config limit).allowed s event)
    {revision : Nat} (hreported : Reported i revision s) :
    Reported i revision (s.step store config event) := by
  rcases hreported with ⟨e, he, hfields⟩ | ⟨h, hfind, hpending, hle⟩
  · exact .inl ⟨e, events_subset event he, hfields⟩
  rcases step_cases store config s event with ⟨-, hworld⟩ | ⟨op, hop, hworld⟩
  · exact .inr ⟨h, by rw [hworld]; exact hfind, hpending, hle⟩
  by_cases hcurrent : acknowledgesCurrent i s.world op
  · obtain ⟨acknowledged, g, rfl, hg, hsame⟩ := hcurrent
    rw [hfind] at hg
    cases hg
    have htraced := traced_of_reachable hs
    obtain ⟨e, he, heq⟩ := op_backed htraced hop hallowed.1 trivial
    cases heq
    rw [htraced.toNat_revision he] at hsame
    exact .inl ⟨e, events_subset event he, rfl, hsame ▸ hle⟩
  · have hqueued := (reachable_queued (store_reachable hs) i).2
    have hqueued' := (reachable_queued (store_reachable (hs.step hallowed)) i).2
    have hin := (step_effect store s.world op i).stays hqueued
      ((hqueued.of_find hfind).mpr hpending) hcurrent
    rw [← hworld] at hin
    obtain ⟨k, hkey, hp⟩ := hqueued'.member.mp hin
    have hfind' := hqueued'.found hkey hp
    refine .inr ⟨k.value, hfind', hp, hle.trans ?_⟩
    have hfound : (s.world.step store op).find i = some k.value := hworld ▸ hfind'
    have hchange := step_change hfound
    rw [hfind] at hchange
    exact hchange.revision_le

/-- The summary of a finalized run is in the topic of summaries, or it waits in the outbox, with its
revision or a later one, for as long as the processes run, fail and start again; a run that has left
the outbox has its own revision in the topic. -/
theorem finalized_runs_are_published (hs : Reachable (maintenanceSystem ν store config limit) s)
    (hfind : s.world.find i = some h) (hclosed : h.status ≠ .Open) :
    (¬ h.isPending → ∃ event ∈ s.events, event.summary.run_id = i ∧
      event.revision = h.summary_revision) ∧
    ∀ es s', Run (maintenanceSystem ν store config limit) s es s' →
      Reported i h.summary_revision s' := by
  refine ⟨settled_published hs hfind hclosed, ?_⟩
  intro es s' hrun
  exact hrun.stable (fun s event hs hreported hallowed => hreported.step hs hallowed) hs
    (reported_of_find hs hfind hclosed le_rfl)

end published

/-! ## A run that times out -/

def sampleConfig : AggregationRuntimeConfig := ⟨128, 128⟩

def samplePass : List (Event Nat) :=
  [.maintain 0 .Answered, .expire 0 "run-1" .Answered, .expired 0, .scan 0 .Answered, .snapshot 0,
    .collect 0 .Answered, .spawn 0, .publish 0 timedOutSummary .Acknowledged,
    .acknowledge 0 (summary_event timedOutSummary) .Answered, .finish 0]

/-- A slice arrives, the deadline of its run passes, and one pass closes and publishes the run. -/
def sampleEvents : List (Event Nat) :=
  .call (.ingest (thirdOf 1 "run-1:slice-1-of-3")) :: .call (.wait 60000) :: samplePass

def sampleEnd : Maintenance Nat :=
  sampleEvents.foldl (.step defaultStore sampleConfig) (.start 1000)

def inTime : Maintenance Nat → List (Event Nat) → Bool
  | _, [] => true
  | s, event :: events =>
    (event.op s).all (fun op => (s.world.step defaultStore op).now < lua.FIRST_SCIENTIFIC) &&
      inTime (s.step defaultStore sampleConfig event) events

theorem allowed_of_inTime {events : List (Event Nat)} {s : Maintenance Nat}
    (hcalls : ∀ event ∈ events, ∀ op, event = .call op → ¬ acknowledges op)
    (h : inTime s events = true) :
    Allowed (maintenanceSystem Nat defaultStore sampleConfig lua.FIRST_SCIENTIFIC) s events := by
  induction events generalizing s with
  | nil => trivial
  | cons event events ih =>
    simp only [inTime, Bool.and_eq_true, Option.all_eq_true, decide_eq_true_eq] at h
    exact ⟨⟨hcalls event List.mem_cons_self, h.1⟩,
      ih (fun e he => hcalls e (List.mem_cons_of_mem _ he)) h.2⟩

theorem sampleEnd_reachable :
    Reachable (maintenanceSystem Nat defaultStore sampleConfig lua.FIRST_SCIENTIFIC) sampleEnd := by
  refine .foldl (S := maintenanceSystem Nat defaultStore sampleConfig
    lua.FIRST_SCIENTIFIC) (.initial ⟨1000, by decide, rfl⟩) ?_
  apply allowed_of_inTime
  · simp [sampleEvents, samplePass, acknowledges]
  · decide +kernel

theorem a_timed_out_run_is_published :
    (∃ h, sampleEnd.world.find "run-1" = some h ∧ h.status = .TimedOut) ∧
      ∃ event ∈ sampleEnd.events, event.summary.run_id = "run-1" ∧ event.revision = 1 := by
  have hrun : ∃ h ∈ sampleEnd.world.find "run-1", h.status = .TimedOut ∧ ¬ h.isPending ∧
      h.summary_revision = 1 := by
    decide +kernel
  obtain ⟨h, hfind, hstatus, hsettled, hrevision⟩ := hrun
  have hlaw := finalized_runs_are_published sampleEnd_reachable hfind (by simp [hstatus])
  rw [hrevision] at hlaw
  exact ⟨⟨h, hfind, hstatus⟩, hlaw.1 hsettled⟩

end pulse.maintenance
