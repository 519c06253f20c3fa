-- The maintenance of an aggregator (application/aggregation_service.rs): it
-- closes the runs that are due and publishes the summaries that wait. The
-- tasks of a pass end in any order, and a call may arrive after its task.
import Pulse.ResultConsumption
import Pulse.SummaryEvents

open checks keyspace sorted_sets systems
open pulse.aggregation pulse.contracts

namespace pulse.maintenance

/-! ## Calls and publications -/

/-- How a call of the store ends: it is answered, Redis never runs it, its answer is lost, or it is
still on its way when its task gives up. -/
inductive Call
  | Answered
  | Failed (error : RunAggregationStoreError)
  | Lost (error : RunAggregationStoreError)
  | Late (error : RunAggregationStoreError)

namespace Call

/-- What the task gets, and what the call leaves in Redis. -/
def run {α : Type} (answered : StoreResult α × World) (w : World) :
    Call → StoreResult α × World
  | .Answered => answered
  | .Failed error | .Late error => (.error error, w)
  | .Lost error => (.error error, answered.2)

/-- The call is run while its task waits for it. -/
def isRun : Call → Bool
  | .Answered | .Lost _ => true
  | .Failed _ | .Late _ => false

/-- The calls that are still on their way. -/
def late (op : Op) : Call → List Op
  | .Late _ => [op]
  | _ => []

end Call

/-- How `publish_summary` ends. After an ambiguous end the event is in the topic, and a late event
may come to it. -/
inductive Publication
  | Acknowledged
  | Failed (error : String)
  | Ambiguous (error : String)
  | Late (error : String)

/-! ## The processes -/

/-- The limits of the scans, of `AggregationRuntimeConfig`. -/
structure AggregationRuntimeConfig where
  scan_batch_limit : Nat
  outbox_batch_limit : Nat

/-- Where a task of `publish_one` is. -/
inductive Task
  | publish (durable : DurableRunSummary)
  | acknowledge (event : ScenarioRunSummaryEvent)
deriving DecidableEq

/-- Where a process is in `maintenance`: the tasks of `mark_expired`, the steps of
`pending_summaries`, and the tasks of `publish_one`. -/
inductive Phase
  | idle
  | expiring (left : List String) (first_error : Option String)
  | scanning
  | reading (left : List String) (snapshots : List (String × Option RunHash))
  | cleaning (left : List String) (summaries : List DurableRunSummary)
  | publishing (tasks : List Task) (first_error : Option String)
  | failed (error : String)

/-- The call that acknowledges an event. -/
def acknowledgement (event : ScenarioRunSummaryEvent) : Op :=
  .acknowledge_summary event.summary.run_id (UInt64.ofNat event.revision)

namespace Phase

/-- The calls that the tasks of a phase may have sent. -/
def calls : Phase → List Op
  | .expiring left _ => left.map .mark_expired
  | .cleaning left _ => left.map .clean_outbox
  | .publishing tasks _ => tasks.filterMap fun
    | .acknowledge event => some (acknowledgement event)
    | .publish _ => none
  | _ => []

/-- The events that the tasks of a phase may have sent. -/
def publications : Phase → List ScenarioRunSummaryEvent
  | .publishing tasks _ => tasks.filterMap fun
    | .publish durable => some (summary_event durable)
    | .acknowledge _ => none
  | _ => []

end Phase

variable {ν : Type} [DecidableEq ν]

/-- Redis, the processes, the topic of summaries, and what is on its way from tasks that have given
up. -/
structure Maintenance (ν : Type) where
  world : World
  phase : ν → Phase
  events : List ScenarioRunSummaryEvent
  late_events : List ScenarioRunSummaryEvent
  late_calls : List Op

/-- The end of `publish_one` after the answer of the store. -/
def acknowledgement_error (event_id : String) : StoreResult SummaryAcknowledgement → Option String
  | .ok .Missing =>
    some ("summary '" ++ event_id ++ "' was published but its durable run disappeared")
  | .ok _ => none
  | .error error => some ("summary '" ++ event_id ++
      "' was published but its Redis outbox acknowledgement failed: " ++ error.display)

def publication_error (event_id error : String) : String :=
  "summary '" ++ event_id ++ "' publication failed; Redis outbox remains pending: " ++ error

def expiry_error (run_id : String) : StoreResult RunExpiryOutcome → Option String
  | .ok _ => none
  | .error error =>
    some ("failed to finalize expired aggregate '" ++ run_id ++ "': " ++ error.display)

def outbox_error (error : RunAggregationStoreError) : String :=
  "aggregation outbox scan failed: " ++ error.display

namespace Maintenance

def setPhase (s : Maintenance ν) (node : ν) (phase : Phase) : Maintenance ν :=
  { s with phase := Function.update s.phase node phase }

/-- The tasks of the process are dropped; what they have sent may still arrive. -/
def leave (s : Maintenance ν) (node : ν) (phase : Phase) : Maintenance ν :=
  { s with
    phase := Function.update s.phase node phase
    late_events := s.late_events ++ (s.phase node).publications
    late_calls := s.late_calls ++ (s.phase node).calls }

/-- `expire_due_runs` up to its tasks. -/
def maintain (store : RedisRunAggregationStore) (config : AggregationRuntimeConfig)
    (s : Maintenance ν) (node : ν) (call : Call) : Maintenance ν :=
  match s.phase node with
  | .idle =>
    match (call.run (store.due_runs config.scan_batch_limit s.world, s.world) s.world).1 with
    | .ok due => s.setPhase node (.expiring due none)
    | .error error =>
      s.setPhase node (.failed ("aggregation deadline scan failed: " ++ error.display))
  | _ => s

/-- A task of `expire_due_runs`. -/
def expire (store : RedisRunAggregationStore) (s : Maintenance ν) (node : ν) (run_id : String)
    (call : Call) : Maintenance ν :=
  match s.phase node with
  | .expiring left first_error =>
    if run_id ∈ left then
      let (outcome, world) := call.run (store.mark_expired run_id s.world) s.world
      { s with world, late_calls := s.late_calls ++ call.late (.mark_expired run_id) }.setPhase node
        (.expiring (left.erase run_id) (first_error.or (expiry_error run_id outcome)))
    else s
  | _ => s

/-- The end of `expire_due_runs`. -/
def expired (s : Maintenance ν) (node : ν) : Maintenance ν :=
  match s.phase node with
  | .expiring [] none => s.setPhase node .scanning
  | .expiring [] (some error) => s.setPhase node (.failed error)
  | _ => s

/-- The last flush of a process that shuts down. -/
def flush (s : Maintenance ν) (node : ν) : Maintenance ν :=
  match s.phase node with
  | .idle => s.setPhase node .scanning
  | _ => s

/-- `pending_summaries` up to the runs of the outbox. -/
def scan (store : RedisRunAggregationStore) (config : AggregationRuntimeConfig)
    (s : Maintenance ν) (node : ν) (call : Call) : Maintenance ν :=
  match s.phase node with
  | .scanning =>
    let answer := do
      let limit ← store.validate_scan_limit config.outbox_batch_limit
      (call.run (.ok (zrange s.world.outbox limit), s.world) s.world).1
    match answer with
    | .ok run_ids => s.setPhase node (.reading run_ids [])
    | .error error => s.setPhase node (.failed (outbox_error error))
  | _ => s

/-- Redis reads the next run of the pipeline. -/
def snapshot (s : Maintenance ν) (node : ν) : Maintenance ν :=
  match s.phase node with
  | .reading (run_id :: left) snapshots =>
    s.setPhase node (.reading left (snapshots ++ [(run_id, s.world.find run_id)]))
  | _ => s

/-- The answer of the pipeline: the summaries that wait, and the runs that do not. -/
def collect (s : Maintenance ν) (node : ν) (call : Call) : Maintenance ν :=
  match s.phase node with
  | .reading [] snapshots =>
    match do
      let snapshots ← (call.run (.ok snapshots, s.world) s.world).1
      RedisRunAggregationStore.collect_pending snapshots with
    | .ok (summaries, stale) => s.setPhase node (.cleaning stale summaries)
    | .error error => s.setPhase node (.failed (outbox_error error))
  | _ => s

/-- A task of `clean_outbox_if_settled`. The first error drops the others. -/
def clean (store : RedisRunAggregationStore) (s : Maintenance ν) (node : ν) (run_id : String)
    (call : Call) : Maintenance ν :=
  match s.phase node with
  | .cleaning left summaries =>
    if run_id ∈ left then
      let (answer, world) :=
        call.run (.ok (), s.world.step store (.clean_outbox run_id)) s.world
      let s := { s with world, late_calls := s.late_calls ++ call.late (.clean_outbox run_id) }
      let s := s.setPhase node (.cleaning (left.erase run_id) summaries)
      match answer with
      | .ok () => s
      | .error error => s.leave node (.failed (outbox_error error))
    else s
  | _ => s

/-- The tasks of `publish_pending` start. -/
def spawn (s : Maintenance ν) (node : ν) : Maintenance ν :=
  match s.phase node with
  | .cleaning [] summaries => s.setPhase node (.publishing (summaries.map .publish) none)
  | _ => s

/-- `publish_one` up to the answer of Kafka. -/
def publish (s : Maintenance ν) (node : ν) (durable : DurableRunSummary)
    (publication : Publication) : Maintenance ν :=
  match s.phase node with
  | .publishing tasks first_error =>
    if .publish durable ∈ tasks then
      let event := summary_event durable
      let left := tasks.erase (.publish durable)
      let fail := fun error =>
        Phase.publishing left (first_error.or (some (publication_error event.event_id error)))
      match publication with
      | .Acknowledged =>
        { s with events := s.events ++ [event] }.setPhase node
          (.publishing (.acknowledge event :: left) first_error)
      | .Failed error => s.setPhase node (fail error)
      | .Ambiguous error =>
        { s with events := s.events ++ [event] }.setPhase node (fail error)
      | .Late error =>
        { s with late_events := s.late_events ++ [event] }.setPhase node (fail error)
    else s
  | _ => s

/-- `publish_one` after its publication. -/
def acknowledge (store : RedisRunAggregationStore) (s : Maintenance ν) (node : ν)
    (event : ScenarioRunSummaryEvent) (call : Call) : Maintenance ν :=
  match s.phase node with
  | .publishing tasks first_error =>
    if .acknowledge event ∈ tasks then
      let (answer, world) := call.run (store.acknowledge_summary event.summary.run_id
        (UInt64.ofNat event.revision) s.world) s.world
      { s with world, late_calls := s.late_calls ++ call.late (acknowledgement event) }.setPhase
        node (.publishing (tasks.erase (.acknowledge event))
          (first_error.or (acknowledgement_error event.event_id answer)))
    else s
  | _ => s

/-- The end of `publish_pending`. -/
def finish (s : Maintenance ν) (node : ν) : Maintenance ν :=
  match s.phase node with
  | .publishing [] none => s.setPhase node .idle
  | .publishing [] (some error) => s.setPhase node (.failed error)
  | _ => s

end Maintenance

/-- What can happen: another client calls Redis (or time passes), a late call or event arrives, and
a process goes on, runs out of time or starts again. -/
inductive Event (ν : Type)
  | call (op : Op)
  | arrive (place : Nat)
  | appear (place : Nat)
  | maintain (node : ν) (call : Call)
  | expire (node : ν) (run_id : String) (call : Call)
  | expired (node : ν)
  | flush (node : ν)
  | scan (node : ν) (call : Call)
  | snapshot (node : ν)
  | collect (node : ν) (call : Call)
  | clean (node : ν) (run_id : String) (call : Call)
  | spawn (node : ν)
  | publish (node : ν) (durable : DurableRunSummary) (publication : Publication)
  | acknowledge (node : ν) (event : ScenarioRunSummaryEvent) (call : Call)
  | finish (node : ν)
  | stop (node : ν)

namespace Maintenance

def step (store : RedisRunAggregationStore) (config : AggregationRuntimeConfig)
    (s : Maintenance ν) : Event ν → Maintenance ν
  | .call op => { s with world := s.world.step store op }
  | .arrive place =>
    match s.late_calls[place]? with
    | some op =>
      { s with world := s.world.step store op, late_calls := s.late_calls.eraseIdx place }
    | none => s
  | .appear place =>
    match s.late_events[place]? with
    | some event =>
      { s with events := s.events ++ [event], late_events := s.late_events.eraseIdx place }
    | none => s
  | .maintain node call => s.maintain store config node call
  | .expire node run_id call => s.expire store node run_id call
  | .expired node => s.expired node
  | .flush node => s.flush node
  | .scan node call => s.scan store config node call
  | .snapshot node => s.snapshot node
  | .collect node call => s.collect node call
  | .clean node run_id call => s.clean store node run_id call
  | .spawn node => s.spawn node
  | .publish node durable publication => s.publish node durable publication
  | .acknowledge node event call => s.acknowledge store node event call
  | .finish node => s.finish node
  | .stop node => s.leave node .idle

def start (now : Nat) : Maintenance ν := ⟨.start now, fun _ => .idle, [], [], []⟩

end Maintenance

/-- The call that an event runs in Redis. -/
def Event.op (s : Maintenance ν) : Event ν → Option Op
  | .call op => some op
  | .arrive place => s.late_calls[place]?
  | .expire node run_id sent =>
    match s.phase node with
    | .expiring left _ =>
      if run_id ∈ left ∧ sent.isRun = true then some (.mark_expired run_id) else none
    | _ => none
  | .clean node run_id sent =>
    match s.phase node with
    | .cleaning left _ =>
      if run_id ∈ left ∧ sent.isRun = true then some (.clean_outbox run_id) else none
    | _ => none
  | .acknowledge node event sent =>
    match s.phase node with
    | .publishing tasks _ =>
      if .acknowledge event ∈ tasks ∧ sent.isRun = true then some (acknowledgement event) else none
    | _ => none
  | _ => none

def acknowledges : Op → Prop
  | .acknowledge_summary _ _ => True
  | _ => False

/-- The processes on an empty store, with any other calls, and a clock below `limit`. Only the tasks
of `publish_one` acknowledge a summary. -/
def maintenanceSystem (ν : Type) [DecidableEq ν] (store : RedisRunAggregationStore)
    (config : AggregationRuntimeConfig) (limit : Nat) : System (Maintenance ν) (Event ν) where
  initial s := ∃ now < limit, s = Maintenance.start now
  allowed s event := (∀ op, event = .call op → ¬ acknowledges op) ∧
    ∀ op, event.op s = some op → (s.world.step store op).now < limit
  next := .step store config

/-! ## What a step does in Redis -/

section world

variable {store : RedisRunAggregationStore} {config : AggregationRuntimeConfig}
  {s : Maintenance ν}

omit [DecidableEq ν] in
theorem Call.run_world {α : Type} (answered : StoreResult α × World) (w : World)
    (call : Call) : (call.run answered w).2 = if call.isRun = true then answered.2 else w := by
  cases call <;> rfl

/-- A step runs one call in Redis, or none. -/
theorem step_world (event : Event ν) :
    (s.step store config event).world =
      ((event.op s).map (s.world.step store)).getD s.world := by
  cases event with
  | call op => rfl
  | arrive place =>
    simp only [Maintenance.step, Event.op]
    split <;> simp_all
  | appear place =>
    simp only [Maintenance.step, Event.op]
    split <;> rfl
  | expire node run_id call =>
    simp only [Maintenance.step, Maintenance.expire, Event.op]
    split
    · rename_i left first_error _
      by_cases hmem : run_id ∈ left
      · simp only [hmem, if_true, true_and, Maintenance.setPhase, Call.run_world]
        split <;> rfl
      · simp [hmem]
    · rfl
  | clean node run_id call =>
    simp only [Maintenance.step, Maintenance.clean, Event.op]
    split
    · rename_i left summaries _
      by_cases hmem : run_id ∈ left
      · simp only [hmem, if_true, true_and]
        split <;> simp only [Maintenance.leave, Maintenance.setPhase, Call.run_world] <;>
          split <;> rfl
      · simp [hmem]
    · rfl
  | acknowledge node event call =>
    simp only [Maintenance.step, Maintenance.acknowledge, Event.op]
    split
    · rename_i tasks first_error _
      by_cases hmem : Task.acknowledge event ∈ tasks
      · simp only [hmem, if_true, true_and, Maintenance.setPhase, Call.run_world]
        split <;> rfl
      · simp [hmem]
    · rfl
  | maintain | expired | flush | scan | snapshot | collect | spawn | publish | finish =>
    simp only [Maintenance.step, Maintenance.maintain, Maintenance.expired, Maintenance.flush,
      Maintenance.scan, Maintenance.snapshot, Maintenance.collect, Maintenance.spawn,
      Maintenance.publish, Maintenance.finish, Event.op]
    repeat' split
    all_goals rfl
  | stop node => rfl

theorem step_cases (store : RedisRunAggregationStore) (config : AggregationRuntimeConfig)
    (s : Maintenance ν) (event : Event ν) :
    (event.op s = none ∧ (s.step store config event).world = s.world) ∨
      ∃ op, event.op s = some op ∧ (s.step store config event).world = s.world.step store op := by
  rw [step_world]
  cases hop : event.op s with
  | none => exact .inl ⟨rfl, rfl⟩
  | some op => exact .inr ⟨op, rfl, rfl⟩

/-- The store goes through its own states, whatever the processes do. -/
theorem store_reachable {limit : Nat}
    (hs : Reachable (maintenanceSystem ν store config limit) s) :
    Reachable (storeSystem store limit fun _ _ => True) s.world := by
  refine .invariant
    (I := fun s => Reachable (storeSystem store limit fun _ _ => True) s.world) ?_ ?_ hs
  · rintro s ⟨now, hnow, rfl⟩
    exact reachable_start hnow
  · rintro s event hw ⟨-, hallowed⟩
    change Reachable _ (s.step store config event).world
    rcases step_cases store config s event with ⟨-, hworld⟩ | ⟨op, hop, hworld⟩
    · rw [hworld]
      exact hw
    · rw [hworld]
      exact hw.step ⟨trivial, hallowed op hop⟩

end world

end pulse.maintenance
