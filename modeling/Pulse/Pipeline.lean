-- The whole of Pulse on one Kafka: the schedulers publish jobs, the workers
-- settle them and publish results, the aggregators merge the results. Once the
-- topics are read to their ends, each slice of a window that the ledger has
-- completed is counted in its run, or a dead letter tells why not.
import Pulse.DispatchLedger
import Pulse.ResultConsumption
import Pulse.WorkerProvenance

open checks consumers systems
open pulse.contracts pulse.dispatch pulse.identities pulse.kafka pulse.service

namespace pulse.ledger

/-! ## What a scheduler publishes -/

/-- The job that a node is about to publish. -/
def Ledger.offers (s : Ledger) (n : Nat) : Option ScenarioJob :=
  match s.nodes n with
  | .dispatching d (index :: _) => d.scheduler.job d.window index
  | _ => none

/-- What a step adds to the topic: nothing, or the job that a node offered. -/
theorem step_sent (s : Ledger) (event : Event) :
    ((s.step event).sent = s.sent ∧ (s.step event).confirmed = s.confirmed) ∨
    ∃ n publication p, event = .publish n publication ∧ publication ≠ .failed false ∧
      s.offers n = some p.job ∧ (s.step event).sent = s.sent ++ [p] ∧
      (s.step event).confirmed ⊆ s.confirmed ++ [p.job] := by
  cases event with
  | leader | prepare | register | ack | leave =>
    left
    simp only [Ledger.step, Ledger.prepare, Ledger.ack]
    repeat' split
    all_goals exact ⟨rfl, rfl⟩
  | publish n publication =>
    simp only [Ledger.step]
    split
    · exact .inl ⟨rfl, rfl⟩
    · rename_i d index left hnode
      split
      · exact .inl ⟨rfl, rfl⟩
      · rename_i job hjob
        have hoffers : s.offers n = some job := by
          unfold Ledger.offers
          rw [hnode]
          exact hjob
        cases publication with
        | confirmed =>
          exact .inr ⟨n, .confirmed, ⟨d, index, job⟩, rfl, by simp, hoffers, rfl,
            List.Subset.refl _⟩
        | failed appended =>
          cases appended with
          | true =>
            exact .inr ⟨n, .failed true, ⟨d, index, job⟩, rfl, by simp, hoffers, rfl,
              List.subset_append_left _ _⟩
          | false => exact .inl ⟨rfl, rfl⟩
    · exact .inl ⟨rfl, rfl⟩

/-- A job of a scheduler names its slice. -/
theorem Kept.names {s : Ledger} (hs : Kept s) {p : Sent} (hp : p ∈ s.sent) :
    worker.JobNames p.job := by
  obtain ⟨⟨act, -, hof⟩, hjob⟩ := hs.dispatched.sent p hp
  obtain ⟨hrun, hkey, -⟩ := job_fields hjob
  unfold Scheduler.job planning.scheduled_job at hjob
  obtain ⟨key, -, hjob⟩ := Option.map_eq_some_iff.mp hjob
  unfold worker.JobNames worker.NamesSlice
  rw [hkey, hrun, hof.run_id, hof.window_id, ← hjob]

end pulse.ledger

namespace pulse.aggregation_service

/-- The partition of the results topic that an event appends to. -/
def Event.appendsTo {ν : Type} : Event ν → Option Int32
  | .broker (.append partition _) => some partition
  | _ => none

section frame

variable {ν : Type} [DecidableEq ν] {d : Deployment} {s : Aggregators ν} {p : Int32}

theorem log_step {event : Event ν} (h : event.appendsTo ≠ some p) :
    (s.step d event).topic.log p = s.topic.log p := by
  cases event with
  | broker move =>
    cases move with
    | append partition message =>
      have hne : p ≠ partition := fun heq => h (heq ▸ rfl)
      simp [Aggregators.step, Topic.move, hne]
    | assign | revoke => rfl
    | fetch | enqueue | land =>
      simp only [Aggregators.step, Topic.move]
      split <;> rfl
  | redis | stop => rfl
  | take | ingest | publish | commit | confirm =>
    simp only [Aggregators.step, Aggregators.take, Aggregators.ingest, Aggregators.publish,
      Aggregators.commit, Aggregators.confirm]
    repeat' split
    all_goals rfl

theorem log_grows (event : Event ν) {o : Nat} {message : Message}
    (h : (s.topic.log p)[o]? = some message) :
    ((s.step d event).topic.log p)[o]? = some message := by
  by_cases hnew : event.appendsTo = some p
  · cases event with
    | broker move => exact s.topic.log_move move h
    | redis | take | ingest | publish | commit | confirm | stop => cases hnew
  · rw [log_step hnew]
    exact h

end frame

end pulse.aggregation_service

namespace pulse.pipeline

open pulse.ledger (Ledger ledgerSystem)
open pulse.worker (WorkerRuntime Workers workerSystem Named Appended At JobNames)
open pulse.aggregation_service (Aggregators aggregatorSystem)

/-! ## The system -/

variable {ν : Type} [DecidableEq ν]

/-- The settings of all nodes, with the texts that the JSON crate writes for results. -/
structure Deployment where
  worker : WorkerRuntime
  aggregator : aggregation_service.Deployment
  result_text : ScenarioRunResult → String

namespace Deployment

/-- What `publish_job` sends. -/
def job_message (d : Deployment) (key : String) (job : ScenarioJob) : Option Message :=
  match serialize_validated_job d.worker.to_string job with
  | .ok text => some ⟨some key.toUTF8.data.toList, some text.toUTF8.data.toList⟩
  | .error _ => none

/-- What `publish_result` sends. -/
def result_message (d : Deployment) (result : ScenarioRunResult) : Message :=
  ⟨some result.execution_key.toUTF8.data.toList, some (d.result_text result).toUTF8.data.toList⟩

end Deployment

structure Pipeline (ν : Type) where
  ledger : Ledger
  workers : Workers ν
  aggregators : Aggregators ν

/-- A step of one part, and the partition of the topic that its record goes to. -/
inductive Event (ν : Type)
  | schedule (event : ledger.Event) (partition : Int32)
  | work (event : worker.Event ν) (partition : Int32)
  | aggregate (event : aggregation_service.Event ν)

/-- A job that cannot be written is not sent. -/
def written (d : Deployment) (s : Ledger) : ledger.Event → ledger.Event
  | .publish n publication =>
    match s.offers n with
    | some job =>
      if (serialize_validated_job d.worker.to_string job).isOk then .publish n publication
      else .publish n (.failed false)
    | none => .publish n publication
  | event => event

/-- The records reach the partition one after the other. -/
def deliver_jobs (d : Deployment) (partition : Int32) (workers : Workers ν)
    (messages : List Message) : Workers ν :=
  messages.foldl (fun workers message =>
    workers.step d.worker (.broker (.append partition message))) workers

def deliver_results (d : Deployment) (partition : Int32) (aggregators : Aggregators ν)
    (messages : List Message) : Aggregators ν :=
  messages.foldl (fun aggregators message =>
    aggregators.step d.aggregator (.broker (.append partition message))) aggregators

namespace Pipeline

/-- The key and the job of a publication of a scheduler. -/
def scheduled (sent : ledger.Sent) : String × ScenarioJob :=
  (sent.dispatch.scheduler.plan.scenario.config.partition_key_strategy.key_for sent.job, sent.job)

def publish_jobs (d : Deployment) (s : Pipeline ν) (partition : Int32)
    (jobs : List (String × ScenarioJob)) : Pipeline ν :=
  let messages := jobs.filterMap fun job => d.job_message job.1 job.2
  { s with workers := deliver_jobs d partition s.workers messages }

def publish_results (d : Deployment) (s : Pipeline ν) (partition : Int32)
    (results : List ScenarioRunResult) : Pipeline ν :=
  let messages := results.map d.result_message
  { s with aggregators := deliver_results d partition s.aggregators messages }

def step (d : Deployment) (s : Pipeline ν) : Event ν → Pipeline ν
  | .schedule event partition =>
    let ledger := s.ledger.step (written d s.ledger event)
    let new := ledger.sent.drop s.ledger.sent.length
    { s with ledger }.publish_jobs d partition (new.map scheduled)
  | .work event partition =>
    let workers := s.workers.step d.worker event
    let new := workers.results.drop s.workers.results.length
    { s with workers }.publish_results d partition new
  | .aggregate event => { s with aggregators := s.aggregators.step d.aggregator event }

end Pipeline

/-- All parts together. The jobs topic starts empty, and what other producers add to it, or what
arrives late, names its slice. -/
def pipelineSystem (d : Deployment) : System (Pipeline ν) (Event ν) where
  initial s := ledgerSystem.initial s.ledger ∧
    (∃ now_ms, s.workers = .start (fun _ => []) now_ms) ∧
    (aggregatorSystem ν d.aggregator).initial s.aggregators
  allowed s event :=
    match event with
    | .schedule event _ => ledgerSystem.allowed s.ledger (written d s.ledger event)
    | .work event _ => event.Names d.worker
    | .aggregate _ => True
  next := .step d

/-- The JSON crate reads what it wrote: jobs and results with their identities. -/
structure Deployment.ReadsBack (d : Deployment) : Prop where
  jobs : d.worker.ReadsIdentity
  results : ∀ result read,
    decode_result d.aggregator.parse (d.result_message result).payload = .ok read →
      read.run_id = result.run_id ∧ read.execution_key = result.execution_key ∧
        read.slice = result.slice

/-! ## The parts run on their own -/

/-- Each part is in a state that it reaches by itself, and what one part has sent is on the topic
of the next one. -/
structure Linked (d : Deployment) (s : Pipeline ν) : Prop where
  ledger : Reachable ledgerSystem s.ledger
  workers : Reachable (workerSystem ν d.worker) s.workers
  aggregators : Reachable (aggregatorSystem ν d.aggregator) s.aggregators
  named : Named d.worker s.workers
  scheduled : ∀ job ∈ s.ledger.confirmed, Appended d.worker s.workers.group.topic.log job
  results : ∀ result ∈ s.workers.results, ∃ (p : Int32) (o : Nat),
    (s.aggregators.topic.log p)[o]? = some (d.result_message result)

section linked

variable {d : Deployment} {s : Pipeline ν}

/-- A log with more records in one partition. -/
def extend (log : Int32 → List Message) (partition : Int32) (messages : List Message) :
    Int32 → List Message :=
  Function.update log partition (log partition ++ messages)

variable {log : Int32 → List Message} {partition : Int32}

theorem extend_grows {messages : List Message} (p : Int32) (o : Nat) (message : Message)
    (h : (log p)[o]? = some message) : (extend log partition messages p)[o]? = some message := by
  unfold extend
  by_cases hp : p = partition
  · subst hp
    rw [Function.update_self, List.getElem?_append_left (List.getElem?_eq_some_iff.mp h).1]
    exact h
  · rw [Function.update_of_ne hp]
    exact h

theorem mem_extend {messages : List Message} {message : Message} (h : message ∈ messages) :
    ∃ o : Nat, (extend log partition messages partition)[o]? = some message := by
  rw [extend, Function.update_self]
  exact List.getElem?_of_mem (List.mem_append_right _ h)

theorem log_deliver_jobs (partition : Int32) (workers : Workers ν) (messages : List Message) :
    (deliver_jobs d partition workers messages).group.topic.log =
      extend workers.group.topic.log partition messages := by
  induction messages generalizing workers with
  | nil => simp [deliver_jobs, extend]
  | cons message messages ih =>
    refine (ih (workers.step d.worker (.broker (.append partition message)))).trans ?_
    simp [extend, Workers.step, Group.move, Topic.move]

theorem log_deliver_results (partition : Int32) (aggregators : Aggregators ν)
    (messages : List Message) : (deliver_results d partition aggregators messages).topic.log =
      extend aggregators.topic.log partition messages := by
  induction messages generalizing aggregators with
  | nil => simp [deliver_results, extend]
  | cons message messages ih =>
    refine (ih (aggregators.step d.aggregator (.broker (.append partition message)))).trans ?_
    simp [extend, Aggregators.step, Topic.move]

theorem delivered_jobs (partition : Int32) {workers : Workers ν} (messages : List Message)
    (hreachable : Reachable (workerSystem ν d.worker) workers) (hnamed : Named d.worker workers)
    (hmessages : ∀ message ∈ messages, ∀ job,
      decode_job d.worker.parse message.payload = .ok job → JobNames job) :
    let workers' := deliver_jobs d partition workers messages
    Reachable (workerSystem ν d.worker) workers' ∧ Named d.worker workers' ∧
      workers'.results = workers.results := by
  induction messages generalizing workers with
  | nil => exact ⟨hreachable, hnamed, rfl⟩
  | cons message messages ih =>
    exact ih (hreachable.step (e := worker.Event.broker (.append partition message)) trivial)
      (hnamed.append (hmessages message List.mem_cons_self))
      fun m hm => hmessages m (List.mem_cons_of_mem _ hm)

theorem delivered_results (partition : Int32) {aggregators : Aggregators ν}
    (messages : List Message)
    (hreachable : Reachable (aggregatorSystem ν d.aggregator) aggregators) :
    Reachable (aggregatorSystem ν d.aggregator)
      (deliver_results d partition aggregators messages) := by
  induction messages generalizing aggregators with
  | nil => exact hreachable
  | cons message messages ih =>
    exact ih (hreachable.step
      (e := aggregation_service.Event.broker (.append partition message)) trivial)

variable {job : ScenarioJob}

omit [DecidableEq ν] in
theorem job_message_eq_some {key : String} {message : Message} :
    d.job_message key job = some message ↔ ∃ text,
      serialize_validated_job d.worker.to_string job = .ok text ∧
        ⟨some key.toUTF8.data.toList, some text.toUTF8.data.toList⟩ = message := by
  unfold Deployment.job_message
  split
  · rename_i text htext
    simp [htext]
  · rename_i error herror
    simp [herror]

theorem appended_mono {r : WorkerRuntime} {log' : Int32 → List Message} (h : Appended r log job)
    (hlog : ∀ (p : Int32) (o : Nat) (message : Message),
      (log p)[o]? = some message → (log' p)[o]? = some message) : Appended r log' job := by
  obtain ⟨p, o, key, text, htext, hfound⟩ := h
  exact ⟨p, o, key, text, htext, hlog p o _ hfound⟩

variable {event : ledger.Event}

omit [DecidableEq ν] in
/-- A publication that reaches the topic is of a job that could be written. -/
theorem written_ok {n : Nat} {publication : ledger.Publication}
    (h : written d s.ledger event = .publish n publication)
    (happended : publication ≠ .failed false) (hoffers : s.ledger.offers n = some job) :
    ∃ text, serialize_validated_job d.worker.to_string job = .ok text := by
  cases event with
  | publish m publication' =>
    simp only [written] at h
    split at h
    · rename_i found hfound
      split at h
      · rename_i hok
        cases h
        rw [hoffers] at hfound
        cases hfound
        cases htext : serialize_validated_job d.worker.to_string job with
        | ok text => exact ⟨text, rfl⟩
        | error error =>
          rw [htext] at hok
          cases hok
      · cases h
        exact absurd rfl happended
    · rename_i hnone
      cases h
      rw [hoffers] at hnone
      cases hnone
  | leader | prepare | register | ack | leave => cases h

/-- Jobs are published: whatever was on a topic is there, and so is each job that could be
written. -/
theorem Linked.publish_jobs (hreads : d.ReadsBack) (hs : Linked d s) {ledger : Ledger}
    (hledger : Reachable ledgerSystem ledger) {jobs : List (String × ScenarioJob)}
    (hnames : ∀ job ∈ jobs, JobNames job.2)
    (hscheduled : ∀ job ∈ ledger.confirmed, job ∈ s.ledger.confirmed ∨
      ∃ key text, (key, job) ∈ jobs ∧ serialize_validated_job d.worker.to_string job = .ok text) :
    Linked d (({ s with ledger } : Pipeline ν).publish_jobs d partition jobs) := by
  obtain ⟨hworkers, hnamed, hresults⟩ := delivered_jobs partition
    (jobs.filterMap fun job => d.job_message job.1 job.2) hs.workers hs.named (by
      intro message hmessage read hread
      obtain ⟨job, hjob, hmessage⟩ := List.mem_filterMap.mp hmessage
      obtain ⟨text, htext, rfl⟩ := job_message_eq_some.mp hmessage
      exact worker.ReadsIdentity.names hreads.jobs htext (hnames job hjob) hread)
  refine ⟨hledger, hworkers, hs.aggregators, hnamed, ?_, ?_⟩
  · intro job hjob
    change Appended d.worker (deliver_jobs d partition s.workers _).group.topic.log job
    rw [log_deliver_jobs]
    rcases hscheduled job hjob with hold | ⟨key, text, hmem, htext⟩
    · exact appended_mono (hs.scheduled job hold) extend_grows
    · have hmessage : (⟨some key.toUTF8.data.toList, some text.toUTF8.data.toList⟩ : Message) ∈
          jobs.filterMap fun job => d.job_message job.1 job.2 :=
        List.mem_filterMap.mpr ⟨(key, job), hmem, job_message_eq_some.mpr ⟨text, htext, rfl⟩⟩
      obtain ⟨o, ho⟩ := mem_extend hmessage
      exact ⟨partition, o, _, text, htext, ho⟩
  · intro result hresult
    change result ∈ (deliver_jobs d partition s.workers _).results at hresult
    rw [hresults] at hresult
    exact hs.results result hresult

theorem Linked.schedule (hreads : d.ReadsBack) (hs : Linked d s)
    (hallowed : ledgerSystem.allowed s.ledger (written d s.ledger event)) (partition : Int32) :
    Linked d (s.step d (.schedule event partition)) := by
  have hledger : Reachable ledgerSystem (s.ledger.step (written d s.ledger event)) :=
    hs.ledger.step hallowed
  have hkept := ledger.reachable_kept hledger
  refine hs.publish_jobs hreads hledger ?_ ?_
  · intro job hjob
    obtain ⟨p, hp, rfl⟩ := List.mem_map.mp hjob
    exact hkept.names (List.mem_of_mem_drop hp)
  · intro job hjob
    rcases ledger.step_sent s.ledger (written d s.ledger event) with ⟨-, hconfirmed⟩
      | ⟨n, publication, p, hevent, happended, hoffers, hsent, hconfirmed⟩
    · rw [hconfirmed] at hjob
      exact .inl hjob
    · rcases List.mem_append.mp (hconfirmed hjob) with hold | hnew
      · exact .inl hold
      · right
        cases List.mem_singleton.mp hnew
        obtain ⟨text, htext⟩ := written_ok hevent happended hoffers
        refine ⟨_, text, List.mem_map.mpr ⟨p, ?_, rfl⟩, htext⟩
        rw [hsent, List.drop_left]
        exact List.mem_singleton_self p

theorem Linked.work (hreads : d.ReadsBack) (hs : Linked d s) {event : worker.Event ν}
    (hallowed : event.Names d.worker) (partition : Int32) :
    Linked d (s.step d (.work event partition)) := by
  have hworkers : Reachable (workerSystem ν d.worker) (s.workers.step d.worker event) :=
    hs.workers.step trivial
  have hnext := hs.named.step (worker.sound_of_reachable hs.workers) hreads.jobs event hallowed
  obtain ⟨new, hnew⟩ := hnext.grown
  refine ⟨hs.ledger, hworkers, delivered_results partition _ hs.aggregators, hnext.toNamed,
    fun job hjob => appended_mono (hs.scheduled job hjob) hnext.log, ?_⟩
  intro result hresult
  change result ∈ (s.workers.step d.worker event).results at hresult
  change ∃ (p : Int32) (o : Nat), ((deliver_results d partition s.aggregators
    (((s.workers.step d.worker event).results.drop s.workers.results.length).map
      d.result_message)).topic.log p)[o]? = _
  rw [log_deliver_results]
  rw [hnew] at hresult ⊢
  rw [List.drop_left]
  rcases List.mem_append.mp hresult with hold | hfresh
  · obtain ⟨p, o, ho⟩ := hs.results result hold
    exact ⟨p, o, extend_grows p o _ ho⟩
  · exact ⟨partition, mem_extend (List.mem_map_of_mem hfresh)⟩

theorem Linked.aggregate (hs : Linked d s) (event : aggregation_service.Event ν) :
    Linked d (s.step d (.aggregate event)) := by
  refine ⟨hs.ledger, hs.workers, hs.aggregators.step trivial, hs.named, hs.scheduled, ?_⟩
  intro result hresult
  obtain ⟨p, o, ho⟩ := hs.results result hresult
  exact ⟨p, o, aggregation_service.log_grows event ho⟩

theorem linked_of_reachable (hreads : d.ReadsBack) (hs : Reachable (pipelineSystem d) s) :
    Linked d s := by
  refine Reachable.invariant ?_ ?_ hs
  · rintro s ⟨hledger, ⟨now_ms, hworkers⟩, haggregators⟩
    obtain ⟨now, keys, hledger'⟩ := id hledger
    refine ⟨.initial hledger, .initial ⟨_, now_ms, hworkers⟩, .initial haggregators, ?_, ?_, ?_⟩
    · rw [hworkers]
      refine ⟨?_, nofun, nofun, nofun⟩
      rintro p o job ⟨message, hmessage, -⟩
      simp [Workers.start] at hmessage
    · rw [hledger']
      exact nofun
    · rw [hworkers]
      exact nofun
  · intro s event hs hallowed
    cases event with
    | schedule event partition => exact hs.schedule hreads hallowed partition
    | work event partition => exact hs.work hreads hallowed partition
    | aggregate event => exact hs.aggregate event

end linked

/-! ## The law -/

/-- The slice `index` of `total` of a run. -/
structure IsSliceOf (run_id : String) (index total : Nat) (run : String) (slice : JobSlice) :
    Prop where
  run_id : run = run_id
  index : slice.index.toNat = index
  total : slice.total.toNat = total

/-- Where a slice of a run ends: in a dead letter, in a poison record for an attempt of it or for
its result, or in the record of its run. -/
def Accounted (d : Deployment) (s : Pipeline ν) (run_id : String) (index total : Nat) : Prop :=
  (∃ failed ∈ s.workers.failed, IsSliceOf run_id index total failed.run_id failed.slice) ∨
  (∃ p o job, At d.worker s.workers.group.topic.log p o job ∧
    IsSliceOf run_id index total job.run_id job.slice ∧
    ∃ poison ∈ s.workers.poisons, PoisonOf d.worker.topic p o poison) ∨
  (∃ (p : Int32) (o : Nat) (result : ScenarioRunResult),
    (s.aggregators.topic.log p)[o]? = some (d.result_message result) ∧
    IsSliceOf run_id index total result.run_id result.slice ∧
    ∃ poison ∈ s.aggregators.acknowledged, PoisonOf d.aggregator.topic p o poison) ∨
  ∃ ingest ∈ s.aggregators.ingests, ∃ h, ingest.after.find run_id = some h ∧
    h.slices.lookup index = some (slice_key run_id index total)

section law

variable {d : Deployment} {s : Pipeline ν} {run_id : String} {index total : Nat}

omit [DecidableEq ν] in
/-- A record with the execution key of a slice, which names its own slice, is of that slice. -/
theorem isSliceOf_of_names {run execution_key : String} {slice : JobSlice}
    (hnames : worker.NamesSlice run execution_key slice)
    (hkey : execution_key = slice_key run_id index total) :
    IsSliceOf run_id index total run slice := by
  unfold worker.NamesSlice at hnames
  rw [hkey] at hnames
  obtain ⟨hrun, hindex, htotal⟩ := slice_key_inj hnames
  exact ⟨hrun.symm, hindex.symm, htotal.symm⟩

/-- A result on its topic is merged into the record of its run, or is poison. -/
theorem Linked.result_accounted (hreads : d.ReadsBack) (hs : Linked d s)
    (hends : ∀ p, (s.aggregators.topic.log p).length ≤ s.aggregators.topic.committed p)
    {result : ScenarioRunResult} (hresult : result ∈ s.workers.results)
    (hkey : result.execution_key = slice_key run_id index total) :
    Accounted d s run_id index total := by
  have hslice := isSliceOf_of_names (hs.named.results result hresult) hkey
  obtain ⟨p, o, ho⟩ := hs.results result hresult
  have hlt := (List.getElem?_eq_some_iff.mp ho).1.trans_le (hends p)
  have hsound := aggregation_service.sound_of_reachable hs.aggregators
  rcases hsound.working.kept.committed p o hlt with
    ⟨ingest, hingest, hcounts⟩ | ⟨poison, hpoison, -, hof⟩
  · obtain ⟨message, hmessage, hdecoded⟩ := hcounts.record
    rw [ho] at hmessage
    cases hmessage
    obtain ⟨hrun, hsame, hindex⟩ := hreads.results result _ hdecoded
    obtain ⟨h, hfind, hlookup, -⟩ := hcounts.held
    rw [hrun, hslice.run_id] at hfind
    rw [hindex, hslice.index, hsame, hkey] at hlookup
    exact .inr (.inr (.inr ⟨ingest, hingest, h, hfind, hlookup⟩))
  · exact .inr (.inr (.inl ⟨p, o, result, ho, hslice, poison, hpoison, hof⟩))

/-- A job on its topic ends: so do all attempts after it. -/
theorem Linked.job_accounted (hreads : d.ReadsBack) (hs : Linked d s)
    (hjobs : ∀ p, (s.workers.group.topic.log p).length ≤ s.workers.group.topic.committed p)
    (hresults : ∀ p, (s.aggregators.topic.log p).length ≤ s.aggregators.topic.committed p)
    {p : Int32} {o : Nat} {job : ScenarioJob}
    (hat : At d.worker s.workers.group.topic.log p o job)
    (hkey : job.execution_key = slice_key run_id index total) :
    Accounted d s run_id index total := by
  have hback : d.worker.ReadsBack := by
    intro job text htext
    obtain ⟨read, hread, -, hkey, -, hattempt⟩ := hreads.jobs job text htext
    exact ⟨read, hread, hkey, hattempt⟩
  have hcommitted := (worker.sound_of_reachable hs.workers).working.kept.committed
  have hended : worker.Ended d.worker s.workers.topics job := by
    refine worker.ended_of_settled hback ?_ hat
    intro q i found hfound
    exact (hcommitted q i (hfound.lt_length.trans_le (hjobs q))).jobSettled hfound
  obtain ⟨q, i, last, hlast, hlastKey, -, hend⟩ := hended
  have hslice : last.execution_key = slice_key run_id index total := hlastKey.trans hkey
  have hnames := isSliceOf_of_names (hs.named.jobs q i last hlast) hslice
  rcases hend with hpoison | ⟨failed, hfailed, hof⟩ | ⟨result, hresult, hof⟩
  · exact .inr (.inl ⟨q, i, last, hlast, hnames, hpoison⟩)
  · left
    exact ⟨failed, hfailed,
      isSliceOf_of_names (hs.named.failed failed hfailed) (hof.1.trans hslice)⟩
  · exact hs.result_accounted hreads hresults hresult (hof.1.trans hslice)

/-- When the topics of jobs and results are committed to their ends, every slice of every window
that the ledger has completed, and the slice of every job on the topic, is accounted for: whoever
led, whatever failed, and in whatever order. Other producers write only jobs and late records whose
execution key is the one of their slice. -/
theorem every_slice_is_accounted_for (hreads : d.ReadsBack)
    (hs : Reachable (pipelineSystem d) s)
    (hjobs : ∀ p, (s.workers.group.topic.log p).length ≤ s.workers.group.topic.committed p)
    (hresults : ∀ p, (s.aggregators.topic.log p).length ≤ s.aggregators.topic.committed p) :
    (∀ i k act, (s.ledger.history.windows i)[k]? = some act → k < s.ledger.history.completed i →
      ∀ index < act.window.total_slices,
        Accounted d s act.window.window_id index act.window.total_slices) ∧
    ∀ p o job, At d.worker s.workers.group.topic.log p o job →
      Accounted d s job.run_id job.slice.index.toNat job.slice.total.toNat := by
  have hlinked := linked_of_reachable hreads hs
  refine ⟨?_, ?_⟩
  · intro i k act hact hk index hindex
    have hkept := ledger.reachable_kept hlinked.ledger
    obtain ⟨_, -, -, job, hjob, hslice⟩ := hkept.settled hk hact index hindex
    obtain ⟨p, o, key, text, htext, hlog⟩ := hlinked.scheduled job (List.mem_of_mem_take hjob)
    obtain ⟨read, hread, -, hkey, -⟩ := hreads.jobs job text htext
    exact hlinked.job_accounted hreads hjobs hresults ⟨_, hlog, hread⟩
      (hkey.trans hslice.execution_key)
  · intro p o job hat
    exact hlinked.job_accounted hreads hjobs hresults hat (hlinked.named.jobs p o job hat)

end law

/-! ## Partitions that nothing is appended to -/

/-- The partitions of the jobs topic and of the results topic that an event may append to. -/
def Event.jobsTo : Event ν → List Int32
  | .schedule _ partition => [partition]
  | .work event _ => event.appendsTo.toList
  | .aggregate _ => []

def Event.resultsTo : Event ν → List Int32
  | .work _ partition => [partition]
  | .aggregate event => event.appendsTo.toList
  | _ => []

section frame

variable {d : Deployment} {s : Pipeline ν} {p : Int32}

theorem jobs_log_step {event : Event ν} (h : p ∉ event.jobsTo) :
    (s.step d event).workers.group.topic.log p = s.workers.group.topic.log p := by
  cases event with
  | schedule event partition =>
    refine (congrFun (log_deliver_jobs partition _ _) p).trans ?_
    exact Function.update_of_ne (by simpa [Event.jobsTo] using h) _ _
  | work event partition =>
    apply Workers.log_step
    simpa [Event.jobsTo] using h
  | aggregate event => rfl

theorem results_log_step {event : Event ν} (h : p ∉ event.resultsTo) :
    (s.step d event).aggregators.topic.log p = s.aggregators.topic.log p := by
  cases event with
  | schedule => rfl
  | work event partition =>
    refine (congrFun (log_deliver_results partition _ _) p).trans ?_
    exact Function.update_of_ne (by simpa [Event.resultsTo] using h) _ _
  | aggregate event => exact aggregation_service.log_step (by simpa [Event.resultsTo] using h)

/-- A run that appends to one partition leaves the others as they were. -/
theorem log_run {events : List (Event ν)} {q : Int32} (hne : p ≠ q)
    (hjobs : ∀ e ∈ events, e.jobsTo ⊆ [q]) (hresults : ∀ e ∈ events, e.resultsTo ⊆ [q]) :
    let s' := events.foldl (.step d) s
    s'.workers.group.topic.log p = s.workers.group.topic.log p ∧
      s'.aggregators.topic.log p = s.aggregators.topic.log p := by
  induction events generalizing s with
  | nil => exact ⟨rfl, rfl⟩
  | cons event events ih =>
    have hnot : ∀ {partitions : List Int32}, partitions ⊆ [q] → p ∉ partitions :=
      fun hsub hp => hne (List.mem_singleton.mp (hsub hp))
    obtain ⟨hj, hr⟩ := ih (s := s.step d event) (fun e he => hjobs e (List.mem_cons_of_mem _ he))
      fun e he => hresults e (List.mem_cons_of_mem _ he)
    exact ⟨hj.trans (jobs_log_step (hnot (hjobs event List.mem_cons_self))),
      hr.trans (results_log_step (hnot (hresults event List.mem_cons_self)))⟩

end frame

/-! ## A window of two slices -/

/-- The job of a slice of the window. -/
def sampleJob (index : UInt32) : ScenarioJob where
  schema_version := 2
  scenario_id := "checkout"
  run_id := "v2:s8:checkout:w0:n2"
  execution_key := slice_key "v2:s8:checkout:w0:n2" index.toNat 2
  plan_fingerprint := "fnv128:355f4cd57f9bbe232ae9f0de8ded2eae"
  scheduled_at_unix_ms := 0
  not_before_unix_ms := 0
  slice := ⟨index, 2⟩
  load := planning.slice_load (planning.sampleScenario 1000000000) 2 index 0
  attempt := 0
  max_retries := 2

def sampleReport : runner.RunReport := ⟨metrics.GlobalSummary.new, 0, 0, 0⟩

def failingReport : runner.RunReport where
  summary := { metrics.GlobalSummary.new with
    error_counts := counters.bump ∅ "permanent_processing" 1 }
  started := 0
  finished := 0
  peak_pending_tasks := 0

def sampleResult : ScenarioRunResult := scenario_run_result (sampleJob 0) sampleReport 1 2

def sampleDeployment : Deployment where
  worker := { worker.sampleRuntime with
    parse := (codecOf [sampleJob 0, sampleJob 1]).parse
    to_string := (codecOf [sampleJob 0, sampleJob 1]).to_string
    plans := fun _ => some (planning.samplePlan 1000000000) }
  aggregator := { aggregation_service.sampleDeployment with
    parse := json.readerOf resultText [sampleResult] }
  result_text := fun result => if result = sampleResult then resultText result else ""

def settle (offset : Nat) (token : String) (report : runner.RunReport) : List (worker.Event Nat) :=
  [.broker (.fetch 0 0), .broker (.enqueue 0), .take 0 5, .check 0 5,
    .claim 0 token worker.inTime, .execute 0 report 1 2 6, .verify 0 worker.inTime,
    .publish 0 .Acknowledged 0, .complete 0 .Answered, .commit 0,
    .broker (.land 0 (offset + 1)), .confirm 0]

/-- The window is dispatched, its first slice is executed, its second one fails, and the result is
merged. -/
def sampleEvents : List (Event Nat) :=
  ledger.resumedEvents.map (.schedule · 0) ++
    (.broker (.assign 0 0) :: settle 0 "a" sampleReport ++ settle 1 "b" failingReport).map
      (.work · 0) ++
    ([.broker (.assign 0 0), .broker (.fetch 0 0), .broker (.enqueue 0), .take 0 7,
      .ingest 0 .Answered 7, .commit 0, .broker (.land 0 1)] :
        List (aggregation_service.Event Nat)).map .aggregate

def sampleStart : Pipeline Nat where
  ledger := ledger.startLedger
  workers := .start (fun _ => []) 0
  aggregators := .start (fun _ => []) 0

def sampleEnd : Pipeline Nat := sampleEvents.foldl (.step sampleDeployment) sampleStart

theorem sample_result_parses : json.readerOf resultText [sampleResult]
    (resultText sampleResult).toUTF8.data.toList = .ok sampleResult :=
  json.readerOf_text (List.nodup_singleton (resultText sampleResult).toUTF8.data.toList)
    (List.mem_singleton_self _)

theorem sample_readsBack : sampleDeployment.ReadsBack where
  jobs := by
    intro job text htext
    exact ⟨job, codecOf_text (by decide +kernel) (by decide +kernel) htext, rfl, rfl, rfl, rfl⟩
  results := by
    intro result read hread
    simp only [decode_result, bind_eq_ok, mapError_eq_ok, okOr_eq_ok] at hread
    obtain ⟨payload, hpayload, parsed, hparsed, _, -, hread⟩ := hread
    cases hread
    cases hpayload
    simp only [sampleDeployment] at hparsed
    by_cases hresult : result = sampleResult
    · rw [if_pos hresult, hresult, sample_result_parses] at hparsed
      cases hparsed
      exact hresult ▸ ⟨rfl, rfl, rfl⟩
    · rw [if_neg hresult] at hparsed
      have hfails : (json.readerOf resultText [sampleResult] "".toUTF8.data.toList).isOk =
          false := by decide +kernel
      rw [hparsed] at hfails
      cases hfails

omit [DecidableEq ν] in
theorem written_allowed {d : Deployment} {s : Ledger} (h : ledgerSystem.allowed s event) :
    ledgerSystem.allowed s (written d s event) := by
  cases event with
  | publish n publication =>
    simp only [written]
    repeat' split
    all_goals trivial
  | leader | prepare | register | ack => exact h
  | _ => trivial

theorem sampleEnd_reachable : Reachable (pipelineSystem sampleDeployment) sampleEnd := by
  refine .foldl (S := pipelineSystem sampleDeployment)
    (.initial ⟨⟨_, ⟨none, 0⟩, rfl⟩, ⟨_, rfl⟩, ⟨_, _, rfl⟩⟩) ?_
  refine .of_forall ?_ _
  simp only [sampleEvents, List.forall_mem_append, List.forall_mem_map]
  refine ⟨⟨?_, ?_⟩, fun event _ s => trivial⟩
  · intro event hevent s
    apply written_allowed
    revert event
    simp [ledger.resumedEvents, ledgerSystem, ledger.isElector]
  · simp [settle, List.forall_mem_cons, pipelineSystem, worker.Event.Names, -List.mem_cons,
      -List.mem_append]

theorem a_window_of_two_slices_is_accounted_for :
    sampleEnd.workers.failed.length = 1 ∧ sampleEnd.aggregators.ingests.length = 1 ∧
      ∀ index < 2, Accounted sampleDeployment sampleEnd "v2:s8:checkout:w0:n2" index 2 := by
  have hrun : sampleEnd.workers.failed.length = 1 ∧ sampleEnd.aggregators.ingests.length = 1 ∧
      (sampleEnd.workers.group.topic.log 0).length ≤ sampleEnd.workers.group.topic.committed 0 ∧
      (sampleEnd.aggregators.topic.log 0).length ≤ sampleEnd.aggregators.topic.committed 0 ∧
      0 < sampleEnd.ledger.history.completed "checkout" ∧
      (sampleEnd.ledger.history.windows "checkout")[0]?.map (fun act =>
        (act.window.window_id, act.window.total_slices)) = some ("v2:s8:checkout:w0:n2", 2) := by
    decide +kernel
  obtain ⟨hfailed, hingests, hjobs, hresults, hcompleted, hwindow⟩ := hrun
  obtain ⟨act, hact, hpair⟩ := Option.map_eq_some_iff.mp hwindow
  obtain ⟨hid, htotal⟩ := Prod.mk.inj hpair
  have hzero : ∀ e ∈ sampleEvents, e.jobsTo ⊆ [0] ∧ e.resultsTo ⊆ [0] := by decide +kernel
  have hothers : ∀ p, p ≠ 0 → sampleEnd.workers.group.topic.log p = [] ∧
      sampleEnd.aggregators.topic.log p = [] := by
    intro p hp
    rw [sampleEnd]
    obtain ⟨hj, hr⟩ := log_run (d := sampleDeployment) (s := sampleStart) hp
      (fun e he => (hzero e he).1) fun e he => (hzero e he).2
    exact ⟨hj.trans rfl, hr.trans rfl⟩
  refine ⟨hfailed, hingests, ?_⟩
  intro index hindex
  rw [← hid, ← htotal]
  rw [← htotal] at hindex
  refine (every_slice_is_accounted_for sample_readsBack sampleEnd_reachable ?_ ?_).1 "checkout" 0
    act hact hcompleted index hindex
  · intro p
    by_cases hp : p = 0
    · rw [hp]
      exact hjobs
    · rw [(hothers p hp).1]
      exact Nat.zero_le _
  · intro p
    by_cases hp : p = 0
    · rw [hp]
      exact hresults
    · rw [(hothers p hp).2]
      exact Nat.zero_le _

end pulse.pipeline
