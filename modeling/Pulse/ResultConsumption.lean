-- The aggregator service (application/aggregation_service.rs) on the topic of
-- results. A node merges a result into the record of its run, or sends it to the
-- dead letters, before it commits the offset; any failure stops the node.
import Pulse.ConsumedRecords
import Pulse.RecordTexts
import Pulse.RunIngestion
import Pulse.RunMerging

open checks consumers systems
open pulse.contracts pulse.kafka

namespace pulse.aggregation

def RunAggregationStoreError.display : RunAggregationStoreError → String
  | .Contract error => "invalid result contract: " ++ error.display
  | .Unavailable operation message =>
    "aggregation operation '" ++ operation ++ "' is unavailable: " ++ message
  | .Timeout operation => "aggregation operation '" ++ operation ++ "' timed out"
  | .InvalidState operation message =>
    "aggregation operation '" ++ operation ++ "' found invalid state: " ++ message
  | .InconsistentResult message => "inconsistent aggregate result: " ++ message
  | .ErrorKindCapacity max_error_kinds =>
    "aggregation error-kind capacity of " ++ toString max_error_kinds ++ " was exceeded"
  | .ActiveRunCapacity max_active_runs =>
    "aggregation active-run capacity of " ++ toString max_active_runs ++ " was exhausted"

/-! ## What an update says of its run -/

section collected

variable {store : RedisRunAggregationStore} {i : String} {h : RunHash} {result : ScenarioRunResult}
  {w : World}

/-- The record of the run `i` counts the results `rs`, one for each slice and each execution. -/
structure Collected (store : RedisRunAggregationStore) (i : String) (h : RunHash)
    (rs : List ScenarioRunResult) : Prop where
  good : Good store h (rs.map slice_of)
  runs : ∀ r ∈ rs, r.run_id = i

/-- The results of the same slice and the same execution. -/
def sameSlice (result r : ScenarioRunResult) : Prop :=
  r.slice.index = result.slice.index ∧ r.execution_key = result.execution_key

instance (result r : ScenarioRunResult) : Decidable (sameSlice result r) :=
  inferInstanceAs (Decidable (_ ∧ _))

theorem Change.collected {now : Nat} {op : Op} {found : Option RunHash} {h' : RunHash}
    (hchange : Change store now i op found h')
    (hfound : ∀ h, found = some h → ∃ rs, Collected store i h rs) :
    ∃ rs, Collected store i h' rs := by
  cases hchange with
  | same => exact hfound _ rfl
  | registered hargs hrun hexpected =>
    exact ⟨[], Good.registered hargs hexpected, by simp⟩
  | @first result a hargs hrun hrefusal =>
    have ha := RedisRunAggregationStore.ingest_args_ok hargs
    have hsmall : a.expected_slices < lua.FIRST_SCIENTIFIC :=
      Nat.lt_of_le_of_lt ha.expected_le (by decide)
    have hgood := (Good.first ha now).accept ha (lua.tonumber_tostring hsmall) rfl rfl rfl
      (.inl rfl) hrefusal now
    rw [ingest_args_slice hargs] at hgood
    refine ⟨[result], hgood, ?_⟩
    intro r hr
    rw [List.mem_singleton.mp hr, ← hrun, ha.run_id]
  | bound hargs hrun hbinds hverdict =>
    obtain ⟨rs, hgood, hruns⟩ := hfound _ rfl
    exact ⟨rs, hgood.bind (RedisRunAggregationStore.ingest_args_ok hargs) hbinds, hruns⟩
  | @accepted result a h hargs hrun hbinds hverdict =>
    have ha := RedisRunAggregationStore.ingest_args_ok hargs
    obtain ⟨rs, hgood, hruns⟩ := hfound _ rfl
    have hdecided := verdict_cases a (a.bind h)
    rw [hverdict] at hdecided
    cases hdecided with
    | accepted hslice hexecution hstatus _ hrefusal =>
      have haccepted := (hgood.bind ha hbinds).accept ha hbinds.expected rfl hslice hexecution
        hstatus hrefusal now
      rw [ingest_args_slice hargs] at haccepted
      refine ⟨rs ++ [result], by simpa using haccepted, ?_⟩
      intro r hr
      rcases List.mem_append.mp hr with hr | hr
      · exact hruns r hr
      · rw [List.mem_singleton.mp hr, ← hrun, ha.run_id]
  | timed_out hopen =>
    obtain ⟨rs, hgood, hruns⟩ := hfound _ rfl
    exact ⟨rs, hgood.finalize hopen (.inl rfl) now, hruns⟩
  | finalized hopen hrequested =>
    obtain ⟨rs, hgood, hruns⟩ := hfound _ rfl
    exact ⟨rs, hgood.finalize hopen (.inr hrequested) now, hruns⟩
  | acknowledged hrevision =>
    obtain ⟨rs, hgood, hruns⟩ := hfound _ rfl
    exact ⟨rs, hgood.acknowledge hrevision, hruns⟩

/-- Every record of the store counts results. -/
def AllCollected (store : RedisRunAggregationStore) (w : World) : Prop :=
  ∀ i h, w.find i = some h → ∃ rs, Collected store i h rs

theorem AllCollected.start (now : Nat) : AllCollected store (.start now) := by
  intro i h hfind
  cases hfind

theorem AllCollected.step (hw : AllCollected store w) (op : Op) :
    AllCollected store (w.step store op) := by
  intro i h hfind
  exact (step_change hfind).collected (hw i)

/-- A record that has the slice under its execution counts one result of the two. -/
theorem Collected.once {rs : List ScenarioRunResult} (hc : Collected store i h rs)
    (hslice : h.slices.lookup result.slice.index.toNat = some result.execution_key) :
    rs.countP (sameSlice result) = 1 := by
  have hindexes := hc.good.indexes
  rw [hc.good.tally, lookup_slices hindexes] at hslice
  obtain ⟨s, hs, hindex, hkey⟩ := hslice
  obtain ⟨r, hr, rfl⟩ := List.mem_map.mp hs
  obtain ⟨front, back, rfl⟩ := List.append_of_mem hr
  have hsame : sameSlice result r := ⟨UInt32.toNat_inj.mp hindex, hkey⟩
  rw [List.map_map, List.map_append, List.map_cons, List.nodup_middle, List.nodup_cons,
    ← List.map_append, List.mem_map] at hindexes
  have hothers : ∀ x ∈ front ++ back, ¬ decide (sameSlice result x) = true := by
    intro x hx hsx
    apply hindexes.1
    refine ⟨x, hx, ?_⟩
    change x.slice.index.toNat = r.slice.index.toNat
    rw [(of_decide_eq_true hsx).1, hsame.1]
  rw [List.countP_append, List.countP_cons,
    List.countP_eq_zero.mpr fun x hx => hothers x (List.mem_append_left _ hx),
    List.countP_eq_zero.mpr fun x hx => hothers x (List.mem_append_right _ hx)]
  simp [hsame]

/-- After an update the record of the run has the slice under its execution. -/
theorem update_holds {update : RunAggregationUpdate} (hw : AllCollected store w)
    (hok : (store.ingest result w).1 = .ok update) :
    ∃ h, (store.ingest result w).2.find result.run_id = some h ∧
      h.slices.lookup result.slice.index.toNat = some result.execution_key := by
  cases hargs : store.ingest_args result with
  | error error =>
    rw [RedisRunAggregationStore.ingest, hargs] at hok
    cases hok
  | ok a =>
    have ha := RedisRunAggregationStore.ingest_args_ok hargs
    have hpos := retention_pos_of_ok hargs hok
    rw [← ha.run_id, ← ha.index, ← ha.execution_key]
    rcases ingest_updated hargs hok with ⟨w', g, hagree, heq⟩
      | ⟨w', g, hfind, hbinds, -, hknown, heq⟩
    · rw [heq]
      exact ⟨_, accept_find w' hpos, (Knows.accepted hagree).slice⟩
    · rw [heq]
      refine ⟨_, refresh_find w' a.run_id hpos _, ?_⟩
      obtain ⟨rs, hgood, -⟩ := hw _ _ hfind
      have hbound := hgood.bind ha hbinds
      rcases hknown with hslice | hexecution
      · exact hslice
      · -- the two maps of the record are inverse to each other
        rw [hbound.tally, lookup_executions hbound.keys] at hexecution
        obtain ⟨s, hs, hkey, hindex⟩ := hexecution
        rw [hbound.tally, lookup_slices hbound.indexes]
        exact ⟨s, hs, hindex, hkey⟩

end collected

end pulse.aggregation

namespace pulse.aggregation_service

open pulse.aggregation hiding Message

/-! ## The settlement of one result -/

/-- What `process_record` does with the answer of the store. -/
inductive Disposition
  | Commit
  | DeadLetter (reason : String)
  | Stop (message : String)
deriving DecidableEq

def disposition : StoreResult RunAggregationUpdate → Disposition
  | .ok _ => .Commit
  | .error error =>
    match error with
    | .Contract _ | .InconsistentResult _ | .ErrorKindCapacity _ => .DeadLetter error.display
    | _ => .Stop ("result aggregation failed before durable acceptance; source offset remains " ++
        "uncommitted: " ++ error.display)

/-- Errors that a retry may cure. -/
def isTransient : RunAggregationStoreError → Prop
  | .Contract _ | .InconsistentResult _ | .ErrorKindCapacity _ => False
  | _ => True

/-- How `run_redis_operation` fails. -/
inductive Failure
  | Unavailable (message : String)
  | Timeout

def Failure.error : Failure → RunAggregationStoreError
  | .Unavailable message => .Unavailable "aggregation_ingest" message
  | .Timeout => .Timeout "aggregation_ingest"

/-- A call of `ingest`: it is answered, it fails before Redis runs it, or its answer is lost. -/
inductive Call
  | Answered
  | Failed (failure : Failure)
  | Lost (failure : Failure)

/-- What the caller gets, and what the call leaves in Redis. -/
def Call.run (store : RedisRunAggregationStore) (result : ScenarioRunResult) (w : World) :
    Call → StoreResult RunAggregationUpdate × World
  | .Answered => store.ingest result w
  | .Failed failure => (.error failure.error, w)
  | .Lost failure => (.error failure.error, (store.ingest result w).2)

/-- How a publication ends. After an ambiguous one the record is in the topic. -/
inductive Publication
  | Acknowledged
  | Failed
  | Ambiguous
deriving DecidableEq

/-! ## The nodes -/

/-- Where a node is in `process_record`. -/
inductive Phase
  | Waiting
  | Ingesting (delivery : Consumed) (result : ScenarioRunResult)
  | DeadLettering (delivery : Consumed) (poison : PoisonMessageRecord)
  | Committing (delivery : Consumed)
  | Confirming (delivery : Consumed)

/-- The record that a node works on. -/
def Phase.delivery : Phase → Option (Consumed)
  | .Waiting => none
  | .Ingesting delivery _ | .DeadLettering delivery _ | .Committing delivery
  | .Confirming delivery => some delivery

/-- An ingest that returned an update. -/
structure Ingest where
  partition : Int32
  offset : Nat
  result : ScenarioRunResult
  update : RunAggregationUpdate
  before : World
  after : World

/-- What the nodes are run with: the topic of results, the reader of JSON, the reader of base64, the
limit of a record and the store. -/
structure Deployment where
  topic : String
  parse : List UInt8 → Except String ScenarioRunResult
  decode : String → Except String (List UInt8)
  record_max_bytes : Nat
  store : RedisRunAggregationStore

variable {ν : Type} [DecidableEq ν]

/-- The topic of results, the nodes, Redis, and the poison records on the topic of dead letters. -/
structure Aggregators (ν : Type) where
  topic : Topic ν Int32 Message
  phase : ν → Phase
  world : World
  dlq : List PoisonMessageRecord
  acknowledged : List PoisonMessageRecord
  ingests : List Ingest

namespace Aggregators

def setPhase (s : Aggregators ν) (node : ν) (phase : Phase) : Aggregators ν :=
  { s with phase := Function.update s.phase node phase }

/-- The node ends; what it has read is delivered again. -/
def stop (s : Aggregators ν) (node : ν) : Aggregators ν :=
  { s with
    topic := s.topic.stop node
    phase := Function.update s.phase node .Waiting }

/-- `process_record` up to the call of the store: the record was decoded when it was read. -/
def take (d : Deployment) (s : Aggregators ν) (node : ν) (now_unix_ms : Nat) : Aggregators ν :=
  match s.phase node, (s.topic.session node).queue with
  | .Waiting, delivery :: _ =>
    match decode_consumed_result d.parse d.record_max_bytes delivery.message with
    | .ok result => s.setPhase node (.Ingesting delivery result)
    | .error error => s.setPhase node (.DeadLettering delivery (consumed_poison_record d.topic
        delivery ("invalid result contract: " ++ error.display) now_unix_ms))
  | _, _ => s

/-- An update is noted with the states of Redis around its call. -/
def note (s : Aggregators ν) (delivery : Consumed) (result : ScenarioRunResult)
    (answer : StoreResult RunAggregationUpdate) (after : World) :
    List Ingest :=
  match answer with
  | .ok update =>
    s.ingests ++ [⟨delivery.partition, delivery.offset, result, update, s.world, after⟩]
  | .error _ => s.ingests

def ingest (d : Deployment) (s : Aggregators ν) (node : ν) (call : Call) (now_unix_ms : Nat) :
    Aggregators ν :=
  match s.phase node with
  | .Ingesting delivery result =>
    let (answer, after) := call.run d.store result s.world
    let s := { s with world := after, ingests := s.note delivery result answer after }
    match disposition answer with
    | .Commit => s.setPhase node (.Committing delivery)
    | .DeadLetter reason => s.setPhase node
        (.DeadLettering delivery (consumed_poison_record d.topic delivery reason now_unix_ms))
    | .Stop _ => s.stop node
  | _ => s

/-- `publish_poison`, which checks the record before it is sent. -/
def publish (d : Deployment) (s : Aggregators ν) (node : ν) (publication : Publication) :
    Aggregators ν :=
  match s.phase node with
  | .DeadLettering delivery poison =>
    match publication, validated_poison d.decode poison with
    | .Acknowledged, .ok sent =>
      { s with dlq := s.dlq ++ [sent], acknowledged := s.acknowledged ++ [sent] }.setPhase node
        (.Committing delivery)
    | .Ambiguous, .ok sent => { s with dlq := s.dlq ++ [sent] }.stop node
    | _, _ => s.stop node
  | _ => s

/-- `commit_offset` up to its request. -/
def commit (s : Aggregators ν) (node : ν) : Aggregators ν :=
  match s.phase node with
  | .Committing delivery =>
    if may_commit (s.topic.session node) delivery then
      { s with topic := s.topic.request delivery }.setPhase node (.Confirming delivery)
    else s.stop node
  | _ => s

/-- `commit_offset` after the broker's answer. -/
def confirm (s : Aggregators ν) (node : ν) : Aggregators ν :=
  match s.phase node with
  | .Confirming delivery =>
    if (delivery.partition, delivery.offset + 1) ∈ s.topic.landed ∧
        may_commit (s.topic.session node) delivery then
      { s with topic := s.topic.finish node }.setPhase node .Waiting
    else s.stop node
  | _ => s

end Aggregators

/-- What can happen: the broker and the sessions move, any other call reaches Redis (or time
passes), and a node goes on or ends. -/
inductive Event (ν : Type)
  | broker (move : Move ν Int32 Message)
  | redis (op : Op)
  | take (node : ν) (now_unix_ms : Nat)
  | ingest (node : ν) (call : Call) (now_unix_ms : Nat)
  | publish (node : ν) (publication : Publication)
  | commit (node : ν)
  | confirm (node : ν)
  | stop (node : ν)

def Aggregators.step (d : Deployment) (s : Aggregators ν) : Event ν → Aggregators ν
  | .broker move => { s with topic := s.topic.move move }
  | .redis op => { s with world := s.world.step d.store op }
  | .take node now_unix_ms => s.take d node now_unix_ms
  | .ingest node call now_unix_ms => s.ingest d node call now_unix_ms
  | .publish node publication => s.publish d node publication
  | .commit node => s.commit node
  | .confirm node => s.confirm node
  | .stop node => s.stop node

/-- The nodes before they start, on an empty store. -/
def Aggregators.start (log : Int32 → List Message) (now : Nat) : Aggregators ν where
  topic := ⟨log, fun _ => 0, fun _ => .closed 0, [], []⟩
  phase := fun _ => .Waiting
  world := .start now
  dlq := []
  acknowledged := []
  ingests := []

def aggregatorSystem (ν : Type) [DecidableEq ν] (d : Deployment) :
    System (Aggregators ν) (Event ν) where
  initial s := ∃ log now, s = Aggregators.start log now
  allowed _ _ := True
  next := .step d

/-! ## What is committed -/

/-- The ingest of the record at an offset: the record is the result, the store returned the update,
and then the record of the run had the slice under the execution, and counted one result of it. -/
structure Ingest.Counts (d : Deployment) (log : Int32 → List Message) (p : Int32) (o : Nat)
    (i : Ingest) : Prop where
  place : i.partition = p ∧ i.offset = o
  record : ∃ message, (log p)[o]? = some message ∧
    decode_result d.parse message.payload = .ok i.result
  call : d.store.ingest i.result i.before = (.ok i.update, i.after)
  held : ∃ h, i.after.find i.result.run_id = some h ∧
    h.slices.lookup i.result.slice.index.toNat = some i.result.execution_key ∧
    ∃ rs, Collected d.store i.result.run_id h rs ∧ rs.countP (sameSlice i.result) = 1

/-- The record at an offset is merged, or its poison record is on the topic of dead letters. -/
def Settled (d : Deployment) (s : Aggregators ν) (p : Int32) (o : Nat) : Prop :=
  (∃ i ∈ s.ingests, i.Counts d s.topic.log p o) ∨
    ∃ poison ∈ s.acknowledged, poison ∈ s.dlq ∧ PoisonOf d.topic p o poison

/-- What a node knows of the record that it works on. -/
def Phase.Promise (d : Deployment) (settled : Int32 → Nat → Prop) : Phase → Prop
  | .Waiting => True
  | .Ingesting delivery result => decode_result d.parse delivery.message.payload = .ok result
  | .DeadLettering delivery poison => PoisonOf d.topic delivery.partition delivery.offset poison
  | .Committing delivery | .Confirming delivery => settled delivery.partition delivery.offset

/-- The nodes keep their promises, and the run records of Redis count the results that they name. -/
structure Sound (d : Deployment) (s : Aggregators ν) : Prop where
  working : Working (Settled d s) Phase.delivery (Phase.Promise d (Settled d s)) ⟨s.topic, s.phase⟩
  collected : AllCollected d.store s.world

section sound

variable {d : Deployment} {s : Aggregators ν} {node : ν} {delivery : Consumed}

omit [DecidableEq ν] in
theorem Settled.mono {s' : Aggregators ν} {p : Int32} {o : Nat} (h : Settled d s p o)
    (hingests : s.ingests ⊆ s'.ingests) (hacknowledged : s.acknowledged ⊆ s'.acknowledged)
    (hdlq : s.dlq ⊆ s'.dlq) (hlog : ∀ (p : Int32) (o : Nat) (message : Message),
      (s.topic.log p)[o]? = some message → (s'.topic.log p)[o]? = some message) :
    Settled d s' p o := by
  rcases h with ⟨i, hi, hcounts⟩ | ⟨poison, hpoison, hsent, hof⟩
  · left
    obtain ⟨message, hmessage, hdecoded⟩ := hcounts.record
    exact ⟨i, hingests hi, { hcounts with record := ⟨message, hlog p o message hmessage,
      hdecoded⟩ }⟩
  · exact .inr ⟨poison, hacknowledged hpoison, hdlq hsent, hof⟩

variable {phase : Phase}

theorem Phase.Promise.mono {settled settled' : Int32 → Nat → Prop} (h : phase.Promise d settled)
    (hle : ∀ p o, settled p o → settled' p o) : phase.Promise d settled' := by
  cases phase with
  | Waiting => trivial
  | Ingesting | DeadLettering => exact h
  | Committing | Confirming => exact hle _ _ h

theorem disposition_error (error : RunAggregationStoreError) :
    (∃ reason, disposition (.error error) = .DeadLetter reason) ∨
      ∃ message, disposition (.error error) = .Stop message := by
  cases error with
  | Contract | InconsistentResult | ErrorKindCapacity => exact .inl ⟨_, rfl⟩
  | Unavailable | Timeout | InvalidState | ActiveRunCapacity => exact .inr ⟨_, rfl⟩

variable {result : ScenarioRunResult} {store : RedisRunAggregationStore}
  {update : RunAggregationUpdate}

theorem Call.run_ok {w : World} {call : Call} (h : (call.run store result w).1 = .ok update) :
    call.run store result w = store.ingest result w := by
  cases call with
  | Answered => rfl
  | Failed | Lost => cases h

theorem Call.collected {w : World} (call : Call) (result : ScenarioRunResult)
    (hw : AllCollected store w) : AllCollected store (call.run store result w).2 := by
  cases call with
  | Failed => exact hw
  | Answered | Lost => exact hw.step (.ingest result)

namespace Sound

section

variable (hs : Sound d s)
include hs

theorem enter (hfront : ∀ x ∈ phase.delivery, ∃ rest, (s.topic.session node).queue = x :: rest)
    (hpromise : phase.Promise d (Settled d s)) : Sound d (s.setPhase node phase) :=
  ⟨hs.working.enter hfront hpromise, hs.collected⟩

/-- The node goes on with its record. -/
theorem goOn {old : Phase} (hphase : s.phase node = old) (hdelivery : phase.delivery = old.delivery)
    (hpromise : phase.Promise d (Settled d s)) : Sound d (s.setPhase node phase) := by
  subst hphase
  exact ⟨hs.working.goOn hdelivery hpromise, hs.collected⟩

theorem stop (node : ν) : Sound d (s.stop node) :=
  ⟨hs.working.leave node rfl trivial, hs.collected⟩

omit [DecidableEq ν] in
/-- Redis goes on, and more records are written. -/
theorem grow {w : World} (hw : AllCollected d.store w) {ingests : List Ingest}
    {dlq acknowledged : List PoisonMessageRecord} (hingests : s.ingests ⊆ ingests)
    (hdlq : s.dlq ⊆ dlq) (hacknowledged : s.acknowledged ⊆ acknowledged) :
    Sound d { s with
      world := w, dlq := dlq, acknowledged := acknowledged, ingests := ingests } := by
  have hle : ∀ p o, Settled d s p o → Settled d { s with
      world := w, dlq := dlq, acknowledged := acknowledged, ingests := ingests } p o :=
    fun p o h => h.mono hingests hacknowledged hdlq fun _ _ _ hlog => hlog
  exact ⟨hs.working.mono hle fun _ hpromise => hpromise.mono hle, hw⟩

theorem broker (move : Move ν Int32 Message) : Sound d { s with topic := s.topic.move move } := by
  have hle : ∀ p o, Settled d s p o → Settled d { s with topic := s.topic.move move } p o :=
    fun p o h => h.mono (List.Subset.refl _) (List.Subset.refl _) (List.Subset.refl _)
      fun _ _ _ hlog => s.topic.log_move move hlog
  exact ⟨(hs.working.move move).mono hle fun _ hpromise => hpromise.mono hle, hs.collected⟩

omit [DecidableEq ν] in
theorem redis (op : Op) : Sound d { s with world := s.world.step d.store op } :=
  hs.grow (hs.collected.step op) (List.Subset.refl _) (List.Subset.refl _) (List.Subset.refl _)

theorem take (node : ν) (now_unix_ms : Nat) : Sound d (s.take d node now_unix_ms) := by
  unfold Aggregators.take
  split
  · rename_i delivery rest hphase hqueue
    have hfront : ∀ x ∈ some delivery, ∃ rest, (s.topic.session node).queue = x :: rest := by
      intro x hx
      cases hx
      exact ⟨rest, hqueue⟩
    split
    · rename_i result hdecoded
      exact hs.enter hfront (decode_consumed_result_ok hdecoded)
    · exact hs.enter hfront (poisonOf_consumed _ _ _ _)
  · exact hs

omit [DecidableEq ν] in
/-- An update settles its record. -/
theorem counts (hwork : (s.phase node).delivery = some delivery)
    (hdecoded : decode_result d.parse delivery.message.payload = .ok result)
    (hok : (d.store.ingest result s.world).1 = .ok update) :
    Ingest.Counts d s.topic.log delivery.partition delivery.offset
      ⟨delivery.partition, delivery.offset, result, update, s.world,
        (d.store.ingest result s.world).2⟩ where
  place := ⟨rfl, rfl⟩
  record := ⟨delivery.message, hs.working.logged hwork, hdecoded⟩
  call := Prod.ext hok rfl
  held := by
    obtain ⟨h, hfind, hslice⟩ := update_holds hs.collected hok
    obtain ⟨rs, hrs⟩ := hs.collected.step (.ingest result) _ _ hfind
    exact ⟨h, hfind, hslice, rs, hrs, hrs.once hslice⟩

theorem ingest (node : ν) (call : Call) (now_unix_ms : Nat) :
    Sound d (s.ingest d node call now_unix_ms) := by
  unfold Aggregators.ingest
  split
  · rename_i delivery result hphase
    have hdecoded : decode_result d.parse delivery.message.payload = .ok result :=
      hs.working.promised hphase
    have hwork := congrArg Phase.delivery hphase
    have hworld := call.collected result hs.collected
    cases hanswer : (call.run d.store result s.world).1 with
    | ok update =>
      have hrun := Call.run_ok hanswer
      rw [hrun] at hanswer hworld
      have hgrown := hs.grow hworld (List.subset_append_left s.ingests
        [⟨delivery.partition, delivery.offset, result, update, s.world,
          (d.store.ingest result s.world).2⟩]) (List.Subset.refl _) (List.Subset.refl _)
      have hcounts := hs.counts hwork hdecoded hanswer
      simp only [hrun, Aggregators.note, hanswer, disposition]
      refine hgrown.goOn hphase rfl ?_
      exact .inl ⟨_, List.mem_append_right _ List.mem_cons_self, hcounts⟩
    | error error =>
      have hgrown := hs.grow hworld (List.Subset.refl _) (List.Subset.refl _) (List.Subset.refl _)
      rcases disposition_error error with ⟨reason, hdisposition⟩ | ⟨message, hdisposition⟩
      · simp only [Aggregators.note, hanswer, hdisposition]
        exact hgrown.goOn hphase rfl (poisonOf_consumed _ _ _ _)
      · simp only [Aggregators.note, hanswer, hdisposition]
        exact hgrown.stop node
  · exact hs

theorem publish (node : ν) (publication : Publication) :
    Sound d (s.publish d node publication) := by
  unfold Aggregators.publish
  split
  · rename_i delivery poison hphase
    have hof : PoisonOf d.topic delivery.partition delivery.offset poison :=
      hs.working.promised hphase
    split
    · rename_i sent hsent
      have hgrown := hs.grow hs.collected (List.Subset.refl _)
        (List.subset_append_left s.dlq [sent]) (List.subset_append_left s.acknowledged [sent])
      refine hgrown.goOn hphase rfl (.inr ⟨sent, ?_, ?_, ?_⟩)
      · exact List.mem_append_right _ List.mem_cons_self
      · exact List.mem_append_right _ List.mem_cons_self
      · exact poisonOf_validated hsent hof
    · rename_i sent hsent
      have hgrown := hs.grow hs.collected (List.Subset.refl _)
        (List.subset_append_left s.dlq [sent]) (List.Subset.refl _)
      exact hgrown.stop node
    · exact hs.stop node
  · exact hs

theorem commit (node : ν) : Sound d (s.commit node) := by
  unfold Aggregators.commit
  split
  · rename_i delivery hphase
    have hsettled : Settled d s delivery.partition delivery.offset :=
      hs.working.promised hphase
    have hwork := congrArg Phase.delivery hphase
    split
    · exact ⟨hs.working.request hwork hsettled rfl hsettled, hs.collected⟩
    · exact hs.stop node
  · exact hs

theorem confirm (node : ν) : Sound d (s.confirm node) := by
  unfold Aggregators.confirm
  split
  · rename_i delivery hphase
    have hsettled : Settled d s delivery.partition delivery.offset :=
      hs.working.promised hphase
    have hwork := congrArg Phase.delivery hphase
    split
    · exact ⟨hs.working.finish hwork hsettled rfl trivial, hs.collected⟩
    · exact hs.stop node
  · exact hs

theorem step (e : Event ν) : Sound d (s.step d e) := by
  cases e with
  | broker move => exact hs.broker move
  | redis op => exact hs.redis op
  | take node now_unix_ms => exact hs.take node now_unix_ms
  | ingest node call now_unix_ms => exact hs.ingest node call now_unix_ms
  | publish node publication => exact hs.publish node publication
  | commit node => exact hs.commit node
  | confirm node => exact hs.confirm node
  | stop node => exact hs.stop node

end

omit [DecidableEq ν] in
theorem start (log : Int32 → List Message) (now : Nat) :
    Sound d (.start log now : Aggregators ν) where
  working := .start log 0 rfl trivial
  collected := .start now

end Sound

/-- An error that a retry may cure stops the node, and nothing is committed or given up for it. -/
theorem transient_stops {call : Call} {now_unix_ms : Nat} {error : RunAggregationStoreError}
    (hphase : s.phase node = .Ingesting delivery result)
    (hanswer : (call.run d.store result s.world).1 = .error error)
    (htransient : isTransient error) :
    s.step d (.ingest node call now_unix_ms) =
      { s with world := (call.run d.store result s.world).2 }.stop node := by
  have hdisposition : ∃ message, disposition (.error error) = .Stop message := by
    cases error with
    | Contract | InconsistentResult | ErrorKindCapacity => exact htransient.elim
    | Unavailable | Timeout | InvalidState | ActiveRunCapacity => exact ⟨_, rfl⟩
  obtain ⟨message, hdisposition⟩ := hdisposition
  simp only [Aggregators.step, Aggregators.ingest, hphase, hanswer, hdisposition, Aggregators.note]

theorem sound_of_reachable (hs : Reachable (aggregatorSystem ν d) s) : Sound d s := by
  refine Reachable.invariant ?_ ?_ hs
  · rintro s ⟨log, now, rfl⟩
    exact .start log now
  · intro s e hsound _
    exact hsound.step e

end sound

/-- A result below the committed offset was merged into the record of its run, or its poison record
was acknowledged. An error that a retry may cure ends the session of its node with nothing
committed. -/
theorem no_consumed_result_is_dropped (ν : Type) [DecidableEq ν] (d : Deployment)
    (s : Aggregators ν) (hs : Reachable (aggregatorSystem ν d) s) :
    (∀ p, ∀ o < s.topic.committed p,
      (∃ i ∈ s.ingests, i.Counts d s.topic.log p o) ∨
        ∃ poison ∈ s.acknowledged, poison ∈ s.dlq ∧ PoisonOf d.topic p o poison) ∧
    ∀ node delivery result call now_unix_ms error, s.phase node = .Ingesting delivery result →
      (call.run d.store result s.world).1 = .error error → isTransient error →
      let s' := s.step d (.ingest node call now_unix_ms)
      s'.topic.committed = s.topic.committed ∧ s'.topic.requests = s.topic.requests ∧
        s'.ingests = s.ingests ∧ s'.dlq = s.dlq ∧ s'.acknowledged = s.acknowledged ∧
        s'.phase node = .Waiting ∧ (s'.topic.session node).deliveries = [] := by
  refine ⟨(sound_of_reachable hs).working.kept.committed, ?_⟩
  intro node delivery result call now_unix_ms error hphase hanswer htransient
  rw [transient_stops hphase hanswer htransient]
  refine ⟨rfl, rfl, rfl, rfl, rfl, ?_, ?_⟩
  · simp [Aggregators.stop]
  · simp [Aggregators.stop, Topic.stop, Topic.session_setSession, Session.closed,
      Session.deliveries]

def sampleDeployment : Deployment where
  topic := "results"
  parse := json.readerOf resultText [sampleResult]
  decode := fun _ => .ok []
  record_max_bytes := 1048576
  store := defaultStore

/-- A node on a result and a record without a payload. -/
def sampleStart : Aggregators Nat :=
  .start (fun _ => [⟨none, some (resultText sampleResult).toUTF8.data.toList⟩, ⟨none, none⟩]) 0

/-- The node reads the result. -/
def readEvents : List (Event Nat) :=
  [.broker (.assign 0 0), .broker (.fetch 0 0), .broker (.enqueue 0), .take 0 1]

/-- The result is merged and committed, and then the other record is given up. -/
def settleEvents : List (Event Nat) :=
  [.ingest 0 .Answered 1, .commit 0, .broker (.land 0 1), .confirm 0, .broker (.fetch 0 0),
    .broker (.enqueue 0), .take 0 2, .publish 0 .Acknowledged, .commit 0, .broker (.land 0 2)]

def sampleReading : Aggregators Nat :=
  readEvents.foldl (.step sampleDeployment) sampleStart

def sampleSettled : Aggregators Nat :=
  settleEvents.foldl (.step sampleDeployment) sampleReading

theorem sample_reading_reachable :
    Reachable (aggregatorSystem Nat sampleDeployment) sampleReading := by
  have hstart : Reachable (aggregatorSystem Nat sampleDeployment) sampleStart :=
    .initial ⟨_, _, rfl⟩
  exact hstart.foldl (by simp [Allowed, readEvents, aggregatorSystem])

theorem sample_settled_reachable :
    Reachable (aggregatorSystem Nat sampleDeployment) sampleSettled :=
  sample_reading_reachable.foldl (by simp [Allowed, settleEvents, aggregatorSystem])

/-- Two records are committed, one of each kind; a timeout of the ingest would have ended the
session before. -/
theorem two_consumed_results_are_settled :
    sampleSettled.topic.committed 0 = 2 ∧ sampleSettled.ingests.length = 1 ∧
      sampleSettled.acknowledged.length = 1 ∧
      (∀ o < 2, (∃ i ∈ sampleSettled.ingests,
          i.Counts sampleDeployment sampleSettled.topic.log 0 o) ∨
        ∃ poison ∈ sampleSettled.acknowledged, poison ∈ sampleSettled.dlq ∧
          PoisonOf "results" 0 o poison) ∧
      ((sampleReading.step sampleDeployment (.ingest 0 (.Lost .Timeout) 1)).topic.session
        0).deliveries = [] := by
  have hsettled : sampleSettled.topic.committed 0 = 2 ∧ sampleSettled.ingests.length = 1 ∧
      sampleSettled.acknowledged.length = 1 := by decide +kernel
  refine ⟨hsettled.1, hsettled.2.1, hsettled.2.2, ?_, ?_⟩
  · intro o ho
    rw [← hsettled.1] at ho
    exact (no_consumed_result_is_dropped Nat sampleDeployment sampleSettled
      sample_settled_reachable).1 0 o ho
  · have hreading : (match sampleReading.phase 0 with
        | .Ingesting .. => true
        | _ => false) = true := by decide +kernel
    split at hreading
    · rename_i hphase
      exact ((no_consumed_result_is_dropped Nat sampleDeployment sampleReading
        sample_reading_reachable).2 0 _ _ (.Lost .Timeout) 1 _ hphase rfl trivial).2.2.2.2.2.2
    · cases hreading

end pulse.aggregation_service
