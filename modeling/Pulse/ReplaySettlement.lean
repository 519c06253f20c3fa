-- The replay tool settles what it commits: below the committed offset of its
-- group each dead letter is poison, was filtered out, or has its job on the
-- topic of jobs. The jobs of one dead letter are the same job, and the jobs of
-- two dead letters never meet.
import Pulse.ReplayTool

open checks consumers systems
open pulse.config pulse.contracts pulse.identities pulse.kafka pulse.planning pulse.replay
open pulse.worker

namespace pulse.dlq

variable {ν : Type} [DecidableEq ν]

/-! ## What is settled -/

/-- The process was started to replay, and with the acknowledgement that this needs. -/
structure Tool.Replays (tool : Tool) : Prop where
  check : tool.check = .ok ()
  dry_run : tool.dry_run = false

theorem Tool.Replays.idempotent_ack {tool : Tool} (h : tool.Replays) :
    tool.idempotent_ack = true := by
  have hcheck := h.check
  simp only [Tool.check, bind_eq_ok, rejectIf_eq_ok] at hcheck
  obtain ⟨_, hack, -⟩ := hcheck
  by_contra hno
  exact hack ⟨h.dry_run, by simpa using hno⟩

/-- The job is the one that the process makes of the dead letter at this place. -/
def Replayed (crates : Crates) (topic : String) (tool : Tool) (message : Message)
    (sent : Sent ν) : Prop :=
  ∃ failed scenario, tool.classify crates message = .Matched failed scenario ∧
    tool.replay_job crates topic sent.partition sent.offset failed scenario = .ok sent.job ∧
    sent.key = scenario.config.partition_key_strategy.key_for sent.job

/-- What a process has done with a record: it is poison or filtered out, or its job is sent. -/
def Dealt (crates : Crates) (topic : String) (tool : Tool) (sents : List (Sent ν)) (process : ν)
    (p : Int32) (o : Nat) (message : Message) : Prop :=
  (∃ record, tool.classify crates message = .Poison record) ∨
    (∃ failed, tool.classify crates message = .Filtered failed) ∨
    ∃ sent ∈ sents, sent.process = process ∧ sent.partition = p ∧ sent.offset = o ∧
      Replayed crates topic tool message sent

/-- A process that replays has dealt with the record at this place. -/
def Settled (crates : Crates) (topic : String) (tools : ν → Tool) (log : Int32 → List Message)
    (sents : List (Sent ν)) (p : Int32) (o : Nat) : Prop :=
  ∃ process message, (tools process).Replays ∧ (log p)[o]? = some message ∧
    Dealt crates topic (tools process) sents process p o message

def Phase.Promise (settled : Int32 → Nat → Prop) : Phase → Prop
  | .Waiting | .Ended | .Publishing _ _ _ => True
  | .Committing delivery | .Confirming delivery => settled delivery.partition delivery.offset

section sound

variable {crates : Crates} {topic : String} {tools : ν → Tool} {s : Replays ν} {process : ν}

/-- What a process is about to publish is the job of its dead letter. -/
def Pending (crates : Crates) (topic : String) (tool : Tool) (process : ν) : Phase → Prop
  | .Publishing delivery key job => tool.Replays ∧ Replayed crates topic tool delivery.message
      (⟨process, delivery.partition, delivery.offset, key, job⟩ : Sent ν)
  | .Committing _ | .Confirming _ => tool.Replays
  | _ => True

/-- Every job on the topic is the job of its dead letter. -/
def Genuine (crates : Crates) (topic : String) (tools : ν → Tool) (log : Int32 → List Message)
    (sent : Sent ν) : Prop :=
  (tools sent.process).Replays ∧ ∃ message, (log sent.partition)[sent.offset]? = some message ∧
    Replayed crates topic (tools sent.process) message sent

structure Sound (crates : Crates) (topic : String) (tools : ν → Tool) (s : Replays ν) : Prop where
  working : Working (Settled crates topic tools s.group.topic.log s.sent) Phase.delivery
    (Phase.Promise (Settled crates topic tools s.group.topic.log s.sent)) s.group
  pending : ∀ process, Pending crates topic (tools process) process (s.group.phase process)
  sent : ∀ sent ∈ s.sent, Genuine crates topic tools s.group.topic.log sent

omit [DecidableEq ν] in
theorem Settled.mono {log log' : Int32 → List Message} {sents sents' : List (Sent ν)} {p : Int32}
    {o : Nat} (h : Settled crates topic tools log sents p o)
    (hlog : ∀ (p : Int32) (o : Nat) (message : Message),
      (log p)[o]? = some message → (log' p)[o]? = some message)
    (hsents : sents ⊆ sents') : Settled crates topic tools log' sents' p o := by
  obtain ⟨process, message, hreplays, hmessage, hdealt⟩ := h
  refine ⟨process, message, hreplays, hlog p o message hmessage, ?_⟩
  rcases hdealt with hpoison | hfiltered | ⟨sent, hsent, hrest⟩
  · exact .inl hpoison
  · exact .inr (.inl hfiltered)
  · exact .inr (.inr ⟨sent, hsents hsent, hrest⟩)

variable {phase : Phase}

omit [DecidableEq ν] in
theorem Phase.Promise.mono {settled settled' : Int32 → Nat → Prop} (h : phase.Promise settled)
    (hle : ∀ p o, settled p o → settled' p o) : phase.Promise settled' := by
  cases phase with
  | Waiting | Ended | Publishing => trivial
  | Committing | Confirming => exact hle _ _ h

namespace Sound

omit [DecidableEq ν] in
theorem start (log : Int32 → List Message) : Sound crates topic tools (.start log : Replays ν) where
  working := .start log 0 rfl trivial
  pending := fun _ => trivial
  sent := nofun

theorem pending_update (hs : Sound crates topic tools s)
    (h : Pending crates topic (tools process) process phase) (p : ν) :
    Pending crates topic (tools p) p (Function.update s.group.phase process phase p) :=
  forall_update (P := fun p phase => Pending crates topic (tools p) p phase)
    (fun p _ => hs.pending p) h p

/-- One process goes on with its record. -/
theorem goOn (hs : Sound crates topic tools s) {old : Phase} (hphase : s.group.phase process = old)
    (hdelivery : phase.delivery = old.delivery)
    (hpromise : phase.Promise (Settled crates topic tools s.group.topic.log s.sent))
    (hpending : Pending crates topic (tools process) process phase) :
    Sound crates topic tools (s.enter process phase) := by
  subst hphase
  exact ⟨hs.working.goOn hdelivery hpromise, hs.pending_update hpending, hs.sent⟩

variable {delivery : Consumed} (hs : Sound crates topic tools s)
include hs

/-- A process takes the oldest record of its session. -/
theorem begin {rest : List (Consumed)}
    (hqueue : (s.group.topic.session process).queue = delivery :: rest)
    (hdelivery : phase.delivery = some delivery)
    (hpromise : phase.Promise (Settled crates topic tools s.group.topic.log s.sent))
    (hpending : Pending crates topic (tools process) process phase) :
    Sound crates topic tools (s.enter process phase) := by
  refine ⟨hs.working.enter ?_ hpromise, hs.pending_update hpending, hs.sent⟩
  intro d hd
  rw [hdelivery] at hd
  cases hd
  exact ⟨rest, hqueue⟩

theorem leave (process : ν) : Sound crates topic tools (s.leave process) :=
  ⟨hs.working.leave process rfl trivial, hs.pending_update trivial, hs.sent⟩

theorem note (process : ν) : Sound crates topic tools (s.note process) :=
  ⟨hs.working, hs.pending, hs.sent⟩

theorem broker (move : Move ν Int32 Message) :
    Sound crates topic tools { s with group := s.group.move move } := by
  have hlog : ∀ (p : Int32) (o : Nat) (message : Message),
      (s.group.topic.log p)[o]? = some message →
        ((s.group.move move).topic.log p)[o]? = some message :=
    fun _ _ _ h => s.group.topic.log_move move h
  have hle := fun p o (h : Settled crates topic tools s.group.topic.log s.sent p o) =>
    h.mono hlog (List.Subset.refl _)
  refine ⟨(hs.working.move move).mono hle fun _ h => h.mono hle, hs.pending, ?_⟩
  intro sent hsent
  obtain ⟨hreplays, message, hmessage, hreplayed⟩ := hs.sent sent hsent
  exact ⟨hreplays, message, hlog _ _ _ hmessage, hreplayed⟩

omit [DecidableEq ν] in
/-- The job of a process is appended to the topic. -/
theorem send {key : String} {job : ScenarioJob}
    (hphase : s.group.phase process = .Publishing delivery key job) : let s' : Replays ν := { s with
      sent := s.sent ++ [⟨process, delivery.partition, delivery.offset, key, job⟩] }
    Sound crates topic tools s' ∧
      Settled crates topic tools s'.group.topic.log s'.sent delivery.partition
        delivery.offset := by
  intro s'
  have hpending := hs.pending process
  rw [hphase] at hpending
  obtain ⟨hreplays, hreplayed⟩ := hpending
  have hlogged := hs.working.logged (n := process) (congrArg Phase.delivery hphase)
  have hle := fun p o (h : Settled crates topic tools s.group.topic.log s.sent p o) =>
    h.mono (fun _ _ _ h => h) (List.subset_append_left s.sent
      [⟨process, delivery.partition, delivery.offset, key, job⟩])
  refine ⟨⟨hs.working.mono hle fun _ h => h.mono hle, hs.pending, ?_⟩, ?_⟩
  · intro sent hsent
    rcases List.mem_append.mp hsent with hold | hnew
    · exact hs.sent sent hold
    · cases List.mem_singleton.mp hnew
      exact ⟨hreplays, delivery.message, hlogged, hreplayed⟩
  · refine ⟨process, delivery.message, hreplays, hlogged, .inr (.inr ⟨_, ?_, rfl, rfl, rfl,
      hreplayed⟩)⟩
    exact List.mem_append_right _ (List.mem_singleton_self _)

theorem take (hreplays : (tools process).Replays) :
    Sound crates topic tools (s.take crates topic (tools process) process) := by
  unfold Replays.take
  split
  · rename_i delivery rest hphase hqueue
    split
    · exact hs.leave process
    · have hmessage := hs.working.kept.logged process delivery (by
        rw [Session.deliveries, hqueue]
        exact List.mem_append_left _ List.mem_cons_self)
      have hnoted := hs.note process
      dsimp only
      split
      · exact hnoted.leave process
      · exact hnoted.leave process
      · rename_i record hverdict
        exact hnoted.begin hqueue rfl ⟨process, delivery.message, hreplays, hmessage,
          .inl ⟨record, hverdict⟩⟩ hreplays
      · rename_i failed hverdict
        exact hnoted.begin hqueue rfl ⟨process, delivery.message, hreplays, hmessage,
          .inr (.inl ⟨failed, hverdict⟩)⟩ hreplays
      · rename_i failed scenario hverdict
        split
        · rename_i job hjob
          exact hnoted.begin hqueue rfl trivial
            ⟨hreplays, failed, scenario, hverdict, hjob, rfl⟩
        · exact hnoted.leave process
  · exact hs

theorem examine (process : ν) :
    Sound crates topic tools (s.examine crates (tools process) process) := by
  unfold Replays.examine
  split
  · split
    · exact hs.leave process
    · dsimp only
      split
      · exact (hs.note process).leave process
      · exact ⟨hs.working, hs.pending, hs.sent⟩
  · exact hs

theorem publish (process : ν) (sending : Sending) :
    Sound crates topic tools (s.publish crates process sending) := by
  unfold Replays.publish
  split
  · rename_i delivery key job hphase
    obtain ⟨hsent, hsettled⟩ := hs.send hphase
    have hpending := hs.pending process
    rw [hphase] at hpending
    dsimp only
    split
    · exact hsent.goOn hphase rfl hsettled hpending.1
    · exact hsent.leave process
    · exact hs.leave process
  · exact hs

theorem commit (process : ν) : Sound crates topic tools (s.commit process) := by
  unfold Replays.commit
  split
  · rename_i delivery hphase
    have hsettled := hs.working.promised hphase
    have hpending := hs.pending process
    rw [hphase] at hpending
    exact ⟨hs.working.request (congrArg Phase.delivery hphase) hsettled rfl hsettled,
      hs.pending_update hpending, hs.sent⟩
  · exact hs

theorem confirm (process : ν) (answered : Bool) :
    Sound crates topic tools (s.confirm process answered) := by
  unfold Replays.confirm
  split
  · rename_i delivery hphase
    split
    · have hsettled := hs.working.promised hphase
      exact ⟨hs.working.finish (congrArg Phase.delivery hphase) hsettled rfl trivial,
        hs.pending_update trivial, hs.sent⟩
    · exact hs.leave process
  · exact hs

end Sound

theorem sound_of_reachable (hs : Reachable (replaySystem crates topic tools) s) :
    Sound crates topic tools s := by
  refine Reachable.invariant ?_ ?_ hs
  · rintro s ⟨log, rfl⟩
    exact .start log
  · intro s event hs hallowed
    cases event with
    | broker move => exact hs.broker move
    | receive process =>
      simp only [replaySystem, Replays.step, Replays.receive]
      split
      · exact hs.examine process
      · rename_i hdry
        exact hs.take ⟨hallowed, by simpa using hdry⟩
    | publish process sending => exact hs.publish process sending
    | commit process => exact hs.commit process
    | confirm process answered => exact hs.confirm process answered
    | stop process => exact hs.leave process

end sound

/-! ## The identity of a replay -/

section identity

variable {crates : Crates} {topic : String} {tool : Tool} {message : Message}
  {failed : FailedScenarioJob} {scenario : Scenario} {p : Int32} {o : Nat} {job : ScenarioJob}

/-- What a process matches is a failed job, whatever its settings are. -/
theorem classify_matched (h : tool.classify crates message = .Matched failed scenario) :
    ∃ payload, message.payload = some payload ∧
      decode_replay_record crates.decode crates.serde payload = .ok (.FailedJob failed) := by
  unfold Tool.classify at h
  split at h
  · cases h
  split at h
  · cases h
  rename_i payload hpayload
  split at h
  · cases h
  · cases h
  rename_i found hdecoded
  split at h
  · split at h
    · cases h
    · cases h
      exact ⟨payload, hpayload, hdecoded⟩
  · cases h

/-- The run of a replay is named after the place and the event of its dead letter. -/
theorem replay_job_identity
    (h : tool.replay_job crates topic p o failed scenario = .ok job) :
    ∃ source, ReplaySource.new topic p (Int64.ofNat o) = .ok source ∧
      job.run_id =
        replay_run_id source (fnv1a_128 (failed_event_identity failed).toUTF8.data.toList) ∧
      job.execution_key = job.run_id ++ ":slice-0-of-1" ∧ job.slice = ⟨0, 1⟩ ∧
      job.attempt = 0 := by
  simp only [Tool.replay_job, build_replay_job, bind_eq_ok] at h
  obtain ⟨source, hsource, built, ⟨_, -, _, -, _, -, hbuilt⟩, _, -, hjob⟩ := h
  cases hbuilt
  cases hjob
  exact ⟨source, hsource, rfl, rfl, rfl, rfl⟩

theorem source_place {source : ReplaySource}
    (h : ReplaySource.new topic p (Int64.ofNat o) = .ok source) :
    source.partition = p ∧ source.offset = Int64.ofNat o := by
  unfold ReplaySource.new at h
  repeat' split at h
  all_goals cases h
  exact ⟨rfl, rfl⟩

theorem int64_ofNat_inj {m n : Nat} (hm : m < 2 ^ 63) (hn : n < 2 ^ 63)
    (h : Int64.ofNat m = Int64.ofNat n) : m = n := by
  have hint := congrArg Int64.toInt h
  rw [Int64.toInt_ofNat_of_lt hm, Int64.toInt_ofNat_of_lt hn] at hint
  exact Int.ofNat_inj.mp hint

end identity

/-! ## The law -/

section law

variable {crates : Crates} {topic : String} {tools : ν → Tool} {s : Replays ν}

omit [DecidableEq ν] in
/-- Two jobs are for one dead letter, and so of one run, or for two. -/
theorem Genuine.same_place {log : Int32 → List Message} {x y : Sent ν}
    (hx : Genuine crates topic tools log x) (hy : Genuine crates topic tools log y)
    (hoffset : x.offset < 2 ^ 63) (hoffset' : y.offset < 2 ^ 63) :
    (x.partition = y.partition ∧ x.offset = y.offset ↔ x.job.run_id = y.job.run_id) ∧
      (x.partition = y.partition ∧ x.offset = y.offset ↔
        x.job.execution_key = y.job.execution_key) := by
  obtain ⟨-, message, hmessage, failed, scenario, hmatched, hjob, -⟩ := hx
  obtain ⟨-, message', hmessage', failed', scenario', hmatched', hjob', -⟩ := hy
  obtain ⟨source, hsource, hrun, hkey, -⟩ := replay_job_identity hjob
  obtain ⟨source', hsource', hrun', hkey', -⟩ := replay_job_identity hjob'
  obtain ⟨hpartition, hplace⟩ := source_place hsource
  obtain ⟨hpartition', hplace'⟩ := source_place hsource'
  -- one place has one dead letter, and its run does not depend on the process
  have hrun_of_place : x.partition = y.partition ∧ x.offset = y.offset →
      x.job.run_id = y.job.run_id := by
    rintro ⟨hp, ho⟩
    rw [hp, ho, hmessage'] at hmessage
    cases hmessage
    obtain ⟨payload, hpayload, hdecoded⟩ := classify_matched hmatched
    obtain ⟨payload', hpayload', hdecoded'⟩ := classify_matched hmatched'
    rw [hpayload] at hpayload'
    cases hpayload'
    rw [hdecoded] at hdecoded'
    cases hdecoded'
    rw [hp, ho, hsource'] at hsource
    cases hsource
    rw [hrun, hrun']
  have hplace_of_run : x.job.run_id = y.job.run_id →
      x.partition = y.partition ∧ x.offset = y.offset := by
    intro h
    rw [hrun, hrun'] at h
    obtain ⟨hsame, -⟩ := replay_run_id_inj (fnv1a_128_lt _) (fnv1a_128_lt _) h
    subst hsame
    refine ⟨hpartition.symm.trans hpartition', ?_⟩
    exact int64_ofNat_inj hoffset hoffset' (hplace.symm.trans hplace')
  refine ⟨⟨hrun_of_place, hplace_of_run⟩, ⟨?_, ?_⟩⟩
  · intro h
    rw [hkey, hkey', hrun_of_place h]
  · intro h
    rw [hkey, hkey'] at h
    exact hplace_of_run ((String.append_left_inj _).mp h)

/-- Below the committed offset of the group each dead letter is poison or filtered out for a
process that replays, or its job is on the topic of jobs, and every job there is the job of its dead
letter, published by a process with `idempotent_ack`. The jobs of one dead letter have one run and
one execution key, and those of two dead letters have two. -/
theorem replays_settle_what_they_commit (hs : Reachable (replaySystem crates topic tools) s) :
    (∀ p, ∀ o < s.group.topic.committed p, ∃ process message,
      (tools process).dry_run = false ∧ (s.group.topic.log p)[o]? = some message ∧
        Dealt crates topic (tools process) s.sent process p o message) ∧
    (∀ sent ∈ s.sent, (tools sent.process).dry_run = false ∧
      (tools sent.process).idempotent_ack = true ∧ sent.job.attempt = 0 ∧
      ∃ message, (s.group.topic.log sent.partition)[sent.offset]? = some message ∧
        Replayed crates topic (tools sent.process) message sent) ∧
    ∀ x ∈ s.sent, ∀ y ∈ s.sent, x.offset < 2 ^ 63 → y.offset < 2 ^ 63 →
      (x.partition = y.partition ∧ x.offset = y.offset ↔ x.job.run_id = y.job.run_id) ∧
        (x.partition = y.partition ∧ x.offset = y.offset ↔
          x.job.execution_key = y.job.execution_key) := by
  have hsound := sound_of_reachable hs
  refine ⟨?_, ?_, ?_⟩
  · intro p o ho
    obtain ⟨process, message, hreplays, hmessage, hdealt⟩ :=
      hsound.working.kept.committed p o ho
    exact ⟨process, message, hreplays.dry_run, hmessage, hdealt⟩
  · intro sent hsent
    obtain ⟨hreplays, message, hmessage, hreplayed⟩ := hsound.sent sent hsent
    obtain ⟨failed, scenario, -, hjob, -⟩ := id hreplayed
    obtain ⟨-, -, -, -, -, hattempt⟩ := replay_job_identity hjob
    exact ⟨hreplays.dry_run, hreplays.idempotent_ack, hattempt, message, hmessage, hreplayed⟩
  · intro x hx y hy hoffset hoffset'
    exact (hsound.sent x hx).same_place (hsound.sent y hy) hoffset hoffset'

end law

/-- Both dead letters are committed, the first one with a job of each of two processes. -/
theorem two_processes_replay_one_dead_letter :
    sampleReplays.group.topic.committed 0 = 2 ∧ sampleReplays.sent.length = 2 ∧
      ∀ x ∈ sampleReplays.sent, ∀ y ∈ sampleReplays.sent, x.job.run_id = y.job.run_id := by
  have hrun : sampleReplays.group.topic.committed 0 = 2 ∧ sampleReplays.sent.length = 2 ∧
      ∀ sent ∈ sampleReplays.sent, sent.partition = 0 ∧ sent.offset = 0 := by
    decide +kernel
  obtain ⟨hcommitted, hlength, hplaces⟩ := hrun
  refine ⟨hcommitted, hlength, ?_⟩
  intro x hx y hy
  obtain ⟨hp, ho⟩ := hplaces x hx
  obtain ⟨hp', ho'⟩ := hplaces y hy
  have hlaw := (replays_settle_what_they_commit sampleReplays_reachable).2.2 x hx y hy
    (by rw [ho]; decide) (by rw [ho']; decide)
  exact hlaw.1.mp ⟨hp.trans hp'.symm, ho.trans ho'.symm⟩

end pulse.dlq
