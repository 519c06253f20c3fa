-- No job is lost by the workers: below the committed offset of a partition each
-- job has its result, its dead letter, its poison record or its next attempt, and
-- so each chain of attempts that is committed to its end has one of the first three.
import Pulse.RecordTexts
import Pulse.RetryChain
import Pulse.WorkerProtocol

open checks consumers keyspace systems
open pulse.contracts pulse.coordination pulse.execution_lease pulse.kafka pulse.service

namespace pulse.execution_lease.RedisIdempotencyStore

/-! ## The scripts and finished records -/

variable {store : RedisIdempotencyStore} {now : Nat} {key : ExecutionKey} {lease : ExecutionLease}
  {k : Key ExecutionRecord} {outcome : TerminalOutcome} {claim : ExecutionClaim} {token : String}

/-- A claim finishes no record. -/
theorem claim_terminal (hk : (store.claim now token claim key).2 = some k)
    (hstate : k.value.state = .terminal outcome) : key = some k := by
  rcases claim_cases store now key token claim with ⟨hsame, -⟩
    | ⟨_, _, _, _, -, -, -, heq, -, hrun, -⟩
  · exact hsame.symm.trans hk
  · rw [heq] at hk
    cases hk
    rw [hrun] at hstate
    cases hstate

theorem renew_terminal (hk : (store.renew now lease key).2 = some k)
    (hstate : k.value.state = .terminal outcome) : key = some k := by
  rcases renew_cases store now key lease with ⟨hsame, -⟩ | ⟨_, _, old, -, hholds, heq⟩
  · exact hsame.symm.trans hk
  · rw [heq] at hk
    cases hk
    have hrun : old.state = .terminal outcome := hstate
    rw [hholds.running] at hrun
    cases hrun

theorem release_eq_some (hk : (release now lease key).2 = some k) : key = some k := by
  rcases release_cases now key lease with ⟨hsame, -⟩ | ⟨_, -, heq⟩
  · exact hsame.symm.trans hk
  · rw [heq] at hk
    cases hk

/-- A completion finishes the record of its lease. -/
theorem complete_terminal {ended : TerminalOutcome}
    (hk : (store.complete now lease ended key).2 = some k)
    (hstate : k.value.state = .terminal outcome) :
    key = some k ∨ Identifies k.value lease.execution_key lease.attempt ∧ outcome = ended := by
  rcases complete_cases store now key lease ended with
    ⟨hsame, -⟩ | ⟨_, -, -, -, heq⟩ | ⟨_, old, -, hholds, heq⟩
  · exact .inl (hsame.symm.trans hk)
  · rw [heq] at hk
    exact .inl hk
  · rw [heq] at hk
    cases hk
    cases hstate
    exact .inr ⟨hholds.identity, rfl⟩

/-- A claim reports a completion that the record of its own attempt has. -/
theorem claim_already_completed {completed : CompletedOutcome}
    (h : (store.claim now token claim key).1 = .ok (.AlreadyCompleted completed)) :
    ∃ k, key = some k ∧ k.value.state = .terminal completed.outcome ∧
      Identifies k.value claim.execution_key claim.attempt := by
  unfold RedisIdempotencyStore.claim at h
  split at h
  · cases h
  split at h
  · unfold claim_script at h
    split at h
    · cases h
    rename_i record hget
    split at h
    · cases h
    rename_i hid
    rw [not_or, not_not, not_not] at hid
    split at h
    · rename_i ended hstate
      cases h
      obtain ⟨k, hkey, hvalue, -⟩ := get_eq_some.mp hget
      subst hvalue
      exact ⟨k, hkey, hstate, hid⟩
    · cases h
    · dsimp only at h
      split at h <;> cases h
  · cases h
  · cases h

theorem claim_acquired (h : (store.claim now token claim key).1 = .ok (.Acquired lease)) :
    lease.execution_key = claim.execution_key ∧ lease.attempt = claim.attempt := by
  rcases claim_cases store now key token claim with ⟨-, hnone⟩ | ⟨_, _, _, _, -, -, -, heq, -⟩
  · exact absurd h (hnone lease)
  · rw [heq] at h
    cases h
    exact ⟨rfl, rfl⟩

end pulse.execution_lease.RedisIdempotencyStore

namespace pulse.worker

open RedisIdempotencyStore

/-! ## Evidence -/

/-- The topics that the workers append to. -/
structure Topics where
  log : Int32 → List Message
  results : List ScenarioRunResult
  failed : List FailedScenarioJob
  poisons : List PoisonMessageRecord

def Workers.topics {ν : Type} (s : Workers ν) : Topics :=
  ⟨s.group.topic.log, s.results, s.failed, s.poisons⟩

/-- The result of an attempt, with the identity of its event. -/
def ResultOf (execution_key : String) (attempt : Nat) (result : ScenarioRunResult) : Prop :=
  result.execution_key = execution_key ∧ result.attempt.toNat = attempt ∧
    result.event_id = build_terminal_event_id execution_key result.attempt "result"

/-- The dead letter of an attempt. -/
def FailedOf (execution_key : String) (attempt : Nat) (failed : FailedScenarioJob) : Prop :=
  failed.execution_key = execution_key ∧ failed.attempt.toNat = attempt ∧
    failed.event_id = build_terminal_event_id execution_key failed.attempt "dlq"

def JobOf (execution_key : String) (attempt : Nat) (job : ScenarioJob) : Prop :=
  job.execution_key = execution_key ∧ job.attempt.toNat = attempt

/-- The text of a job is a record of the log. -/
def Appended (r : WorkerRuntime) (log : Int32 → List Message) (job : ScenarioJob) : Prop :=
  ∃ (p : Int32) (o : Nat) (key : Option (List UInt8)) (text : String),
    serialize_validated_job r.to_string job = .ok text ∧
      (log p)[o]? = some ⟨key, some text.toUTF8.data.toList⟩

/-- The record that stands for an outcome of an attempt. -/
def Evidence (r : WorkerRuntime) (t : Topics) (execution_key : String) (attempt : Nat) :
    TerminalOutcome → Prop
  | .ResultPublished => ∃ result ∈ t.results, ResultOf execution_key attempt result
  | .RetryPublished => ∃ job, JobOf execution_key (attempt + 1) job ∧ Appended r t.log job
  | .DeadLetterPublished => ∃ failed ∈ t.failed, FailedOf execution_key attempt failed

/-- The record at an offset has its poison record, or it is a job with a settled attempt. -/
def Settled (r : WorkerRuntime) (t : Topics) (p : Int32) (o : Nat) : Prop :=
  (∃ poison ∈ t.poisons, PoisonOf r.topic p o poison) ∨
    ∃ message job outcome, (t.log p)[o]? = some message ∧
      decode_job r.parse message.payload = .ok job ∧
      Evidence r t job.execution_key job.attempt.toNat outcome

/-- Records stay on their topics. -/
structure Topics.Grows (t t' : Topics) : Prop where
  log : ∀ (p : Int32) (o : Nat) (message : Message),
    (t.log p)[o]? = some message → (t'.log p)[o]? = some message
  results : t.results ⊆ t'.results
  failed : t.failed ⊆ t'.failed
  poisons : t.poisons ⊆ t'.poisons

section evidence

variable {r : WorkerRuntime} {t t' : Topics}

theorem Topics.Grows.refl (t : Topics) : t.Grows t :=
  ⟨fun _ _ _ h => h, List.Subset.refl _, List.Subset.refl _, List.Subset.refl _⟩

variable {outcome : TerminalOutcome}

theorem Evidence.mono {execution_key : String} {attempt : Nat}
    (h : Evidence r t execution_key attempt outcome) (hgrows : t.Grows t') :
    Evidence r t' execution_key attempt outcome := by
  cases outcome with
  | ResultPublished =>
    obtain ⟨result, hmem, hof⟩ := h
    exact ⟨result, hgrows.results hmem, hof⟩
  | RetryPublished =>
    obtain ⟨job, hof, p, o, key, text, htext, hlog⟩ := h
    exact ⟨job, hof, p, o, key, text, htext, hgrows.log p o _ hlog⟩
  | DeadLetterPublished =>
    obtain ⟨failed, hmem, hof⟩ := h
    exact ⟨failed, hgrows.failed hmem, hof⟩

theorem Settled.mono {p : Int32} {o : Nat} (h : Settled r t p o) (hgrows : t.Grows t') :
    Settled r t' p o := by
  rcases h with ⟨poison, hmem, hof⟩ | ⟨message, job, outcome, hlog, hdecoded, hevidence⟩
  · exact .inl ⟨poison, hgrows.poisons hmem, hof⟩
  · exact .inr ⟨message, job, outcome, hgrows.log p o message hlog, hdecoded, hevidence.mono hgrows⟩

end evidence

/-! ## What a phase promises -/

/-- The record is this job. -/
def JobIn (r : WorkerRuntime) (delivery : Consumed) (job : ScenarioJob) : Prop :=
  decode_job r.parse delivery.message.payload = .ok job

/-- The lease is for the attempt of the record. -/
def LeaseFor (r : WorkerRuntime) (delivery : Consumed) (lease : ExecutionLease) :
    Prop :=
  ∃ job, JobIn r delivery job ∧ JobOf lease.execution_key lease.attempt job

/-- The publication settles this attempt. -/
def Publication.Of (execution_key : String) (attempt : Nat) : Publication → Prop
  | .Result result => ResultOf execution_key attempt result
  | .Retry _ job => JobOf execution_key (attempt + 1) job
  | .DeadLetter failed => FailedOf execution_key attempt failed

def Phase.Promise (r : WorkerRuntime) (t : Topics) : Phase → Prop
  | .Waiting | .Releasing _ => True
  | .Checking delivery job | .Claiming delivery job => JobIn r delivery job
  | .Poisoning delivery poison _ => PoisonOf r.topic delivery.partition delivery.offset poison
  | .Rejecting delivery failed _ =>
    ∃ job, JobIn r delivery job ∧ FailedOf job.execution_key job.attempt.toNat failed
  | .Executing delivery job lease =>
    JobIn r delivery job ∧ JobOf lease.execution_key lease.attempt job
  | .Verifying delivery lease publication _ | .Publishing delivery lease publication _ =>
    LeaseFor r delivery lease ∧ publication.Of lease.execution_key lease.attempt
  | .Completing delivery lease outcome _ =>
    LeaseFor r delivery lease ∧ Evidence r t lease.execution_key lease.attempt outcome
  | .Committing delivery | .Confirming delivery => Settled r t delivery.partition delivery.offset

theorem Phase.Promise.mono {r : WorkerRuntime} {t t' : Topics} {phase : Phase}
    (h : phase.Promise r t) (hgrows : t.Grows t') : phase.Promise r t' := by
  cases phase with
  | Waiting | Releasing => trivial
  | Checking | Claiming | Poisoning | Rejecting | Executing | Verifying | Publishing => exact h
  | Completing => exact ⟨h.1, h.2.mono hgrows⟩
  | Committing | Confirming => exact Settled.mono h hgrows

@[simp]
theorem Workers.group_renew {ν : Type} (r : WorkerRuntime) (s : Workers ν) (lease : ExecutionLease)
    (response : Response) : (s.renew r lease response).2.group = s.group := by
  unfold Workers.renew
  split
  · rfl
  · dsimp only
    split <;> rfl

theorem failedOf_failed_job (job : ScenarioJob) (reason : String) (now_unix_ms : Nat) :
    FailedOf job.execution_key job.attempt.toNat (failed_job job reason now_unix_ms) :=
  ⟨rfl, rfl, rfl⟩

/-- What is sent for a dead letter keeps the identity of its attempt. -/
theorem failedOf_sent {execution_key : String} {attempt : Nat} {failed sent : FailedScenarioJob}
    (hsent : validated_failed_job failed = .ok sent) (h : FailedOf execution_key attempt failed) :
    FailedOf execution_key attempt sent := by
  obtain ⟨rfl, -⟩ := validated_failed_job_iff.mp hsent
  exact h

variable {publication : Publication}

/-- What is chosen for a report settles the attempt of its job. -/
theorem chosen_publication_of {config : NodeRuntimeConfig} {plans : Plans} {job : ScenarioJob}
    {report : runner.RunReport} {started_at finished_at now_unix_ms : Nat}
    (h : chosen_publication config plans job report started_at finished_at now_unix_ms =
      some publication) : publication.Of job.execution_key job.attempt.toNat := by
  unfold chosen_publication at h
  split at h
  · cases h
    exact failedOf_failed_job job _ _
  dsimp only at h
  split at h
  · cases h
  split at h
  · unfold settle_infrastructure_failure at h
    split at h
    · rename_i hsettled
      cases h
      split at hsettled
      · cases hsettled
        exact failedOf_failed_job job _ _
      · cases hsettled
    · rename_i hsettled
      cases h
      split at hsettled
      · cases hsettled
      · rename_i hattempt
        cases hsettled
        exact ⟨rfl, next_attempt_toNat (UInt32.not_le.mp hattempt)⟩
  split at h
  · cases h
    exact failedOf_failed_job job _ _
  · cases h
    exact ⟨rfl, rfl, rfl⟩

/-! ## The invariant -/

variable {ν : Type} [DecidableEq ν]

/-- The workers keep their promises, a finished execution record and a completion on its way have
the record that they speak of. -/
structure Sound (r : WorkerRuntime) (s : Workers ν) : Prop where
  working : Working (Settled r s.topics) Phase.delivery (Phase.Promise r s.topics) s.group
  records : ∀ name k outcome, s.records name = some k → k.value.state = .terminal outcome →
    Evidence r s.topics k.value.execution_key k.value.attempt outcome
  completions : ∀ c ∈ s.completions, Evidence r s.topics c.1.execution_key c.1.attempt c.2

section sound

variable {r : WorkerRuntime} {s s' last : Workers ν} {node : ν} {phase : Phase}

omit [DecidableEq ν] in
theorem Sound.start (log : Int32 → List Message) (now_ms : Nat) :
    Sound r (.start log now_ms : Workers ν) where
  working := .start log 0 rfl trivial
  records := by
    intro name k outcome hk
    cases hk
  completions := by
    intro c hc
    cases hc

namespace Sound

section

variable (hs : Sound r s)
include hs

omit [DecidableEq ν] in
/-- More records are on the topics. -/
theorem grow (hgrows : s.topics.Grows s'.topics)
    (hworking : Working (Settled r s.topics) Phase.delivery (Phase.Promise r s.topics) s'.group)
    (hrecords : s'.records = s.records) (hcompletions : s'.completions = s.completions) :
    Sound r s' where
  working := hworking.mono (fun _ _ h => h.mono hgrows) fun _ h => h.mono hgrows
  records := by
    intro name k outcome hk hstate
    rw [hrecords] at hk
    exact (hs.records name k outcome hk hstate).mono hgrows
  completions := by
    intro c hc
    rw [hcompletions] at hc
    exact (hs.completions c hc).mono hgrows

omit [DecidableEq ν] in
theorem poison (sent : PoisonMessageRecord) : Sound r { s with poisons := s.poisons ++ [sent] } :=
  hs.grow { Topics.Grows.refl s.topics with poisons := List.subset_append_left _ _ } hs.working rfl
    rfl

omit [DecidableEq ν] in
theorem deadLetter (sent : FailedScenarioJob) : Sound r { s with failed := s.failed ++ [sent] } :=
  hs.grow { Topics.Grows.refl s.topics with failed := List.subset_append_left _ _ } hs.working rfl
    rfl

omit [DecidableEq ν] in
theorem result (result : ScenarioRunResult) : Sound r { s with results := s.results ++ [result] } :=
  hs.grow { Topics.Grows.refl s.topics with results := List.subset_append_left _ _ } hs.working rfl
    rfl

theorem move (move : Move ν Int32 Message) : Sound r { s with group := s.group.move move } :=
  hs.grow { Topics.Grows.refl s.topics with log := fun _ _ _ => s.group.topic.log_move move }
    (hs.working.move move) rfl rfl

theorem enter
    (hfront : ∀ d ∈ phase.delivery, ∃ rest, (s.group.topic.session node).queue = d :: rest)
    (hpromise : phase.Promise r s.topics) : Sound r (s.enter node phase) :=
  ⟨hs.working.enter hfront hpromise, hs.records, hs.completions⟩

/-- The worker goes on with its record. -/
theorem goOn {old : Phase} (hphase : s.group.phase node = old)
    (hdelivery : phase.delivery = old.delivery) (hpromise : phase.Promise r s.topics) :
    Sound r (s.enter node phase) := by
  subst hphase
  exact ⟨hs.working.goOn hdelivery hpromise, hs.records, hs.completions⟩

/-- The worker gives its lease back. -/
theorem giveBack (lease : ExecutionLease) : Sound r (s.enter node (.Releasing lease)) :=
  hs.enter (by simp [Phase.delivery]) trivial

theorem leave (node : ν) : Sound r (s.leave node) :=
  ⟨hs.working.leave node rfl trivial, hs.records, hs.completions⟩

end

theorem again (hnext : Sound r (s.enter node phase)) (hlast : Sound r last) (attempt : Nat) :
    Sound r (s.again r node attempt phase last) := by
  unfold Workers.again
  split
  · exact hlast
  · exact hnext

variable (hs : Sound r s)
include hs

omit [DecidableEq ν] in
theorem write {name : String} {key : ExecutionKey}
    (hkey : ∀ k outcome, key = some k → k.value.state = .terminal outcome →
      s.records name = some k ∨ Evidence r s.topics k.value.execution_key k.value.attempt outcome) :
    Sound r (s.write name key) := by
  refine ⟨hs.working, ?_, hs.completions⟩
  intro name' k outcome hk hstate
  by_cases hname : name' = name
  · subst hname
    simp only [Workers.write, Function.update_self] at hk
    rcases hkey k outcome hk hstate with hold | hevidence
    · exact hs.records name' k outcome hold hstate
    · exact hevidence
  · simp only [Workers.write, Function.update_of_ne hname] at hk
    exact hs.records name' k outcome hk hstate

omit [DecidableEq ν] in
theorem writeClaim (token : String) (claim : ExecutionClaim) :
    Sound r (s.write (key_for r.key_space claim) (r.store.claim s.now_ms token claim
      (s.records (key_for r.key_space claim))).2) :=
  hs.write fun _ _ hk hstate => .inl (claim_terminal hk hstate)

variable (lease : ExecutionLease)

omit [DecidableEq ν] in
theorem writeRenew :
    Sound r (s.write (key_for_lease r.key_space lease) (r.store.renew s.now_ms lease
      (s.records (key_for_lease r.key_space lease))).2) :=
  hs.write fun _ _ hk hstate => .inl (renew_terminal hk hstate)

omit [DecidableEq ν] in
theorem writeRelease :
    Sound r (s.write (key_for_lease r.key_space lease) (RedisIdempotencyStore.release s.now_ms lease
      (s.records (key_for_lease r.key_space lease))).2) :=
  hs.write fun _ _ hk _ => .inl (release_eq_some hk)

omit [DecidableEq ν] in
/-- A completion is written after its record. -/
theorem writeComplete {lease : ExecutionLease}
    (hevidence : Evidence r s.topics lease.execution_key lease.attempt outcome) :
    Sound r (s.write (key_for_lease r.key_space lease) (r.store.complete s.now_ms lease outcome
      (s.records (key_for_lease r.key_space lease))).2) := by
  apply hs.write
  intro k ended hk hstate
  rcases complete_terminal hk hstate with hold | ⟨⟨hkey, hattempt⟩, rfl⟩
  · exact .inl hold
  · rw [hkey, hattempt]
    exact .inr hevidence

/-! ## The steps -/

theorem take (node : ν) (now_unix_ms : Nat) : Sound r (s.take r node now_unix_ms) := by
  unfold Workers.take
  split
  · rename_i delivery rest hphase hqueue
    have hfront : ∀ d ∈ some delivery, ∃ rest, (s.group.topic.session node).queue = d :: rest := by
      intro d hd
      cases hd
      exact ⟨rest, hqueue⟩
    split
    · rename_i job hdecoded
      exact hs.enter hfront (decode_consumed_job_ok hdecoded)
    · exact hs.enter hfront (poisonOf_consumed _ _ _ _)
  · exact hs

theorem publish_poison (node : ν) (sending : Sending) :
    Sound r (s.publish_poison r node sending) := by
  unfold Workers.publish_poison
  split
  · rename_i delivery poison attempt hphase
    have hof : PoisonOf r.topic delivery.partition delivery.offset poison :=
      hs.working.promised hphase
    split
    · rename_i sent hsent
      refine (hs.poison sent).goOn hphase rfl (.inl ⟨sent, ?_, poisonOf_validated hsent hof⟩)
      exact List.mem_append_right _ List.mem_cons_self
    · rename_i sent hsent
      refine again ?_ ((hs.poison sent).leave node) attempt
      exact (hs.poison sent).goOn hphase rfl hof
    · refine again ?_ (hs.leave node) attempt
      exact hs.goOn hphase rfl hof
  · exact hs

theorem check (node : ν) (now_unix_ms : Nat) : Sound r (s.check r node now_unix_ms) := by
  unfold Workers.check
  split
  · rename_i delivery job hphase
    have hjob : JobIn r delivery job := hs.working.promised hphase
    split
    · exact hs.goOn hphase rfl hjob
    · exact hs.goOn hphase rfl ⟨job, hjob, failedOf_failed_job job _ _⟩
  · exact hs

omit [DecidableEq ν] in
/-- The record of a worker is settled by the record of an outcome. -/
theorem settled {delivery : Consumed} {job : ScenarioJob}
    (hwork : (s.group.phase node).delivery = some delivery) (hjob : JobIn r delivery job)
    (hevidence : Evidence r s.topics job.execution_key job.attempt.toNat outcome) :
    Settled r s.topics delivery.partition delivery.offset :=
  .inr ⟨delivery.message, job, outcome, hs.working.logged hwork, hjob, hevidence⟩

theorem publish_failed (node : ν) (sending : Sending) :
    Sound r (s.publish_failed r node sending) := by
  unfold Workers.publish_failed
  split
  · rename_i delivery failed attempt hphase
    obtain ⟨job, hjob, hof⟩ := hs.working.promised hphase
    have hwork := congrArg Phase.delivery hphase
    split
    · rename_i sent hsent
      have hgrown := hs.deadLetter sent
      have hevidence : Evidence r { s with failed := s.failed ++ [sent] }.topics job.execution_key
          job.attempt.toNat .DeadLetterPublished :=
        ⟨sent, List.mem_append_right _ List.mem_cons_self, failedOf_sent hsent hof⟩
      exact hgrown.goOn hphase rfl (hgrown.settled hwork hjob hevidence)
    · rename_i sent hsent
      have hgrown := hs.deadLetter sent
      refine again ?_ (hgrown.leave node) attempt
      exact hgrown.goOn hphase rfl ⟨job, hjob, hof⟩
    · refine again ?_ (hs.leave node) attempt
      exact hs.goOn hphase rfl ⟨job, hjob, hof⟩
  · exact hs

theorem claim (node : ν) (owner_token : String) (response : Response) :
    Sound r (s.claim r node owner_token response) := by
  unfold Workers.claim
  split
  · rename_i delivery job hphase
    have hjob : JobIn r delivery job := hs.working.promised hphase
    have hwork := congrArg Phase.delivery hphase
    split
    · exact hs.leave node
    · have hwritten := hs.writeClaim owner_token ⟨job.execution_key, job.attempt.toNat⟩
      dsimp only
      split
      · rename_i lease hanswer
        obtain ⟨hkey, hattempt⟩ := claim_acquired hanswer
        split
        · exact hwritten.goOn hphase rfl ⟨hjob, hkey.symm, hattempt.symm⟩
        · exact hwritten.leave node
      · rename_i completed hanswer
        -- the record of this attempt is finished, so what it speaks of is on a topic
        obtain ⟨k, hk, hstate, hkey, hattempt⟩ := claim_already_completed hanswer
        have hevidence := hs.records _ k _ hk hstate
        rw [hkey, hattempt] at hevidence
        exact hwritten.goOn hphase rfl (hs.settled hwork hjob hevidence)
      · exact hwritten.goOn hphase rfl hjob
      · exact hwritten.leave node
  · exact hs

omit [DecidableEq ν] in
/-- A renewal changes an execution record at most. -/
theorem renew (response : Response) : Sound r (s.renew r lease response).2 := by
  unfold Workers.renew
  split
  · exact hs
  · have hwritten := hs.writeRenew lease
    dsimp only
    split
    · exact hwritten
    · exact hwritten

theorem keep_lease (node : ν) (response : Response) : Sound r (s.keep_lease r node response) := by
  unfold Workers.keep_lease
  split
  · rename_i lease hlease
    have hrenewed := hs.renew lease response
    dsimp only
    split
    · exact hrenewed
    · exact hrenewed.giveBack lease
  · exact hs

theorem execute (node : ν) (report : runner.RunReport) (started_at finished_at now_unix_ms : Nat) :
    Sound r (s.execute r node report started_at finished_at now_unix_ms) := by
  unfold Workers.execute
  split
  · rename_i delivery job lease hphase
    obtain ⟨hjob, hkey, hattempt⟩ := hs.working.promised hphase
    split
    · rename_i publication hchosen
      have hof := chosen_publication_of hchosen
      rw [hkey, hattempt] at hof
      exact hs.goOn hphase rfl ⟨⟨job, hjob, hkey, hattempt⟩, hof⟩
    · exact hs.giveBack lease
  · exact hs

theorem verify (node : ν) (response : Response) : Sound r (s.verify r node response) := by
  unfold Workers.verify
  split
  · rename_i delivery lease publication attempt hphase
    have hrenewed := hs.renew lease response
    have hrenewedPhase : (s.renew r lease response).2.group.phase node =
        .Verifying delivery lease publication attempt := by
      rw [Workers.group_renew, hphase]
    have hpromise := hrenewed.working.promised hrenewedPhase
    dsimp only
    split
    · exact hrenewed.goOn hrenewedPhase rfl hpromise
    · exact hrenewed.giveBack lease
  · exact hs

/-- What an acknowledged publication leaves on its topic. -/
theorem append {partition : Int32} (happend : s.append r partition publication = .ok s') :
    Sound r s' ∧ s'.group.phase = s.group.phase ∧
      ∀ execution_key attempt, publication.Of execution_key attempt →
        Evidence r s'.topics execution_key attempt publication.outcome := by
  cases publication with
  | Result result =>
    simp only [Workers.append, bind_eq_ok] at happend
    obtain ⟨-, -, happend⟩ := happend
    cases happend
    refine ⟨hs.result result, rfl, ?_⟩
    intro execution_key attempt hof
    exact ⟨result, List.mem_append_right _ List.mem_cons_self, hof⟩
  | Retry partition_key retry_job =>
    simp only [Workers.append, bind_eq_ok] at happend
    obtain ⟨text, htext, happend⟩ := happend
    cases happend
    refine ⟨hs.move _, rfl, ?_⟩
    intro execution_key attempt hof
    refine ⟨retry_job, hof, partition, (s.group.topic.log partition).length,
      some partition_key.toUTF8.data.toList, text, htext, ?_⟩
    simp [Workers.topics, Group.move, Topic.move]
  | DeadLetter failed =>
    simp only [Workers.append, bind_eq_ok] at happend
    obtain ⟨sent, hsent, happend⟩ := happend
    cases happend
    refine ⟨hs.deadLetter sent, rfl, ?_⟩
    intro execution_key attempt hof
    exact ⟨sent, List.mem_append_right _ List.mem_cons_self, failedOf_sent hsent hof⟩

theorem publish (node : ν) (sending : Sending) (partition : Int32) :
    Sound r (s.publish r node sending partition) := by
  unfold Workers.publish
  split
  · rename_i delivery lease publication attempt hphase
    have hpromise := hs.working.promised hphase
    dsimp only
    split
    · rename_i appended happend
      obtain ⟨happended, hphases, hevidence⟩ := hs.append happend
      refine happended.goOn ((congrFun hphases node).trans hphase) rfl ?_
      exact ⟨hpromise.1, hevidence _ _ hpromise.2⟩
    · rename_i appended happend
      obtain ⟨happended, hphases, -⟩ := hs.append happend
      refine again ?_ (happended.giveBack lease) attempt
      exact happended.goOn ((congrFun hphases node).trans hphase) rfl hpromise
    · refine again ?_ (hs.giveBack lease) attempt
      exact hs.goOn hphase rfl hpromise
  · exact hs

theorem complete (node : ν) (call : Call) : Sound r (s.complete r node call) := by
  unfold Workers.complete
  split
  · rename_i delivery lease outcome attempt hphase
    obtain ⟨⟨job, hjob, hkey, hattempt⟩, hevidence⟩ := hs.working.promised hphase
    have hwork := congrArg Phase.delivery hphase
    split
    · have hnoted : Sound r { s with completions := (lease, outcome) :: s.completions } := by
        refine ⟨hs.working, hs.records, ?_⟩
        intro c hc
        rcases List.mem_cons.mp hc with rfl | hc
        · exact hevidence
        · exact hs.completions c hc
      refine again ?_ (hnoted.giveBack lease) attempt
      exact hnoted.goOn hphase rfl ⟨⟨job, hjob, hkey, hattempt⟩, hevidence⟩
    · have hwritten := hs.writeComplete hevidence
      dsimp only
      split
      · have hsettled : Evidence r s.topics job.execution_key job.attempt.toNat outcome := by
          rw [hkey, hattempt]
          exact hevidence
        exact hwritten.goOn hphase rfl (hs.settled hwork hjob hsettled)
      · exact hwritten.giveBack lease
      · refine again ?_ (hwritten.giveBack lease) attempt
        exact hwritten.goOn hphase rfl ⟨⟨job, hjob, hkey, hattempt⟩, hevidence⟩
  · exact hs

theorem release (node : ν) (call : Call) : Sound r (s.release r node call) := by
  unfold Workers.release
  split
  · rename_i lease hphase
    split
    · exact hs.leave node
    · exact (hs.writeRelease lease).leave node
  · exact hs

omit [DecidableEq ν] in
/-- Only the sessions and the phases change. -/
theorem regroup {group : Group ν Int32 Message Phase} (hlog : group.topic.log = s.group.topic.log)
    (hworking : Working (Settled r s.topics) Phase.delivery (Phase.Promise r s.topics) group) :
    Sound r { s with group := group } := by
  refine hs.grow { Topics.Grows.refl s.topics with log := ?_ } hworking rfl rfl
  intro p o message h
  change (group.topic.log p)[o]? = some message
  rw [hlog]
  exact h

theorem commit (node : ν) : Sound r (s.commit node) := by
  unfold Workers.commit
  split
  · rename_i delivery hphase
    have hpromise := hs.working.promised hphase
    have hwork := congrArg Phase.delivery hphase
    apply hs.regroup (by simp)
    exact working_commit hs.working hwork hpromise rfl hpromise rfl trivial
  · exact hs

theorem confirm (node : ν) : Sound r (s.confirm node) := by
  unfold Workers.confirm
  split
  · rename_i delivery hphase
    have hpromise := hs.working.promised hphase
    have hwork := congrArg Phase.delivery hphase
    apply hs.regroup (by simp)
    exact working_answered hs.working hwork hpromise rfl trivial
  · exact hs

omit [DecidableEq ν] in
theorem redis (op : RedisOp) : Sound r (s.redis r op) := by
  cases op with
  | wait ms => exact ⟨hs.working, hs.records, hs.completions⟩
  | claim owner_token claim => exact hs.writeClaim owner_token claim
  | renew lease => exact hs.writeRenew lease
  | complete lease outcome =>
    simp only [Workers.redis]
    split
    · rename_i hsent
      exact hs.writeComplete (hs.completions _ hsent)
    · exact hs
  | release lease => exact hs.writeRelease lease
  | evict name =>
    apply hs.write
    intro k outcome hk
    cases hk

omit [DecidableEq ν] in
theorem arrive (record : LateRecord) : Sound r (s.arrive record) := by
  cases record with
  | Result result => exact hs.result result
  | Failed failed => exact hs.deadLetter failed
  | Poison poison => exact hs.poison poison

/-- Whatever happens, in any order. -/
theorem step (event : Event ν) : Sound r (s.step r event) := by
  cases event with
  | broker move => exact hs.move move
  | redis op => exact hs.redis op
  | arrive record => exact hs.arrive record
  | take node now_unix_ms => exact hs.take node now_unix_ms
  | publish_poison node sending => exact hs.publish_poison node sending
  | check node now_unix_ms => exact hs.check node now_unix_ms
  | publish_failed node sending => exact hs.publish_failed node sending
  | claim node owner_token response => exact hs.claim node owner_token response
  | keep_lease node response => exact hs.keep_lease node response
  | execute node report started_at finished_at now_unix_ms =>
    exact hs.execute node report started_at finished_at now_unix_ms
  | verify node response => exact hs.verify node response
  | publish node sending partition => exact hs.publish node sending partition
  | complete node call => exact hs.complete node call
  | release node call => exact hs.release node call
  | commit node => exact hs.commit node
  | confirm node => exact hs.confirm node
  | stop node => exact hs.leave node

end Sound

theorem sound_of_reachable (h : Reachable (workerSystem ν r) s) : Sound r s := by
  apply h.invariant
  · rintro s ⟨log, now_ms, rfl⟩
    exact .start log now_ms
  · intro s event hs _
    exact hs.step event

end sound

/-! ## The laws -/

/-- A job at an offset has one of the four records. -/
def JobSettled (r : WorkerRuntime) (t : Topics) (p : Int32) (o : Nat) (job : ScenarioJob) : Prop :=
  (∃ poison ∈ t.poisons, PoisonOf r.topic p o poison) ∨
    (∃ failed ∈ t.failed, FailedOf job.execution_key job.attempt.toNat failed) ∨
    (∃ result ∈ t.results, ResultOf job.execution_key job.attempt.toNat result) ∨
    ∃ retry, JobOf job.execution_key (job.attempt.toNat + 1) retry ∧ Appended r t.log retry

/-- The place of a job in the log. -/
def At (r : WorkerRuntime) (log : Int32 → List Message) (p : Int32) (o : Nat)
    (job : ScenarioJob) : Prop :=
  ∃ message, (log p)[o]? = some message ∧ decode_job r.parse message.payload = .ok job

/-- An attempt of the execution, this one or a later one, has a result, a dead letter or a poison
record. -/
def Ended (r : WorkerRuntime) (t : Topics) (job : ScenarioJob) : Prop :=
  ∃ p o last, At r t.log p o last ∧ last.execution_key = job.execution_key ∧
    job.attempt ≤ last.attempt ∧
    ((∃ poison ∈ t.poisons, PoisonOf r.topic p o poison) ∨
      (∃ failed ∈ t.failed, FailedOf last.execution_key last.attempt.toNat failed) ∨
      ∃ result ∈ t.results, ResultOf last.execution_key last.attempt.toNat result)

/-- The JSON crate reads a job that was sent as a job of the same execution and attempt. -/
def WorkerRuntime.ReadsBack (r : WorkerRuntime) : Prop :=
  ∀ job text, serialize_validated_job r.to_string job = .ok text → ∃ read,
    decode_job r.parse (some text.toUTF8.data.toList) = .ok read ∧
      read.execution_key = job.execution_key ∧ read.attempt = job.attempt

section laws

variable {r : WorkerRuntime} {t : Topics} {p : Int32} {o : Nat} {job : ScenarioJob}

theorem Settled.jobSettled (h : Settled r t p o) (hat : At r t.log p o job) :
    JobSettled r t p o job := by
  rcases h with hpoison | ⟨message, found, outcome, hlog, hdecoded, hevidence⟩
  · exact .inl hpoison
  · obtain ⟨message', hlog', hdecoded'⟩ := hat
    cases hlog.symm.trans hlog'
    cases hdecoded.symm.trans hdecoded'
    cases outcome with
    | ResultPublished => exact .inr (.inr (.inl hevidence))
    | RetryPublished => exact .inr (.inr (.inr hevidence))
    | DeadLetterPublished => exact .inr (.inl hevidence)

variable {log : Int32 → List Message}

theorem At.lt_length (hat : At r log p o job) : o < (log p).length := by
  obtain ⟨message, hlog, -⟩ := hat
  exact (List.getElem?_eq_some_iff.mp hlog).1

theorem At.attempt_le (hat : At r log p o job) :
    job.attempt.toNat ≤ MAX_CONTRACT_ATTEMPT.toNat := by
  obtain ⟨message, -, hdecoded⟩ := hat
  have hvalid := (decode_job_valid hdecoded).attempt
  exact UInt32.le_iff_toNat_le.mp (UInt32.le_trans hvalid.1 hvalid.2)

/-- When every job is settled, the chain of each one ends: its attempts rise, and a job has only
few of them. -/
theorem ended_of_settled (hreads : r.ReadsBack)
    (hall : ∀ p o job, At r t.log p o job → JobSettled r t p o job) (hat : At r t.log p o job) :
    Ended r t job := by
  induction hleft : MAX_CONTRACT_ATTEMPT.toNat - job.attempt.toNat using Nat.strongRecOn
    generalizing p o job with
  | ind left ih =>
    rcases hall p o job hat with hpoison | hfailed | hresult | ⟨retry, hretry, hplace⟩
    · exact ⟨p, o, job, hat, rfl, UInt32.le_refl _, .inl hpoison⟩
    · exact ⟨p, o, job, hat, rfl, UInt32.le_refl _, .inr (.inl hfailed)⟩
    · exact ⟨p, o, job, hat, rfl, UInt32.le_refl _, .inr (.inr hresult)⟩
    · obtain ⟨p', o', key, text, htext, hlog⟩ := hplace
      obtain ⟨read, hdecoded, hkey, hattempt⟩ := hreads retry text htext
      have hread : At r t.log p' o' read := ⟨_, hlog, hdecoded⟩
      have hnext : read.attempt.toNat = job.attempt.toNat + 1 := by
        rw [hattempt]
        exact hretry.2
      have hbound := hread.attempt_le
      obtain ⟨q, i, last, hlast, hsame, hle, hend⟩ := ih _ (by omega) hread rfl
      refine ⟨q, i, last, hlast, hsame.trans (hkey.trans hretry.1), ?_, hend⟩
      have hrises : job.attempt ≤ read.attempt := UInt32.le_iff_toNat_le.mpr (by omega)
      exact UInt32.le_trans hrises hle

/-- Whatever the workers, the broker and Redis do, and whatever fails on the way: a job below the
committed offset of its partition has its poison record, its dead letter, its result or its next
attempt on a topic, and a record that is no job has its poison record. Hence, when the partitions
are committed to their ends, every execution has an attempt with one of the first three. -/
theorem no_job_is_lost {ν : Type} [DecidableEq ν] {s : Workers ν}
    (h : Reachable (workerSystem ν r) s) :
    (∀ p, ∀ o < s.group.topic.committed p, ∀ job, At r s.group.topic.log p o job →
      JobSettled r s.topics p o job) ∧
    (∀ p, ∀ o < s.group.topic.committed p, (∀ job, ¬ At r s.group.topic.log p o job) →
      ∃ poison ∈ s.poisons, PoisonOf r.topic p o poison) ∧
    (r.ReadsBack → (∀ p, (s.group.topic.log p).length ≤ s.group.topic.committed p) →
      ∀ p o job, At r s.group.topic.log p o job → Ended r s.topics job) := by
  have hcommitted := (sound_of_reachable h).working.kept.committed
  refine ⟨?_, ?_, ?_⟩
  · intro p o ho job hat
    exact (hcommitted p o ho).jobSettled hat
  · intro p o ho hnone
    rcases hcommitted p o ho with hpoison | ⟨message, job, -, hlog, hdecoded, -⟩
    · exact hpoison
    · exact absurd ⟨message, hlog, hdecoded⟩ (hnone job)
  · intro hreads hends p o job hat
    refine ended_of_settled hreads ?_ hat
    intro q i found hfound
    exact (hcommitted q i (hfound.lt_length.trans_le (hends q))).jobSettled hfound

end laws

/-! ## Partitions that nothing is appended to -/

/-- The partition of the jobs topic that an event appends to. -/
def Event.appendsTo : Event ν → Option Int32
  | .broker (.append p _) => some p
  | .publish _ _ p => some p
  | _ => none

section frame

variable {r : WorkerRuntime} {s : Workers ν} {p : Int32}

@[simp]
theorem Workers.log_enter (s : Workers ν) (node : ν) (phase : Phase) :
    (s.enter node phase).group.topic.log = s.group.topic.log := rfl

theorem Workers.log_append {s' : Workers ν} {partition : Int32} (hne : p ≠ partition)
    (h : s.append r partition publication = .ok s') :
    s'.group.topic.log p = s.group.topic.log p := by
  cases publication with
  | Result | DeadLetter =>
    simp only [Workers.append, bind_eq_ok] at h
    obtain ⟨_, -, h⟩ := h
    cases h
    rfl
  | Retry =>
    simp only [Workers.append, bind_eq_ok] at h
    obtain ⟨_, -, h⟩ := h
    cases h
    simp [Group.move, Topic.move, hne]

theorem Workers.log_step (event : Event ν) (h : event.appendsTo ≠ some p) :
    (s.step r event).group.topic.log p = s.group.topic.log p := by
  cases event with
  | broker move =>
    cases move with
    | append partition message =>
      have hne : p ≠ partition := fun heq => h (heq ▸ rfl)
      simp [Workers.step, Group.move, Topic.move, hne]
    | assign | revoke => rfl
    | fetch | enqueue | land =>
      simp only [Workers.step, Group.move, Topic.move]
      split <;> rfl
  | redis op =>
    cases op with
    | complete =>
      simp only [Workers.step, Workers.redis]
      split <;> rfl
    | wait | claim | renew | release | evict => rfl
  | arrive record => cases record <;> rfl
  | take | publish_poison | check | publish_failed | claim | execute | complete | release =>
    simp only [Workers.step, Workers.take, Workers.publish_poison, Workers.check,
      Workers.publish_failed, Workers.claim, Workers.execute, Workers.complete, Workers.release,
      Workers.again]
    repeat' split
    all_goals rfl
  | keep_lease | verify | commit | confirm =>
    simp only [Workers.step, Workers.keep_lease, Workers.verify, Workers.commit, Workers.confirm]
    repeat' split
    all_goals simp
  | publish node sending partition =>
    have hne : p ≠ partition := fun heq => h (heq ▸ rfl)
    simp only [Workers.step, Workers.publish, Workers.again]
    split
    · split
      · rename_i happend
        exact (Workers.log_append hne happend :)
      · rename_i happend
        have hlog := Workers.log_append hne happend
        split <;> exact hlog
      · split <;> rfl
    · rfl
  | stop => rfl

/-- A partition that nothing is appended to stays as it is. -/
theorem Workers.log_run {events : List (Event ν)} (h : ∀ e ∈ events, e.appendsTo ≠ some p) :
    (events.foldl (.step r) s).group.topic.log p = s.group.topic.log p := by
  induction events generalizing s with
  | nil => rfl
  | cons event events ih =>
    rw [List.foldl_cons, ih fun e he => h e (List.mem_cons_of_mem _ he)]
    exact log_step event (h event List.mem_cons_self)

end frame

/-! ## A chain of two attempts -/

def firstAttempt : ScenarioJob := { repeatedJob with schema_version := 1 }

def secondAttempt : ScenarioJob := { firstAttempt with attempt := 1, not_before_unix_ms := 476 }

def sampleRuntime : WorkerRuntime where
  topic := "jobs"
  parse := (codecOf [firstAttempt, secondAttempt]).parse
  to_string := (codecOf [firstAttempt, secondAttempt]).to_string
  decode := fun _ => .ok []
  record_max_bytes := 1048576
  formats := ⟨fun _ => "", fun _ => "", fun _ => ""⟩
  plans := fun _ => some (planning.samplePlan 1)
  config := .default
  execution_renew_interval := 1000000
  key_space := "executions"
  store := ⟨30000000000, 60000000000⟩

theorem sample_texts_differ :
    ([firstAttempt, secondAttempt].map fun job => (jobText job).toUTF8.data.toList).Nodup := by
  decide +kernel

theorem sample_rates :
    ∀ job ∈ [firstAttempt, secondAttempt], reread floats.Decimal.shortest job = some job := by
  decide +kernel

theorem sampleRuntime_readsBack : sampleRuntime.ReadsBack := by
  intro job text htext
  exact ⟨job, codecOf_text sample_texts_differ sample_rates htext, rfl, rfl⟩

def failingReport : runner.RunReport where
  summary := { metrics.GlobalSummary.new with
    error_counts := counters.bump ∅ "pulse_infrastructure" 1 }
  started := 0
  finished := 0
  peak_pending_tasks := 0

def inTime : Response := ⟨.Answered, 0, 0⟩

def readNext : List (Event Nat) :=
  [.broker (.fetch 0 0), .broker (.enqueue 0), .take 0 5, .check 0 5]

/-- The infrastructure fails twice. The first retry is sent again after an ambiguous answer, so the
second attempt is there twice, and the last record is a duplicate. -/
def chainEvents : List (Event Nat) :=
  .broker (.assign 0 0) :: readNext ++
    [.claim 0 "a" inTime, .execute 0 failingReport 5 6 6, .verify 0 inTime,
      .publish 0 .Ambiguous 0, .verify 0 inTime, .publish 0 .Acknowledged 0,
      .complete 0 .Unanswered, .complete 0 .Answered, .commit 0, .broker (.land 0 1),
      .confirm 0] ++ readNext ++
    [.claim 0 "b" inTime, .execute 0 failingReport 5 6 6, .verify 0 inTime,
      .publish 0 .Acknowledged 0, .complete 0 .Answered, .commit 0, .broker (.land 0 2),
      .confirm 0] ++ readNext ++
    [.claim 0 "c" inTime, .commit 0, .broker (.land 0 3)]

def firstMessage : Message := ⟨none, some (jobText firstAttempt).toUTF8.data.toList⟩

def chainStart : Workers Nat := .start (fun p => if p = 0 then [firstMessage] else []) 0

def chainEnd : Workers Nat := chainEvents.foldl (.step sampleRuntime) chainStart

theorem chainEnd_reachable : Reachable (workerSystem Nat sampleRuntime) chainEnd := by
  have hstart : Reachable (workerSystem Nat sampleRuntime) chainStart := .initial ⟨_, _, rfl⟩
  exact hstart.foldl (by simp [Allowed, chainEvents, readNext, workerSystem])

theorem chainEnd_first : chainEnd.group.topic.committed 0 = 3 ∧
    (chainEnd.group.topic.log 0).length ≤ 3 ∧
    (chainEnd.group.topic.log 0)[0]? = some firstMessage := by
  decide +kernel

theorem chainEnd_committed (p : Int32) :
    (chainEnd.group.topic.log p).length ≤ chainEnd.group.topic.committed p := by
  by_cases hp : p = 0
  · rw [hp, chainEnd_first.1]
    exact chainEnd_first.2.1
  · have hzero : ∀ e ∈ chainEvents, e.appendsTo = none ∨ e.appendsTo = some 0 := by decide
    have hlog : chainEnd.group.topic.log p = chainStart.group.topic.log p := by
      rw [chainEnd]
      apply Workers.log_run
      intro e he hsome
      rcases hzero e he with hnone | hpartition
      · rw [hnone] at hsome
        cases hsome
      · rw [hpartition] at hsome
        exact hp (Option.some.inj hsome).symm
    have hempty : chainStart.group.topic.log p = [] := if_neg hp
    rw [hlog, hempty]
    exact Nat.zero_le _

theorem a_chain_of_two_attempts_ends :
    chainEnd.group.topic.committed 0 = 3 ∧ Ended sampleRuntime chainEnd.topics firstAttempt := by
  refine ⟨chainEnd_first.1, ?_⟩
  have hread : decode_job sampleRuntime.parse firstMessage.payload = .ok firstAttempt :=
    codecOf_text sample_texts_differ sample_rates (by decide +kernel)
  exact (no_job_is_lost chainEnd_reachable).2.2 sampleRuntime_readsBack chainEnd_committed 0 0
    firstAttempt ⟨firstMessage, chainEnd_first.2.2, hread⟩

end pulse.worker
