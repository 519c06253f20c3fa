-- Where the records of the workers come from. Every producer of jobs names the
-- run and the slice of a job in its execution key; the retries and the results
-- of the workers keep the three together.
import Pulse.JobSettlement

open checks consumers systems
open pulse.contracts pulse.coordination pulse.dispatch pulse.kafka pulse.service

namespace pulse.worker

/-! ## Execution keys that name their slice -/

/-- The execution key is the one of the slice of the run. -/
def NamesSlice (run_id execution_key : String) (slice : JobSlice) : Prop :=
  execution_key = slice_key run_id slice.index.toNat slice.total.toNat

def JobNames (job : ScenarioJob) : Prop := NamesSlice job.run_id job.execution_key job.slice

def ResultNames (result : ScenarioRunResult) : Prop :=
  NamesSlice result.run_id result.execution_key result.slice

def FailedNames (failed : FailedScenarioJob) : Prop :=
  NamesSlice failed.run_id failed.execution_key failed.slice

def Publication.Names : Publication → Prop
  | .Result result => ResultNames result
  | .Retry _ job => JobNames job
  | .DeadLetter failed => FailedNames failed

theorem names_none : ∀ publication ∈ (none : Option Publication), publication.Names :=
  nofun

variable {job : ScenarioJob}

/-- What is chosen for a report is for the slice of its job. -/
theorem chosen_publication_names {config : NodeRuntimeConfig} {plans : Plans}
    {report : runner.RunReport} {started_at finished_at now_unix_ms : Nat}
    {publication : Publication} (hjob : JobNames job)
    (h : chosen_publication config plans job report started_at finished_at now_unix_ms =
      some publication) : publication.Names := by
  unfold chosen_publication at h
  split at h
  · cases h
    exact hjob
  dsimp only at h
  split at h
  · cases h
  split at h
  · unfold settle_infrastructure_failure at h
    split at h <;> rename_i hsettled <;> cases h <;> split at hsettled <;> cases hsettled
    · exact hjob
    · exact hjob
  split at h <;> cases h <;> exact hjob

/-! ## The invariant -/

/-- The publication that a worker has chosen and not finished. -/
def Phase.publication : Phase → Option Publication
  | .Rejecting _ failed _ => some (.DeadLetter failed)
  | .Verifying _ _ publication _ | .Publishing _ _ publication _ => some publication
  | _ => none

/-- A job that is sent is read back with its identity. -/
def WorkerRuntime.ReadsIdentity (r : WorkerRuntime) : Prop :=
  ∀ job text, serialize_validated_job r.to_string job = .ok text → ∃ read,
    decode_job r.parse (some text.toUTF8.data.toList) = .ok read ∧ read.run_id = job.run_id ∧
      read.execution_key = job.execution_key ∧ read.slice = job.slice ∧ read.attempt = job.attempt

variable {ν : Type} [DecidableEq ν]

/-- What is on the topics of jobs, results and dead letters, and what is about to be sent there,
names its slice. -/
structure Named (r : WorkerRuntime) (s : Workers ν) : Prop where
  jobs : ∀ p o job, At r s.group.topic.log p o job → JobNames job
  results : ∀ result ∈ s.results, ResultNames result
  failed : ∀ failed ∈ s.failed, FailedNames failed
  publications : ∀ n, ∀ publication ∈ (s.group.phase n).publication, publication.Names

/-- Later workers: the topics have what they had, each job at its place, and everything names its
slice. -/
structure Follows (r : WorkerRuntime) (s₀ s : Workers ν) : Prop extends Named r s where
  log : ∀ (p : Int32) (o : Nat) (message : Message),
    (s₀.group.topic.log p)[o]? = some message → (s.group.topic.log p)[o]? = some message
  grown : ∃ new, s.results = s₀.results ++ new

/-- A job, result or dead letter that comes from elsewhere, or late, names its slice. -/
def Event.Names (r : WorkerRuntime) : Event ν → Prop
  | .broker (.append _ message) =>
    ∀ job, decode_job r.parse message.payload = .ok job → JobNames job
  | .arrive (.Result result) => ResultNames result
  | .arrive (.Failed failed) => FailedNames failed
  | _ => True

section named

variable {r : WorkerRuntime} {s₀ s s' last : Workers ν} {node : ν} {phase : Phase}

omit [DecidableEq ν] in
theorem ReadsIdentity.names (hreads : r.ReadsIdentity) {read : ScenarioJob} {text : String}
    (htext : serialize_validated_job r.to_string job = .ok text) (hjob : JobNames job)
    (hread : decode_job r.parse (some text.toUTF8.data.toList) = .ok read) : JobNames read := by
  obtain ⟨found, hfound, hrun, hkey, hslice, -⟩ := hreads job text htext
  cases hfound.symm.trans hread
  unfold JobNames
  rw [hrun, hkey, hslice]
  exact hjob

/-- What is sent for a dead letter has its identity. -/
theorem failedNames_sent {failed sent : FailedScenarioJob}
    (hsent : validated_failed_job failed = .ok sent) (h : FailedNames failed) :
    FailedNames sent := by
  obtain ⟨rfl, -⟩ := validated_failed_job_iff.mp hsent
  exact h

variable {partition : Int32}

/-- A job is appended to the topic. -/
theorem Named.append (hs : Named r s) {message : Message}
    (h : ∀ job, decode_job r.parse message.payload = .ok job → JobNames job) :
    Named r { s with group := s.group.move (.append partition message) } := by
  refine ⟨?_, hs.results, hs.failed, hs.publications⟩
  rintro p o job ⟨found, hfound, hdecoded⟩
  simp only [Group.move, Topic.move] at hfound
  by_cases hp : p = partition
  · subst hp
    rw [Function.update_self] at hfound
    rcases List.mem_append.mp (List.mem_of_getElem? hfound) with hold | hnew
    · obtain ⟨i, hi⟩ := List.getElem?_of_mem hold
      exact hs.jobs p i job ⟨found, hi, hdecoded⟩
    · cases List.mem_singleton.mp hnew
      exact h job hdecoded
  · rw [Function.update_of_ne hp] at hfound
    exact hs.jobs p o job ⟨found, hfound, hdecoded⟩

omit [DecidableEq ν] in
/-- The job of a worker is a record of the log. -/
theorem Named.logged (hs : Named r s) (hsound : Sound r s) {delivery : Consumed}
    (hwork : (s.group.phase node).delivery = some delivery) (hjob : JobIn r delivery job) :
    JobNames job :=
  hs.jobs _ _ job ⟨_, hsound.working.logged hwork, hjob⟩

namespace Follows

omit [DecidableEq ν] in
theorem refl (hs : Named r s) : Follows r s s :=
  ⟨hs, fun _ _ _ h => h, [], (List.append_nil _).symm⟩

variable (hs : Follows r s₀ s)
include hs

omit [DecidableEq ν] in
/-- None of the topics has a new record. -/
theorem keep (hlog : s'.group.topic.log = s.group.topic.log) (hresults : s'.results = s.results)
    (hfailed : s'.failed = s.failed)
    (hphases : ∀ n, ∀ publication ∈ (s'.group.phase n).publication, publication.Names) :
    Follows r s₀ s' := by
  refine ⟨⟨?_, ?_, ?_, hphases⟩, ?_, ?_⟩
  · rw [hlog]
    exact hs.jobs
  · rw [hresults]
    exact hs.results
  · rw [hfailed]
    exact hs.failed
  · rw [hlog]
    exact hs.log
  · rw [hresults]
    exact hs.grown

/-- One worker goes on, and none of the topics has a new record. -/
theorem quiet (hlog : s'.group.topic.log = s.group.topic.log) (hresults : s'.results = s.results)
    (hfailed : s'.failed = s.failed)
    (hphase : s'.group.phase = Function.update s.group.phase node phase)
    (hnames : ∀ publication ∈ phase.publication, publication.Names) : Follows r s₀ s' := by
  refine hs.keep hlog hresults hfailed ?_
  rw [hphase]
  exact forall_update
    (P := fun _ (phase : Phase) => ∀ publication ∈ phase.publication, publication.Names)
    (fun n _ => hs.publications n) hnames

theorem again (hlast : Follows r s₀ last)
    (hnames : ∀ publication ∈ phase.publication, publication.Names) (attempt : Nat) :
    Follows r s₀ (s.again r node attempt phase last) := by
  unfold Workers.again
  split
  · exact hlast
  · exact hs.quiet rfl rfl rfl rfl hnames

theorem append {message : Message}
    (h : ∀ job, decode_job r.parse message.payload = .ok job → JobNames job) :
    Follows r s₀ { s with group := s.group.move (.append partition message) } :=
  ⟨hs.toNamed.append h, fun p o found hfound => s.group.topic.log_move (.append partition message)
      (hs.log p o found hfound), hs.grown⟩

omit [DecidableEq ν] in
theorem result {result : ScenarioRunResult} (h : ResultNames result) :
    Follows r s₀ { s with results := s.results ++ [result] } := by
  obtain ⟨new, hnew⟩ := hs.grown
  refine ⟨⟨hs.jobs, List.forall_mem_append.mpr ⟨hs.results, List.forall_mem_singleton.mpr h⟩,
    hs.failed, hs.publications⟩, hs.log, new ++ [result], ?_⟩
  rw [hnew, List.append_assoc]

omit [DecidableEq ν] in
theorem deadLetter {failed : FailedScenarioJob} (h : FailedNames failed) :
    Follows r s₀ { s with failed := s.failed ++ [failed] } :=
  ⟨⟨hs.jobs, hs.results, List.forall_mem_append.mpr ⟨hs.failed, List.forall_mem_singleton.mpr h⟩,
    hs.publications⟩, hs.log, hs.grown⟩

theorem published (hreads : r.ReadsIdentity) {publication : Publication}
    (hnames : publication.Names) (happend : s.append r partition publication = .ok s') :
    Follows r s₀ s' := by
  cases publication with
  | Result result =>
    simp only [Workers.append, bind_eq_ok] at happend
    obtain ⟨-, -, happend⟩ := happend
    cases happend
    exact hs.result hnames
  | Retry partition_key retry_job =>
    simp only [Workers.append, bind_eq_ok] at happend
    obtain ⟨text, htext, happend⟩ := happend
    cases happend
    exact hs.append fun job hjob => ReadsIdentity.names hreads htext hnames hjob
  | DeadLetter failed =>
    simp only [Workers.append, bind_eq_ok] at happend
    obtain ⟨sent, hsent, happend⟩ := happend
    cases happend
    exact hs.deadLetter (failedNames_sent hsent hnames)

theorem move (move : Move ν Int32 Message) (hnames : (Event.broker move).Names r) :
    Follows r s₀ { s with group := s.group.move move } := by
  cases move with
  | append partition message => exact hs.append hnames
  | assign | revoke => exact hs.keep rfl rfl rfl hs.publications
  | fetch | enqueue | land =>
    refine hs.keep ?_ rfl rfl hs.publications
    simp only [Group.move, Topic.move]
    split <;> rfl

omit [DecidableEq ν] in
theorem renew (lease : ExecutionLease) (response : Response) :
    Follows r s₀ (s.renew r lease response).2 := by
  unfold Workers.renew
  split
  · exact hs
  · dsimp only
    split <;> exact hs.keep rfl rfl rfl hs.publications

theorem publish_failed (node : ν) (sending : Sending) :
    Follows r s₀ (s.publish_failed r node sending) := by
  have hsame := hs.publications node
  unfold Workers.publish_failed
  split
  · rename_i delivery failed attempt hphase
    rw [hphase] at hsame
    have hnames : FailedNames failed := hsame (.DeadLetter failed) rfl
    dsimp only
    split
    · rename_i hsent
      exact (hs.deadLetter (failedNames_sent hsent hnames)).quiet rfl rfl rfl rfl names_none
    · rename_i hsent
      have hs := hs.deadLetter (failedNames_sent hsent hnames)
      refine hs.again ?_ ?_ attempt
      · exact hs.quiet rfl rfl rfl rfl names_none
      · exact hsame
    · refine hs.again ?_ ?_ attempt
      · exact hs.quiet rfl rfl rfl rfl names_none
      · exact hsame
  · exact hs

theorem publish (hreads : r.ReadsIdentity) (node : ν) (sending : Sending) (partition : Int32) :
    Follows r s₀ (s.publish r node sending partition) := by
  have hsame := hs.publications node
  unfold Workers.publish
  split
  · rename_i delivery lease publication attempt hphase
    rw [hphase] at hsame
    have hnames : publication.Names := hsame publication rfl
    dsimp only
    split
    · rename_i happend
      exact (hs.published hreads hnames happend).quiet rfl rfl rfl rfl names_none
    · rename_i happend
      have hs := hs.published hreads hnames happend
      refine hs.again ?_ ?_ attempt
      · exact hs.quiet rfl rfl rfl rfl names_none
      · exact hsame
    · refine hs.again ?_ ?_ attempt
      · exact hs.quiet rfl rfl rfl rfl names_none
      · exact hsame
  · exact hs

end Follows

theorem Named.step (hs : Named r s) (hsound : Sound r s) (hreads : r.ReadsIdentity)
    (event : Event ν) (hnames : event.Names r) : Follows r s (s.step r event) := by
  have hrefl := Follows.refl hs
  cases event with
  | broker move => exact hrefl.move move hnames
  | redis op =>
    simp only [Workers.step, Workers.redis]
    repeat' split
    all_goals exact hrefl.keep rfl rfl rfl hs.publications
  | arrive record =>
    cases record with
    | Result result => exact hrefl.result hnames
    | Failed failed => exact hrefl.deadLetter hnames
    | Poison => exact hrefl.keep rfl rfl rfl hs.publications
  | take | publish_poison | claim | complete | release | commit | confirm =>
    simp only [Workers.step, Workers.take, Workers.publish_poison, Workers.claim,
      Workers.complete, Workers.release, Workers.commit, Workers.confirm, Workers.again,
      commit_offset, commit_answered]
    repeat' split
    all_goals first | exact hrefl | exact hrefl.quiet rfl rfl rfl rfl names_none
  | check node now_unix_ms =>
    simp only [Workers.step, Workers.check]
    split
    · rename_i delivery job hphase
      have hjob := hs.logged hsound (congrArg Phase.delivery hphase)
        (hsound.working.promised hphase)
      split
      · exact hrefl.quiet rfl rfl rfl rfl names_none
      · refine hrefl.quiet rfl rfl rfl rfl ?_
        rintro P ⟨⟩
        exact hjob
    · exact hrefl
  | publish_failed node sending => exact hrefl.publish_failed node sending
  | keep_lease node response =>
    simp only [Workers.step, Workers.keep_lease]
    split
    · split
      · exact hrefl.renew _ response
      · exact (hrefl.renew _ response).quiet rfl rfl rfl rfl names_none
    · exact hrefl
  | execute node report started_at finished_at now_unix_ms =>
    simp only [Workers.step, Workers.execute]
    split
    · rename_i delivery job lease hphase
      have hjob := hs.logged hsound (congrArg Phase.delivery hphase)
        (hsound.working.promised hphase).1
      split
      · rename_i publication hchosen
        refine hrefl.quiet rfl rfl rfl rfl ?_
        rintro P ⟨⟩
        exact chosen_publication_names hjob hchosen
      · exact hrefl.quiet rfl rfl rfl rfl names_none
    · exact hrefl
  | verify node response =>
    simp only [Workers.step, Workers.verify]
    split
    · rename_i delivery lease publication attempt hphase
      split
      · refine (hrefl.renew lease response).quiet rfl rfl rfl rfl ?_
        rintro P ⟨⟩
        exact hs.publications node publication (by rw [hphase]; rfl)
      · exact (hrefl.renew lease response).quiet rfl rfl rfl rfl names_none
    · exact hrefl
  | publish node sending partition => exact hrefl.publish hreads node sending partition
  | stop => exact hrefl.quiet rfl rfl rfl rfl names_none

end named

end pulse.worker
