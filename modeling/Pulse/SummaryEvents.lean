-- The law of summary events: what an event identity says about the summary
-- that it carries. Publishers read a run while other nodes merge slices into
-- it, publish what they read at any later time, and may stop at any step.
import Pulse.AggregationRecord
import Pulse.Strings

open checks counters keyspace sorted_sets systems
open pulse.contracts

namespace pulse.aggregation

/-! ## Publishers -/

structure ScenarioRunSummaryEvent where
  schema_version : UInt16
  event_id : String
  revision : Nat
  summary : ScenarioRunSummary
deriving DecidableEq, Repr

/-- The event of `publish_one`. -/
def summary_event (durable : DurableRunSummary) : ScenarioRunSummaryEvent :=
  ⟨CURRENT_CONTRACT_VERSION, durable.event_id, durable.revision, durable.summary⟩

/-- A publisher in `publish_pending`: it reads the runs of the outbox one by one, then it publishes
the summaries that wait. -/
inductive Publisher
  | idle
  | reading (left : List String) (snapshots : List (String × Option RunHash))
  | publishing (pending : List DurableRunSummary)

structure Publishing where
  world : World
  publishers : Nat → Publisher
  /-- The topic of the summaries. -/
  events : List ScenarioRunSummaryEvent

/-- A step of the store or of the publisher `p`. An acknowledgement, and the cleaning of the outbox,
are calls. -/
inductive PublishOp
  | call (op : Op)
  | scan (p limit : Nat)
  | snapshot (p : Nat)
  | collect (p : Nat)
  | publish (p : Nat) (durable : DurableRunSummary)
  | fail (p : Nat) (durable : DurableRunSummary)
  | crash (p : Nat)

namespace Publishing

def become (s : Publishing) (p : Nat) (publisher : Publisher) : Publishing :=
  { s with publishers := Function.update s.publishers p publisher }

theorem become_self (s : Publishing) (p : Nat) (publisher : Publisher) :
    (s.become p publisher).publishers p = publisher := Function.update_self ..

theorem become_of_ne (s : Publishing) {p q : Nat} (h : q ≠ p) (publisher : Publisher) :
    (s.become p publisher).publishers q = s.publishers q := Function.update_of_ne h ..

def step (store : RedisRunAggregationStore) (s : Publishing) : PublishOp → Publishing
  | .call op => { s with world := s.world.step store op }
  | .scan p limit =>
    match store.validate_scan_limit limit with
    | .ok limit => s.become p (.reading (zrange s.world.outbox limit) [])
    | .error _ => s
  | .snapshot p =>
    match s.publishers p with
    | .reading (run_id :: left) snapshots =>
      s.become p (.reading left (snapshots ++ [(run_id, s.world.find run_id)]))
    | _ => s
  | .collect p =>
    match s.publishers p with
    | .reading [] snapshots =>
      match RedisRunAggregationStore.collect_pending snapshots with
      | .ok (summaries, _) => s.become p (.publishing summaries)
      | .error _ => s.become p .idle
    | _ => s
  | .publish p durable =>
    match s.publishers p with
    | .publishing pending =>
      if durable ∈ pending then
        { s.become p (.publishing (pending.erase durable)) with
          events := s.events ++ [summary_event durable] }
      else s
    | _ => s
  | .fail p durable =>
    match s.publishers p with
    | .publishing pending => s.become p (.publishing (pending.erase durable))
    | _ => s
  | .crash p => s.become p .idle

end Publishing

/-- The call merges a new slice into a run that is finalized and stays incomplete. -/
def mergesLate (store : RedisRunAggregationStore) (i : String) (w : World) (op : Op) : Prop :=
  ∃ result a h, op = .ingest result ∧ store.ingest_args result = .ok a ∧ a.run_id = i ∧
    w.find i = some h ∧ h.isLate ∧ a.Binds h ∧ verdict a (a.bind h) = .Accept ∧
    h.received_slices + 1 ≠ a.expected_slices

/-- The call leaves the record of the run in its key. -/
def keepsRecord (store : RedisRunAggregationStore) (i : String) (w : World) (op : Op) : Prop :=
  w.find i ≠ none → (w.step store op).find i ≠ none

/-- The store, with the calls that `allowed` lets in, and its publishers. -/
def publishingSystem (store : RedisRunAggregationStore) (limit : Nat)
    (allowed : World → Op → Prop) : System Publishing PublishOp where
  initial s := ∃ now < limit, s = ⟨.start now, fun _ => .idle, []⟩
  allowed s op := ∀ call, op = .call call →
    (s.world.step store call).now < limit ∧ allowed s.world call
  next := .step store

/-- The calls while one record of the run is kept, and takes no late slice but the last. -/
def steady (store : RedisRunAggregationStore) (i : String) (w : World) (op : Op) : Prop :=
  keepsRecord store i w op ∧ ¬ mergesLate store i w op

/-! ## Records with the same content -/

/-- The hashes differ in the acknowledged revision, and in the bounds when there are no counts. -/
def Same (g h : RunHash) : Prop :=
  ∃ ack bounds, h = { g with summary_ack_revision := ack, histogram_bounds := bounds } ∧
    (bounds = g.histogram_bounds ∨ g.latency = ∅)

namespace Same

theorem refl (h : RunHash) : Same h h := ⟨_, _, rfl, .inl rfl⟩

variable {h g : RunHash}

theorem symm (hs : Same g h) : Same h g := by
  obtain ⟨ack, bounds, rfl, hbounds⟩ := hs
  refine ⟨g.summary_ack_revision, g.histogram_bounds, rfl, ?_⟩
  rcases hbounds with rfl | hempty
  · exact .inl rfl
  · exact .inr hempty

theorem trans {k : RunHash} (h₁ : Same g h) (h₂ : Same h k) : Same g k := by
  obtain ⟨ack, bounds, rfl, hbounds⟩ := h₁
  obtain ⟨ack', bounds', rfl, hbounds'⟩ := h₂
  refine ⟨ack', bounds', rfl, ?_⟩
  rcases hbounds with rfl | hempty
  · exact hbounds'
  · exact .inr hempty

end Same

/-- A revision of a later hash has the content that it had. -/
structure Revised (g h : RunHash) : Prop where
  revision : g.summary_revision ≤ h.summary_revision
  content : g.summary_revision = h.summary_revision → g.status ≠ .Open → Same g h

theorem Revised.trans {k : RunHash} (h₁ : Revised g h) (h₂ : Revised h k) : Revised g k := by
  have hle₁ := h₁.revision
  have hle₂ := h₂.revision
  refine ⟨Nat.le_trans hle₁ hle₂, ?_⟩
  intro heq hclosed
  have hsame := h₁.content (by omega) hclosed
  have hstatus : h.status = g.status := by
    obtain ⟨_, _, rfl, -⟩ := hsame
    rfl
  exact hsame.trans (h₂.content (by omega) (hstatus ▸ hclosed))

theorem accepted_hash_revision (a : IngestArgs) (now : Nat) (h : RunHash) :
    (accepted_hash a now h).summary_revision =
      if h.received_slices + 1 = a.expected_slices then h.summary_revision + 1
      else h.summary_revision := by
  unfold accepted_hash
  dsimp only
  change (if h.received_slices + 1 = a.expected_slices then _ else _ : RunHash).summary_revision = _
  split <;> rfl

variable {operation i : String}

theorem Change.revised {store : RedisRunAggregationStore} {w : World} {op : Op}
    (hchange : Change store w.now i op (some g) h) (hfind : w.find i = some g) (hk : Kept store i g)
    (hnot : ¬ mergesLate store i w op) : Revised g h := by
  obtain ⟨-, l, hg, -⟩ := hk
  cases hchange with
  | same => exact ⟨le_rfl, fun _ _ => .refl g⟩
  | @bound _ a _ hargs hrun hbinds =>
    refine ⟨le_rfl, fun _ _ => ⟨_, _, rfl, ?_⟩⟩
    by_cases hnil : g.histogram_bounds = []
    · -- A run without bounds has no slices, so it has no counts.
      have hlength := hg.received
      rw [hbinds.unset hnil] at hlength
      have hempty : l = [] := List.length_eq_zero_iff.mp hlength.symm
      have htally := hg.tally
      rw [hempty] at htally
      exact .inr (congrArg Tally.latency htally)
    · exact .inl (congrArg RunHash.histogram_bounds (IngestArgs.bind_eq_self hbinds.agree hnil))
  | @accepted result a _ hargs hrun hbinds hverdict =>
    have hrevision := accepted_hash_revision a w.now (a.bind g)
    rw [show (a.bind g).received_slices = g.received_slices from rfl,
      show (a.bind g).summary_revision = g.summary_revision from rfl] at hrevision
    refine ⟨by split at hrevision <;> omega, ?_⟩
    intro heq hclosed
    have hdecided := verdict_cases a (a.bind g)
    rw [hverdict] at hdecided
    cases hdecided with
    | accepted _ _ hstatus =>
      have hlate : g.isLate := hstatus.resolve_left hclosed
      refine absurd ⟨result, a, g, rfl, hargs, hrun, hfind, hlate, hbinds, hverdict, ?_⟩ hnot
      intro hlast
      rw [if_pos hlast] at hrevision
      omega
  | timed_out | finalized =>
    refine ⟨Nat.le_succ _, fun heq => ?_⟩
    exact absurd heq (Nat.succ_ne_self _).symm
  | acknowledged => exact ⟨le_rfl, fun _ _ => ⟨_, _, rfl, .inl rfl⟩⟩

/-! ## Summaries with the same content -/

/-- A record that has bounds and no counts does not decode. -/
theorem bounds_of_decoded {summary : ScenarioRunSummary} (hempty : h.latency = ∅)
    (hok : summary_from_snapshot (some h) operation = .ok summary) : h.histogram_bounds = [] := by
  obtain ⟨_, hbuckets⟩ := (decoded_of_summary hok).buckets
  rw [hempty] at hbuckets
  cases hbounds : h.histogram_bounds with
  | nil => rfl
  | cons bound bounds =>
    rw [hbounds, List.zipIdx_cons, List.foldlM_cons] at hbuckets
    cases hbuckets

theorem same_summary {s s' : ScenarioRunSummary} (hs : Same g h)
    (hg : summary_from_snapshot (some g) operation = .ok s)
    (hh : summary_from_snapshot (some h) operation = .ok s') : s = s' := by
  obtain ⟨ack, bounds, rfl, hbounds⟩ := hs
  have hsame : bounds = g.histogram_bounds := by
    rcases hbounds with hsame | hempty
    · exact hsame
    · rw [bounds_of_decoded hempty hg]
      exact bounds_of_decoded
        (h := { g with summary_ack_revision := ack, histogram_bounds := bounds })
        hempty hh
  subst hsame
  exact Except.ok.inj (hg.symm.trans hh)

/-- What a durable summary has of its record. -/
theorem durable_summary_ok {d : DurableRunSummary}
    (hok : durable_summary_from_snapshot (some h) operation = .ok (some d)) :
    h.status ≠ .Open ∧ d.revision = h.summary_revision ∧
      summary_from_snapshot (some h) operation = .ok d.summary ∧
      d.event_id = summary_event_id d.summary.run_id d.revision d.summary.status := by
  unfold durable_summary_from_snapshot at hok
  split at hok
  · cases hok
  rename_i g hg
  cases hg
  split at hok
  · cases hok
  · cases hok
  · rename_i hopen _
    simp only [bind_eq_ok] at hok
    obtain ⟨revision, hrevision, _, -, _, -, _, -, summary, hsummary, hd⟩ := hok
    have hd := Option.some.inj (Except.ok.inj hd)
    subst hd
    have hparsed : revision = h.summary_revision := by
      simp only [parse_count, parse_field, okOr_eq_ok, lua.parse] at hrevision
      split at hrevision
      · exact (Option.some.inj hrevision).symm
      · cases hrevision
    exact ⟨hopen, hparsed, hsummary, rfl⟩

theorem status_label_inj {a b : ScenarioRunSummaryStatus} (h : status_label a = status_label b) :
    a = b := by
  cases a <;> cases b <;> first | rfl | exact absurd h (by decide)

/-- The identity of an event has its run, its revision and its status. -/
theorem summary_event_id_inj {i' : String} {r r' : Nat} {status status' : ScenarioRunSummaryStatus}
    (h : summary_event_id i r status = summary_event_id i' r' status') :
    i = i' ∧ r = r' ∧ status = status' := by
  have hlabel : ∀ a, ':' ∉ (status_label a).toList := by
    intro a
    cases a <;> decide
  obtain ⟨hrest, hstatus⟩ := strings.cut_right ":" ':' (by decide) (hlabel _) (hlabel _) h
  obtain ⟨hrun, hrevision⟩ := strings.cut_right ":summary:r" 'r' (by decide)
    (strings.not_mem_toString (by decide) _) (strings.not_mem_toString (by decide) _) hrest
  exact ⟨hrun, strings.toString_inj hrevision, status_label_inj hstatus⟩

/-! ## The invariant -/

/-- The operation of `pending_summaries`. -/
def PENDING : String := "aggregation_pending_summaries"

/-- The hash is the one that a durable summary was read from. -/
def ReadFrom (d : DurableRunSummary) (g : RunHash) : Prop :=
  durable_summary_from_snapshot (some g) PENDING = .ok (some d)

/-- What the publishers hold of the run `i` are hashes `seen` of one record, and two of them with
one revision have one content. -/
structure Witnessed (store : RedisRunAggregationStore) (limit : Nat) (i : String)
    (seen : RunHash → Prop) (s : Publishing) : Prop where
  reachable : Reachable (storeSystem store limit fun _ _ => True) s.world
  current : ∀ g, seen g → ∃ h, s.world.find i = some h ∧ Revised g h
  agree : ∀ g g', seen g → seen g' → g.summary_revision = g'.summary_revision →
    g.status ≠ .Open → g'.status ≠ .Open → Same g g'
  snapshots : ∀ p left snapshots, s.publishers p = .reading left snapshots →
    ∀ j g, (j, some g) ∈ snapshots → g.run_id = i → seen g
  pending : ∀ p pending, s.publishers p = .publishing pending →
    ∀ d ∈ pending, ∃ g, ReadFrom d g ∧ (g.run_id = i → seen g)
  events : ∀ e ∈ s.events, ∃ d g, e = summary_event d ∧ ReadFrom d g ∧ (g.run_id = i → seen g)

variable {summaries : List DurableRunSummary}

/-- The summaries of `collect_pending` are read from the snapshots. -/
theorem collect_pending_ok {snapshots : List (String × Option RunHash)} {stale : List String}
    (hok : RedisRunAggregationStore.collect_pending snapshots = .ok (summaries, stale)) :
    ∀ d ∈ summaries, ∃ j g, (j, some g) ∈ snapshots ∧ ReadFrom d g := by
  refine foldlM_invariant (fun state : List DurableRunSummary × List String =>
    ∀ d ∈ state.1, ∃ j g, (j, some g) ∈ snapshots ∧ ReadFrom d g) ?_ (by simp) hok
  rintro ⟨summaries, stale⟩ ⟨j, snapshot⟩ state hmem hsummaries hnext
  simp only [bind_eq_ok] at hnext
  obtain ⟨read, hread, hnext⟩ := hnext
  cases read with
  | none =>
    cases hnext
    exact hsummaries
  | some d =>
    dsimp only at hnext
    split at hnext
    · cases hnext
      intro d' hd'
      rcases List.mem_append.mp hd' with hold | hnew
      · exact hsummaries d' hold
      · cases List.mem_singleton.mp hnew
        cases snapshot with
        | none => cases hread
        | some g => exact ⟨j, g, hmem, hread⟩
    · cases hnext
      exact hsummaries
section witnessed

variable {store : RedisRunAggregationStore} {limit : Nat} {seen : RunHash → Prop} {s : Publishing}

namespace Witnessed

section

variable (hs : Witnessed store limit i seen s)
include hs

theorem become (p : Nat) {publisher : Publisher}
    (hsnapshots : ∀ left snapshots, publisher = .reading left snapshots →
      ∀ j g, (j, some g) ∈ snapshots → g.run_id = i → seen g)
    (hpending : ∀ pending, publisher = .publishing pending →
      ∀ d ∈ pending, ∃ g, ReadFrom d g ∧ (g.run_id = i → seen g)) :
    Witnessed store limit i seen (s.become p publisher) := by
  refine ⟨hs.reachable, hs.current, hs.agree, ?_, ?_, hs.events⟩
  · intro q left snapshots hq
    by_cases hqp : q = p
    · subst hqp
      rw [Publishing.become_self] at hq
      exact hsnapshots left snapshots hq
    · rw [s.become_of_ne hqp] at hq
      exact hs.snapshots q left snapshots hq
  · intro q pending hq
    by_cases hqp : q = p
    · subst hqp
      rw [Publishing.become_self] at hq
      exact hpending pending hq
    · rw [s.become_of_ne hqp] at hq
      exact hs.pending q pending hq

/-- The current hash of the run is seen. -/
theorem observe : Witnessed store limit i (fun g => seen g ∨ s.world.find i = some g) s := by
  have hcurrent : ∀ {g h}, seen g → s.world.find i = some h →
      g.summary_revision = h.summary_revision → g.status ≠ .Open → Same g h := by
    intro g h hg hfind heq hclosed
    obtain ⟨h', hfind', hrevised⟩ := hs.current g hg
    rw [hfind] at hfind'
    cases hfind'
    exact hrevised.content heq hclosed
  refine ⟨hs.reachable, ?_, ?_, ?_, ?_, ?_⟩
  · rintro g (hg | hfind)
    · exact hs.current g hg
    · exact ⟨g, hfind, le_rfl, fun _ _ => .refl g⟩
  · rintro g g' (hg | hg) (hg' | hg') heq hclosed hclosed'
    · exact hs.agree g g' hg hg' heq hclosed hclosed'
    · exact hcurrent hg hg' heq hclosed
    · exact (hcurrent hg' hg heq.symm hclosed').symm
    · rw [hg] at hg'
      cases hg'
      exact .refl g
  · intro p left snapshots hp j g hmem hrun
    exact .inl (hs.snapshots p left snapshots hp j g hmem hrun)
  · intro p pending hp d hd
    obtain ⟨g, hread, hseen⟩ := hs.pending p pending hp d hd
    exact ⟨g, hread, fun hrun => .inl (hseen hrun)⟩
  · intro e he
    obtain ⟨d, g, hevent, hread, hseen⟩ := hs.events e he
    exact ⟨d, g, hevent, hread, fun hrun => .inl (hseen hrun)⟩

theorem call {op : Op} (hnow : (s.world.step store op).now < limit)
    (hsteady : steady store i s.world op) :
    Witnessed store limit i seen { s with world := s.world.step store op } := by
  refine ⟨hs.reachable.step (e := op) ⟨trivial, hnow⟩, ?_, hs.agree, hs.snapshots, hs.pending,
    hs.events⟩
  intro g hg
  obtain ⟨h, hfind, hrevised⟩ := hs.current g hg
  obtain ⟨hkept, hnot⟩ := hsteady
  obtain ⟨h', hfind'⟩ := Option.ne_none_iff_exists'.mp (hkept (by rw [hfind]; simp))
  have hchange := step_change hfind'
  rw [hfind] at hchange
  exact ⟨h', hfind', hrevised.trans
    (hchange.revised hfind (reachable_kept hs.reachable hfind) hnot)⟩

end

variable {snapshots : List (String × Option RunHash)} (hs : Witnessed store limit i seen s)
include hs

/-- A publisher that has read the next run of its list. -/
theorem snapshot {p : Nat} {run_id : String} {left : List String}
    (hp : s.publishers p = .reading (run_id :: left) snapshots) :
    Witnessed store limit i (fun g => seen g ∨ s.world.find i = some g)
      (s.become p (.reading left (snapshots ++ [(run_id, s.world.find run_id)]))) := by
  apply hs.observe.become p
  · rintro _ _ ⟨⟩ j g hmem hrun
    rcases List.mem_append.mp hmem with hold | hnew
    · exact .inl (hs.snapshots p _ _ hp j g hold hrun)
    · -- The record that is named by the run is the one in its key.
      have hpair := List.mem_singleton.mp hnew
      have hfind : s.world.find run_id = some g := (congrArg Prod.snd hpair).symm
      have hname := (reachable_kept hs.reachable hfind).1
      rw [← hname, hrun] at hfind
      exact .inr hfind
  · rintro _ ⟨⟩

/-- A publisher that has collected the summaries of its snapshots. -/
theorem collect {p : Nat} (hp : s.publishers p = .reading [] snapshots) {stale : List String}
    (hok : RedisRunAggregationStore.collect_pending snapshots = .ok (summaries, stale)) :
    Witnessed store limit i seen (s.become p (.publishing summaries)) := by
  apply hs.become p
  · rintro _ _ ⟨⟩
  · rintro _ ⟨⟩ d hd
    obtain ⟨j, g, hmem, hread⟩ := collect_pending_ok hok d hd
    exact ⟨g, hread, hs.snapshots p [] snapshots hp j g hmem⟩

theorem publishing {p : Nat} {pending : List DurableRunSummary}
    (hp : s.publishers p = .publishing pending) (durable : DurableRunSummary) :
    Witnessed store limit i seen (s.become p (.publishing (pending.erase durable))) := by
  apply hs.become p
  · rintro _ _ ⟨⟩
  · rintro _ ⟨⟩ d hd
    exact hs.pending p pending hp d (List.mem_of_mem_erase hd)

theorem stop (p : Nat) : Witnessed store limit i seen (s.become p .idle) := by
  apply hs.become p
  · rintro _ _ ⟨⟩
  · rintro _ ⟨⟩

end Witnessed

theorem step_witnessed {op : PublishOp} (hs : ∃ seen, Witnessed store limit i seen s)
    (hallowed : (publishingSystem store limit (steady store i)).allowed s op) :
    ∃ seen, Witnessed store limit i seen (s.step store op) := by
  obtain ⟨seen, hs⟩ := hs
  cases op with
  | call op =>
    obtain ⟨hnow, hsteady⟩ := hallowed op rfl
    exact ⟨seen, hs.call hnow hsteady⟩
  | scan p n =>
    refine ⟨seen, ?_⟩
    unfold Publishing.step
    dsimp only
    split
    · apply hs.become p
      · rintro _ _ ⟨⟩ j g hmem
        cases hmem
      · rintro _ ⟨⟩
    · exact hs
  | snapshot p =>
    unfold Publishing.step
    dsimp only
    split
    · rename_i hp
      exact ⟨_, hs.snapshot hp⟩
    · exact ⟨seen, hs⟩
  | collect p =>
    refine ⟨seen, ?_⟩
    unfold Publishing.step
    dsimp only
    split
    · rename_i hp
      split
      · rename_i hok
        exact hs.collect hp hok
      · exact hs.stop p
    · exact hs
  | publish p durable =>
    refine ⟨seen, ?_⟩
    unfold Publishing.step
    dsimp only
    split
    · rename_i pending hp
      split
      · rename_i hmem
        have hnext := hs.publishing hp durable
        refine ⟨hnext.reachable, hnext.current, hnext.agree, hnext.snapshots, hnext.pending, ?_⟩
        intro e he
        rcases List.mem_append.mp he with hold | hnew
        · exact hs.events e hold
        · obtain ⟨g, hread, hseen⟩ := hs.pending p pending hp durable hmem
          exact ⟨durable, g, List.mem_singleton.mp hnew, hread, hseen⟩
      · exact hs
    · exact hs
  | fail p durable =>
    refine ⟨seen, ?_⟩
    unfold Publishing.step
    dsimp only
    split
    · rename_i hp
      exact hs.publishing hp durable
    · exact hs
  | crash p => exact ⟨seen, hs.stop p⟩

theorem reachable_witnessed (hs : Reachable (publishingSystem store limit (steady store i)) s) :
    ∃ seen, Witnessed store limit i seen s := by
  refine Reachable.invariant (I := fun s => ∃ seen, Witnessed store limit i seen s) ?_ ?_ hs
  · rintro s ⟨now, hnow, rfl⟩
    refine ⟨fun _ => False, reachable_start hnow, fun _ => False.elim, fun _ _ =>
      False.elim, ?_, ?_, ?_⟩
    · rintro p left snapshots ⟨⟩
    · rintro p pending ⟨⟩
    · intro e he
      cases he
  · intro s op hs hallowed
    exact step_witnessed hs hallowed

/-- Events with one identity carry one summary, in every run of the store and its publishers in
which the record of the run takes no late slice but the last. -/
theorem summary_event_identity_determines_content (store : RedisRunAggregationStore) (limit : Nat)
    (i : String) (s : Publishing)
    (hs : Reachable (publishingSystem store limit (steady store i)) s)
    (e₁ e₂ : ScenarioRunSummaryEvent) (h₁ : e₁ ∈ s.events) (h₂ : e₂ ∈ s.events)
    (hrun : e₁.summary.run_id = i) (hid : e₁.event_id = e₂.event_id) : e₁ = e₂ := by
  obtain ⟨seen, hw⟩ := reachable_witnessed hs
  obtain ⟨d₁, g₁, rfl, hread₁, hseen₁⟩ := hw.events e₁ h₁
  obtain ⟨d₂, g₂, rfl, hread₂, hseen₂⟩ := hw.events e₂ h₂
  obtain ⟨hclosed₁, hrevision₁, hsummary₁, hid₁⟩ := durable_summary_ok hread₁
  obtain ⟨hclosed₂, hrevision₂, hsummary₂, hid₂⟩ := durable_summary_ok hread₂
  change d₁.event_id = d₂.event_id at hid
  change d₁.summary.run_id = i at hrun
  rw [hid₁, hid₂] at hid
  obtain ⟨hruns, hrevisions, -⟩ := summary_event_id_inj hid
  have hrun₁ : g₁.run_id = i := (decoded_of_summary hsummary₁).run_id.symm.trans hrun
  have hrun₂ : g₂.run_id = i :=
    (decoded_of_summary hsummary₂).run_id.symm.trans (hruns.symm.trans hrun)
  have hsame := hw.agree g₁ g₂ (hseen₁ hrun₁) (hseen₂ hrun₂)
    (hrevision₁.symm.trans (hrevisions.trans hrevision₂)) hclosed₁ hclosed₂
  have hsummaries := same_summary hsame hsummary₁ hsummary₂
  unfold summary_event
  rw [hid₁, hid₂, hrevisions, hsummaries]

end witnessed

/-! ## A late slice between two publications -/

/-- The results of a run with three slices. -/
def thirdOf (index : UInt32) (execution_key : String) : ScenarioRunResult :=
  { sampleResult with
    slice := ⟨index, 3⟩
    execution_key := execution_key
    event_id := build_terminal_event_id execution_key 0 "result" }

/-- The record of the run, timed out with one slice. -/
def timedOutSummary : DurableRunSummary where
  revision := 1
  event_id := "run-1:summary:r1:timed-out"
  pending_publication := true
  summary :=
    { schema_version := 2
      scenario_id := "checkout"
      run_id := "run-1"
      status := .TimedOut
      expected_slices := 3
      received_slices := 1
      missing_slices := [0, 2]
      total := 3
      success := 1
      failure := 2
      scenario_latency_p50_ms := 10
      scenario_latency_p95_ms := 100
      scenario_latency_p99_ms := 100
      latency_histogram := [(10, 2), (100, 1)]
      error_breakdown := [("refused", 1), ("timeout", 1)]
      first_result_at_unix_ms := 1000
      finalized_at_unix_ms := 61000 }

/-- The same revision after a second slice. -/
def lateSummary : DurableRunSummary :=
  { timedOutSummary with
    summary :=
      { timedOutSummary.summary with
        received_slices := 2
        missing_slices := [2]
        total := 6
        success := 2
        failure := 4
        latency_histogram := [(10, 4), (100, 2)]
        error_breakdown := [("refused", 2), ("timeout", 2)] } }

/-- A run that is timed out, and its publication by the publisher 0. -/
def timedOutOps : List PublishOp :=
  [.call (.ingest (thirdOf 1 "run-1:slice-1-of-3")), .call (.wait 60000),
    .call (.mark_expired "run-1"), .scan 0 10, .snapshot 0, .collect 0, .publish 0 timedOutSummary]

/-- Publisher 0 stops before its acknowledgement, a late slice arrives, and publisher 1 publishes
again. -/
def lateOps : List PublishOp :=
  timedOutOps ++ [.crash 0, .call (.ingest (thirdOf 0 "run-1:slice-0-of-3")),
    .scan 1 10, .snapshot 1, .collect 1, .publish 1 lateSummary]

def lateStart : Publishing := ⟨.start 1000, fun _ => .idle, []⟩
section late

variable {store : RedisRunAggregationStore} {limit : Nat} {s : Publishing}

theorem allowed_publisher {allowed : World → Op → Prop} {op : PublishOp}
    (h : ∀ call, op ≠ .call call) : (publishingSystem store limit allowed).allowed s op :=
  fun call hcall => absurd hcall (h call)

theorem allowed_call {op : Op} (hnow : (s.world.step store op).now < limit)
    (hfind : ((s.world.step store op).find i).isSome = true) :
    (publishingSystem store limit (keepsRecord store i)).allowed s (.call op) := by
  rintro _ ⟨⟩
  refine ⟨hnow, fun _ hnone => ?_⟩
  rw [hnone] at hfind
  cases hfind

/-- A call that is not the ingest of a late slice. -/
theorem allowed_steady {op : Op}
    (hkept : (publishingSystem store limit (keepsRecord store i)).allowed s (.call op))
    (hop : ∀ result, op = .ingest result → s.world.find i = none) :
    (publishingSystem store limit (steady store i)).allowed s (.call op) := by
  rintro _ ⟨⟩
  obtain ⟨hnow, hkeeps⟩ := hkept op rfl
  refine ⟨hnow, hkeeps, ?_⟩
  rintro ⟨result, a, h, hingest, -, -, hfind, -⟩
  rw [hop result hingest] at hfind
  cases hfind

end late

theorem reachable_late_start (allowed : World → Op → Prop) :
    Reachable (publishingSystem defaultStore lua.FIRST_SCIENTIFIC allowed) lateStart :=
  Reachable.initial ⟨1000, by decide, rfl⟩

/-- The timed-out run is published by two publishers. -/
def twiceOps : List PublishOp :=
  timedOutOps ++ [.scan 1 10, .snapshot 1, .collect 1, .publish 1 timedOutSummary]

theorem published_twice_is_one_event :
    let s := twiceOps.foldl (.step defaultStore) lateStart
    s.events.length = 2 ∧ ∀ e₁ ∈ s.events, ∀ e₂ ∈ s.events, e₁ = e₂ := by
  intro s
  have hs : Reachable (publishingSystem defaultStore lua.FIRST_SCIENTIFIC
    (steady defaultStore "run-1"))
      s := by
    apply Reachable.foldl (reachable_late_start _)
    refine ⟨allowed_steady (allowed_call (by decide +kernel) (by decide +kernel)) fun _ _ => rfl,
      allowed_steady (allowed_call (by decide +kernel) (by decide +kernel)) (by rintro _ ⟨⟩),
      allowed_steady (allowed_call (by decide +kernel) (by decide +kernel)) (by rintro _ ⟨⟩), ?_⟩
    refine ⟨?_, ?_, ?_, ?_, ?_, ?_, ?_, ?_, trivial⟩ <;> exact allowed_publisher (by rintro _ ⟨⟩)
  have hevents : ∀ e ∈ s.events, e.summary.run_id = "run-1" ∧
      e.event_id = "run-1:summary:r1:timed-out" := by decide +kernel
  refine ⟨by decide +kernel, ?_⟩
  intro e₁ h₁ e₂ h₂
  obtain ⟨hrun, hid₁⟩ := hevents e₁ h₁
  obtain ⟨-, hid₂⟩ := hevents e₂ h₂
  exact summary_event_identity_determines_content defaultStore _ "run-1" s hs e₁ e₂ h₁ h₂ hrun
    (hid₁.trans hid₂.symm)

/-- With a late slice between the publications, one identity carries two summaries. -/
theorem late_slice_changes_the_event :
    let s := lateOps.foldl (.step defaultStore) lateStart
    Reachable (publishingSystem defaultStore lua.FIRST_SCIENTIFIC
      (keepsRecord defaultStore "run-1")) s ∧
      s.events = [summary_event timedOutSummary, summary_event lateSummary] ∧
      (summary_event timedOutSummary).event_id = (summary_event lateSummary).event_id ∧
      (summary_event timedOutSummary).summary ≠ (summary_event lateSummary).summary := by
  intro s
  refine ⟨?_, by decide +kernel, rfl, by decide⟩
  apply Reachable.foldl (reachable_late_start _)
  refine ⟨allowed_call (by decide +kernel) (by decide +kernel),
    allowed_call (by decide +kernel) (by decide +kernel),
    allowed_call (by decide +kernel) (by decide +kernel), allowed_publisher (by rintro _ ⟨⟩),
    allowed_publisher (by rintro _ ⟨⟩), allowed_publisher (by rintro _ ⟨⟩),
    allowed_publisher (by rintro _ ⟨⟩), allowed_publisher (by rintro _ ⟨⟩),
    allowed_call (by decide +kernel) (by decide +kernel), ?_⟩
  refine ⟨?_, ?_, ?_, ?_, trivial⟩ <;> exact allowed_publisher (by rintro _ ⟨⟩)

end pulse.aggregation
