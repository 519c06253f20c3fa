-- What a call can do to the entry of a run, as one relation. The laws of the
-- store are proved over its cases, and every call is shown to be one of them.
import Pulse.AggregationSteps

open checks counters durations Duration keyspace sorted_sets systems
open pulse.contracts pulse.coordination

namespace pulse.aggregation

open World RedisRunAggregationStore

/-! ## Effects -/

namespace Entry

/-- The entry after a slice is accepted into the hash `h`. -/
def accept (e : Entry) (now : Nat) (a : IngestArgs) (h : RunHash) : Entry :=
  let merged := merged_hash a now h
  if merged.received_slices = a.expected_slices then
    { e with deadline := none, outbox := some now }.refresh now a.retention_ms
      (merged.finalize .Complete now)
  else e.refresh now a.retention_ms merged

/-- The key and the place among the active runs are written anew. -/
theorem refresh_congr (e e' : Entry) (hd : e.deadline = e'.deadline) (ho : e.outbox = e'.outbox)
    (now retention_ms : Nat) (h : RunHash) :
    e.refresh now retention_ms h = e'.refresh now retention_ms h := by
  unfold refresh keep expire
  rw [hd, ho]

theorem accept_congr (e e' : Entry) (hd : e.deadline = e'.deadline) (ho : e.outbox = e'.outbox)
    (now : Nat) (a : IngestArgs) (h : RunHash) : e.accept now a h = e'.accept now a h := by
  exact if_congr Iff.rfl (refresh_congr _ _ rfl rfl _ _ _) (refresh_congr e e' hd ho _ _ _)

/-- The entry of a run that is finalized. -/
def finalize (e : Entry) (now : Nat) (h : RunHash) (status : RunStatus) : Entry :=
  { e with deadline := none, outbox := some now }.keep (h.finalize status now)

/-- The entry of a finalized run that is found again. -/
def touch (e : Entry) (h : RunHash) : Entry :=
  if h.isPending then { e with deadline := none }.keep h else { e with deadline := none }

/-- The entry of a run whose summary is acknowledged. -/
def settle (e : Entry) (time : Nat) (h : RunHash) : Entry := { e with outbox := none }.expire time h

end Entry

/-- The hash with an acknowledged revision. -/
def RunHash.acknowledge (h : RunHash) (revision : Nat) : RunHash :=
  { h with summary_ack_revision := lua.tostring revision }

/-- What a call at the time `now` can do to the entry of the run `i`. -/
inductive Effect (store : RedisRunAggregationStore) (now : Nat) (i : String) :
    Op → Entry → Entry → Prop
  | idle (op : Op) (e : Entry) : Effect store now i op e e
  | pruned (op : Op) (e : Entry) : Effect store now i op e (e.prune now)
  | registered {window : DispatchWindow} {load_duration : Nat} {a : RegisterArgs} {e : Entry}
      (hargs : register_args store.registration window load_duration = .ok a)
      (hrun : a.run_id = i) (hexpected : 1 ≤ a.expected_slices) (hgone : e.find now = none) :
      Effect store now i (.register_run window load_duration) e
        ({ e with deadline := some a.deadline_at }.expire (now + store.retention_ms)
          (registered_hash a))
  | registered_again {window : DispatchWindow} {load_duration : Nat} {e : Entry} {h : RunHash}
      (hfind : e.find now = some h) :
      Effect store now i (.register_run window load_duration) e (e.refresh now store.retention_ms h)
  | first {result : ScenarioRunResult} {a : IngestArgs} {e : Entry}
      (hargs : store.ingest_args result = .ok a) (hrun : a.run_id = i)
      (hgone : e.find now = none) (hrefusal : refusal a Tally.empty = none) :
      Effect store now i (.ingest result) e
        ({ e with deadline := some (now + a.partial_timeout_ms) }.accept now a (first_hash a now))
  | duplicate {result : ScenarioRunResult} {a : IngestArgs} {e : Entry} {h : RunHash}
      (hargs : store.ingest_args result = .ok a) (hrun : a.run_id = i)
      (hfind : e.find now = some h) (hbinds : a.Binds h)
      (hverdict : verdict a (a.bind h) = .Duplicate) :
      Effect store now i (.ingest result) e (e.refresh now store.retention_ms (a.bind h))
  | rejected {result : ScenarioRunResult} {a : IngestArgs} {e : Entry} {h : RunHash} {code : Nat}
      {message : String} (hargs : store.ingest_args result = .ok a) (hrun : a.run_id = i)
      (hfind : e.find now = some h) (hbinds : a.Binds h)
      (hverdict : verdict a (a.bind h) = .Reject code message) :
      Effect store now i (.ingest result) e ((e.prune now).hset (a.bind h))
  | accepted {result : ScenarioRunResult} {a : IngestArgs} {e : Entry} {h : RunHash}
      (hargs : store.ingest_args result = .ok a) (hrun : a.run_id = i)
      (hfind : e.find now = some h) (hbinds : a.Binds h)
      (hverdict : verdict a (a.bind h) = .Accept) :
      Effect store now i (.ingest result) e (e.accept now a (a.bind h))
  | timed_out {e : Entry} {h : RunHash} (hfind : e.find now = some h) (hstatus : h.status = .Open)
      (hdeadline : lua.tonumber h.deadline_at ≤ now) :
      Effect store now i (.mark_expired i) e (e.finalize now h .TimedOut)
  | finalized {e : Entry} {h : RunHash} {status : ScenarioRunSummaryStatus} {requested : RunStatus}
      (hfind : e.find now = some h) (hstatus : h.status = .Open)
      (hrequested : requested = .Partial ∨ requested = .Cancelled) :
      Effect store now i (.finalize_run i status) e (e.finalize now h requested)
  | touched {op : Op} {e : Entry} {h : RunHash} (hfind : e.find now = some h)
      (hstatus : h.status ≠ .Open) : Effect store now i op e (e.touch h)
  | forgotten {op : Op} {e : Entry} (hgone : e.find now = none) :
      Effect store now i op e ⟨e.key, none, none, none⟩
  | absent {op : Op} {e : Entry} (hgone : e.find now = none) :
      Effect store now i op e ⟨e.key, e.deadline, none, none⟩
  | acknowledged_stale {e : Entry} {h : RunHash} {revision : UInt64} (hfind : e.find now = some h)
      (hrevision : revision.toNat < h.summary_revision)
      (hnew : lua.tonumber h.summary_ack_revision < revision.toNat) :
      Effect store now i (.acknowledge_summary i revision) e (e.hset (h.acknowledge revision.toNat))
  | acknowledged_again {e : Entry} {h : RunHash} {revision : UInt64} (hfind : e.find now = some h)
      (hrevision : revision.toNat = h.summary_revision)
      (hsettled : ¬ h.isPending) (hpositive : 1 ≤ h.summary_revision) :
      Effect store now i (.acknowledge_summary i revision) e (e.settle (now + store.retention_ms) h)
  | acknowledged {e : Entry} {h : RunHash} {revision : UInt64} (hfind : e.find now = some h)
      (hrevision : revision.toNat = h.summary_revision)
      (hnew : lua.tonumber h.summary_ack_revision < revision.toNat)
      (hpending : lua.tonumber h.summary_pending_revision = revision.toNat) :
      Effect store now i (.acknowledge_summary i revision) e
        (e.settle (now + store.retention_ms) (h.acknowledge revision.toNat))
  | acknowledged_other {e : Entry} {h : RunHash} {revision : UInt64} (hfind : e.find now = some h)
      (hrevision : revision.toNat = h.summary_revision)
      (hnew : lua.tonumber h.summary_ack_revision < revision.toNat)
      (hpending : lua.tonumber h.summary_pending_revision ≠ revision.toNat) :
      Effect store now i (.acknowledge_summary i revision) e (e.hset (h.acknowledge revision.toNat))
  | cleaned {op : Op} {e : Entry} (hsettled : ∀ h, e.find now = some h → ¬ h.isPending) :
      Effect store now i op e { e with outbox := none }

/-! ## Every call has an effect -/

section effects

variable {store : RedisRunAggregationStore} {w : World} {i : String}

theorem entry_accept (a : IngestArgs) (w : World) (h : RunHash) (j : String) :
    (accept a w h).2.entry j =
      if j = a.run_id then (w.entry j).accept w.now a h else w.entry j := by
  unfold accept Entry.accept
  dsimp only
  split
  · rw [entry_refresh, entry_announce, entry_refresh]
    by_cases hj : j = a.run_id
    · simp only [hj, if_true, refresh_retention_now]
      exact Entry.refresh_congr _ _ rfl rfl _ _ _
    · simp [hj]
  · exact entry_refresh _ _ _ _ _

theorem entry_finalize_now (w : World) (i j : String) (h : RunHash) (status : RunStatus) :
    (finalize_now w i h status).2.entry j =
      if j = i then (w.entry j).finalize w.now h status else w.entry j := by
  unfold finalize_now Entry.finalize
  rw [entry_keep, entry_announce]
  split <;> rfl

theorem entry_touch_finalized (w : World) (i j : String) (h : RunHash) :
    (touch_finalized w i h).entry j = if j = i then (w.entry j).touch h else w.entry j := by
  unfold touch_finalized Entry.touch
  dsimp only
  split
  · rw [entry_keep, entry_zrem_deadlines]
    split <;> rfl
  · exact entry_zrem_deadlines w i j

theorem entry_settle (w : World) (i j : String) (retention_ms : Nat) (h : RunHash) :
    (settle w i retention_ms h).entry j =
      if j = i then (w.entry j).settle (w.now + retention_ms) h else w.entry j := by
  unfold settle Entry.settle
  rw [entry_expire, entry_zrem_outbox]
  split <;> rfl

variable {result : ScenarioRunResult}

theorem ingest_of_args {a : IngestArgs} (hargs : store.ingest_args result = .ok a) (w : World) :
    store.ingest result w = (store.ingest_reply (ingest_script a w).1, (ingest_script a w).2) := by
  unfold ingest
  rw [hargs]

theorem prune_effect (store : RedisRunAggregationStore) (w : World) (i : String) (op : Op) :
    Effect store w.now i op (w.entry i) (w.prune.entry i) := by
  rw [entry_prune]
  exact .pruned _ _

/-- A run that the arguments do not name is pruned at most. -/
theorem ingest_effect_other {a : IngestArgs} (hi : i ≠ a.run_id) :
    Effect store w.now i (.ingest result) (w.entry i) ((ingest_script a w).2.entry i) := by
  have hpruned := prune_effect store w i (.ingest result)
  have hcases := ingest_script_cases a w
  generalize ingest_script a w = outcome at hcases
  cases hcases with
  | refused => exact .idle _ _
  | full | overflow | conflict | unset => exact hpruned
  | first =>
    rw [entry_accept, if_neg hi, entry_zadd_deadlines, if_neg hi]
    exact hpruned
  | bound =>
    unfold ingest_bound
    split
    · rw [entry_refresh, if_neg hi, entry_hset, if_neg hi]
      exact hpruned
    · rw [entry_hset, if_neg hi]
      exact hpruned
    · rw [entry_accept, if_neg hi, entry_hset, if_neg hi]
      exact hpruned

theorem ingest_effect (store : RedisRunAggregationStore) (result : ScenarioRunResult) (w : World)
    (i : String) :
    Effect store w.now i (.ingest result) (w.entry i) ((store.ingest result w).2.entry i) := by
  cases hargs : store.ingest_args result with
  | error error =>
    rw [ingest, hargs]
    exact .idle _ _
  | ok a =>
    rw [ingest_of_args hargs]
    by_cases hi : i = a.run_id
    · subst hi
      have hretention := (ingest_args_ok hargs).retention_ms
      have hpruned := prune_effect store w a.run_id (.ingest result)
      have hcases := ingest_script_cases a w
      generalize ingest_script a w = outcome at hcases
      cases hcases with
      | refused => exact .idle _ _
      | full | overflow | conflict | unset => exact hpruned
      | first hgone _ hrefusal =>
        rw [entry_accept, if_pos rfl, entry_zadd_deadlines, if_pos rfl, entry_prune]
        exact Entry.accept_congr _ _ rfl rfl _ _ _ ▸ Effect.first hargs rfl hgone hrefusal
      | @bound h hfind hbinds =>
        unfold ingest_bound
        split
        · rename_i hverdict
          rw [entry_refresh, if_pos rfl, entry_hset, if_pos rfl, entry_prune, hretention]
          exact Entry.refresh_congr _ _ rfl rfl _ _ _ ▸
            Effect.duplicate hargs rfl hfind hbinds hverdict
        · rename_i hverdict
          rw [entry_hset, if_pos rfl, entry_prune]
          exact .rejected hargs rfl hfind hbinds hverdict
        · rename_i hverdict
          rw [entry_accept, if_pos rfl, entry_hset, if_pos rfl, entry_prune]
          exact Entry.accept_congr _ _ rfl rfl _ _ _ ▸
            Effect.accepted hargs rfl hfind hbinds hverdict
    · exact ingest_effect_other hi

theorem register_args_ok {config : AggregationRegistrationConfig} {window : DispatchWindow}
    {load_duration : Nat} {a : RegisterArgs}
    (h : register_args config window load_duration = .ok a) :
    a.run_id = window.run_id ∧ a.scenario_id = window.scenario_id ∧
      a.schema_version = window.contract_version ∧
      a.expected_slices = window.total_slices.toNat ∧
      a.deadline_at = window.scheduled_at_unix_ms + as_millis load_duration +
        as_millis config.partial_timeout ∧
      a.retention_ms = as_millis config.retention := by
  simp only [register_args, bind_eq_ok, rejectIf_eq_ok, okOr_eq_ok, duration_ms_eq_ok,
    Option.bind_eq_some_iff, checked_add_u128] at h
  obtain ⟨_, -, _, -, d, ⟨d₁, hd₁, hd⟩, _, -, r, ⟨hr, -⟩, _, -, _, -, ha⟩ := h
  cases ha
  have hsum : d = window.scheduled_at_unix_ms + as_millis load_duration +
      as_millis config.partial_timeout := by
    split at hd₁
    · cases hd₁
      split at hd
      · exact (Option.some.inj hd).symm
      · cases hd
    · cases hd₁
  exact ⟨rfl, rfl, rfl, rfl, hsum, hr⟩

theorem register_effect (store : RedisRunAggregationStore) (window : DispatchWindow)
    (load_duration : Nat) (w : World) (i : String) :
    Effect store w.now i (.register_run window load_duration) (w.entry i)
      ((register_run (some store.registration) window load_duration w).2.entry i) := by
  have hpruned := prune_effect store w i (.register_run window load_duration)
  cases hargs : register_args store.registration window load_duration with
  | error error =>
    simp only [register_run, hargs]
    exact .idle _ _
  | ok a =>
    simp only [register_run, hargs, register_script]
    have hretention : a.retention_ms = store.retention_ms := (register_args_ok hargs).2.2.2.2.2
    split
    · exact .idle _ _
    · rename_i hvalid
      split
      · rename_i h hfind
        split
        · exact hpruned
        · rw [entry_refresh]
          split
          · rename_i hi
            subst hi
            rw [entry_prune, hretention]
            exact Entry.refresh_congr _ _ rfl rfl _ _ _ ▸ Effect.registered_again hfind
          · exact hpruned
      · rename_i hgone
        split
        · exact hpruned
        · rw [entry_expire, entry_zadd_deadlines]
          split
          · rename_i hi
            subst hi
            rw [entry_prune, hretention]
            exact .registered hargs rfl (by omega) hgone
          · exact hpruned

variable {retention_ms limit : Nat} {run_id : String}

theorem entry_mark_expired_other (hi : i ≠ run_id) :
    (mark_expired_script retention_ms run_id w).2.entry i = w.entry i := by
  unfold mark_expired_script
  split
  · rw [entry_forget, if_neg hi]
  split
  · rfl
  split
  · dsimp only
    split
    · rfl
    · rw [entry_finalize_now, if_neg hi]
  · rfl
  · rw [entry_touch_finalized, if_neg hi]

theorem mark_expired_effect (store : RedisRunAggregationStore) (run_id : String) (w : World)
    (i : String) :
    Effect store w.now i (.mark_expired run_id) (w.entry i)
      ((store.mark_expired run_id w).2.entry i) := by
  unfold mark_expired
  split
  · exact .idle _ _
  · exact .idle _ _
  · dsimp only
    by_cases hi : i = run_id
    · subst hi
      unfold mark_expired_script
      split
      · rename_i hgone
        rw [entry_forget, if_pos rfl]
        exact .forgotten hgone
      · rename_i h hfind
        split
        · exact .idle _ _
        · split
          · rename_i hstatus
            dsimp only
            split
            · exact .idle _ _
            · rename_i hdeadline
              rw [entry_finalize_now, if_pos rfl]
              exact .timed_out hfind hstatus (Nat.not_lt.mp hdeadline)
          · exact .idle _ _
          · rename_i hopen _
            rw [entry_touch_finalized, if_pos rfl]
            exact .touched hfind hopen
    · rw [entry_mark_expired_other hi]
      exact .idle _ _

theorem entry_finalize_run_other {status : RunStatus} (hi : i ≠ run_id) :
    (finalize_run_script status retention_ms run_id w).2.entry i = w.entry i := by
  unfold finalize_run_script
  split
  · rfl
  split
  · rfl
  split
  · rw [entry_forget, if_neg hi]
  split
  · rw [entry_finalize_now, if_neg hi]
  · rfl
  · rw [entry_touch_finalized, if_neg hi]

theorem finalize_run_effect (store : RedisRunAggregationStore) (run_id : String)
    (status : ScenarioRunSummaryStatus) (w : World) (i : String) :
    Effect store w.now i (.finalize_run run_id status) (w.entry i)
      ((store.finalize_run run_id status w).2.entry i) := by
  unfold finalize_run
  split
  · exact .idle _ _
  · dsimp only
    by_cases hi : i = run_id
    · subst hi
      unfold finalize_run_script
      split
      · exact .idle _ _
      rename_i hrequested
      split
      · exact .idle _ _
      split
      · rename_i hgone
        rw [entry_forget, if_pos rfl]
        exact .forgotten hgone
      rename_i h hfind
      split
      · rename_i hstatus
        rw [entry_finalize_now, if_pos rfl]
        exact .finalized hfind hstatus (by tauto)
      · exact .idle _ _
      · rename_i hopen _
        rw [entry_touch_finalized, if_pos rfl]
        exact .touched hfind hopen
    · rw [entry_finalize_run_other hi]
      exact .idle _ _

theorem entry_acknowledge_other {revision : Nat} (hi : i ≠ run_id) :
    (acknowledge_script revision run_id retention_ms w).2.entry i = w.entry i := by
  unfold acknowledge_script
  split
  · simp [entry, zscore_zrem, hi]
  dsimp only
  split
  · rfl
  split
  · rfl
  split
  · dsimp only
    split
    · rw [entry_hset, if_neg hi]
    · rfl
  split <;> dsimp only <;> split
  · rw [entry_settle, if_neg hi]
  · rfl
  · rw [entry_settle, if_neg hi]
  · rw [entry_hset, if_neg hi]

theorem acknowledge_effect (store : RedisRunAggregationStore) (run_id : String) (revision : UInt64)
    (w : World) (i : String) :
    Effect store w.now i (.acknowledge_summary run_id revision) (w.entry i)
      ((store.acknowledge_summary run_id revision w).2.entry i) := by
  unfold acknowledge_summary
  split
  · exact .idle _ _
  rename_i retention_ms hargs
  dsimp only
  by_cases hi : i = run_id
  · subst hi
    have hretention : retention_ms = store.retention_ms := by
      simp only [acknowledge_args, seq_eq_ok, checked_retention] at hargs
      exact (Except.ok.inj hargs.2.2).symm
    unfold acknowledge_script
    split
    · rename_i hgone
      have heffect : Effect store w.now i (.acknowledge_summary i revision) (w.entry i) _ :=
        .absent hgone
      simpa [entry, zscore_zrem] using heffect
    rename_i h hfind
    dsimp only
    split
    · exact .idle _ _
    rename_i hvalid
    split
    · exact .idle _ _
    split
    · rename_i hstale
      dsimp only
      split
      · rename_i hnew
        rw [entry_hset, if_pos rfl]
        exact .acknowledged_stale hfind hstale hnew
      · exact .idle _ _
    have hcurrent : revision.toNat = h.summary_revision := by omega
    split <;> dsimp only <;> split
    · rename_i hsettled
      rw [entry_settle, if_pos rfl, hretention]
      exact .acknowledged_again hfind hcurrent (Nat.not_lt.mpr hsettled) (by omega)
    · exact .idle _ _
    · rename_i hnew hpending
      rw [entry_settle, if_pos rfl, hretention]
      exact .acknowledged hfind hcurrent (Nat.not_le.mp hnew) hpending
    · rename_i hnew hpending
      rw [entry_hset, if_pos rfl]
      exact .acknowledged_other hfind hcurrent (Nat.not_le.mp hnew) hpending
  · rw [entry_acknowledge_other hi]
    exact .idle _ _

theorem clean_outbox_effect (run_id : String) (w : World) (i : String) :
    Effect store w.now i (.clean_outbox run_id) (w.entry i)
      ((clean_outbox_script run_id w).entry i) := by
  by_cases hi : i = run_id
  · subst hi
    unfold clean_outbox_script
    split
    · rename_i hgone
      rw [entry_zrem_outbox, if_pos rfl]
      exact .cleaned fun h hfind => by rw [entry_find, hgone] at hfind; cases hfind
    · rename_i h hfind
      split
      · exact .idle _ _
      · rename_i hsettled
        rw [entry_zrem_outbox, if_pos rfl]
        refine .cleaned fun g hg => ?_
        rw [entry_find, hfind] at hg
        cases hg
        exact hsettled
  · unfold clean_outbox_script
    split
    · rw [entry_zrem_outbox, if_neg hi]
      exact .idle _ _
    · split
      · exact .idle _ _
      · rw [entry_zrem_outbox, if_neg hi]
        exact .idle _ _

/-- Every call has one of the effects on every run. -/
theorem step_effect (store : RedisRunAggregationStore) (w : World) (op : Op) (i : String) :
    Effect store w.now i op (w.entry i) ((w.step store op).entry i) := by
  cases op with
  | register_run window load_duration => exact register_effect store window load_duration w i
  | ingest result => exact ingest_effect store result w i
  | mark_expired run_id => exact mark_expired_effect store run_id w i
  | finalize_run run_id status => exact finalize_run_effect store run_id status w i
  | acknowledge_summary run_id revision => exact acknowledge_effect store run_id revision w i
  | clean_outbox run_id => exact clean_outbox_effect run_id w i
  | wait ms => exact .idle _ _

/-! ## The clock -/

/-- The time that passes in a call: the scripts take none. -/
def Op.elapsed : Op → Nat
  | .wait ms => ms
  | _ => 0

theorem accept_now (a : IngestArgs) (w : World) (h : RunHash) : (accept a w h).2.now = w.now := by
  unfold accept
  dsimp only
  split <;> simp

theorem ingest_script_now (a : IngestArgs) (w : World) : (ingest_script a w).2.now = w.now := by
  have hcases := ingest_script_cases a w
  generalize ingest_script a w = outcome at hcases
  cases hcases with
  | refused | full | overflow | conflict | unset => rfl
  | first => exact accept_now _ _ _
  | bound =>
    unfold ingest_bound
    split
    · simp [hset, prune]
    · rfl
    · exact accept_now _ _ _

theorem step_now (store : RedisRunAggregationStore) (w : World) (op : Op) :
    (w.step store op).now = w.now + op.elapsed := by
  cases op with
  | register_run window load_duration =>
    cases hargs : register_args store.registration window load_duration with
    | error error => simp [step, register_run, hargs, Op.elapsed]
    | ok a =>
      simp only [step, register_run, hargs, register_script, Op.elapsed, Nat.add_zero]
      split
      · rfl
      split
      · split
        · rfl
        · rw [refresh_retention_now]
          rfl
      · split <;> rfl
  | ingest result =>
    simp only [step, Op.elapsed, Nat.add_zero]
    cases hargs : store.ingest_args result with
    | error error => rw [ingest, hargs]
    | ok a =>
      rw [ingest_of_args hargs]
      exact ingest_script_now a w
  | mark_expired run_id =>
    simp only [step, mark_expired, mark_expired_script, touch_finalized, Op.elapsed, Nat.add_zero]
    repeat' split
    all_goals rfl
  | finalize_run run_id status =>
    simp only [step, finalize_run, finalize_run_script, touch_finalized, Op.elapsed, Nat.add_zero]
    repeat' split
    all_goals rfl
  | acknowledge_summary run_id revision =>
    simp only [step, acknowledge_summary, acknowledge_script, Op.elapsed, Nat.add_zero]
    repeat' split
    all_goals rfl
  | clean_outbox run_id =>
    simp only [step, clean_outbox_script, Op.elapsed, Nat.add_zero]
    repeat' split
    all_goals rfl
  | wait ms => rfl

/-! ## Invariants of the entries -/

variable {allowed : World → Op → Prop}

/-- What the entry of a new run has, what the passing of time keeps and what every effect of an
allowed call keeps holds for the entry of every run in every reachable state. -/
theorem entry_invariant {I : Nat → String → Entry → Prop}
    (hstart : ∀ now i, I now i ⟨none, none, none, none⟩)
    (hwait : ∀ {now later i e}, now ≤ later → later < limit → I now i e → I later i e)
    (hstep : ∀ {w op i e}, w.now < limit → allowed w op → I w.now i (w.entry i) →
      Effect store w.now i op (w.entry i) e → I w.now i e)
    (hw : Reachable (storeSystem store limit allowed) w) :
    w.now < limit ∧ ∀ i, I w.now i (w.entry i) := by
  refine Reachable.invariant (I := fun w => w.now < limit ∧ ∀ i, I w.now i (w.entry i)) ?_ ?_ hw
  · rintro w ⟨now, hnow, rfl⟩
    exact ⟨hnow, fun i => hstart now i⟩
  · rintro w op ⟨hnow, hi⟩ ⟨hallowed, hlimit⟩
    refine ⟨hlimit, fun i => ?_⟩
    have hnext := hstep hnow hallowed (hi i) (step_effect store w op i)
    have hle : w.now ≤ (w.step store op).now := by
      rw [step_now]
      omega
    exact hwait hle hlimit hnext

theorem reachable_now (hw : Reachable (storeSystem store limit allowed) w) : w.now < limit := by
  refine Reachable.invariant (I := fun w => w.now < limit) ?_ ?_ hw
  · rintro w ⟨now, hnow, rfl⟩
    exact hnow
  · intro w op _ hallowed
    exact hallowed.2

/-- A state that is reached before the time `time` is reached with a clock below it. -/
theorem reachable_below {time : Nat} (hw : Reachable (storeSystem store limit allowed) w)
    (htime : w.now < time) : Reachable (storeSystem store time allowed) w := by
  refine .invariant (S := storeSystem store limit allowed)
    (I := fun w => w.now < time → Reachable (storeSystem store time allowed) w) ?_ ?_ hw htime
  · rintro w ⟨now, -, rfl⟩ hnow
    exact reachable_start hnow
  · intro w op ih hallowed hnow
    have hbefore : w.now < time := by
      change (w.step store op).now < time at hnow
      rw [step_now] at hnow
      omega
    exact (ih hbefore).step ⟨hallowed.1, hnow⟩

end effects

end pulse.aggregation
