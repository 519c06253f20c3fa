-- The law of failed calls: a call that returns an error leaves the records and
-- their indexes as they were. It has one exception in a state of the store, and
-- one at times that Lua prints with an exponent; both are stated here.
import Pulse.RunDeadlines
import Pulse.RunIngestion
import Pulse.RunOutbox

open checks counters keyspace sorted_sets systems
open pulse.contracts

namespace pulse.aggregation

open RedisRunAggregationStore

/-! ## Failed calls -/

/-- The call returns an error. -/
def World.fails (store : RedisRunAggregationStore) (w : World) : Op → Prop
  | .register_run window load_duration =>
    (register_run (some store.registration) window load_duration w).1.isOk = false
  | .ingest result => (store.ingest result w).1.isOk = false
  | .mark_expired run_id => (store.mark_expired run_id w).1.isOk = false
  | .finalize_run run_id status => (store.finalize_run run_id status w).1.isOk = false
  | .acknowledge_summary run_id revision =>
      (store.acknowledge_summary run_id revision w).1.isOk = false
  | .clean_outbox _ | .wait _ => False

/-- The records, the deadlines and the outbox are the same, and only runs that have expired left
the active runs. -/
structure Unchanged (w w' : World) : Prop where
  runs : w'.runs = w.runs
  deadlines : ∀ i, zscore w'.deadlines i = zscore w.deadlines i
  outbox : ∀ i, zscore w'.outbox i = zscore w.outbox i
  active : ∀ i, zscore w'.active i = zscore w.active i ∨
    (zscore w'.active i = none ∧ ∃ score ≤ w.now, zscore w.active i = some score)

namespace Unchanged

theorem refl (w : World) : Unchanged w w := ⟨rfl, fun _ => rfl, fun _ => rfl, fun _ => .inl rfl⟩

theorem prune (w : World) : Unchanged w w.prune := by
  refine ⟨rfl, fun _ => rfl, fun _ => rfl, ?_⟩
  intro i
  change zscore (zremrangebyscore w.active w.now) i = _ ∨ zscore (zremrangebyscore _ _) i = _ ∧ _
  rw [zscore_zremrangebyscore]
  cases hscore : zscore w.active i with
  | none => exact .inl rfl
  | some score =>
    by_cases hlt : w.now < score
    · exact .inl (Option.filter_some_pos (by simpa using hlt))
    · exact .inr ⟨Option.filter_some_neg (by simpa using hlt), score, Nat.not_lt.mp hlt, rfl⟩

variable {w w' : World}

theorem of_entry (h : ∀ i, w'.entry i = w.entry i) : Unchanged w w' :=
  ⟨funext fun i => congrArg Entry.key (h i), fun i => congrArg Entry.deadline (h i),
    fun i => congrArg Entry.outbox (h i), fun i => .inl (congrArg Entry.active (h i))⟩

/-- The same keys have the same hash at the same time. -/
theorem find (hu : Unchanged w w') (hnow : w'.now = w.now) (i : String) : w'.find i = w.find i := by
  unfold World.find
  rw [hu.runs, hnow]

end Unchanged

/-! ## Calls that are safe to fail -/

/-- `mark_expired` and `finalize_run` pass their checks. -/
structure Finalizable (store : RedisRunAggregationStore) (w : World) (i : String) : Prop where
  identity : validate_identity "run_id" i = .ok ()
  retention : 1 ≤ store.retention_ms
  room : w.now + store.retention_ms ≤ lua.MAX_EXACT

/-- The call does not set the bounds of a cancelled run that has no slices, and it does not finalize
a run at a time that Lua prints with an exponent. -/
def World.harmless (store : RedisRunAggregationStore) (w : World) : Op → Prop
  | .ingest result => ∀ a, store.ingest_args result = .ok a → ¬ a.Refused w.now →
    (∀ h, w.find a.run_id = some h → a.Binds h → h.status = .Cancelled →
      h.histogram_bounds = [] → a.histogram_bounds = []) ∧
    (lastSlice w a → w.now < lua.FIRST_SCIENTIFIC)
  | .mark_expired i => ∀ h, w.find i = some h → h.status = .Open →
    lua.tonumber h.deadline_at ≤ w.now → Finalizable store w i → w.now < lua.FIRST_SCIENTIFIC
  | .finalize_run i status => ∀ h, w.find i = some h → h.status = .Open →
    (status = .Partial ∨ status = .Cancelled) → Finalizable store w i →
    w.now < lua.FIRST_SCIENTIFIC
  | _ => True

/-! ## Finalized runs that are found again -/

/-- A run that is not open is not in the deadlines. -/
def Closed (now : Nat) (e : Entry) : Prop :=
  ∀ h, e.find now = some h → h.status ≠ .Open → e.deadline = none

section closed

variable {store : RedisRunAggregationStore} {now : Nat} {i : String} {op : Op} {e e' : Entry}

theorem Closed.of_deadline (h : e.deadline = none) : Closed now e := fun _ _ _ => h

variable {g h : RunHash}

theorem Closed.of_key {x : Option Nat} (hkey : e.key = some ⟨g, x⟩)
    (hclosed : g.status ≠ .Open → e.deadline = none) : Closed now e := by
  intro h hfind hstatus
  obtain ⟨k, hk, rfl, -⟩ := get_eq_some.mp hfind
  rw [hkey] at hk
  cases hk
  exact hclosed hstatus

theorem Closed.hset (hc : Closed now e) (hfind : e.find now = some h)
    (hstatus : g.status = h.status) : Closed now (e.hset g) := by
  obtain ⟨k, hk, rfl, -⟩ := get_eq_some.mp hfind
  have hkey : (e.hset g).key = some ⟨g, k.expires_at⟩ := by simp [Entry.hset, hk]
  apply Closed.of_key hkey
  intro hclosed
  rw [hstatus] at hclosed
  exact hc _ hfind hclosed

theorem Closed.refresh (hc : Closed now e) (hfind : e.find now = some h)
    (hstatus : g.status = h.status) (retention_ms : Nat) :
    Closed now (e.refresh now retention_ms g) := by
  apply Closed.of_key (Entry.refresh_key e now retention_ms g)
  intro hclosed
  rw [hstatus] at hclosed
  rw [Entry.refresh_deadline]
  exact hc _ hfind hclosed

theorem Closed.accept {a : IngestArgs} (hc : g.status ≠ .Open → e.deadline = none) :
    Closed now (e.accept now a g) := by
  unfold Entry.accept
  dsimp only
  split
  · apply Closed.of_deadline
    rw [Entry.refresh_deadline]
  · apply Closed.of_key (Entry.refresh_key _ _ _ _)
    intro hclosed
    rw [Entry.refresh_deadline]
    exact hc hclosed

theorem Effect.closed (heffect : Effect store now i op e e') (hc : Closed now e) :
    Closed now e' := by
  cases heffect with
  | idle | pruned | cleaned => exact hc
  | registered => exact .of_key rfl fun hclosed => absurd rfl hclosed
  | registered_again hfind => exact hc.refresh hfind rfl _
  | first => exact .accept fun hclosed => absurd rfl hclosed
  | duplicate _ _ hfind =>
    apply hc.refresh hfind
    rfl
  | rejected _ _ hfind =>
    have hpruned : Closed now (e.prune now) := hc
    exact hpruned.hset hfind rfl
  | accepted _ _ hfind => exact .accept fun hclosed => hc _ hfind hclosed
  | timed_out | finalized => exact .of_deadline rfl
  | touched =>
    apply Closed.of_deadline
    unfold Entry.touch
    split <;> rfl
  | forgotten => exact .of_deadline rfl
  | absent hgone =>
    intro h hfind
    rw [Entry.find] at hgone hfind
    rw [hgone] at hfind
    cases hfind
  | acknowledged_stale hfind | acknowledged_other hfind => exact hc.hset hfind rfl
  | acknowledged_again hfind | acknowledged hfind =>
    exact .of_key rfl fun hclosed => hc _ hfind hclosed

variable {allowed : World → Op → Prop}

theorem reachable_closed {limit : Nat} (hw : Reachable (storeSystem store limit allowed) w)
    (i : String) : Closed w.now (w.entry i) := by
  apply (entry_invariant (I := fun now _ e => Closed now e) ?_ ?_ ?_ hw).2 i
  · intro now i
    exact .of_deadline rfl
  · intro now later i e hle _ hc h hfind
    exact hc h (get_earlier hle hfind)
  · intro w op i e _ _ hc heffect
    exact heffect.closed hc

/-- A finalized run is as it was when it is found again. -/
theorem touch_finalized_unchanged {limit : Nat} (hw : Reachable (storeSystem store limit allowed) w)
    (hnow : w.now < lua.MAX_EXACT) (hfind : w.find i = some h) (hstatus : h.status ≠ .Open) :
    Unchanged w (touch_finalized w i h) := by
  obtain ⟨-, hq⟩ := reachable_queued hw i
  have hdeadline := reachable_closed hw i h hfind hstatus
  obtain ⟨k, hk, rfl, -⟩ := get_eq_some.mp hfind
  apply Unchanged.of_entry
  intro j
  rw [entry_touch_finalized]
  split
  · rename_i hj
    subst hj
    unfold Entry.touch
    have hsame : { w.entry j with deadline := none } = w.entry j := by rw [← hdeadline]
    rw [hsame]
    split
    · rename_i hp
      have hactive := (hq.active k hk hp).resolve_right (Nat.not_le.mpr hnow)
      have hkey : (w.entry j).key = some ⟨k.value, none⟩ := by
        rw [← hq.persistent k hk hp]
        exact hk
      unfold Entry.keep
      rw [← hkey, ← hactive]
    · rfl
  · rfl

end closed

/-! ## Harmless calls -/

section harmless

variable {store : RedisRunAggregationStore} {limit : Nat} {allowed : World → Op → Prop} {w : World}
  {result : ScenarioRunResult} {a : IngestArgs} {i : String} {h : RunHash}

/-- The script rejects a slice of a run without slices only when the run is cancelled. -/
theorem rejected_is_cancelled {l : List Slice} {code : Nat} {message : String}
    (ha : Admissible store result a) (hg : Good store (a.bind h) l) (hbinds : a.Binds h)
    (hreceived : h.received_slices = 0) (hverdict : verdict a (a.bind h) = .Reject code message) :
    h.status = .Cancelled := by
  have hnil : l = [] := by
    have hlength := hg.received
    rw [show (a.bind h).received_slices = 0 from hreceived] at hlength
    exact List.length_eq_zero_iff.mp hlength.symm
  subst hnil
  have htally : (a.bind h).toTally = Tally.empty := hg.tally
  have hslices : (a.bind h).slices = ∅ := congrArg Tally.slices htally
  have hexecutions : (a.bind h).executions = ∅ := congrArg Tally.executions htally
  have hdecided := verdict_cases a (a.bind h)
  rw [hverdict] at hdecided
  cases hdecided with
  | unknown hs => exact absurd hs (hg.status _)
  | taken hslice =>
    rw [hslices] at hslice
    cases hslice
  | moved _ hexecution =>
    rw [hexecutions] at hexecution
    cases hexecution
  | terminal _ _ hs =>
    refine hs.resolve_left fun hcomplete => ?_
    have hpos := hg.expected_pos
    rw [← hg.complete.mp hcomplete] at hpos
    exact absurd hpos (by simp)
  | overrun hs hle =>
    have hlt := hg.not_complete hs
    rw [hg.received, ← hbinds.expected] at hle
    exact absurd hle (Nat.not_le.mpr hlt)
  | refused _ _ _ _ hrefusal =>
    rw [htally, refusal_empty ha] at hrefusal
    cases hrefusal

/-- Arguments that the script does not refuse have a deadline that it accepts. -/
theorem ingestible_of_not_refused (ha : Admissible store result a) (hrefused : ¬ a.Refused w.now)
    (hbounds : ∀ h, w.find a.run_id = some h → a.Binds h)
    (htime : lastSlice w a → w.now < lua.FIRST_SCIENTIFIC) : Ingestible store w a := by
  have hvalid : ¬ a.areInvalid w.now := fun h => hrefused (.inl h)
  unfold IngestArgs.areInvalid at hvalid
  rw [ha.partial_timeout_ms] at hvalid
  exact ⟨by omega, by omega, fun h hfind _ => (hbounds h hfind).unset, htime⟩

theorem ingest_harmless (hw : Reachable (storeSystem store limit allowed) w)
    (hsafe : w.harmless store (.ingest result)) (hfails : w.fails store (.ingest result)) :
    Unchanged w (store.ingest result w).2 := by
  cases hargs : store.ingest_args result with
  | error e =>
    unfold ingest
    rw [hargs]
    exact .refl w
  | ok a =>
    have ha := ingest_args_ok hargs
    have hlaw := hsafe a hargs
    have hnot : ∀ {update}, (store.ingest result w).1 ≠ .ok update := by
      intro update hok
      change (store.ingest result w).1.isOk = false at hfails
      rw [hok] at hfails
      cases hfails
    have hcases := ingest_script_cases a w
    have hingest := ingest_of_args hargs w
    rw [hingest]
    by_cases hrefused : a.Refused w.now
    · rw [ingest_refused hrefused]
      exact .refl w
    obtain ⟨hcancelled, htime⟩ := hlaw hrefused
    generalize ingest_script a w = outcome at hcases hingest
    cases hcases with
    | refused => exact .refl w
    | full | overflow | conflict | unset => exact .prune w
    | first hgone hfree =>
      have hi := ingestible_of_not_refused ha hrefused
        (fun h hfind => by rw [hgone] at hfind; cases hfind) htime
      obtain ⟨update, hok, -⟩ := ingest_new_run hw hargs hi hgone hfree
      exact absurd hok hnot
    | @bound h hfind hbinds =>
      have hi := ingestible_of_not_refused ha hrefused
        (fun g hg => by rw [hfind] at hg; cases hg; exact hbinds) htime
      obtain ⟨-, l, hg, -⟩ := reachable_kept hw hfind
      have hgood := hg.bind ha hbinds
      cases hverdict : verdict a (a.bind h) with
      | Duplicate =>
        obtain ⟨received, expected, status, hok⟩ := ingest_reply_duplicate hgood
        rw [ingest_bound, hverdict] at hingest
        exact absurd (congrArg Prod.fst hingest |>.trans hok) hnot
      | Accept =>
        obtain ⟨update, hok, -⟩ := ingest_waiting hw hargs hi hfind hbinds.agree hverdict
        exact absurd hok hnot
      | Reject code message =>
        have hsame : a.bind h = h := by
          by_cases hnil : h.histogram_bounds = []
          · have hstatus := rejected_is_cancelled ha hgood hbinds (hbinds.unset hnil) hverdict
            unfold IngestArgs.bind
            rw [hcancelled h hfind hbinds hstatus hnil, ← hnil]
          · exact IngestArgs.bind_eq_self hbinds.agree hnil
        unfold ingest_bound
        rw [hverdict]
        dsimp only
        rw [hsame, World.hset_self (w := w.prune) hfind]
        exact .prune w

variable {op : Op}

/-- The record of a run that is finalized below the first time with an exponent decodes. -/
theorem finalized_decodes (status : RunStatus) (hw : Reachable (storeSystem store limit allowed) w)
    (hnow : w.now < lua.FIRST_SCIENTIFIC) (hfind : w.find i = some h) (hopen : h.status = .Open)
    (hstatus : status ≠ .Open)
    (hchange : Change store w.now i op (some h) (h.finalize status w.now)) (operation : String) :
    ∃ summary, summary_from_snapshot (some (h.finalize status w.now)) operation = .ok summary := by
  have htimed := hchange.timed hnow (by
    rintro g ⟨⟩
    exact reachable_timed le_rfl (reachable_below hw hnow) hfind)
  obtain ⟨-, l, hgood, hunset⟩ := reachable_kept hw hfind
  obtain ⟨-, l', hg, -⟩ := hchange.kept (by rintro g ⟨⟩; exact reachable_kept hw hfind)
  have hbounds : l' = [] → (h.finalize status w.now).histogram_bounds = [] := by
    intro hnil
    have hlength := hg.received.symm.trans hgood.received
    rw [hnil] at hlength
    have hempty := hunset (List.length_eq_zero_iff.mp hlength.symm)
    exact hempty.resolve_right (by simp [hopen])
  obtain ⟨status', first, final, hdecodes⟩ := hg.decodes htimed hbounds hstatus
  exact ⟨_, (hdecodes operation).2⟩

/-- The record of a run that is finalized later does not decode. -/
theorem finalized_unreadable {status : RunStatus} (hnow : lua.FIRST_SCIENTIFIC ≤ w.now)
    (operation : String) (summary : ScenarioRunSummary) :
    summary_from_snapshot (some (h.finalize status w.now)) operation ≠ .ok summary := by
  intro hok
  have hdecimal := summary_needs_decimal hok
  rw [show (h.finalize status w.now).finalized_at = lua.tostring w.now from rfl,
    lua.parse_tostring_of_le _ hnow] at hdecimal
  exact hdecimal rfl

theorem mark_expired_harmless (hw : Reachable (storeSystem store limit allowed) w)
    (hsafe : w.harmless store (.mark_expired i)) (hfails : w.fails store (.mark_expired i)) :
    Unchanged w (store.mark_expired i w).2 := by
  change (store.mark_expired i w).1.isOk = false at hfails
  unfold mark_expired at hfails ⊢
  rw [store.checked_retention] at hfails ⊢
  split at hfails
  · exact .refl w
  · exact .refl w
  rename_i retention_ms hid hretention
  cases hretention
  dsimp only at hfails ⊢
  unfold mark_expired_script at hfails ⊢
  split at hfails
  · cases hfails
  rename_i h hfind
  split at hfails
  · rename_i hargs
    dsimp only
    rw [if_pos hargs]
    exact .refl w
  rename_i hargs
  dsimp only
  rw [if_neg hargs]
  split at hfails
  · rename_i hopen
    dsimp only at hfails ⊢
    split at hfails
    · rename_i hearly
      rw [if_pos hearly]
      exact .refl w
    · rename_i hdue
      -- The run is timed out, at a time with which its record decodes.
      have hdue := Nat.not_lt.mp hdue
      have hnow := hsafe h hfind hopen hdue ⟨hid, by omega, by omega⟩
      obtain ⟨summary, hok⟩ := finalized_decodes .TimedOut hw hnow hfind hopen (by simp)
        (.timed_out hopen hdue) "aggregation_mark_expired"
      simp only [finalize_now, expiry_reply, hok] at hfails
      cases hfails
  · exact .refl w
  · rename_i hopen _
    exact touch_finalized_unchanged hw (by omega) hfind hopen

variable {status : ScenarioRunSummaryStatus}

theorem finalization_args_ok {requested : RunStatus} {retention_ms : Nat}
    (hargs : store.finalization_args i status = .ok (requested, retention_ms)) :
    validate_identity "run_id" i = .ok () ∧
      ((status = .Partial ∨ status = .Cancelled) ∧
        (requested = .Partial ∨ requested = .Cancelled)) ∧
      retention_ms = store.retention_ms := by
  simp only [finalization_args, store.checked_retention, bind_eq_ok] at hargs
  obtain ⟨_, hid, requested', hrequested, _, hretention, hpair⟩ := hargs
  cases hretention
  cases hpair
  refine ⟨hid, ?_, rfl⟩
  cases status with
  | Partial =>
    cases hrequested
    exact ⟨.inl rfl, .inl rfl⟩
  | Cancelled =>
    cases hrequested
    exact ⟨.inr rfl, .inr rfl⟩
  | Complete | TimedOut => cases hrequested

theorem finalize_run_harmless (hw : Reachable (storeSystem store limit allowed) w)
    (hsafe : w.harmless store (.finalize_run i status))
    (hfails : w.fails store (.finalize_run i status)) :
    Unchanged w (store.finalize_run i status w).2 := by
  change (store.finalize_run i status w).1.isOk = false at hfails
  unfold finalize_run at hfails ⊢
  split at hfails
  · exact .refl w
  rename_i requested retention_ms hargs
  obtain ⟨hid, hstatus, rfl⟩ := finalization_args_ok hargs
  dsimp only at hfails ⊢
  unfold finalize_run_script at hfails ⊢
  split at hfails
  · rename_i hrequest
    rw [if_pos hrequest]
    exact .refl w
  rename_i hrequest
  rw [if_neg hrequest]
  split at hfails
  · rename_i hinvalid
    rw [if_pos hinvalid]
    exact .refl w
  rename_i hvalid
  rw [if_neg hvalid]
  split at hfails
  · cases hfails
  rename_i h hfind
  dsimp only
  split at hfails
  · rename_i hopen
    have hnow := hsafe h hfind hopen hstatus.1 ⟨hid, by omega, by omega⟩
    have hchange : Change store w.now i (.finalize_run i status) (some h)
        (h.finalize requested w.now) := .finalized hopen hstatus.2
    obtain ⟨summary, hok⟩ := finalized_decodes requested hw hnow hfind hopen
      (by rcases hstatus.2 with rfl | rfl <;> simp) hchange "aggregation_finalize_run"
    simp only [finalize_now, finalization_reply, hok] at hfails
    cases hfails
  · exact .refl w
  · rename_i hopen _
    exact touch_finalized_unchanged hw (by omega) hfind hopen

theorem register_run_harmless {window : DispatchWindow} {load_duration : Nat}
    (hfails : w.fails store (.register_run window load_duration)) :
    Unchanged w (register_run (some store.registration) window load_duration w).2 := by
  change (register_run (some store.registration) window load_duration w).1.isOk = false at hfails
  cases hargs : register_args store.registration window load_duration with
  | error e =>
    simp only [register_run, hargs]
    exact .refl w
  | ok a =>
    simp only [register_run, hargs, register_script] at hfails ⊢
    split at hfails
    · rename_i hinvalid
      rw [if_pos hinvalid]
      exact .refl w
    rename_i hvalid
    rw [if_neg hvalid]
    split at hfails
    · rename_i h hfind
      split at hfails
      · rename_i hchanged
        rw [if_pos hchanged]
        exact .prune w
      · cases hfails
    · split at hfails
      · rename_i hfull
        rw [if_pos hfull]
        exact .prune w
      · cases hfails

theorem acknowledge_harmless {revision : UInt64}
    (hfails : w.fails store (.acknowledge_summary i revision)) :
    Unchanged w (store.acknowledge_summary i revision w).2 := by
  change (store.acknowledge_summary i revision w).1.isOk = false at hfails
  unfold acknowledge_summary at hfails ⊢
  split at hfails
  · exact .refl w
  dsimp only at hfails ⊢
  unfold acknowledge_script at hfails ⊢
  split at hfails
  · cases hfails
  dsimp only at hfails ⊢
  split at hfails
  · rename_i hinvalid
    rw [if_pos hinvalid]
    exact .refl w
  rename_i hvalid
  rw [if_neg hvalid]
  split at hfails
  · rename_i hfuture
    rw [if_pos hfuture]
    exact .refl w
  split at hfails
  · cases hfails
  split at hfails
  · cases hfails
  · cases hfails

/-- A call that is harmless and fails changes nothing. -/
theorem failure_unchanged (hw : Reachable (storeSystem store limit allowed) w)
    (hsafe : w.harmless store op) (hfails : w.fails store op) : Unchanged w (w.step store op) := by
  cases op with
  | register_run window load_duration => exact register_run_harmless hfails
  | ingest result => exact ingest_harmless hw hsafe hfails
  | mark_expired run_id => exact mark_expired_harmless hw hsafe hfails
  | finalize_run run_id status => exact finalize_run_harmless hw hsafe hfails
  | acknowledge_summary run_id revision => exact acknowledge_harmless hfails
  | clean_outbox run_id => exact hfails.elim
  | wait ms => exact hfails.elim

/-! ## Calls that fail and change the store -/

theorem changed_of_find {g : RunHash} (hop : op.elapsed = 0)
    (hfind : (w.step store op).find i = some g) (hne : w.find i ≠ some g) :
    ¬ Unchanged w (w.step store op) := by
  intro hu
  have hnow : (w.step store op).now = w.now := by
    rw [step_now, hop, Nat.add_zero]
  rw [hu.find hnow] at hfind
  exact hne hfind

theorem ingest_cancelled (hw : Reachable (storeSystem store limit allowed) w)
    (hargs : store.ingest_args result = .ok a) (hrefused : ¬ a.Refused w.now)
    (hfind : w.find a.run_id = some h) (hbinds : a.Binds h) (hstatus : h.status = .Cancelled)
    (hnil : h.histogram_bounds = []) (hbounds : a.histogram_bounds ≠ []) :
    w.fails store (.ingest result) ∧ ¬ Unchanged w (w.step store (.ingest result)) := by
  have ha := ingest_args_ok hargs
  obtain ⟨-, l, hg, -⟩ := reachable_kept hw hfind
  have hempty : l = [] := by
    have hlength := hg.received
    rw [hbinds.unset hnil] at hlength
    exact List.length_eq_zero_iff.mp hlength.symm
  have htally : (a.bind h).toTally = Tally.empty := by
    rw [show (a.bind h).toTally = h.toTally from rfl, hg.tally, hempty]
    rfl
  have hverdict : verdict a (a.bind h) =
      .Reject 5 "terminal run cannot accept an unrecorded slice" :=
    verdict_of_terminal (congrArg (fun t : Tally => t.slices.lookup a.slice.index) htally)
      (congrArg (fun t : Tally => t.executions.lookup a.slice.execution_key) htally)
      (.inr hstatus)
  have hingest := ingest_of_args hargs w
  rw [ingest_existing hrefused hfind hbinds, ingest_bound, hverdict] at hingest
  constructor
  · change (store.ingest result w).1.isOk = false
    rw [hingest]
    rfl
  · refine changed_of_find (i := a.run_id) (g := a.bind h) rfl ?_ ?_
    · change (store.ingest result w).2.find a.run_id = _
      rw [hingest]
      exact World.hset_find (w := w.prune) hfind (a.bind h)
    · rw [hfind]
      intro heq
      have hsame := congrArg RunHash.histogram_bounds (Option.some.inj heq)
      rw [hnil] at hsame
      exact hbounds hsame.symm

theorem accept_changes {g : RunHash} (hargs : store.ingest_args result = .ok a)
    (hpos : 1 ≤ a.retention_ms) (hscript : ingest_script a w = accept a w' g)
    (hnow : w'.now = w.now) (hlast : (merged_hash a w.now g).received_slices = a.expected_slices)
    (hold : ∀ h, w.find a.run_id = some h → h.received_slices < a.expected_slices)
    (htime : lua.FIRST_SCIENTIFIC ≤ w.now) :
    w.fails store (.ingest result) ∧ ¬ Unchanged w (w.step store (.ingest result)) := by
  have hingest := ingest_of_args hargs w
  rw [hscript] at hingest
  rw [← hnow] at hlast htime
  constructor
  · obtain ⟨e, herror, -⟩ : ∃ e, store.ingest_reply (accept a w' g).1 = .error e ∧
        e.isInvalidState := accept_after_decimals hlast htime
    change (store.ingest result w).1.isOk = false
    rw [hingest, herror]
    rfl
  · refine changed_of_find (i := a.run_id) (g := accepted_hash a w'.now g) rfl ?_ ?_
    · change (store.ingest result w).2.find a.run_id = _
      rw [hingest]
      exact accept_find w' hpos
    · intro hfind
      have hlt := hold _ hfind
      rw [show (accepted_hash a w'.now g).received_slices = (merged_hash a w'.now g).received_slices
        from congrArg Tally.received_slices (accepted_hash_fields a w'.now g).1, hlast] at hlt
      exact absurd hlt (Nat.lt_irrefl _)

theorem ingest_late_finish (hargs : store.ingest_args result = .ok a)
    (hrefused : ¬ a.Refused w.now) (hslice : lastSlice w a) (htime : lua.FIRST_SCIENTIFIC ≤ w.now) :
    w.fails store (.ingest result) ∧ ¬ Unchanged w (w.step store (.ingest result)) := by
  have ha := ingest_args_ok hargs
  have hpos : 1 ≤ a.retention_ms := by
    by_contra hpos
    have hinvalid : a.areInvalid w.now := by
      unfold IngestArgs.areInvalid
      omega
    exact hrefused (.inl hinvalid)
  unfold lastSlice at hslice
  cases hfind : w.find a.run_id with
  | none =>
    rw [hfind] at hslice
    refine accept_changes hargs hpos (ingest_first hrefused hfind hslice.1 (refusal_empty ha)) rfl
      hslice.2.symm ?_ htime
    intro h hh
    rw [hfind] at hh
    cases hh
  | some h =>
    rw [hfind] at hslice
    obtain ⟨hbinds, hverdict, hreceived⟩ := hslice
    have hscript : ingest_script a w = accept a (w.prune.hset a.run_id (a.bind h)) (a.bind h) := by
      rw [ingest_existing hrefused hfind hbinds, ingest_bound, hverdict]
    refine accept_changes hargs hpos hscript rfl hreceived ?_ htime
    intro g hg
    rw [hfind] at hg
    cases hg
    omega

theorem finalize_changes (status : RunStatus) (hop : op.elapsed = 0) (hopen : h.status = .Open)
    (hstatus : status ≠ .Open) (hfind : w.find i = some h)
    (hstep : w.step store op = (finalize_now w i h status).2) :
    ¬ Unchanged w (w.step store op) := by
  refine changed_of_find (i := i) (g := h.finalize status w.now) hop ?_ ?_
  · rw [hstep]
    exact finalize_now_find w i h status
  · rw [hfind]
    intro heq
    have hsame := congrArg RunHash.status (Option.some.inj heq)
    rw [hopen] at hsame
    exact hstatus hsame.symm

theorem mark_expired_late (hfind : w.find i = some h) (hopen : h.status = .Open)
    (hdue : lua.tonumber h.deadline_at ≤ w.now) (hf : Finalizable store w i)
    (htime : lua.FIRST_SCIENTIFIC ≤ w.now) :
    w.fails store (.mark_expired i) ∧ ¬ Unchanged w (w.step store (.mark_expired i)) := by
  have hcall := mark_expired_due hf.identity hf.retention hf.room hfind hopen hdue
  constructor
  · change (store.mark_expired i w).1.isOk = false
    rw [hcall]
    cases hsummary : summary_from_snapshot (some (h.finalize .TimedOut w.now))
        "aggregation_mark_expired" with
    | ok summary => exact absurd hsummary (finalized_unreadable htime _ summary)
    | error e =>
      simp only [expiry_reply, hsummary]
      rfl
  · refine finalize_changes .TimedOut rfl hopen (by simp) hfind ?_
    change (store.mark_expired i w).2 = _
    rw [hcall]

theorem finalize_run_open {requested : RunStatus}
    (hargs : store.finalization_args i status = .ok (requested, store.retention_ms))
    (hf : Finalizable store w i) (hfind : w.find i = some h) (hopen : h.status = .Open) :
    store.finalize_run i status w =
      (finalization_reply ⟨1, "", some (h.finalize requested w.now)⟩,
        (finalize_now w i h requested).2) := by
  obtain ⟨-, ⟨-, hrequested⟩, -⟩ := finalization_args_ok hargs
  have hpos := hf.retention
  have hroom := hf.room
  have hscript : finalize_run_script requested store.retention_ms i w =
      (⟨1, "", some (h.finalize requested w.now)⟩, (finalize_now w i h requested).2) := by
    unfold finalize_run_script
    rw [if_neg (by tauto), if_neg (by omega), hfind]
    dsimp only
    rw [hopen]
    rfl
  unfold finalize_run
  rw [hargs]
  dsimp only
  rw [hscript]

theorem finalize_run_late (hfind : w.find i = some h) (hopen : h.status = .Open)
    (hstatus : status = .Partial ∨ status = .Cancelled) (hf : Finalizable store w i)
    (htime : lua.FIRST_SCIENTIFIC ≤ w.now) :
    w.fails store (.finalize_run i status) ∧
      ¬ Unchanged w (w.step store (.finalize_run i status)) := by
  have hargs :
      ∃ requested, store.finalization_args i status = .ok (requested, store.retention_ms) := by
    unfold finalization_args
    rw [hf.identity, store.checked_retention]
    rcases hstatus with rfl | rfl
    · exact ⟨.Partial, rfl⟩
    · exact ⟨.Cancelled, rfl⟩
  obtain ⟨requested, hargs⟩ := hargs
  obtain ⟨-, ⟨-, hrequested⟩, -⟩ := finalization_args_ok hargs
  have hcall := finalize_run_open hargs hf hfind hopen
  constructor
  · change (store.finalize_run i status w).1.isOk = false
    rw [hcall]
    cases hsummary : summary_from_snapshot (some (h.finalize requested w.now))
        "aggregation_finalize_run" with
    | ok summary => exact absurd hsummary (finalized_unreadable htime _ summary)
    | error e =>
      simp only [finalization_reply, hsummary]
      rfl
  · refine finalize_changes requested rfl hopen ?_ hfind ?_
    · rcases hrequested with rfl | rfl <;> simp
    · change (store.finalize_run i status w).2 = _
      rw [hcall]

/-- A call that is not harmless fails and changes the store. -/
theorem harmful_fails (hw : Reachable (storeSystem store limit allowed) w)
    (hnot : ¬ w.harmless store op) : w.fails store op ∧ ¬ Unchanged w (w.step store op) := by
  cases op with
  | ingest result =>
    simp only [World.harmless, not_forall] at hnot
    obtain ⟨a, hargs, hrefused, hnot⟩ := hnot
    by_cases hlate : lastSlice w a ∧ lua.FIRST_SCIENTIFIC ≤ w.now
    · exact ingest_late_finish hargs hrefused hlate.1 hlate.2
    · have htime : lastSlice w a → w.now < lua.FIRST_SCIENTIFIC := by
        intro hslice
        by_contra hlt
        exact hlate ⟨hslice, Nat.not_lt.mp hlt⟩
      have hcancelled := fun h => hnot ⟨h, htime⟩
      simp only [imp_false, not_forall] at hcancelled
      obtain ⟨h, hfind, hbinds, hstatus, hnil, hbounds⟩ := hcancelled
      exact ingest_cancelled hw hargs hrefused hfind hbinds hstatus hnil hbounds
  | mark_expired run_id =>
    simp only [World.harmless, not_forall] at hnot
    obtain ⟨h, hfind, hopen, hdue, hf, htime⟩ := hnot
    exact mark_expired_late hfind hopen hdue hf (Nat.not_lt.mp htime)
  | finalize_run run_id status =>
    simp only [World.harmless, not_forall] at hnot
    obtain ⟨h, hfind, hopen, hstatus, hf, htime⟩ := hnot
    exact finalize_run_late hfind hopen hstatus hf (Nat.not_lt.mp htime)
  | register_run | acknowledge_summary | clean_outbox | wait => exact absurd trivial hnot

end harmless

/-- In every reachable state, a failed call changes nothing exactly when it is harmless. -/
theorem failed_calls_change_nothing {store : RedisRunAggregationStore} {limit : Nat} {w : World}
    (hw : Reachable (storeSystem store limit fun _ _ => True) w) (op : Op) :
    (w.fails store op → Unchanged w (w.step store op)) ↔ w.harmless store op := by
  constructor
  · intro hlaw
    by_contra hnot
    obtain ⟨hfails, hchanged⟩ := harmful_fails hw hnot
    exact hchanged (hlaw hfails)
  · intro hsafe hfails
    exact failure_unchanged hw hsafe hfails

/-- A result of the run of `openWorld` under another scenario. -/
def foreignResult : ScenarioRunResult := { sampleResult with scenario_id := "search" }

theorem failed_calls_change_nothing_when_foreign :
    (defaultStore.ingest foreignResult openWorld).1 = .error (.InconsistentResult
        "scenario, schema, expected slices, or histogram bounds changed") ∧
      Unchanged openWorld (openWorld.step defaultStore (.ingest foreignResult)) := by
  have hstart : Reachable (storeSystem defaultStore lua.FIRST_SCIENTIFIC fun _ _ => True)
      (.start 0) := reachable_start (by decide)
  have hw := hstart.step (e := .ingest sampleResult) ⟨trivial, by decide +kernel⟩
  have hopen : ∀ h ∈ openWorld.find "run-1", h.status = .Open := by decide +kernel
  have herror : (defaultStore.ingest foreignResult openWorld).1 = .error (.InconsistentResult
      "scenario, schema, expected slices, or histogram bounds changed") := by decide +kernel
  refine ⟨herror, (failed_calls_change_nothing hw (.ingest foreignResult)).mpr ?_ ?_⟩
  · intro a hargs _
    have hrun : a.run_id = "run-1" := (ingest_args_ok hargs).run_id
    refine ⟨?_, fun _ => by decide +kernel⟩
    intro h hfind _ hstatus
    rw [hrun] at hfind
    rw [hopen h hfind] at hstatus
    cases hstatus
  · change (defaultStore.ingest foreignResult openWorld).1.isOk = false
    rw [herror]
    rfl

/-! ## A cancelled run -/

def plannedWindow : DispatchWindow := ⟨"checkout", "run-1", 0, 2, 2⟩

/-- The store with a registered run that is cancelled before its first slice. -/
def cancelledWorld : World :=
  [.register_run plannedWindow 0, .finalize_run "run-1" .Cancelled].foldl (.step defaultStore)
    (.start 0)

/-- A slice that the cancelled run rejects writes its bounds into the record. -/
theorem rejected_slice_sets_bounds :
    Reachable (storeSystem defaultStore lua.FIRST_SCIENTIFIC fun _ _ => True) cancelledWorld ∧
      (defaultStore.ingest sampleResult cancelledWorld).1 =
        .error (.InconsistentResult "terminal run cannot accept an unrecorded slice") ∧
      (cancelledWorld.find "run-1").map (·.histogram_bounds) = some [] ∧
      ((cancelledWorld.step defaultStore (.ingest sampleResult)).find "run-1").map
        (·.histogram_bounds) = some [10, 100] ∧
      ¬ Unchanged cancelledWorld (cancelledWorld.step defaultStore (.ingest sampleResult)) := by
  have hw : Reachable (storeSystem defaultStore lua.FIRST_SCIENTIFIC fun _ _ => True)
      cancelledWorld := by
    apply Reachable.foldl (reachable_start (by decide))
    exact ⟨⟨trivial, by decide +kernel⟩, ⟨trivial, by decide +kernel⟩, trivial⟩
  have hbefore : (cancelledWorld.find "run-1").map (·.histogram_bounds) = some [] := by
    decide +kernel
  have hafter : ((cancelledWorld.step defaultStore (.ingest sampleResult)).find "run-1").map
      (·.histogram_bounds) = some [10, 100] := by decide +kernel
  refine ⟨hw, by decide +kernel, hbefore, hafter, ?_⟩
  intro hu
  rw [hu.find (step_now defaultStore cancelledWorld _), hbefore] at hafter
  cases hafter

end pulse.aggregation
