-- The law of the deadlines: an open run is in the index of deadlines and its
-- key outlives its deadline, so the scan finds it and times it out once.
import Pulse.AggregationDecode

open checks durations Duration keyspace sorted_sets systems
open pulse.config pulse.contracts

namespace pulse.aggregation

open RedisRunAggregationStore

/-! ## The invariant of an entry -/

/-- An open run waits in the deadlines for its `deadline_at`, and its key expires after it; a run
that is not open is not there. A new retention from now also ends after the deadline. -/
structure Scheduled (retention_ms now : Nat) (e : Entry) : Prop where
  opened : ∀ h, e.find now = some h → h.status = .Open →
    e.deadline = some (lua.tonumber h.deadline_at) ∧
      (∃ t, e.key = some ⟨h, some t⟩ ∧ lua.tonumber h.deadline_at < t) ∧
      lua.tonumber h.deadline_at < now + retention_ms
  closed : ∀ h, e.find now = some h → h.status ≠ .Open → e.deadline = none

theorem Entry.refresh_deadline (e : Entry) (now retention_ms : Nat) (h : RunHash) :
    (e.refresh now retention_ms h).deadline = e.deadline := by
  unfold refresh
  split <;> rfl

section scheduled

variable {store : RedisRunAggregationStore} {retention_ms now : Nat} {e : Entry} {g h : RunHash}
  {l : List Slice}

theorem Good.open_not_pending (hg : Good store h l) (hopen : h.status = .Open) : ¬ h.isPending := by
  rw [hg.isPending_iff, hg.opened.mp hopen]
  omega

namespace Scheduled

theorem of_gone (hgone : e.find now = none) : Scheduled retention_ms now e := by
  constructor
  · intro h hfind
    rw [hgone] at hfind
    cases hfind
  · intro h hfind
    rw [hgone] at hfind
    cases hfind

theorem of_key {x : Option Nat} (hkey : e.key = some ⟨g, x⟩)
    (hopen : g.status = .Open → e.deadline = some (lua.tonumber g.deadline_at) ∧
      (∃ t, x = some t ∧ lua.tonumber g.deadline_at < t) ∧
      lua.tonumber g.deadline_at < now + retention_ms)
    (hclosed : g.status ≠ .Open → e.deadline = none) : Scheduled retention_ms now e := by
  have hfound : ∀ {h}, e.find now = some h → g = h := by
    intro h hfind
    obtain ⟨k, hk, rfl, -⟩ := get_eq_some.mp hfind
    rw [hkey] at hk
    cases hk
    rfl
  constructor
  · intro h hfind hs
    cases hfound hfind
    obtain ⟨hdeadline, ⟨t, rfl, hlt⟩, hnew⟩ := hopen hs
    exact ⟨hdeadline, ⟨t, hkey, hlt⟩, hnew⟩
  · intro h hfind hs
    cases hfound hfind
    exact hclosed hs

theorem congr {e' : Entry} (hs : Scheduled retention_ms now e) (hkey : e'.key = e.key)
    (hdeadline : e'.deadline = e.deadline) : Scheduled retention_ms now e' := by
  constructor
  · intro h hfind hopen
    rw [Entry.find, hkey] at hfind
    rw [hkey, hdeadline]
    exact hs.opened h hfind hopen
  · intro h hfind hopen
    rw [Entry.find, hkey] at hfind
    rw [hdeadline]
    exact hs.closed h hfind hopen

/-- The run is not open and has left the deadlines. -/
theorem remove {x : Option Nat} (hkey : e.key = some ⟨g, x⟩) (hstatus : g.status ≠ .Open)
    (hdeadline : e.deadline = none) : Scheduled retention_ms now e :=
  of_key hkey (fun hs => absurd hs hstatus) fun _ => hdeadline

variable (hs : Scheduled retention_ms now e)
include hs

/-- The hash is written again, with the same status and deadline. -/
theorem hset (hfind : e.find now = some h) (hstatus : g.status = h.status)
    (hdeadline : g.deadline_at = h.deadline_at) : Scheduled retention_ms now (e.hset g) := by
  obtain ⟨k, hk, rfl, -⟩ := get_eq_some.mp hfind
  have hkey : (e.hset g).key = some ⟨g, k.expires_at⟩ := by simp [Entry.hset, hk]
  apply of_key hkey
  · intro hopen
    rw [hstatus] at hopen
    obtain ⟨hd, ⟨t, ht, hlt⟩, hnew⟩ := hs.opened _ hfind hopen
    rw [hk] at ht
    rw [hdeadline]
    exact ⟨hd, ⟨t, congrArg Key.expires_at (Option.some.inj ht), hlt⟩, hnew⟩
  · intro hclosed
    rw [hstatus] at hclosed
    exact hs.closed _ hfind hclosed

/-- The retention starts again for a run that is open. -/
theorem refresh (hfind : e.find now = some h) (hstatus : g.status = h.status)
    (hdeadline : g.deadline_at = h.deadline_at) (hpending : h.status = .Open → ¬ g.isPending) :
    Scheduled retention_ms now (e.refresh now retention_ms g) := by
  apply of_key (Entry.refresh_key e now retention_ms g)
  · intro hopen
    rw [hstatus] at hopen
    obtain ⟨hd, -, hnew⟩ := hs.opened h hfind hopen
    rw [Entry.refresh_deadline, hdeadline, if_neg (hpending hopen)]
    exact ⟨hd, ⟨_, rfl, hnew⟩, hnew⟩
  · intro hclosed
    rw [hstatus] at hclosed
    rw [Entry.refresh_deadline]
    exact hs.closed h hfind hclosed

/-- A key that is not written keeps its place as time passes. -/
theorem wait {later : Nat} (hle : now ≤ later) : Scheduled retention_ms later e := by
  constructor
  · intro h hfind hopen
    obtain ⟨hd, hkey, hnew⟩ := hs.opened h (get_earlier hle hfind) hopen
    exact ⟨hd, hkey, by omega⟩
  · intro h hfind
    exact hs.closed h (get_earlier hle hfind)

end Scheduled
/-! ## Every timely call keeps it -/

/-- The call is made in time: a window is registered when it has started, its load is within
`max_duration`, and a deadline that the call sets is one that Lua prints in full. -/
def timely (max_duration : Nat) (store : RedisRunAggregationStore) (w : World) : Op → Prop
  | .register_run window load_duration =>
    window.scheduled_at_unix_ms ≤ w.now ∧ load_duration ≤ max_duration ∧
      window.scheduled_at_unix_ms + as_millis load_duration + store.partial_timeout_ms <
        lua.FIRST_SCIENTIFIC
  | .ingest result =>
    w.find result.run_id = none → w.now + store.partial_timeout_ms < lua.FIRST_SCIENTIFIC
  | _ => True

theorem Scheduled.accept {a : IngestArgs} (hs : Scheduled store.retention_ms now e)
    (hfind : e.find now = some h) (hg : Good store (a.bind h) l)
    (hretention : a.retention_ms = store.retention_ms) :
    Scheduled store.retention_ms now (e.accept now a (a.bind h)) := by
  unfold Entry.accept
  dsimp only
  rw [hretention]
  split
  · apply Scheduled.remove (Entry.refresh_key _ _ _ _)
    · simp [RunHash.finalize]
    · rw [Entry.refresh_deadline]
  · apply hs.refresh hfind
    · rfl
    · rfl
    · intro hopen
      exact hg.open_not_pending hopen

/-- The first slice sets the deadline, unless it is the only one of the run. -/
theorem Scheduled.first {a : IngestArgs} (e : Entry) (hg : Good store (first_hash a now) l)
    (hretention : a.retention_ms = store.retention_ms)
    (hdeadline : now + a.partial_timeout_ms < lua.FIRST_SCIENTIFIC)
    (hexceeds : a.partial_timeout_ms < store.retention_ms) :
    Scheduled store.retention_ms now
      ({ e with deadline := some (now + a.partial_timeout_ms) }.accept now a
        (first_hash a now)) := by
  have hnumber : lua.tonumber (first_hash a now).deadline_at = now + a.partial_timeout_ms :=
    lua.tonumber_tostring hdeadline
  unfold Entry.accept
  dsimp only
  rw [hretention]
  split
  · apply Scheduled.remove (Entry.refresh_key _ _ _ _)
    · simp [RunHash.finalize]
    · rw [Entry.refresh_deadline]
  · apply Scheduled.of_key (Entry.refresh_key _ _ _ _)
    · intro _
      have hpending : ¬ (merged_hash a now (first_hash a now)).isPending := hg.open_not_pending rfl
      rw [Entry.refresh_deadline, if_neg hpending]
      change some _ = some (lua.tonumber (first_hash a now).deadline_at) ∧ _
      rw [hnumber]
      refine ⟨rfl, ⟨_, rfl, ?_⟩, ?_⟩
      · change lua.tonumber (first_hash a now).deadline_at < _
        omega
      · change lua.tonumber (first_hash a now).deadline_at < _
        omega
    · intro hclosed
      exact absurd rfl hclosed

variable {limit max_duration : Nat}

theorem Effect.scheduled {w : World} {i : String} {op : Op} {e : Entry}
    (heffect : Effect store w.now i op (w.entry i) e)
    (hbudget : as_millis max_duration + store.partial_timeout_ms < store.retention_ms)
    (htimely : timely max_duration store w op) (hk : ∀ k, w.runs i = some k → Kept store i k.value)
    (hs : Scheduled store.retention_ms w.now (w.entry i)) :
    Scheduled store.retention_ms w.now e := by
  cases heffect with
  | idle => exact hs
  | pruned | cleaned => exact hs.congr rfl rfl
  | @registered window load_duration a _ hargs hrun hexpected hgone =>
    obtain ⟨hstarted, hload, hsmall⟩ := htimely
    have hmillis := as_millis_mono hload
    have hdeadline : a.deadline_at =
      window.scheduled_at_unix_ms + as_millis load_duration +
        store.partial_timeout_ms := (register_args_ok hargs).2.2.2.2.1
    have hnumber : lua.tonumber (registered_hash a).deadline_at = a.deadline_at :=
      lua.tonumber_tostring (by omega)
    apply Scheduled.of_key rfl
    · intro _
      rw [hnumber]
      exact ⟨rfl, ⟨_, rfl, by omega⟩, by omega⟩
    · intro hclosed
      exact absurd rfl hclosed
  | registered_again hfind | duplicate _ _ hfind =>
    obtain ⟨l, hg⟩ := good_of_find hk hfind
    exact hs.refresh hfind rfl rfl hg.open_not_pending
  | @first _ a _ hargs hrun hgone =>
    have ha := ingest_args_ok hargs
    apply Scheduled.first _ (Good.first ha w.now) ha.retention_ms
    · rw [ha.partial_timeout_ms]
      apply htimely
      rw [← ha.run_id, hrun]
      exact hgone
    · rw [ha.partial_timeout_ms]
      omega
  | rejected hargs hrun hfind =>
    have hpruned : Scheduled store.retention_ms w.now ((w.entry i).prune w.now) := hs.congr rfl rfl
    exact hpruned.hset hfind rfl rfl
  | accepted hargs hrun hfind hbinds =>
    obtain ⟨l, hg⟩ := good_of_find hk hfind
    have ha := ingest_args_ok hargs
    exact hs.accept hfind (hg.bind ha hbinds) ha.retention_ms
  | timed_out =>
    apply Scheduled.remove rfl
    · simp [RunHash.finalize]
    · rfl
  | finalized hfind hstatus hrequested =>
    apply Scheduled.remove rfl
    · rcases hrequested with rfl | rfl <;> simp [RunHash.finalize]
    · rfl
  | touched hfind hstatus =>
    obtain ⟨k, hkey, rfl, -⟩ := get_eq_some.mp hfind
    unfold Entry.touch
    split
    · exact .remove rfl hstatus rfl
    · exact .remove hkey hstatus rfl
  | forgotten hgone | absent hgone => exact .of_gone hgone
  | acknowledged_stale hfind | acknowledged_other hfind => exact hs.hset hfind rfl rfl
  | acknowledged_again hfind _ _ hpositive | acknowledged hfind _ hnew =>
    obtain ⟨l, hg⟩ := good_of_find hk hfind
    have hstatus : _ ≠ RunStatus.Open := fun hopen => by have := hg.opened.mp hopen; omega
    exact .remove rfl hstatus (hs.closed _ hfind hstatus)

end scheduled

theorem reachable_scheduled {store : RedisRunAggregationStore} {w : World}
    (hbudget : as_millis max_duration + store.partial_timeout_ms < store.retention_ms)
    (hw : Reachable (storeSystem store limit (timely max_duration store)) w) (i : String) :
    Scheduled store.retention_ms w.now (w.entry i) := by
  have hinv := (entry_invariant (I := fun now i e =>
    (∀ k, e.key = some k → Kept store i k.value) ∧ Scheduled store.retention_ms now e)
    ?_ ?_ ?_ hw).2 i
  · exact hinv.2
  · intro now i
    refine ⟨?_, Scheduled.of_gone rfl⟩
    intro k hk
    cases hk
  · rintro now later i e hle - ⟨hk, hs⟩
    exact ⟨hk, hs.wait hle⟩
  · rintro w op i e - htimely ⟨hk, hs⟩ heffect
    exact ⟨heffect.kept hk, heffect.scheduled hbudget htimely hk hs⟩

/-! ## The scan -/

section scan

variable {store : RedisRunAggregationStore} {w : World} {i : String} {h : RunHash}

/-- A due run is in the answer of the scan, or the answer is full of runs that are due as early. -/
theorem due_runs_finds {score : Nat} (hscore : zscore w.deadlines i = some score)
    (hdue : score ≤ w.now) {runs : List String} (hruns : store.due_runs limit w = .ok runs) :
    i ∈ runs ∨ (runs.length = limit ∧
      ∀ j ∈ runs, ∃ s, zscore w.deadlines j = some s ∧ s ≤ score) := by
  simp only [due_runs, validate_scan_limit, bind_eq_ok, rejectIf_eq_ok] at hruns
  obtain ⟨n, ⟨_, -, _, -, hn⟩, hruns⟩ := hruns
  cases hn
  cases hruns
  exact mem_zrangebyscore hscore hdue _

/-- A scan succeeds with the limits that the store allows. -/
theorem due_runs_isOk :
    (store.due_runs limit w).isOk = true ↔ 1 ≤ limit ∧ limit ≤ store.max_scan_limit := by
  have hscan : store.max_scan_limit ≤ I64_MAX := Nat.le_trans store.scan_limit.2 (by decide)
  simp only [isOk_iff, due_runs, validate_scan_limit, bind_eq_ok, rejectIf_eq_ok]
  constructor
  · rintro ⟨_, _, ⟨_, hlimit, -⟩, -⟩
    omega
  · intro hlimit
    exact ⟨_, limit, ⟨(), by omega, (), by omega, rfl⟩, rfl⟩

/-- `mark_expired` on an open run whose deadline has come. -/
theorem mark_expired_due (hid : validate_identity "run_id" i = .ok ())
    (hpos : 1 ≤ store.retention_ms) (hroom : w.now + store.retention_ms ≤ lua.MAX_EXACT)
    (hfind : w.find i = some h) (hopen : h.status = .Open)
    (hdue : lua.tonumber h.deadline_at ≤ w.now) :
    store.mark_expired i w =
      (expiry_reply ⟨2, .text "", some (h.finalize .TimedOut w.now)⟩,
        (finalize_now w i h .TimedOut).2) := by
  have hscript : mark_expired_script store.retention_ms i w =
      (⟨2, .text "", some (h.finalize .TimedOut w.now)⟩, (finalize_now w i h .TimedOut).2) := by
    unfold mark_expired_script
    rw [hfind]
    dsimp only
    rw [if_neg (by omega), hopen]
    dsimp only
    rw [if_neg (Nat.not_lt.mpr hdue)]
    rfl
  unfold mark_expired
  rw [hid, store.checked_retention]
  dsimp only
  rw [hscript]

theorem finalize_now_find (w : World) (i : String) (h : RunHash) (status : RunStatus) :
    (finalize_now w i h status).2.find i = some (h.finalize status w.now) := by
  have hentry := entry_finalize_now w i i h status
  rw [if_pos rfl] at hentry
  change ((finalize_now w i h status).2.entry i).find w.now = _
  rw [hentry]
  rfl

/-- The record of a run that is timed out decodes to a summary. -/
theorem timed_out_decodes (hk : Kept store i h) (ht : Timed h) (hnow : w.now < lua.FIRST_SCIENTIFIC)
    (hopen : h.status = .Open) (hdue : lua.tonumber h.deadline_at ≤ w.now) :
    ∃ summary, expiry_reply
      ⟨2, .text "", some (h.finalize .TimedOut w.now)⟩ = .ok (.MarkedTimedOut summary) := by
  have hchange : Change store w.now i (.mark_expired i) (some h) (h.finalize .TimedOut w.now) :=
    .timed_out hopen hdue
  have htimed := hchange.timed hnow (by rintro g ⟨⟩; exact ht)
  obtain ⟨-, l, hg, hunset⟩ := hchange.kept (by rintro g ⟨⟩; exact hk)
  have hbounds : l = [] → (h.finalize .TimedOut w.now).histogram_bounds = [] := by
    intro hnil
    exact (hunset hnil).resolve_right (by simp [RunHash.finalize])
  obtain ⟨status, first, final, hdecodes⟩ := hg.decodes htimed hbounds (by simp [RunHash.finalize])
  refine ⟨(h.finalize .TimedOut w.now).summary status first final, ?_⟩
  simp only [expiry_reply, (hdecodes _).2]
  rfl

/-- Only an open run is marked. -/
theorem marks_open_runs {summary : ScenarioRunSummary}
    (hmarked : (store.mark_expired i w).1 = .ok (.MarkedTimedOut summary)) :
    ∃ h, w.find i = some h ∧ h.status = .Open := by
  unfold mark_expired at hmarked
  split at hmarked
  · cases hmarked
  · cases hmarked
  dsimp only at hmarked
  unfold mark_expired_script at hmarked
  split at hmarked
  · cases hmarked
  rename_i h hfind
  split at hmarked
  · cases hmarked
  split at hmarked
  · rename_i hopen
    exact ⟨h, hfind, hopen⟩
  · cases hmarked
  · simp only [expiry_reply, bind_eq_ok] at hmarked
    obtain ⟨_, -, hmarked⟩ := hmarked
    cases hmarked

/-- A run that is not open stays so. -/
theorem Change.stays_closed {now : Nat} {op : Op} {g : RunHash}
    (hchange : Change store now i op (some g) h) (hclosed : g.status ≠ .Open) :
    h.status ≠ .Open := by
  cases hchange with
  | same | bound | acknowledged => exact hclosed
  | accepted =>
    unfold accepted_hash
    dsimp only
    split
    · simp [RunHash.finalize]
    · exact hclosed
  | timed_out hopen | finalized hopen => exact absurd hopen hclosed

/-- While its record exists, a run that is not open stays so through every run of the store. -/
theorem run_stays_closed {allowed : World → Op → Prop} {es : List Op} {w' : World} (hrun : Run
      (storeSystem store limit fun w op => allowed w op ∧ (w.find i).isSome = true) w es w')
    (hclosed : ∀ h, w.find i = some h → h.status ≠ .Open) :
    ∀ h, w'.find i = some h → h.status ≠ .Open := by
  induction hrun with
  | done => exact hclosed
  | step _ hallowed ih =>
    intro h hfind
    obtain ⟨g, hg⟩ := Option.isSome_iff_exists.mp hallowed.1.2
    have hchange := step_change hfind
    rw [hg] at hchange
    exact hchange.stays_closed (ih g hg)

end scan

/-! ## The settings of a node -/

section settings

variable {config : AppConfig} {store : RedisRunAggregationStore}

theorem RedisRunAggregationStore.new_ok {key_space : String} {partial_timeout retention_ttl : Nat}
    (h : new key_space partial_timeout retention_ttl = .ok store) :
    store.partial_timeout = partial_timeout ∧ store.retention_ttl = retention_ttl := by
  unfold new at h
  split at h
  · cases h
  split at h
  · cases h
  split at h
  · cases h
  split at h
  · cases h
    exact ⟨rfl, rfl⟩
  · cases h

/-- The store of a node has the settings of its configuration. -/
theorem aggregation_store_ok (h : aggregation_store config = .ok store) :
    store.partial_timeout = config.aggregation_partial_timeout ∧
      store.retention_ttl = config.aggregation_retention ∧
      store.max_error_kinds = config.aggregation_max_error_kinds ∧
      store.max_active_runs = config.aggregation_max_active_runs ∧
      store.max_scan_limit = config.aggregation_scan_batch := by
  simp only [aggregation_store, with_operation_timeout, bind_eq_ok] at h
  obtain ⟨s₀, hnew, _, ⟨-, -, hsame⟩, s₁, hkinds, s₂, hactive, hscan⟩ := h
  cases hsame
  obtain ⟨htimeout, hretention⟩ := new_ok hnew
  unfold with_max_error_kinds at hkinds
  unfold with_max_active_runs at hactive
  unfold with_max_scan_limit at hscan
  split at hkinds
  · cases hkinds
    split at hactive
    · cases hactive
      split at hscan
      · cases hscan
        exact ⟨htimeout, hretention, rfl, rfl, rfl⟩
      · cases hscan
    · cases hactive
  · cases hkinds

/-- A store with the settings of a configuration is the one that is made from it. -/
theorem aggregation_store_eq (hok : (aggregation_store config).isOk = true)
    (htimeout : store.partial_timeout = config.aggregation_partial_timeout)
    (hretention : store.retention_ttl = config.aggregation_retention)
    (hkinds : store.max_error_kinds = config.aggregation_max_error_kinds)
    (hactive : store.max_active_runs = config.aggregation_max_active_runs)
    (hscan : store.max_scan_limit = config.aggregation_scan_batch) :
    aggregation_store config = .ok store := by
  cases hmade : aggregation_store config with
  | error error =>
    rw [hmade] at hok
    cases hok
  | ok made =>
    obtain ⟨h₁, h₂, h₃, h₄, h₅⟩ := aggregation_store_ok hmade
    congr 1
    ext <;> simp only [h₁, h₂, h₃, h₄, h₅, htimeout, hretention, hkinds, hactive, hscan]

/-- In whole milliseconds too, a run is kept longer than its longest load and the time that it waits
for late slices. -/
theorem retention_covers_deadline_ms {parsers : Parsers} (hvalid : config.validate parsers = .ok ())
    (hstore : aggregation_store config = .ok store)
    (hwhole : from_millis (as_millis config.aggregation_retention) = config.aggregation_retention) :
    as_millis config.max_duration + store.partial_timeout_ms < store.retention_ms := by
  have hlt := AppConfig.retention_covers_deadline hvalid
  obtain ⟨htimeout, hretention, -⟩ := aggregation_store_ok hstore
  unfold partial_timeout_ms retention_ms
  rw [htimeout, hretention]
  unfold as_millis from_millis at *
  generalize NANOS_PER_MILLI = m at *
  have h₁ := Nat.div_mul_le_self config.max_duration m
  have h₂ := Nat.div_mul_le_self config.aggregation_partial_timeout m
  apply Nat.lt_of_mul_lt_mul_right (a := m)
  rw [Nat.add_mul]
  omega

end settings

/-- An open run is in the deadlines with its `deadline_at` as the score, and its key expires after
it; a run that is not open is not there. So an open run is still there when its deadline comes, a
scan within the limit returns it unless as many runs are due as early, and `mark_expired` times it
out, once. -/
theorem open_runs_wait_for_their_deadline {parsers : Parsers} {config : AppConfig}
    {store : RedisRunAggregationStore} (hvalid : config.validate parsers = .ok ())
    (hwhole : from_millis (as_millis config.aggregation_retention) =
      config.aggregation_retention)
    (hstore : aggregation_store config = .ok store) {w : World}
    (hw : Reachable (storeSystem store lua.FIRST_SCIENTIFIC (timely config.max_duration store)) w)
    {i : String} {h : RunHash} (hfind : w.find i = some h) :
    (h.status ≠ .Open → zscore w.deadlines i = none) ∧
      (h.status = .Open →
        zscore w.deadlines i = some (lua.tonumber h.deadline_at) ∧
        (∃ t, w.runs i = some ⟨h, some t⟩ ∧ lua.tonumber h.deadline_at < t) ∧
        (∀ ms, w.now + ms ≤ lua.tonumber h.deadline_at →
          (w.step store (.wait ms)).find i = some h) ∧
        (lua.tonumber h.deadline_at ≤ w.now →
          (∀ limit, ((store.due_runs limit w).isOk = true ↔
              1 ≤ limit ∧ limit ≤ store.max_scan_limit) ∧
            ∀ runs, store.due_runs limit w = .ok runs → i ∈ runs ∨ (runs.length = limit ∧
              ∀ j ∈ runs, ∃ s, zscore w.deadlines j = some s ∧
                s ≤ lua.tonumber h.deadline_at)) ∧
          (validate_identity "run_id" i = .ok () → w.now + store.retention_ms ≤ lua.MAX_EXACT →
            (∃ summary, (store.mark_expired i w).1 = .ok (.MarkedTimedOut summary)) ∧
            (∃ h', (store.mark_expired i w).2.find i = some h' ∧ h'.status = .TimedOut) ∧
            ∀ es w', Run (storeSystem store lua.FIRST_SCIENTIFIC fun w op =>
                timely config.max_duration store w op ∧ (w.find i).isSome = true)
                (store.mark_expired i w).2 es w' →
              ∀ summary, (store.mark_expired i w').1 ≠ .ok (.MarkedTimedOut summary)))) := by
  have hbudget := retention_covers_deadline_ms hvalid hstore hwhole
  have hs := reachable_scheduled hbudget hw i
  refine ⟨hs.closed h hfind, fun hopen => ?_⟩
  obtain ⟨hdeadline, ⟨t, hkey, hlt⟩, -⟩ := hs.opened h hfind hopen
  refine ⟨hdeadline, ⟨t, hkey, hlt⟩, ?_, fun hdue => ⟨?_, ?_⟩⟩
  · intro ms hms
    apply get_eq_some.mpr
    refine ⟨_, hkey, rfl, ?_⟩
    intro t' ht'
    cases ht'
    change w.now + ms < t
    omega
  · exact fun limit => ⟨due_runs_isOk, fun runs hruns => due_runs_finds hdeadline hdue hruns⟩
  · intro hid hroom
    rw [mark_expired_due hid (by omega) hroom hfind hopen hdue]
    refine ⟨?_, ⟨_, finalize_now_find w i h .TimedOut, rfl⟩, ?_⟩
    · exact timed_out_decodes (reachable_kept hw hfind) (reachable_timed le_rfl hw hfind)
        (reachable_now hw) hopen hdue
    · intro es w' hrun summary hmarked
      obtain ⟨g, hfind', hopen'⟩ := marks_open_runs hmarked
      refine run_stays_closed hrun ?_ g hfind' hopen'
      intro g' hg'
      rw [finalize_now_find] at hg'
      cases hg'
      simp [RunHash.finalize]

/-! ## A run without results -/

/-- A window of which no slice arrives. -/
def idleWindow : DispatchWindow := ⟨"checkout", "run-1", 0, 2, 2⟩

def idleOps : List Op := [.register_run idleWindow 0, .wait 60000]

def idleWorld : World := idleOps.foldl (.step defaultStore) (.start 0)

theorem open_runs_wait_for_their_deadline_without_results :
    (∃ h, idleWorld.find "run-1" = some h ∧ h.status = .Open) ∧
      (∃ runs, defaultStore.due_runs 128 idleWorld = .ok runs ∧ "run-1" ∈ runs) ∧
      ∃ summary,
        (defaultStore.mark_expired "run-1" idleWorld).1 = .ok (.MarkedTimedOut summary) := by
  have hw : Reachable (storeSystem defaultStore lua.FIRST_SCIENTIFIC
      (timely (AppConfig.defaults "node-1").max_duration defaultStore)) idleWorld := by
    apply Reachable.foldl (reachable_start (by decide))
    exact ⟨⟨⟨le_rfl, Nat.zero_le _, by decide +kernel⟩, by decide +kernel⟩,
      ⟨trivial, by decide +kernel⟩, trivial⟩
  have hfacts : ∀ h ∈ idleWorld.find "run-1",
      h.status = .Open ∧ lua.tonumber h.deadline_at ≤ idleWorld.now := by decide +kernel
  obtain ⟨h, hfind⟩ := Option.isSome_iff_exists.mp
    (show (idleWorld.find "run-1").isSome = true by decide +kernel)
  obtain ⟨hopen, hdue⟩ := hfacts h hfind
  have hlaw := open_runs_wait_for_their_deadline AppConfig.validate_defaults (by decide +kernel)
    (aggregation_store_eq (by decide +kernel) rfl rfl rfl rfl rfl) hw hfind
  obtain ⟨-, -, -, hmarked⟩ := hlaw.2 hopen
  obtain ⟨hok, hruns⟩ := (hmarked hdue).1 128
  obtain ⟨runs, hscan⟩ := isOk_iff.mp (hok.mpr (by decide))
  refine ⟨⟨h, hfind, hopen⟩, ⟨runs, hscan, (hruns runs hscan).resolve_right fun hfull => ?_⟩,
    ((hmarked hdue).2 (by decide +kernel) (by decide +kernel)).1⟩
  have hone : ∀ runs, defaultStore.due_runs 128 idleWorld = .ok runs → runs.length ≤ 1 := by
    rintro _ ⟨⟩
    decide +kernel
  exact absurd hfull.1 (by have := hone runs hscan; omega)

/-! ## Settings and names with which a run misses its deadline -/

/-- The retention exceeds the longest load and the timeout by a nanosecond. -/
def shortConfig : AppConfig :=
  { AppConfig.defaults "node-1" with aggregation_retention := from_millis 120000 + 1 }

def shortStore : RedisRunAggregationStore :=
  { defaultStore with
    retention_ttl := from_millis 120000 + 1
    retention_exact := by decide
    retention_exceeds := by decide }

def shortWorld : World :=
  [.register_run idleWindow (from_millis 60000)].foldl (.step shortStore)
    (.start 0)

/-- The retention is nearly the exact range of Lua. -/
def longConfig : AppConfig :=
  { AppConfig.defaults "node-1" with
    aggregation_retention := from_millis 9000000000000000 }

def longStore : RedisRunAggregationStore :=
  { defaultStore with
    retention_ttl := from_millis 9000000000000000
    retention_exact := by decide
    retention_exceeds := by decide }

def longWorld : World := idleOps.foldl (.step longStore) (.start 10000000000000)

/-- A window with a blank name. -/
def blankWindow : DispatchWindow := { idleWindow with run_id := " " }

def blankWorld : World :=
  [.register_run blankWindow 0, .wait 60000].foldl (.step defaultStore) (.start 0)

/-- With a retention that is not in whole milliseconds, the record of an open run is gone when its
deadline comes. With a retention near the end of the exact range, and for a run with a blank name,
`mark_expired` fails on an open run that is due. -/
theorem open_runs_miss_their_deadline :
    (shortConfig.validate AppConfig.defaultParsers = .ok () ∧
      aggregation_store shortConfig = .ok shortStore ∧
      Reachable (storeSystem shortStore lua.FIRST_SCIENTIFIC
        (timely shortConfig.max_duration shortStore)) shortWorld ∧
      (∃ h, shortWorld.find "run-1" = some h ∧ h.status = .Open ∧
        (shortWorld.runs "run-1").bind (·.expires_at) = some (lua.tonumber h.deadline_at)) ∧
      (shortWorld.step shortStore (.wait 120000)).find "run-1" = none) ∧
    (longConfig.validate AppConfig.defaultParsers = .ok () ∧
      aggregation_store longConfig = .ok longStore ∧
      Reachable (storeSystem longStore lua.FIRST_SCIENTIFIC
        (timely longConfig.max_duration longStore)) longWorld ∧
      (∃ h, longWorld.find "run-1" = some h ∧ h.status = .Open ∧
        lua.tonumber h.deadline_at ≤ longWorld.now) ∧
      (longStore.mark_expired "run-1" longWorld).1.isOk = false) ∧
    (Reachable (storeSystem defaultStore lua.FIRST_SCIENTIFIC
        (timely (AppConfig.defaults "node-1").max_duration defaultStore)) blankWorld ∧
      (∃ h, blankWorld.find " " = some h ∧ h.status = .Open ∧
        lua.tonumber h.deadline_at ≤ blankWorld.now) ∧
      (defaultStore.mark_expired " " blankWorld).1.isOk = false) := by
  have hfound : ∀ {w : World} {i : String} {P : RunHash → Prop}, (w.find i).isSome = true →
      (∀ h ∈ w.find i, P h) → ∃ h, w.find i = some h ∧ P h := by
    intro w i P hsome hp
    obtain ⟨h, hfind⟩ := Option.isSome_iff_exists.mp hsome
    exact ⟨h, hfind, hp h hfind⟩
  refine ⟨⟨by decide +kernel, aggregation_store_eq (by decide +kernel) rfl rfl rfl rfl rfl, ?_,
    hfound (by decide +kernel) (by decide +kernel), by decide +kernel⟩,
    ⟨by decide +kernel, aggregation_store_eq (by decide +kernel) rfl rfl rfl rfl rfl, ?_,
    hfound (by decide +kernel) (by decide +kernel), by decide +kernel⟩, ?_,
    hfound (by decide +kernel) (by decide +kernel), by decide +kernel⟩
  · apply Reachable.foldl (reachable_start (by decide))
    exact ⟨⟨⟨le_rfl, le_rfl, by decide +kernel⟩, by decide +kernel⟩, trivial⟩
  · apply Reachable.foldl (reachable_start (by decide))
    exact ⟨⟨⟨Nat.zero_le _, Nat.zero_le _, by decide +kernel⟩, by decide +kernel⟩,
      ⟨trivial, by decide +kernel⟩, trivial⟩
  · apply Reachable.foldl (reachable_start (by decide))
    exact ⟨⟨⟨le_rfl, Nat.zero_le _, by decide +kernel⟩, by decide +kernel⟩,
      ⟨trivial, by decide +kernel⟩, trivial⟩

end pulse.aggregation
