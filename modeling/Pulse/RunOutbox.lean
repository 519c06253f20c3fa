-- The law of the summary outbox: a run is in it exactly while its record has
-- a revision that is not acknowledged, and such a record does not expire.
import Pulse.AggregationRecord

open keyspace sorted_sets systems
open pulse.contracts

namespace pulse.aggregation

open RedisRunAggregationStore

/-! ## The invariant of an entry -/

/-- The outbox holds the run exactly while its hash is pending. A pending hash has no expiry, and
its place among the active runs is the last one until the clock comes to it. -/
structure Queued (now : Nat) (e : Entry) : Prop where
  member : e.outbox.isSome = true ↔ ∃ k, e.key = some k ∧ k.value.isPending
  persistent : ∀ k, e.key = some k → k.value.isPending → k.expires_at = none
  active : ∀ k, e.key = some k → k.value.isPending →
    e.active = some lua.MAX_EXACT ∨ lua.MAX_EXACT ≤ now

section queued

variable {store : RedisRunAggregationStore} {now : Nat} {e : Entry} {h : RunHash} {l : List Slice}

namespace Queued

theorem found (hq : Queued now e) {k : Key RunHash} (hk : e.key = some k)
    (hp : k.value.isPending) : e.find now = some k.value := by
  apply get_eq_some.mpr
  refine ⟨k, hk, rfl, ?_⟩
  intro t ht
  rw [hq.persistent k hk hp] at ht
  cases ht

/-- The run of a hash that is gone is not in the outbox. -/
theorem gone (hq : Queued now e) (hgone : e.find now = none) :
    e.outbox = none ∧ ∀ k, e.key = some k → ¬ k.value.isPending := by
  have hnot : ∀ k, e.key = some k → ¬ k.value.isPending := by
    intro k hk hp
    rw [hq.found hk hp] at hgone
    cases hgone
  refine ⟨?_, hnot⟩
  cases ho : e.outbox with
  | none => rfl
  | some t =>
    obtain ⟨k, hk, hp⟩ := hq.member.mp (by rw [ho]; rfl)
    exact absurd hp (hnot k hk)

theorem of_find (hq : Queued now e) (hfind : e.find now = some h) :
    e.outbox.isSome = true ↔ h.isPending := by
  obtain ⟨k, hk, rfl, -⟩ := get_eq_some.mp hfind
  rw [hq.member]
  constructor
  · rintro ⟨k', hk', hp⟩
    rw [hk] at hk'
    cases hk'
    exact hp
  · intro hp
    exact ⟨k, hk, hp⟩

theorem keep (hp : h.isPending) (ho : e.outbox.isSome = true) : Queued now (e.keep h) := by
  refine ⟨?_, ?_, ?_⟩
  · change e.outbox.isSome = true ↔ _
    rw [ho]
    simp [Entry.keep, hp]
  · intro k hk _
    cases hk
    rfl
  · intro k _ _
    exact .inl rfl

/-- A run is not in the outbox when no hash of it is pending. -/
theorem remove (hnot : ∀ k, e.key = some k → ¬ k.value.isPending) (ho : e.outbox = none) :
    Queued now e := by
  refine ⟨?_, fun k hk hp => absurd hp (hnot k hk), fun k hk hp => absurd hp (hnot k hk)⟩
  rw [ho]
  constructor
  · intro hs
    cases hs
  · rintro ⟨k, hk, hp⟩
    exact absurd hp (hnot k hk)

theorem expire (time : Nat) (hp : ¬ h.isPending) (ho : e.outbox = none) :
    Queued now (e.expire time h) := by
  apply remove
  · intro k hk
    cases hk
    exact hp
  · exact ho

theorem refresh (retention_ms : Nat) (hmember : e.outbox.isSome = true ↔ h.isPending) :
    Queued now (e.refresh now retention_ms h) := by
  unfold Entry.refresh
  split
  · rename_i hp
    exact keep hp (hmember.mpr hp)
  · rename_i hp
    apply expire _ hp
    simpa using mt hmember.mp hp

theorem hset (hq : Queued now e) (hfind : e.find now = some h) {g : RunHash}
    (hsame : g.isPending ↔ h.isPending) : Queued now (e.hset g) := by
  have hmember := hq.of_find hfind
  obtain ⟨k, hk, rfl, -⟩ := get_eq_some.mp hfind
  have hkey : (e.hset g).key = some ⟨g, k.expires_at⟩ := by simp [Entry.hset, hk]
  refine ⟨?_, ?_, ?_⟩
  · change e.outbox.isSome = true ↔ _
    rw [hmember, ← hsame, hkey]
    simp
  · intro k' hk' hp
    rw [hkey] at hk'
    cases hk'
    exact hq.persistent k hk (hsame.mp hp)
  · intro k' hk' hp
    rw [hkey] at hk'
    cases hk'
    exact hq.active k hk (hsame.mp hp)

theorem prune (hq : Queued now e) : Queued now (e.prune now) := by
  refine ⟨hq.member, hq.persistent, ?_⟩
  intro k hk hp
  by_cases hlt : now < lua.MAX_EXACT
  · left
    have hactive := (hq.active k hk hp).resolve_right (Nat.not_le.mpr hlt)
    simp [Entry.prune, hactive, hlt]
  · right
    omega

end Queued

/-! ## Every call keeps it -/

/-- A new revision is pending. -/
theorem Good.finalize_pending (hg : Good store h l) {g : RunHash}
    (hr : g.summary_revision = h.summary_revision)
    (ha : g.summary_ack_revision = h.summary_ack_revision) (status : RunStatus) (now : Nat) :
    (g.finalize status now).isPending := by
  have hle := hg.acknowledged_le
  have hsmall : h.summary_revision + 1 < lua.FIRST_SCIENTIFIC := by
    have hrevision := hg.revision
    have hbig : 3 < lua.FIRST_SCIENTIFIC := by decide
    split at hrevision <;> omega
  unfold RunHash.isPending RunHash.finalize
  dsimp only
  rw [ha, hr, lua.tonumber_tostring hsmall]
  omega

theorem Queued.accept (hg : Good store h l) (a : IngestArgs)
    (hmember : e.outbox.isSome = true ↔ h.isPending) : Queued now (e.accept now a h) := by
  unfold Entry.accept
  dsimp only
  split
  · apply Queued.refresh
    have hp := hg.finalize_pending (g := merged_hash a now h) rfl rfl .Complete now
    simp [hp]
  · apply Queued.refresh
    exact hmember

theorem Effect.queued {i : String} {op : Op} {e' : Entry} (heffect : Effect store now i op e e')
    (hk : ∀ k, e.key = some k → Kept store i k.value) (hq : Queued now e) : Queued now e' := by
  cases heffect with
  | idle => exact hq
  | pruned => exact hq.prune
  | registered hargs hrun hexpected hgone =>
    apply Queued.expire
    · exact Nat.lt_irrefl _
    · exact (hq.gone hgone).1
  | registered_again hfind | duplicate _ _ hfind =>
    apply Queued.refresh
    have hmember := hq.of_find hfind
    exact hmember
  | @first _ a _ hargs hrun hgone =>
    apply Queued.accept (Good.first (ingest_args_ok hargs) now)
    have hnot : ¬ (first_hash a now).isPending := Nat.lt_irrefl _
    simp [(hq.gone hgone).1, hnot]
  | rejected hargs hrun hfind hbinds =>
    apply hq.prune.hset hfind
    exact Iff.rfl
  | accepted hargs hrun hfind hbinds =>
    obtain ⟨l, hg⟩ := good_of_find hk hfind
    apply Queued.accept (hg.bind (ingest_args_ok hargs) hbinds)
    have hmember := hq.of_find hfind
    exact hmember
  | timed_out hfind | finalized hfind =>
    obtain ⟨l, hg⟩ := good_of_find hk hfind
    apply Queued.keep
    · exact hg.finalize_pending rfl rfl _ now
    · rfl
  | touched hfind =>
    have hmember := hq.of_find hfind
    unfold Entry.touch
    split
    · rename_i hp
      exact .keep hp (hmember.mpr hp)
    · exact ⟨hq.member, hq.persistent, hq.active⟩
  | forgotten hgone | absent hgone =>
    apply Queued.remove
    · exact (hq.gone hgone).2
    · rfl
  | acknowledged_stale hfind hrevision hnew =>
    -- The revision is older than the pending one, so the hash stays pending.
    obtain ⟨l, hg⟩ := good_of_find hk hfind
    apply hq.hset hfind
    rw [(hg.acknowledge hrevision.le).isPending_iff, hg.isPending_iff, RunHash.acknowledge]
    dsimp only
    rw [hg.tostring_revision hrevision.le]
    omega
  | acknowledged_again hfind hrevision hsettled =>
    apply Queued.expire _ hsettled
    rfl
  | acknowledged hfind hrevision hnew hpending =>
    obtain ⟨l, hg⟩ := good_of_find hk hfind
    apply Queued.expire
    · rw [(hg.acknowledge hrevision.le).isPending_iff, RunHash.acknowledge]
      dsimp only
      rw [hg.tostring_revision hrevision.le]
      omega
    · rfl
  | acknowledged_other hfind hrevision hnew hpending =>
    obtain ⟨l, hg⟩ := good_of_find hk hfind
    rw [hg.pending_eq] at hpending
    exact absurd hrevision.symm hpending
  | cleaned hsettled =>
    apply Queued.remove
    · intro k hk hp
      exact hsettled k.value (hq.found hk hp) hp
    · rfl

end queued

variable {store : RedisRunAggregationStore}

theorem reachable_queued {limit : Nat} {allowed : World → Op → Prop} {w : World}
    (hw : Reachable (storeSystem store limit allowed) w) (i : String) :
    (∀ k, w.runs i = some k → Kept store i k.value) ∧ Queued w.now (w.entry i) := by
  apply (entry_invariant (I := fun now i e =>
    (∀ k, e.key = some k → Kept store i k.value) ∧ Queued now e) ?_ ?_ ?_ hw).2 i
  · intro now i
    constructor
    · intro k hk
      cases hk
    · apply Queued.remove
      · intro k hk
        cases hk
      · rfl
  · rintro now later i e hle - ⟨hk, hq⟩
    refine ⟨hk, hq.member, hq.persistent, ?_⟩
    intro k hkey hp
    rcases hq.active k hkey hp with hactive | hpast
    · exact .inl hactive
    · exact .inr (Nat.le_trans hpast hle)
  · rintro w op i e - - ⟨hk, hq⟩ heffect
    exact ⟨heffect.kept hk, heffect.queued hk hq⟩

/-! ## New revisions -/

/-- The revision of the summary of a run; a run that is not there has none. -/
def World.revision (w : World) (i : String) : Nat := ((w.find i).map (·.summary_revision)).getD 0

section revisions

variable {now : Nat} {i : String} {op : Op} {h : RunHash} {l : List Slice}

theorem Good.accepted_pending (hg : Good store h l) (a : IngestArgs) (now : Nat)
    (hnew : h.summary_revision < (accepted_hash a now h).summary_revision) :
    (accepted_hash a now h).isPending := by
  unfold accepted_hash at hnew ⊢
  dsimp only at hnew ⊢
  split
  · exact hg.finalize_pending rfl rfl .Complete now
  · rename_i hlast
    rw [if_neg hlast] at hnew
    exact absurd hnew (Nat.lt_irrefl _)

/-- A change that makes a new revision leaves it pending. -/
theorem Change.new_revision {found : Option RunHash} (hchange : Change store now i op found h)
    (hfound : ∀ g, found = some g → Kept store i g)
    (hnew : (found.map (·.summary_revision)).getD 0 < h.summary_revision) : h.isPending := by
  have hgood : ∀ g, found = some g → ∃ l, Good store g l := by
    intro g hg
    obtain ⟨-, l, hgood, -⟩ := hfound g hg
    exact ⟨l, hgood⟩
  cases hchange with
  | same | registered | bound | acknowledged => exact absurd hnew (Nat.lt_irrefl _)
  | first hargs =>
    have hfirst := Good.first (ingest_args_ok hargs) now
    exact hfirst.accepted_pending _ now hnew
  | accepted hargs hrun hbinds =>
    obtain ⟨l, hg⟩ := hgood _ rfl
    have hbound := hg.bind (ingest_args_ok hargs) hbinds
    exact hbound.accepted_pending _ now hnew
  | timed_out | finalized =>
    obtain ⟨l, hg⟩ := hgood _ rfl
    exact hg.finalize_pending rfl rfl _ now

end revisions

/-! ## Staying in the outbox -/

/-- The call acknowledges the revision that the run has now. -/
def acknowledgesCurrent (i : String) (w : World) (op : Op) : Prop :=
  ∃ revision h, op = .acknowledge_summary i revision ∧ w.find i = some h ∧
    revision.toNat = h.summary_revision

/-- Only the acknowledgement of the current revision takes a run out of the outbox. -/
theorem Effect.stays {w : World} {i : String} {op : Op} {e : Entry}
    (heffect : Effect store w.now i op (w.entry i) e) (hq : Queued w.now (w.entry i))
    (hin : (w.entry i).outbox.isSome = true) (hop : ¬ acknowledgesCurrent i w op) :
    e.outbox.isSome = true := by
  have hhere : (w.entry i).find w.now ≠ none := by
    intro hgone
    rw [(hq.gone hgone).1] at hin
    cases hin
  have hpending : ∀ {h}, (w.entry i).find w.now = some h → h.isPending :=
    fun hfind => (hq.of_find hfind).mp hin
  have hrefresh : ∀ (e : Entry) (now retention_ms : Nat) (h : RunHash),
      (e.refresh now retention_ms h).outbox = e.outbox := by
    intro e now retention_ms h
    unfold Entry.refresh
    split <;> rfl
  cases heffect with
  | idle | pruned | acknowledged_stale | rejected => exact hin
  | registered_again | duplicate =>
    rw [hrefresh]
    exact hin
  | registered hargs hrun hexpected hgone => exact absurd hgone hhere
  | first _ _ hgone | forgotten hgone | absent hgone => exact absurd hgone hhere
  | accepted =>
    unfold Entry.accept
    dsimp only
    split
    · rw [hrefresh]
      rfl
    · rw [hrefresh]
      exact hin
  | timed_out | finalized => rfl
  | touched hfind =>
    unfold Entry.touch
    split <;> exact hin
  | acknowledged_again hfind hrevision | acknowledged hfind hrevision
  | acknowledged_other hfind hrevision =>
    exact absurd ⟨_, _, rfl, hfind, hrevision⟩ hop
  | cleaned hsettled =>
    obtain ⟨h, hfind⟩ := Option.ne_none_iff_exists'.mp hhere
    exact absurd (hpending hfind) (hsettled h hfind)

/-- A call that makes a new revision of the summary puts the run into the outbox. -/
theorem new_revision_is_queued {w : World} {i : String}
    (hk : ∀ k, w.runs i = some k → Kept store i k.value) (hq : Queued w.now (w.entry i)) (op : Op)
    (hnew : w.revision i < (w.step store op).revision i) :
    (zscore (w.step store op).outbox i).isSome = true := by
  have heffect := step_effect store w op i
  have hq' := heffect.queued hk hq
  cases hfind : (w.step store op).find i with
  | none =>
    unfold World.revision at hnew
    rw [hfind] at hnew
    cases hnew
  | some h =>
    have hnow : w.now ≤ (w.step store op).now := by
      rw [step_now]
      omega
    have hfind' : ((w.step store op).entry i).find w.now = some h := get_earlier hnow hfind
    apply (hq'.of_find hfind').mpr
    unfold World.revision at hnew
    rw [hfind] at hnew
    apply (step_change hfind).new_revision
    · intro g hg
      obtain ⟨k, hkey, rfl, -⟩ := get_eq_some.mp hg
      exact hk k hkey
    · exact hnew

/-- A run is in the outbox exactly while its record exists with a pending revision; then the record
does not expire, and its place among the active runs is the last one until the clock comes to it. A
new revision is in the outbox, and it stays there until that revision is acknowledged. -/
theorem pending_summaries_stay_in_the_outbox {store : RedisRunAggregationStore} {limit : Nat}
    {w : World} (hw : Reachable (storeSystem store limit fun _ _ => True) w) (i : String) :
    ((zscore w.outbox i).isSome = true ↔ ∃ h, w.find i = some h ∧ h.isPending) ∧
      (∀ h, w.find i = some h → h.isPending →
        w.runs i = some ⟨h, none⟩ ∧
          (w.now < lua.MAX_EXACT → zscore w.active i = some lua.MAX_EXACT)) ∧
      (∀ op, w.revision i < (w.step store op).revision i →
        (zscore (w.step store op).outbox i).isSome = true) ∧
      ∀ es w', Run (storeSystem store limit fun w op => ¬ acknowledgesCurrent i w op) w es w' →
        (zscore w.outbox i).isSome = true →
        (zscore w'.outbox i).isSome = true ∧ ∃ h, w'.runs i = some ⟨h, none⟩ := by
  obtain ⟨hk, hq⟩ := reachable_queued hw i
  refine ⟨?_, ?_, new_revision_is_queued hk hq, ?_⟩
  · constructor
    · intro hin
      obtain ⟨k, hkey, hp⟩ := hq.member.mp hin
      exact ⟨k.value, hq.found hkey hp, hp⟩
    · rintro ⟨h, hfind, hp⟩
      exact (hq.of_find hfind).mpr hp
  · intro h hfind hp
    obtain ⟨k, hkey, rfl, -⟩ := get_eq_some.mp hfind
    have hexpiry := hq.persistent k hkey hp
    refine ⟨?_, ?_⟩
    · rw [hkey, ← hexpiry]
    · intro hlt
      exact (hq.active k hkey hp).resolve_right (Nat.not_le.mpr hlt)
  · intro es w' hrun hin
    -- Along the run the store is reachable and the run stays in the outbox.
    have hstays : Reachable (storeSystem store limit fun _ _ => True) w' ∧
        (zscore w'.outbox i).isSome = true := by
      induction hrun with
      | done => exact ⟨hw, hin⟩
      | @step s op _ _ hallowed ih =>
        obtain ⟨hreach, hin'⟩ := ih
        obtain ⟨hop, hlimit⟩ := hallowed
        refine ⟨hreach.step ⟨trivial, hlimit⟩, ?_⟩
        exact (step_effect store _ _ i).stays (reachable_queued hreach i).2 hin' hop
    obtain ⟨hreach, hin'⟩ := hstays
    have hq' := (reachable_queued hreach i).2
    obtain ⟨k, hkey, hp⟩ := hq'.member.mp hin'
    refine ⟨hin', k.value, ?_⟩
    change w'.runs i = some k at hkey
    rw [hkey, ← hq'.persistent k hkey hp]

/-! ## A run that completes -/

/-- A window of another run. -/
def otherWindow : DispatchWindow := ⟨"checkout", "run-2", 0, 2, 1⟩

def completedWorld : World := (World.start 0).step defaultStore (.ingest singleResult)

theorem pending_summaries_stay_in_the_outbox_for_a_day :
    (zscore completedWorld.outbox "run-1").isSome = true ∧
      ∃ h, (completedWorld.step defaultStore (.wait 86400000)).runs "run-1" = some ⟨h, none⟩ := by
  have hstart : Reachable (storeSystem defaultStore lua.MAX_EXACT fun _ _ => True)
    (.start 0) :=
    reachable_start (by decide)
  have hw := hstart.step (e := .ingest singleResult) ⟨trivial, by decide +kernel⟩
  change Reachable _ completedWorld at hw
  have hin : (zscore completedWorld.outbox "run-1").isSome = true := by decide +kernel
  obtain ⟨-, -, -, hstays⟩ := pending_summaries_stay_in_the_outbox hw "run-1"
  have hnot : ¬ acknowledgesCurrent "run-1" completedWorld (.wait 86400000) := by
    rintro ⟨revision, h, hop, -⟩
    cases hop
  exact ⟨hin, (hstays _ _ ((Run.done completedWorld).step ⟨hnot, by decide +kernel⟩) hin).2⟩

/-- At the end of the exact range of Lua, the clock comes to the place of a pending run, and the
next call removes it from the active runs. -/
theorem pending_run_leaves_the_active_runs :
    let w := [Op.ingest singleResult, .wait lua.MAX_EXACT, .register_run otherWindow 0].foldl
      (.step defaultStore) (.start 0)
    Reachable (storeSystem defaultStore (lua.MAX_EXACT + 1) fun _ _ => True) w ∧
      (∃ h, w.find "run-1" = some h ∧ h.isPending) ∧ (zscore w.outbox "run-1").isSome = true ∧
      zscore w.active "run-1" ≠ some lua.MAX_EXACT := by
  intro w
  have hstart : Reachable (storeSystem defaultStore (lua.MAX_EXACT + 1) fun _ _ => True)
      (.start 0) := reachable_start (by decide)
  refine ⟨hstart.foldl ⟨⟨trivial, by decide +kernel⟩, ⟨trivial, by decide +kernel⟩,
    ⟨trivial, by decide +kernel⟩, trivial⟩, ?_, by decide +kernel, by decide +kernel⟩
  have hpending : ∀ h ∈ w.find "run-1", h.isPending := by decide +kernel
  obtain ⟨h, hfind⟩ := Option.isSome_iff_exists.mp
    (show (w.find "run-1").isSome = true by decide +kernel)
  exact ⟨h, hfind, hpending h hfind⟩

end pulse.aggregation
