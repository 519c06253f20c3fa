-- The law of the capacity: every run that exists is among the active runs, up
-- to its expiry at least, and a run is only made while there is a place left.
import Pulse.AggregationRecord

open checks keyspace sorted_sets systems
open pulse.contracts

namespace pulse.aggregation

/-! ## The score of a run -/

/-- A run that exists is among the active runs with the time of its expiry, or with the largest
score when it does not expire. -/
def Indexed (now : Nat) (e : Entry) : Prop :=
  ∀ k, e.key = some k → e.find now ≠ none → e.active = some (k.expires_at.getD lua.MAX_EXACT)

section indexed

variable {store : RedisRunAggregationStore} {now : Nat} {i : String} {op : Op} {e e' : Entry}
  {h : RunHash}

namespace Indexed

theorem of_gone (hgone : e.find now = none) : Indexed now e :=
  fun _ _ hfind => absurd hgone hfind

theorem keep (e : Entry) (h : RunHash) : Indexed now (e.keep h) := by
  intro k hk _
  cases hk
  rfl

theorem expire (e : Entry) (time : Nat) (h : RunHash) : Indexed now (e.expire time h) := by
  intro k hk _
  cases hk
  rfl

theorem refresh (e : Entry) (retention_ms : Nat) (h : RunHash) :
    Indexed now (e.refresh now retention_ms h) := by
  unfold Entry.refresh
  split
  · exact keep e h
  · exact expire e _ h

theorem accept (e : Entry) (a : IngestArgs) (h : RunHash) : Indexed now (e.accept now a h) := by
  unfold Entry.accept
  dsimp only
  split
  · exact refresh _ _ _
  · exact refresh _ _ _

theorem hset (hi : Indexed now e) (hfind : e.find now = some h) (g : RunHash) :
    Indexed now (e.hset g) := by
  obtain ⟨k, hk, -, -⟩ := get_eq_some.mp hfind
  intro k' hk' _
  have hkey : (e.hset g).key = some ⟨g, k.expires_at⟩ := by simp [Entry.hset, hk]
  rw [hkey] at hk'
  cases hk'
  exact hi k hk (by rw [hfind]; simp)

/-- A run that exists is not pruned. -/
theorem prune (hi : Indexed now e) (hnow : now < lua.MAX_EXACT) : Indexed now (e.prune now) := by
  intro k hk hfind
  have hactive := hi k hk hfind
  obtain ⟨h, hh⟩ := Option.ne_none_iff_exists'.mp hfind
  obtain ⟨k', hk', -, hlt⟩ := get_eq_some.mp hh
  rw [hk] at hk'
  cases hk'
  have hscore : now < k.expires_at.getD lua.MAX_EXACT := by
    cases hexpiry : k.expires_at with
    | none => exact hnow
    | some t => exact hlt t hexpiry
  simp [Entry.prune, hactive, hscore]

theorem active (hi : Indexed now e) (hfind : e.find now = some h) : e.active.isSome = true := by
  obtain ⟨k, hk, -, -⟩ := get_eq_some.mp hfind
  rw [hi k hk (by rw [hfind]; simp)]
  rfl

end Indexed

theorem Effect.indexed (heffect : Effect store now i op e e') (hnow : now < lua.MAX_EXACT)
    (hi : Indexed now e) : Indexed now e' := by
  cases heffect with
  | idle | cleaned => exact hi
  | pruned => exact hi.prune hnow
  | registered => exact .expire _ _ _
  | registered_again => exact .refresh _ _ _
  | first => exact .accept _ _ _
  | duplicate => exact .refresh _ _ _
  | rejected _ _ hfind => exact (hi.prune hnow).hset hfind _
  | accepted => exact .accept _ _ _
  | timed_out | finalized => exact .keep _ _
  | touched =>
    unfold Entry.touch
    split
    · exact .keep _ _
    · exact hi
  | forgotten hgone | absent hgone => exact .of_gone hgone
  | acknowledged_stale hfind | acknowledged_other hfind => exact hi.hset hfind _
  | acknowledged_again | acknowledged => exact .expire _ _ _

theorem reachable_indexed {limit : Nat} {allowed : World → Op → Prop} {w : World}
    (hlimit : limit ≤ lua.MAX_EXACT) (hw : Reachable (storeSystem store limit allowed) w)
    (i : String) : Indexed w.now (w.entry i) := by
  apply (entry_invariant (I := fun now _ e => Indexed now e) ?_ ?_ ?_ hw).2 i
  · intro now i
    exact .of_gone rfl
  · intro now later i e hle _ hi k hk hfind
    apply hi k hk
    intro hgone
    exact hfind (get_none_later hle hgone)
  · intro w op i e hnow _ hi heffect
    exact heffect.indexed (Nat.lt_of_lt_of_le hnow hlimit) hi

/-! ## New runs -/

/-- The call makes the run when it does not exist. -/
def Op.makes : Op → String → Prop
  | .register_run window _, i => window.run_id = i
  | .ingest result, i => result.run_id = i
  | _, _ => False

theorem Entry.prune_active (h : (e.prune now).active.isSome = true) : e.active.isSome = true := by
  cases hactive : e.active with
  | none => simp [Entry.prune, hactive] at h
  | some score => rfl

/-- Only a call that makes a run adds it to the active runs. -/
theorem Effect.active_old (heffect : Effect store now i op e e') (hi : Indexed now e)
    (hactive : e'.active.isSome = true) :
    e.active.isSome = true ∨ (e.find now = none ∧ op.makes i) := by
  cases heffect with
  | idle | cleaned => exact .inl hactive
  | pruned => exact .inl (Entry.prune_active hactive)
  | registered hargs hrun _ hgone =>
    exact .inr ⟨hgone, (register_args_ok hargs).1.symm.trans hrun⟩
  | first hargs hrun hgone =>
    exact .inr ⟨hgone, (RedisRunAggregationStore.ingest_args_ok hargs).run_id.symm.trans hrun⟩
  | forgotten | absent => cases hactive
  | registered_again hfind | duplicate _ _ hfind | rejected _ _ hfind | accepted _ _ hfind
  | timed_out hfind | finalized hfind | touched hfind | acknowledged_stale hfind
  | acknowledged_other hfind | acknowledged_again hfind | acknowledged hfind =>
    exact .inl (hi.active hfind)

end indexed

section capacity

variable {store : RedisRunAggregationStore} {w : World} {i : String} {op : Op}

theorem zcard_prune (w : World) : zcard w.prune.active ≤ zcard w.active := by
  apply zcard_le
  intro m hm
  have hentry := congrArg Entry.active (World.entry_prune w m)
  change zscore w.prune.active m = _ at hentry
  rw [hentry] at hm
  exact Entry.prune_active hm

theorem zcard_zadd (z : SortedSet) (score : Nat) (member : String) :
    zcard (zadd z score member) ≤ zcard z + 1 := by
  apply zcard_le_succ member
  intro m hm
  rw [zscore_zadd] at hm
  by_cases h : m = member
  · exact .inl h
  · rw [if_neg h] at hm
    exact .inr hm

theorem zcard_accept (a : IngestArgs) (w : World) (h : RunHash) :
    zcard (accept a w h).2.active ≤ zcard w.active + 1 := by
  apply zcard_le_succ a.run_id
  intro m hm
  have hentry := congrArg Entry.active (entry_accept a w h m)
  change zscore (accept a w h).2.active m = _ at hentry
  by_cases heq : m = a.run_id
  · exact .inl heq
  · rw [if_neg heq] at hentry
    rw [hentry] at hm
    exact .inr hm

theorem register_args_max {config : AggregationRegistrationConfig} {window : DispatchWindow}
    {load_duration : Nat} {a : RegisterArgs}
    (h : register_args config window load_duration = .ok a) :
    a.max_active = config.max_active_runs := by
  simp only [register_args, bind_eq_ok] at h
  obtain ⟨_, -, _, -, _, -, _, -, _, -, _, -, _, -, ha⟩ := h
  cases ha
  rfl

/-- A call makes a run only when there is a place for it. -/
theorem makes_within (hgone : w.find i = none) (hmakes : op.makes i) :
    zcard (w.step store op).active ≤ max (zcard w.active) store.max_active_runs := by
  have hpruned := zcard_prune w
  cases op with
  | register_run window load_duration =>
    cases hargs : register_args store.registration window load_duration with
    | error e =>
      simp only [World.step, register_run, hargs]
      omega
    | ok a =>
      obtain ⟨hrun, -⟩ := register_args_ok hargs
      have hmax : a.max_active = store.max_active_runs := register_args_max hargs
      have hrun : a.run_id = i := hrun.trans hmakes
      simp only [World.step, register_run, hargs, register_script, hrun, hgone]
      split
      · dsimp only
        omega
      split
      · dsimp only
        omega
      · rename_i hfree
        have hadd := zcard_zadd w.prune.active (w.now + a.retention_ms) i
        change zcard (zadd w.prune.active (w.now + a.retention_ms) i) ≤ _
        omega
  | ingest result =>
    cases hargs : store.ingest_args result with
    | error e =>
      simp only [World.step, RedisRunAggregationStore.ingest, hargs]
      omega
    | ok a =>
      have ha := RedisRunAggregationStore.ingest_args_ok hargs
      have hrun : a.run_id = i := ha.run_id.trans hmakes
      have hmax := ha.max_active_runs
      have hcases := ingest_script_cases a w
      change zcard (store.ingest result w).2.active ≤ _
      rw [ingest_of_args hargs]
      generalize ingest_script a w = outcome at hcases
      cases hcases with
      | refused =>
        dsimp only
        omega
      | full | overflow =>
        dsimp only
        omega
      | first _ hfree =>
        have haccept := zcard_accept a { w.prune with
          deadlines := zadd w.prune.deadlines (w.now + a.partial_timeout_ms) a.run_id }
            (first_hash a w.now)
        dsimp only at haccept ⊢
        omega
      | conflict hfind | unset hfind | bound hfind =>
        rw [hrun, hgone] at hfind
        cases hfind
  | mark_expired | finalize_run | acknowledge_summary | clean_outbox | wait => exact hmakes.elim

theorem step_within (hi : ∀ i, Indexed w.now (w.entry i)) (op : Op) :
    zcard (w.step store op).active ≤ max (zcard w.active) store.max_active_runs := by
  by_cases hnew : ∃ i, w.find i = none ∧ op.makes i
  · obtain ⟨i, hgone, hmakes⟩ := hnew
    exact makes_within hgone hmakes
  · have hle : zcard (w.step store op).active ≤ zcard w.active := by
      apply zcard_le
      intro m hm
      rcases (step_effect store w op m).active_old (hi m) hm with hold | hmade
      · exact hold
      · exact absurd ⟨m, hmade⟩ hnew
    omega

end capacity

/-- Before the last exact time, there are no more runs than the capacity, each is among the active
runs up to its expiry at least, and there are no more active runs than the capacity. -/
theorem live_runs_are_bounded {store : RedisRunAggregationStore} {limit : Nat} {w : World}
    (hlimit : limit ≤ lua.MAX_EXACT)
    (hw : Reachable (storeSystem store limit fun _ _ => True) w) :
    (∀ runs : List String, runs.Nodup → (∀ i ∈ runs, w.find i ≠ none) →
      runs.length ≤ store.max_active_runs) ∧
    (∀ i k, w.runs i = some k → w.find i ≠ none → ∃ score, zscore w.active i = some score ∧
      (∀ t, k.expires_at = some t → t ≤ score) ∧ (k.expires_at = none → score = lua.MAX_EXACT)) ∧
    zcard w.active ≤ store.max_active_runs := by
  have hindexed := reachable_indexed hlimit hw
  have hcard : zcard w.active ≤ store.max_active_runs := by
    have hinv := Reachable.invariant (S := storeSystem store limit fun _ _ => True)
      (I := fun w => Reachable (storeSystem store limit fun _ _ => True) w ∧
        zcard w.active ≤ store.max_active_runs) ?_ ?_ hw
    · exact hinv.2
    · rintro w ⟨now, hnow, rfl⟩
      exact ⟨reachable_start hnow, Nat.zero_le _⟩
    · rintro w op ⟨hreach, hle⟩ hallowed
      have hwithin : zcard (w.step store op).active ≤ _ :=
        step_within (reachable_indexed hlimit hreach) op
      rw [Nat.max_eq_right hle] at hwithin
      exact ⟨hreach.step hallowed, hwithin⟩
  refine ⟨?_, ?_, hcard⟩
  · intro runs hnodup hexist
    refine Nat.le_trans (length_le_zcard hnodup ?_) hcard
    intro i hi
    obtain ⟨h, hfind⟩ := Option.ne_none_iff_exists'.mp (hexist i hi)
    exact (hindexed i).active hfind
  · intro i k hk hfind
    refine ⟨_, hindexed i k hk hfind, ?_, ?_⟩
    · intro t ht
      rw [ht]
      exact le_rfl
    · intro hnone
      rw [hnone]
      rfl

/-- A store with room for one run. -/
def narrowStore : RedisRunAggregationStore :=
  { defaultStore with max_active_runs := 1, active_runs_limit := by decide }

def secondWindow : DispatchWindow := ⟨"checkout", "run-2", 0, 2, 1⟩

theorem live_runs_are_bounded_by_one :
    (narrowStore.ingest singleResult (.start 0)).1.isOk = true ∧
      (register_run (some narrowStore.registration) secondWindow 0
        ((World.start 0).step narrowStore (.ingest singleResult))).1.isOk = false ∧
      zcard ((World.start 0).step narrowStore (.ingest singleResult)).active ≤ 1 := by
  have hstart : Reachable (storeSystem narrowStore lua.MAX_EXACT fun _ _ => True) (.start 0) :=
    reachable_start (by decide)
  have hw := hstart.step (e := .ingest singleResult) ⟨trivial, by decide +kernel⟩
  exact ⟨by decide +kernel, by decide +kernel, (live_runs_are_bounded le_rfl hw).2.2⟩

/-- At the last exact time, the score of a run that does not expire is pruned, and its place is
given to another run. -/
theorem two_runs_in_one_place :
    let w := [Op.ingest singleResult, .wait lua.MAX_EXACT, .register_run secondWindow 0].foldl
      (.step narrowStore) (.start 0)
    Reachable (storeSystem narrowStore (lua.MAX_EXACT + 1) fun _ _ => True) w ∧
      narrowStore.max_active_runs = 1 ∧ w.find "run-1" ≠ none ∧ w.find "run-2" ≠ none ∧
      zscore w.active "run-1" = none := by
  intro w
  have hw : Reachable (storeSystem narrowStore (lua.MAX_EXACT + 1) fun _ _ => True) w := by
    apply Reachable.foldl (reachable_start (by decide))
    exact ⟨⟨trivial, by decide +kernel⟩, ⟨trivial, by decide +kernel⟩, ⟨trivial, by decide +kernel⟩,
      trivial⟩
  refine ⟨hw, rfl, ?_, ?_, by decide +kernel⟩
  · exact Option.isSome_iff_ne_none.mp (by decide +kernel)
  · exact Option.isSome_iff_ne_none.mp (by decide +kernel)

end pulse.aggregation
