-- The offered load of a run: the grants of a token bucket follow its rate in
-- every window, and so do the launches of `run_once`. Its window begins when the
-- clock is read after the bucket is made, and the time between adds to the load.
import Pulse.RunnerAccounting

open systems
open pulse.planning pulse.rate_limiter

namespace pulse.runner

/-! ## Grants and launches -/

section grants

variable {limiter : Limiter} {made : TokenBucket}

theorem reachable_next (h : Reachable (limiters made) limiter) (event : rate_limiter.Event)
    (hallowed : limiter.allowed event) : Reachable (limiters made) (limiter.next event) :=
  h.step hallowed

/-- A poll that returns is a grant. -/
theorem granted_poll (h : (limiter.bucket.poll limiter.acquire limiter.clock).2 = none) :
    (limiter.next .poll).granted = limiter.clock :: limiter.granted := by
  change limiter.poll.granted = _
  unfold Limiter.poll
  split
  · rename_i heq
    rw [heq] at h
    cases h
  · rfl

/-- No grant is taken back. -/
theorem within_le_next (limiter : Limiter) (event : rate_limiter.Event) (first last : Nat) :
    limiter.within first last ≤ (limiter.next event).within first last := by
  have hgrants : limiter.granted <:+ (limiter.next event).granted := by
    cases event with
    | advance now => exact List.suffix_refl _
    | drop => exact List.suffix_refl _
    | poll =>
      change limiter.granted <:+ limiter.poll.granted
      rcases limiter.poll_cases with heq | ⟨acquire, heq⟩ | ⟨-, heq⟩
      · rw [heq]
      · rw [heq]
      · rw [heq]
        exact List.suffix_cons _ _
  exact hgrants.sublist.countP_le

theorem within_granted_poll (h : (limiter.bucket.poll limiter.acquire limiter.clock).2 = none)
    {first last : Nat} (hfirst : first ≤ limiter.clock) (hlast : limiter.clock ≤ last) :
    (limiter.next .poll).within first last = limiter.within first last + 1 := by
  unfold Limiter.within
  rw [granted_poll h, List.countP_cons_of_pos (by simp [hfirst, hlast])]

end grants

/-- Each launch has a grant before the deadline. -/
structure Paced (config : RunnerConfig) (made : TokenBucket) (launch_start : Nat)
    (runner : Runner) :
    Prop where
  limiter : Reachable (limiters made) runner.limiter
  begins : runner.launch_start = launch_start
  launched : runner.launched ≤
    runner.limiter.within made.last_refill (launch_start + config.duration)
  acquired : runner.place = .Acquired → runner.now < launch_start + config.duration →
    runner.launched + 1 ≤ runner.limiter.within made.last_refill (launch_start + config.duration)

section launches

variable {scenario : Scenario} {config : RunnerConfig} {made : TokenBucket} {launch_start : Nat}
  {runner runner' : Runner}

theorem paced_start (hstart : made.last_refill ≤ launch_start) :
    Paced config made launch_start (.start config made launch_start) where
  limiter := reachable_next (.initial rfl) (.advance launch_start) hstart
  begins := rfl
  launched := Nat.zero_le _
  acquired hplace := by cases hplace

variable {place : Place}

/-- The bucket takes a step, and the loop does not get a token by it. -/
theorem Paced.limit (h : Paced config made launch_start runner) (event : rate_limiter.Event)
    (hallowed : runner.limiter.allowed event) (hplace : place ≠ .Acquired) :
    Paced config made launch_start { runner with place, limiter := runner.limiter.next event } where
  limiter := reachable_next h.limiter event hallowed
  begins := h.begins
  launched := h.launched.trans (within_le_next _ _ _ _)
  acquired hacquired := absurd hacquired hplace

/-- The loop moves on without the bucket, and does not get a token. -/
theorem Paced.move (h : Paced config made launch_start runner) (hplace : place ≠ .Acquired) :
    Paced config made launch_start { runner with place } where
  limiter := h.limiter
  begins := h.begins
  launched := h.launched
  acquired hacquired := absurd hacquired hplace

theorem Paced.moves (hmade : made.Sound) (h : Paced config made launch_start runner) {event : Event}
    {limiter : Limiter} (hmove : Moves config runner event place limiter) :
    Paced config made launch_start { runner with place, limiter } := by
  cases hmove with
  | reaped | room_late | gate_late | launch_late => exact h.move nofun
  | room | acquire_late => exact h.limit .drop trivial nofun
  | waits => exact h.limit .poll trivial nofun
  | acquires hplace hacquire =>
    have hsound := sound_of_reachable hmade h.limiter
    exact
      { limiter := reachable_next h.limiter .poll trivial
        begins := h.begins
        launched := h.launched.trans (within_le_next _ _ _ _)
        acquired := by
          intro _ hearly
          -- the clock has not moved since the grant
          have hnow : runner.limiter.clock ≤ launch_start + config.duration := by
            have hclock : (runner.limiter.next .poll).clock = runner.limiter.clock := by
              change runner.limiter.poll.clock = _
              rcases runner.limiter.poll_cases with heq | ⟨acquire, heq⟩ | ⟨-, heq⟩ <;> rw [heq]
            rw [← hclock]
            exact hearly.le
          dsimp only
          rw [within_granted_poll hacquire (hsound.created.trans hsound.refilled) hnow]
          exact Nat.add_le_add_right h.launched 1 }

theorem Paced.step (hmade : made.Sound) (h : Paced config made launch_start runner) {event : Event}
    (hstep : runner.step scenario config event = some runner') :
    Paced config made launch_start runner' := by
  rcases step_cases hstep with ⟨now, rfl, hnow, rfl⟩ | ⟨index, task, rfl, htask⟩ |
    ⟨index, rfl, hjoin⟩ | ⟨place, limiter, hmove, rfl⟩ | ⟨rfl, hplace, hearly, -, rfl⟩ |
    ⟨rfl, -, -, rfl⟩
  · -- a token that is there in time was there before
    exact
      { limiter := reachable_next h.limiter (.advance now) hnow
        begins := h.begins
        launched := h.launched
        acquired := fun hplace hearly => h.acquired hplace (hnow.trans_lt hearly) }
  · obtain ⟨_, _, _, _, -, -, -, rfl⟩ := step_task_cases htask
    exact { h with }
  · obtain ⟨_, limiter, -, -, hlimiter, rfl⟩ := join_cases hjoin
    rcases hlimiter with rfl | rfl
    · exact { h with }
    · exact
        { limiter := reachable_next h.limiter .drop trivial
          begins := h.begins
          launched := h.launched
          acquired := h.acquired }
  · exact h.moves hmade hmove
  · unfold Runner.launch_deadline at hearly
    rw [h.begins] at hearly
    exact
      { limiter := h.limiter
        begins := h.begins
        launched := h.acquired hplace hearly
        acquired := nofun }
  · exact h.move nofun

theorem paced_of_run (hmade : made.Sound) (hstart : made.last_refill ≤ launch_start)
    {events : List Event}
    (h : Run (run_once scenario config) (.start config made launch_start) events runner) :
    Paced config made launch_start runner := by
  refine Run.invariant (I := fun _ => Paced config made launch_start) (paced_start hstart) ?_ h
  intro events runner event hpaced hallowed
  exact hpaced.step hmade (step_next hallowed)

end launches

/-! ## The load -/

/-- The tokens that the bucket of a run begins with. -/
def RunnerConfig.initial_credit (config : RunnerConfig) : ℚ :=
  if 0 < config.startup_burst then config.startup_burst else 1 / 2

theorem RunnerConfig.sound_of_bucket {config : RunnerConfig} {created : Nat} {made : TokenBucket}
    (h : config.bucket created = some made) :
    made.Sound ∧ made.refill_per_sec = config.scenarios_per_sec ∧
      made.tokens = config.initial_credit ∧ made.last_refill = created := by
  unfold RunnerConfig.bucket at h
  unfold RunnerConfig.initial_credit
  by_cases hburst : 0 < config.startup_burst
  · rw [if_pos hburst] at h ⊢
    unfold TokenBucket.with_burst at h
    rw [if_pos hburst] at h
    obtain ⟨hsound, -, hrate, htokens, hcreated⟩ :=
      TokenBucket.sound_of_build_with_initial_tokens hburst h
    exact ⟨hsound, hrate, htokens, hcreated⟩
  · rw [if_neg hburst] at h ⊢
    obtain ⟨hsound, -, hrate, htokens, hcreated⟩ := TokenBucket.sound_of_build (le_refl 1) h
    exact ⟨hsound, hrate, htokens, hcreated⟩

/-- The launches of a run follow the rate from the creation of its bucket to its deadline. -/
theorem launched_le {scenario : Scenario} {config : RunnerConfig} {created launch_start : Nat}
    {made : TokenBucket} {events : List Event} {runner : Runner}
    (hmade : config.bucket created = some made) (hstart : created ≤ launch_start)
    (hrun : Run (run_once scenario config) (.start config made launch_start) events runner) :
    (runner.launched : ℚ) ≤ config.initial_credit +
      config.scenarios_per_sec * as_secs (config.duration + (launch_start - created)) := by
  obtain ⟨hsound, hrate, htokens, rfl⟩ := RunnerConfig.sound_of_bucket hmade
  have hpaced := paced_of_run hsound hstart hrun
  have hgrants := (funded_from_creation hsound hpaced.limiter).grants
    (launch_start + config.duration) (by omega)
  have hwindow : launch_start + config.duration - made.last_refill =
      config.duration + (launch_start - made.last_refill) := by omega
  rw [(sound_of_reachable hsound hpaced.limiter).rate, hrate, htokens, hwindow] at hgrants
  exact (Nat.cast_le.mpr hpaced.launched).trans hgrants

/-- However `acquire` is polled and dropped, the tokens stay in their bounds, and the grants of
every window follow the rate. So do the launches of a run, in the time from the creation of its
bucket to its deadline. -/
theorem offered_load_follows_the_rate :
    (∀ (r : ℚ) (c created : Nat) (initial : ℚ) (made : TokenBucket) (limiter : Limiter), 1 ≤ c →
      (TokenBucket.build r c created = some made ∧ initial = 1 / 2 ∨
        TokenBucket.build_with_initial_tokens r c created = some made ∧ initial = c) →
      Reachable (limiters made) limiter →
        0 ≤ limiter.bucket.tokens ∧ limiter.bucket.tokens ≤ c ∧
          (∀ t, (limiter.within 0 (created + t) : ℚ) ≤ initial + r * as_secs t) ∧
          ∀ first d, (limiter.within first (first + d) : ℚ) ≤ c + r * as_secs d) ∧
      ∀ (scenario : Scenario) (config : RunnerConfig) (created launch_start : Nat)
        (made : TokenBucket) (events : List Event) (runner : Runner),
        config.bucket created = some made → created ≤ launch_start →
        Run (run_once scenario config) (.start config made launch_start) events runner →
          (runner.launched : ℚ) ≤ config.initial_credit +
            config.scenarios_per_sec * as_secs (config.duration + (launch_start - created)) := by
  refine ⟨?_, ?_⟩
  · intro r c created initial made limiter hroom hbuilt hreachable
    have hmade : made.Sound ∧ made.capacity = c ∧ made.refill_per_sec = r ∧ made.tokens = initial ∧
        made.last_refill = created := by
      rcases hbuilt with ⟨hbuild, rfl⟩ | ⟨hbuild, rfl⟩
      · exact TokenBucket.sound_of_build hroom hbuild
      · exact TokenBucket.sound_of_build_with_initial_tokens hroom hbuild
    obtain ⟨hsound, hcapacity, rfl, rfl, rfl⟩ := hmade
    have hlimiter := sound_of_reachable hsound hreachable
    refine ⟨hlimiter.bucket.nonneg, ?_, ?_, ?_⟩
    · rw [← hcapacity, ← hlimiter.capacity]
      exact hlimiter.bucket.full
    · intro t
      have hgrants := (funded_from_creation hsound hreachable).grants
        (made.last_refill + t) (by omega)
      rw [hlimiter.rate, Nat.add_sub_cancel_left] at hgrants
      rw [within_creation_of_sound hlimiter]
      exact hgrants
    · intro first d
      have hgrants := (funded_from_instant hsound hreachable first).grants (first + d) (by omega)
      rw [hlimiter.rate, Nat.add_sub_cancel_left, hcapacity] at hgrants
      exact hgrants
  · intro scenario config created launch_start made events runner hmade hstart hrun
    exact launched_le hmade hstart hrun

theorem sample_load_follows_the_rate :
    (sampleEnd.launched : ℚ) ≤ 1 + 1 * as_secs (1000000000 + 0) := by
  have hbucket : sampleConfig.bucket 0 = some ⟨1, 1, 1, 0⟩ := by decide +kernel
  have hallowed : Allowed (run_once (sampleScenario 1000000000) sampleConfig)
      (.start sampleConfig ⟨1, 1, 1, 0⟩ 0) sampleEvents := by decide +kernel
  have hload := offered_load_follows_the_rate.2 _ _ 0 0 _ _ _ hbucket (le_refl 0)
    (.foldl hallowed)
  exact hload

/-- Half a second less a millisecond, paced. -/
def shortConfig : RunnerConfig where
  duration := 499000000
  scenarios_per_sec := 1
  max_concurrency := 1
  scenario_timeout := none
  startup_burst := 0

/-- The clock moves on by two milliseconds before the window begins, so that the first token comes
before its end. -/
theorem the_first_token_of_a_short_window_is_launched :
    ∃ (made : TokenBucket) (events : List Event) (runner : Runner),
      shortConfig.bucket 0 = some made ∧
        Run (run_once (sampleScenario 499000000) shortConfig) (.start shortConfig made 2000000)
          events runner ∧
        shortConfig.initial_credit + shortConfig.scenarios_per_sec * as_secs shortConfig.duration <
          runner.launched := by
  have hallowed : Allowed (run_once (sampleScenario 499000000) shortConfig)
      (.start shortConfig ⟨1, 1, 1 / 2, 0⟩ 2000000)
      [.reaped, .room, .poll, .advance 500000000, .poll, .launch] := by decide +kernel
  exact ⟨_, _, _, by decide +kernel, Run.foldl hallowed, by decide +kernel⟩

end pulse.runner
