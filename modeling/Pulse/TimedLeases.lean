-- Leases under two clocks. The server that keeps a lease reads its own clock
-- in milliseconds; a holder measures with the monotonic clock of its process
-- from the moment it sent the request. The clocks run at one rate and start
-- anywhere, and a request may take any time on its way and back.
import Pulse.Systems
import Mathlib.Tactic.Common

open systems

namespace timed_leases

/-- What a call did for its caller: it has the lease for `ttl` nanoseconds from now, it has given
the lease up, or nothing. -/
inductive Verdict
  | accepted (ttl : Nat)
  | closed
  | refused
deriving DecidableEq, Repr

/-- A cell that keeps one lease. `holder` is the token that has it at a time, and the time to
which it has it. -/
structure LeaseCell (κ α : Type) where
  ttl_ms : Nat
  actor : α → String
  run : Nat → α → κ → Verdict × κ
  holder : Nat → κ → Option (String × Nat)

variable {κ α : Type}

/-- The laws of a cell, in the states that are `sound` and at the times that `fit`. -/
structure Lawful (C : LeaseCell κ α) (sound : Nat → κ → Prop) (fits : Nat → Prop) : Prop where
  sound_run : ∀ {now a k}, sound now k → fits now → sound now (C.run now a k).2
  sound_later : ∀ {now later k}, sound now k → now ≤ later → sound later k
  /-- A lease lasts for its time. -/
  holder_later : ∀ {now later k token until_ms}, sound now k →
    C.holder now k = some (token, until_ms) → now ≤ later → later < until_ms →
    C.holder later k = some (token, until_ms)
  /-- No lease is longer than the time to live. -/
  holder_le : ∀ {now k token until_ms}, sound now k →
    C.holder now k = some (token, until_ms) → until_ms ≤ now + C.ttl_ms
  /-- A call that has the lease has it for the time to live. -/
  holder_accepted : ∀ {now a k ttl}, sound now k → fits now → (C.run now a k).1 = .accepted ttl →
    ttl = C.ttl_ms * 1000000 ∧
      C.holder now (C.run now a k).2 = some (C.actor a, now + C.ttl_ms)
  /-- Nobody else ends a lease, and a refused call changes none. -/
  holder_kept : ∀ {now a k token until_ms}, sound now k →
    C.holder now k = some (token, until_ms) →
    C.actor a ≠ token ∨ (C.run now a k).1 = .refused →
    C.holder now (C.run now a k).2 = some (token, until_ms)

/-! ## The timed system -/

/-- A request, and what the clock of its process said when it was sent. -/
structure Request (α : Type) where
  action : α
  started : Nat
deriving DecidableEq

/-- Time is in nanoseconds. The clock of a process shows the time and its `clock`, the server the
time and `redis`. -/
structure World (κ α : Type) where
  time : Nat
  redis : Nat
  clock : String → Nat
  cell : κ
  /-- The requests that were sent. -/
  sent : List (Request α)
  /-- The calls that got the lease, with the time to live in the answer. -/
  accepted : List (Request α × Nat)
  /-- The tokens whose answer arrived, with their local deadline. -/
  held : List (String × Nat)
  /-- The tokens that gave the lease up. -/
  closed : List String

inductive Event (α : Type)
  | tick (ns : Nat)
  | send (action : α)
  | execute (request : Request α)
  | answer (request : Request α) (ttl : Nat)

namespace World

def now_ms (w : World κ α) : Nat := (w.time + w.redis) / 1000000

/-- What the clock of the token's process shows. -/
def instant (w : World κ α) (token : String) : Nat := w.time + w.clock token

def next (C : LeaseCell κ α) (deadline : Nat → Nat → Nat) (w : World κ α) : Event α → World κ α
  | .tick ns => { w with time := w.time + ns }
  | .send action => { w with sent := ⟨action, w.instant (C.actor action)⟩ :: w.sent }
  | .execute request =>
    match C.run w.now_ms request.action w.cell with
    | (.accepted ttl, cell) => { w with cell, accepted := (request, ttl) :: w.accepted }
    | (.closed, cell) => { w with cell, closed := C.actor request.action :: w.closed }
    | (.refused, cell) => { w with cell }
  | .answer request ttl =>
    { w with held := (C.actor request.action, deadline request.started ttl) :: w.held }

end World

/-- Any number of processes with their requests. A call runs when it was sent, at a time that
fits, and its answer arrives after it ran or not at all. -/
def timedSystem (C : LeaseCell κ α) (empty : κ → Prop) (fits : Nat → Prop)
    (deadline : Nat → Nat → Nat) : System (World κ α) (Event α) where
  initial w := empty w.cell ∧ w.sent = [] ∧ w.accepted = [] ∧ w.held = []
  allowed w
    | .tick _ => True
    | .send _ => True
    | .execute request => request ∈ w.sent ∧ fits w.now_ms
    | .answer request ttl => (request, ttl) ∈ w.accepted
  next := .next C deadline

/-! ## A local deadline is covered -/

variable {C : LeaseCell κ α} {sound : Nat → κ → Prop} {fits : Nat → Prop}
  {deadline : Nat → Nat → Nat} {empty : κ → Prop} {w : World κ α}

/-- The token gave the lease up, its deadline has passed, or it has the lease beyond the
deadline. -/
def Covered (C : LeaseCell κ α) (w : World κ α) (token : String) (limit : Nat) : Prop :=
  token ∈ w.closed ∨ limit ≤ w.instant token ∨
    ∃ until_ms, C.holder w.now_ms w.cell = some (token, until_ms) ∧
      limit + w.redis ≤ until_ms * 1000000 + w.clock token

/-- A deadline that keeps a millisecond in reserve, counted from when the request was sent. -/
def Conservative (C : LeaseCell κ α) (deadline : Nat → Nat → Nat) : Prop :=
  ∀ started, deadline started (C.ttl_ms * 1000000) ≤ started ∨
    deadline started (C.ttl_ms * 1000000) + 1000000 ≤ started + C.ttl_ms * 1000000

structure Good (C : LeaseCell κ α) (sound : Nat → κ → Prop) (deadline : Nat → Nat → Nat)
    (w : World κ α) : Prop where
  sound : sound w.now_ms w.cell
  sent : ∀ r ∈ w.sent, r.started ≤ w.instant (C.actor r.action)
  accepted : ∀ p ∈ w.accepted, Covered C w (C.actor p.1.action) (deadline p.1.started p.2)
  held : ∀ p ∈ w.held, Covered C w p.1 p.2

theorem now_ms_tick (w : World κ α) (ns : Nat) :
    w.now_ms ≤ { w with time := w.time + ns }.now_ms := by
  simp only [World.now_ms]
  omega

variable {token : String}

theorem Covered.tick (hlaw : Lawful C sound fits) (hs : sound w.now_ms w.cell) {limit : Nat}
    (ns : Nat) (h : Covered C w token limit) :
    Covered C { w with time := w.time + ns } token limit := by
  rcases h with hclosed | hpassed | ⟨until_ms, hholder, hle⟩
  · exact .inl hclosed
  · right; left
    simp only [World.instant] at *
    omega
  · by_cases hpassed : limit ≤ { w with time := w.time + ns }.instant token
    · exact .inr (.inl hpassed)
    · refine .inr (.inr ⟨until_ms, ?_, hle⟩)
      refine hlaw.holder_later hs hholder (now_ms_tick w ns) ?_
      simp only [World.instant, World.now_ms] at *
      omega

/-- A call leaves every deadline covered: it ends only the lease of its own token, and when it
accepts, the new lease lasts at least as long as the old one. -/
theorem Covered.execute (deadline : Nat → Nat → Nat) (hlaw : Lawful C sound fits)
    (hs : sound w.now_ms w.cell) (hfits : fits w.now_ms) {limit : Nat} (r : Request α)
    (h : Covered C w token limit) : Covered C (w.next C deadline (.execute r)) token limit := by
  rcases h with hclosed | hpassed | ⟨until_ms, hholder, hle⟩
  · left
    simp only [World.next]
    split <;> simp [hclosed]
  · right; left
    simp only [World.next]
    split <;> exact hpassed
  · have hkept := fun h => hlaw.holder_kept (a := r.action) hs hholder h
    have hle_ttl := hlaw.holder_le hs hholder
    simp only [World.next]
    split <;> rename_i hrun <;> rw [hrun] at hkept
    · by_cases hactor : C.actor r.action = token
      · have hnew := (hlaw.holder_accepted hs hfits (by rw [hrun])).2
        rw [hrun, hactor] at hnew
        have hlonger := Nat.add_le_add_right (Nat.mul_le_mul_right 1000000 hle_ttl) (w.clock token)
        exact .inr (.inr ⟨w.now_ms + C.ttl_ms, hnew, Nat.le_trans hle hlonger⟩)
      · exact .inr (.inr ⟨until_ms, hkept (.inl hactor), hle⟩)
    · by_cases hactor : C.actor r.action = token
      · exact .inl (by simp [hactor])
      · exact .inr (.inr ⟨until_ms, hkept (.inl hactor), hle⟩)
    · exact .inr (.inr ⟨until_ms, hkept (.inr rfl), hle⟩)

/-- The call that gets the lease covers its own deadline. -/
theorem covered_accepted (ttl : Nat) (hlaw : Lawful C sound fits)
    (hconservative : Conservative C deadline)
    (hs : sound w.now_ms w.cell) (hfits : fits w.now_ms) {r : Request α}
    (hstarted : r.started ≤ w.instant (C.actor r.action))
    (hrun : (C.run w.now_ms r.action w.cell).1 = .accepted ttl) :
    Covered C { w with cell := (C.run w.now_ms r.action w.cell).2 } (C.actor r.action)
      (deadline r.started ttl) := by
  obtain ⟨httl, hholder⟩ := hlaw.holder_accepted hs hfits hrun
  rw [httl]
  rcases hconservative r.started with hpassed | hle
  · right; left
    exact Nat.le_trans hpassed hstarted
  · right; right
    refine ⟨_, hholder, ?_⟩
    simp only [World.instant, World.now_ms] at *
    omega

theorem good_initial (hempty : ∀ now k, empty k → sound now k) (w : World κ α)
    (h : (timedSystem C empty fits deadline).initial w) : Good C sound deadline w := by
  obtain ⟨hcell, hsent, haccepted, hheld⟩ := h
  refine ⟨hempty _ _ hcell, ?_, ?_, ?_⟩
  · simp [hsent]
  · simp [haccepted]
  · simp [hheld]

theorem good_next (hlaw : Lawful C sound fits) (hconservative : Conservative C deadline)
    (e : Event α) (hg : Good C sound deadline w)
    (ha : (timedSystem C empty fits deadline).allowed w e) :
    Good C sound deadline ((timedSystem C empty fits deadline).next w e) := by
  simp only [timedSystem] at ha ⊢
  cases e with
  | tick ns =>
    refine ⟨hlaw.sound_later hg.sound (now_ms_tick w ns), ?_, ?_, ?_⟩
    · intro r hr
      have := hg.sent r hr
      simp only [World.next, World.instant] at *
      omega
    · exact fun p hp => (hg.accepted p hp).tick hlaw hg.sound ns
    · exact fun p hp => (hg.held p hp).tick hlaw hg.sound ns
  | send action =>
    refine ⟨hg.sound, ?_, hg.accepted, hg.held⟩
    intro r hr
    rcases List.mem_cons.mp hr with rfl | hr
    · exact Nat.le_refl _
    · exact hg.sent r hr
  | execute r =>
    obtain ⟨hmem, hfits⟩ := ha
    have hold := fun {token limit} (h : Covered C w token limit) =>
      h.execute deadline hlaw hg.sound hfits r
    have hnew := fun ttl => covered_accepted ttl hlaw hconservative hg.sound hfits (hg.sent r hmem)
    have hsound := hlaw.sound_run (a := r.action) hg.sound hfits
    simp only [World.next] at hold ⊢
    split <;> rename_i hrun <;> rw [hrun] at hsound <;> simp only [hrun] at hold hnew
    · refine ⟨hsound, hg.sent, ?_, fun p hp => hold (hg.held p hp)⟩
      intro p hp
      rcases List.mem_cons.mp hp with rfl | hp
      · exact hnew _ rfl
      · exact hold (hg.accepted p hp)
    all_goals
      exact ⟨hsound, hg.sent, fun p hp => hold (hg.accepted p hp), fun p hp => hold (hg.held p hp)⟩
  | answer r ttl =>
    refine ⟨hg.sound, hg.sent, hg.accepted, ?_⟩
    intro p hp
    rcases List.mem_cons.mp hp with rfl | hp
    · exact hg.accepted (r, ttl) ha
    · exact hg.held p hp

/-- The token is before a local deadline, and did not give the lease up. -/
def Valid (w : World κ α) (token : String) : Prop :=
  token ∉ w.closed ∧ ∃ limit, (token, limit) ∈ w.held ∧ w.instant token < limit

/-- A token that is valid in its process has the lease. -/
theorem holder_before_deadline (hlaw : Lawful C sound fits)
    (hconservative : Conservative C deadline) (hempty : ∀ now k, empty k → sound now k)
    (hw : Reachable (timedSystem C empty fits deadline) w) (hvalid : Valid w token) :
    ∃ until_ms, C.holder w.now_ms w.cell = some (token, until_ms) := by
  have hg := hw.invariant (good_initial hempty)
    (fun _ e hg ha => good_next hlaw hconservative e hg ha)
  obtain ⟨hopen, limit, hheld, hbefore⟩ := hvalid
  rcases hg.held _ hheld with hclosed | hpassed | ⟨until_ms, hholder, -⟩
  · exact absurd hclosed hopen
  · exact absurd hpassed (Nat.not_le.mpr hbefore)
  · exact ⟨until_ms, hholder⟩

/-- Two tokens are never both valid. -/
theorem one_token_before_deadline (hlaw : Lawful C sound fits)
    (hconservative : Conservative C deadline) (hempty : ∀ now k, empty k → sound now k)
    (hw : Reachable (timedSystem C empty fits deadline) w) {a b : String} (ha : Valid w a)
    (hb : Valid w b) : a = b := by
  obtain ⟨_, h₁⟩ := holder_before_deadline hlaw hconservative hempty hw ha
  obtain ⟨_, h₂⟩ := holder_before_deadline hlaw hconservative hempty hw hb
  rw [h₁] at h₂
  exact congrArg Prod.fst (Option.some.inj h₂)

end timed_leases
