-- The token bucket that paces the starts of a run (application/rate_limiter.rs),
-- with exact rational tokens. A caller polls the future of `acquire` at any
-- instants and may drop it: no credit is lost and none is counted twice.
import Pulse.Doubles
import Pulse.Durations
import Pulse.Systems
import Mathlib.Data.Rat.Floor
import Mathlib.Algebra.Order.Ring.Rat
import Mathlib.Tactic.Linarith

open durations systems

namespace pulse.rate_limiter

/-! ## The model -/

/-- The seconds of a duration, without rounding. -/
def as_secs (duration : Nat) : ℚ := duration / 10 ^ 9

/-- The duration of some seconds, to the nearest nanosecond. -/
def from_secs (secs : ℚ) : Nat := (floats.nearest (secs * 10 ^ 9)).toNat

structure TokenBucket where
  capacity : ℚ
  refill_per_sec : ℚ
  tokens : ℚ
  last_refill : Nat
deriving DecidableEq

namespace TokenBucket

/-- A failed assertion gives no bucket. -/
def build (scenarios_per_sec : ℚ) (burst_capacity now : Nat) : Option TokenBucket :=
  if 0 < scenarios_per_sec then
    some
      { capacity := burst_capacity
        refill_per_sec := scenarios_per_sec
        -- the first arrival lies in the middle of its interval
        tokens := 1 / 2
        last_refill := now }
  else none

def build_with_initial_tokens (scenarios_per_sec : ℚ) (burst_capacity now : Nat) :
    Option TokenBucket :=
  (build scenarios_per_sec burst_capacity now).map fun bucket =>
    { bucket with tokens := bucket.capacity }

def new (scenarios_per_sec : ℚ) (now : Nat) : Option TokenBucket := build scenarios_per_sec 1 now

def with_burst (scenarios_per_sec : ℚ) (burst_capacity now : Nat) : Option TokenBucket :=
  if 0 < burst_capacity then build_with_initial_tokens scenarios_per_sec burst_capacity now
  else none

def refill (bucket : TokenBucket) (now : Nat) : TokenBucket :=
  let elapsed := as_secs (now - bucket.last_refill)
  { bucket with
    last_refill := now
    tokens := min (bucket.tokens + elapsed * bucket.refill_per_sec) bucket.capacity }

/-- How long `acquire` sleeps before it looks again. -/
def wait (bucket : TokenBucket) : Nat :=
  max (from_secs ((1 - bucket.tokens) / bucket.refill_per_sec)) 1

end TokenBucket

/-- Where the future of `acquire` stands: before a turn of its loop, or asleep in one. -/
inductive Acquire
  | Turn
  | Asleep (wake : Nat)
deriving DecidableEq, Repr

def Acquire.sleeps (acquire : Acquire) (now : Nat) : Prop :=
  match acquire with
  | .Turn => False
  | .Asleep wake => now < wake

instance (acquire : Acquire) (now : Nat) : Decidable (acquire.sleeps now) :=
  match acquire with
  | .Turn => inferInstanceAs (Decidable False)
  | .Asleep wake => inferInstanceAs (Decidable (now < wake))

/-- One poll of `acquire`: the bucket and where the future stands, or nothing when it returns. -/
def TokenBucket.poll (bucket : TokenBucket) (acquire : Acquire) (now : Nat) :
    TokenBucket × Option Acquire :=
  if acquire.sleeps now then (bucket, some acquire)
  else
    let bucket := bucket.refill now
    if 1 ≤ bucket.tokens then ({ bucket with tokens := bucket.tokens - 1 }, none)
    else (bucket, some (.Asleep (now + bucket.wait)))

/-! ## The caller -/

/-- A bucket with its caller: the clock, the future that is polled and the instants at which
one returned, the last one first. -/
structure Limiter where
  clock : Nat
  bucket : TokenBucket
  acquire : Acquire
  granted : List Nat

inductive Event
  /-- Time passes. -/
  | advance (now : Nat)
  | poll
  /-- The future is dropped; the next poll is the first one of another. -/
  | drop
deriving DecidableEq, Repr

namespace Limiter

/-- The caller of a bucket that was just made. -/
def start (bucket : TokenBucket) : Limiter := ⟨bucket.last_refill, bucket, .Turn, []⟩

def poll (limiter : Limiter) : Limiter :=
  match limiter.bucket.poll limiter.acquire limiter.clock with
  | (bucket, some acquire) => { limiter with bucket, acquire }
  | (bucket, none) =>
    -- the caller calls `acquire` again
    { limiter with bucket, acquire := .Turn, granted := limiter.clock :: limiter.granted }

def next (limiter : Limiter) : Event → Limiter
  | .advance now => { limiter with clock := now }
  | .poll => limiter.poll
  | .drop => { limiter with acquire := .Turn }

def allowed (limiter : Limiter) : Event → Prop
  | .advance now => limiter.clock ≤ now
  | .poll | .drop => True

instance (limiter : Limiter) (event : Event) : Decidable (limiter.allowed event) := by
  cases event <;> unfold allowed <;> infer_instance

/-- The grants from one instant on. -/
def since (limiter : Limiter) (first : Nat) : Nat := limiter.granted.countP (first ≤ ·)

/-- The grants of an interval, with both its ends. -/
def within (limiter : Limiter) (first last : Nat) : Nat :=
  limiter.granted.countP fun granted => first ≤ granted ∧ granted ≤ last

end Limiter

/-- The callers of one bucket. -/
def limiters (bucket : TokenBucket) : System Limiter Event where
  initial limiter := limiter = .start bucket
  allowed := Limiter.allowed
  next := .next

/-! ## One poll -/

theorem as_secs_nonneg (duration : Nat) : 0 ≤ as_secs duration := by
  unfold as_secs
  positivity

theorem as_secs_add (a b : Nat) : as_secs (a + b) = as_secs a + as_secs b := by
  unfold as_secs
  push_cast
  ring

theorem as_secs_mono {a b : Nat} (h : a ≤ b) : as_secs a ≤ as_secs b := by
  rw [← Nat.add_sub_cancel' h, as_secs_add]
  exact le_add_of_nonneg_right (as_secs_nonneg _)

/-- A bucket with a positive rate and room for a token, whose tokens are in its bounds. -/
structure TokenBucket.Sound (bucket : TokenBucket) : Prop where
  rate : 0 < bucket.refill_per_sec
  room : 1 ≤ bucket.capacity
  nonneg : 0 ≤ bucket.tokens
  full : bucket.tokens ≤ bucket.capacity

theorem TokenBucket.Sound.refill {bucket : TokenBucket} (h : bucket.Sound) (now : Nat) :
    (bucket.refill now).Sound where
  rate := h.rate
  room := h.room
  nonneg := by
    apply le_min
    · exact add_nonneg h.nonneg (mul_nonneg (as_secs_nonneg _) h.rate.le)
    · exact h.nonneg.trans h.full
  full := min_le_right _ _

/-- What a poll does: nothing, a refill, or a refill and a grant. -/
theorem Limiter.poll_cases (limiter : Limiter) :
    limiter.poll = limiter ∨
      (∃ acquire, limiter.poll =
        { limiter with bucket := limiter.bucket.refill limiter.clock, acquire }) ∨
      (1 ≤ (limiter.bucket.refill limiter.clock).tokens ∧ limiter.poll = { limiter with
            bucket := { limiter.bucket.refill limiter.clock with
              tokens := (limiter.bucket.refill limiter.clock).tokens - 1 }
            acquire := .Turn
            granted := limiter.clock :: limiter.granted }) := by
  unfold Limiter.poll TokenBucket.poll
  by_cases hsleeps : limiter.acquire.sleeps limiter.clock
  · left
    rw [if_pos hsleeps]
  · right
    rw [if_neg hsleeps]
    dsimp only
    by_cases htoken : 1 ≤ (limiter.bucket.refill limiter.clock).tokens
    · right
      rw [if_pos htoken]
      exact ⟨htoken, rfl⟩
    · left
      rw [if_neg htoken]
      exact ⟨_, rfl⟩

/-! ## The credit of a caller -/

/-- The bucket of a caller: it is sound and was refilled in the past, after every grant. All grants
come after its creation. -/
structure Limiter.Sound (limiter : Limiter) (made : TokenBucket) : Prop where
  bucket : limiter.bucket.Sound
  capacity : limiter.bucket.capacity = made.capacity
  rate : limiter.bucket.refill_per_sec = made.refill_per_sec
  created : made.last_refill ≤ limiter.bucket.last_refill
  refilled : limiter.bucket.last_refill ≤ limiter.clock
  granted : ∀ instant ∈ limiter.granted,
    made.last_refill ≤ instant ∧ instant ≤ limiter.bucket.last_refill

/-- From `first` on, the grants come from `credit` tokens and from the refills. -/
structure Limiter.Funded (limiter : Limiter) (first : Nat) (credit : ℚ) : Prop where
  /-- Until the first refill in this time, the credit is there. -/
  before : limiter.bucket.last_refill < first → limiter.bucket.capacity ≤ credit
  tokens : first ≤ limiter.bucket.last_refill →
    limiter.since first + limiter.bucket.tokens ≤
      credit + limiter.bucket.refill_per_sec * as_secs (limiter.bucket.last_refill - first)
  grants : ∀ last, first ≤ last →
    (limiter.within first last : ℚ) ≤
      credit + limiter.bucket.refill_per_sec * as_secs (last - first)

section polls

variable {limiter : Limiter} {made : TokenBucket} {first : Nat} {credit : ℚ}

theorem Limiter.Sound.since_eq_zero (h : limiter.Sound made)
    (hfirst : limiter.bucket.last_refill < first) : limiter.since first = 0 := by
  unfold Limiter.since
  rw [List.countP_eq_zero]
  intro instant hmem
  have hpast := (h.granted instant hmem).2
  simp only [decide_eq_true_eq]
  omega

theorem Limiter.within_le_since (limiter : Limiter) (first last : Nat) :
    limiter.within first last ≤ limiter.since first := by
  unfold Limiter.within Limiter.since
  apply List.countP_mono_left
  intro instant _ h
  simp only [decide_eq_true_eq] at h ⊢
  exact h.1

theorem Limiter.Sound.refill (h : limiter.Sound made) (acquire : Acquire) :
    Limiter.Sound { limiter with bucket := limiter.bucket.refill limiter.clock, acquire } made where
  bucket := h.bucket.refill limiter.clock
  capacity := h.capacity
  rate := h.rate
  created := h.created.trans h.refilled
  refilled := le_refl _
  granted instant hmem := ⟨(h.granted instant hmem).1, (h.granted instant hmem).2.trans h.refilled⟩

/-- A refill adds no more than the rate gives. -/
theorem Limiter.Funded.refill (h : limiter.Funded first credit) (hsound : limiter.Sound made)
    (acquire : Acquire) :
    Limiter.Funded { limiter with bucket := limiter.bucket.refill limiter.clock, acquire } first
      credit where
  before hfirst := h.before (lt_of_le_of_lt hsound.refilled hfirst)
  tokens hfirst := by
    change first ≤ limiter.clock at hfirst
    change (limiter.since first : ℚ) + (limiter.bucket.refill limiter.clock).tokens ≤
      credit + limiter.bucket.refill_per_sec * as_secs (limiter.clock - first)
    by_cases hbefore : limiter.bucket.last_refill < first
    · -- nothing is granted yet in this time, and the bucket is at most full
      rw [hsound.since_eq_zero hbefore, Nat.cast_zero, zero_add]
      calc (limiter.bucket.refill limiter.clock).tokens ≤ limiter.bucket.capacity :=
        min_le_right _ _
        _ ≤ credit := h.before hbefore
        _ ≤ _ := le_add_of_nonneg_right (mul_nonneg hsound.bucket.rate.le (as_secs_nonneg _))
    · have htokens := h.tokens (Nat.le_of_not_lt hbefore)
      have hrefill : (limiter.bucket.refill limiter.clock).tokens ≤
          limiter.bucket.tokens +
            as_secs (limiter.clock - limiter.bucket.last_refill) * limiter.bucket.refill_per_sec :=
        min_le_left _ _
      have htime : limiter.clock - first =
          (limiter.bucket.last_refill - first) + (limiter.clock - limiter.bucket.last_refill) := by
        have := hsound.refilled
        omega
      rw [htime, as_secs_add, mul_add]
      linarith
  grants := h.grants

theorem Limiter.Sound.grant (h : limiter.Sound made)
    (hrefilled : limiter.bucket.last_refill = limiter.clock) (htoken : 1 ≤ limiter.bucket.tokens)
    (acquire : Acquire) :
    Limiter.Sound
      { limiter with
        bucket := { limiter.bucket with tokens := limiter.bucket.tokens - 1 }
        acquire
        granted := limiter.clock :: limiter.granted } made where
  bucket :=
    { rate := h.bucket.rate
      room := h.bucket.room
      nonneg := sub_nonneg.mpr htoken
      full := (sub_le_self _ zero_le_one).trans h.bucket.full }
  capacity := h.capacity
  rate := h.rate
  created := h.created
  refilled := h.refilled
  granted instant hmem := by
    rcases List.mem_cons.mp hmem with rfl | hmem
    · exact ⟨h.created.trans h.refilled, hrefilled.ge⟩
    · exact h.granted instant hmem

/-- A grant pays with a token. -/
theorem Limiter.Funded.grant (h : limiter.Funded first credit) (hsound : limiter.Sound made)
    (hrefilled : limiter.bucket.last_refill = limiter.clock) (htoken : 1 ≤ limiter.bucket.tokens)
    (acquire : Acquire) :
    Limiter.Funded
      { limiter with
        bucket := { limiter.bucket with tokens := limiter.bucket.tokens - 1 }
        acquire
        granted := limiter.clock :: limiter.granted } first credit where
  before := h.before
  tokens hfirst := by
    have htokens := h.tokens hfirst
    have hclock : first ≤ limiter.clock := hrefilled ▸ hfirst
    have hsince : List.countP (first ≤ ·) (limiter.clock :: limiter.granted) =
        limiter.since first + 1 := by
      rw [List.countP_cons_of_pos (by simpa using hclock)]
      rfl
    unfold Limiter.since
    dsimp only
    rw [hsince]
    push_cast
    linarith
  grants last hlast := by
    unfold Limiter.within
    dsimp only
    by_cases hmem : first ≤ limiter.clock ∧ limiter.clock ≤ last
    · -- all grants so far lie before `last`, and the tokens pay for them
      rw [List.countP_cons_of_pos (by simpa using hmem)]
      have htokens := h.tokens (hrefilled ▸ hmem.1)
      have hwithin : (limiter.within first last : ℚ) ≤ limiter.since first :=
        Nat.cast_le.mpr (limiter.within_le_since first last)
      have htime : as_secs (limiter.bucket.last_refill - first) ≤ as_secs (last - first) :=
        as_secs_mono (by omega)
      have hrate := mul_le_mul_of_nonneg_left htime hsound.bucket.rate.le
      unfold Limiter.within at hwithin
      push_cast
      linarith
    · rw [List.countP_cons_of_neg (by simpa using hmem)]
      exact h.grants last hlast

theorem Limiter.Sound.next (h : limiter.Sound made) {event : Event}
    (hallowed : limiter.allowed event) : (limiter.next event).Sound made := by
  cases event with
  | advance now => exact { h with refilled := h.refilled.trans hallowed }
  | drop => exact { h with }
  | poll =>
    have hrefill := h.refill .Turn
    change limiter.poll.Sound made
    rcases limiter.poll_cases with heq | ⟨acquire, heq⟩ | ⟨htoken, heq⟩
    · rw [heq]
      exact h
    · rw [heq]
      exact h.refill acquire
    · rw [heq]
      exact hrefill.grant rfl htoken .Turn

theorem Limiter.Funded.next (h : limiter.Funded first credit) (hsound : limiter.Sound made)
    (event : Event) : (limiter.next event).Funded first credit := by
  cases event with
  | advance now => exact { h with }
  | drop => exact { h with }
  | poll =>
    have hrefill := h.refill hsound .Turn
    change limiter.poll.Funded first credit
    rcases limiter.poll_cases with heq | ⟨acquire, heq⟩ | ⟨htoken, heq⟩
    · rw [heq]
      exact h
    · rw [heq]
      exact h.refill hsound acquire
    · rw [heq]
      exact hrefill.grant (hsound.refill .Turn) rfl htoken .Turn

end polls

/-! ## Whole runs -/

section runs

variable {made : TokenBucket} {limiter : Limiter}

theorem sound_of_reachable (hmade : made.Sound) (h : Reachable (limiters made) limiter) :
    limiter.Sound made := by
  apply h.invariant
  · rintro _ rfl
    exact ⟨hmade, rfl, rfl, le_refl _, le_refl _, fun _ hmem => absurd hmem List.not_mem_nil⟩
  · intro s event hs hallowed
    exact hs.next hallowed

theorem funded_of_reachable (hmade : made.Sound) (h : Reachable (limiters made) limiter)
    {first : Nat}
    {credit : ℚ} (hstart : (Limiter.start made).Funded first credit) :
    limiter.Funded first credit := by
  have hboth : limiter.Sound made ∧ limiter.Funded first credit := by
    apply h.invariant (I := fun s => s.Sound made ∧ s.Funded first credit)
    · rintro _ rfl
      exact ⟨sound_of_reachable hmade (.initial rfl), hstart⟩
    · intro s event hs hallowed
      exact ⟨hs.1.next hallowed, hs.2.next hs.1 event⟩
  exact hboth.2

/-- From its creation on, a bucket pays with the tokens that it was made with. -/
theorem funded_from_creation (hmade : made.Sound) (h : Reachable (limiters made) limiter) :
    limiter.Funded made.last_refill made.tokens := by
  apply funded_of_reachable hmade h
  constructor
  · intro hlt
    exact absurd hlt (lt_irrefl _)
  · intro _
    simp [Limiter.start, Limiter.since, as_secs]
  · intro last _
    have hrefills := mul_nonneg hmade.rate.le (as_secs_nonneg (last - made.last_refill))
    simpa [Limiter.start, Limiter.within] using add_nonneg hmade.nonneg hrefills

/-- From any instant on, a bucket pays with no more than it can hold. -/
theorem funded_from_instant (hmade : made.Sound) (h : Reachable (limiters made) limiter)
    (first : Nat) : limiter.Funded first made.capacity := by
  apply funded_of_reachable hmade h
  constructor
  · intro _
    exact le_refl _
  · intro _
    have hrefills := mul_nonneg hmade.rate.le (as_secs_nonneg (made.last_refill - first))
    simpa [Limiter.start, Limiter.since] using le_add_of_le_of_nonneg hmade.full hrefills
  · intro last _
    have hrefills := mul_nonneg hmade.rate.le (as_secs_nonneg (last - first))
    simpa [Limiter.start, Limiter.within] using
      add_nonneg (hmade.nonneg.trans hmade.full) hrefills

/-- The grants up to an instant are all grants since the creation. -/
theorem within_creation_of_sound (h : limiter.Sound made) (last : Nat) :
    limiter.within 0 last = limiter.within made.last_refill last := by
  unfold Limiter.within
  apply List.countP_congr
  intro instant hmem
  simp [(h.granted instant hmem).1]

end runs

/-! ## The buckets that are built -/

section built

variable {scenarios_per_sec : ℚ} {burst_capacity now : Nat} {made : TokenBucket}

theorem TokenBucket.sound_of_build (hroom : 1 ≤ burst_capacity)
    (h : build scenarios_per_sec burst_capacity now = some made) :
    made.Sound ∧ made.capacity = burst_capacity ∧ made.refill_per_sec = scenarios_per_sec ∧
      made.tokens = 1 / 2 ∧ made.last_refill = now := by
  have hone : (1 : ℚ) ≤ burst_capacity := Nat.one_le_cast.mpr hroom
  unfold build at h
  split at h
  · rename_i hrate
    cases h
    refine ⟨⟨hrate, hone, by norm_num, ?_⟩, rfl, rfl, rfl, rfl⟩
    linarith
  · cases h

theorem TokenBucket.sound_of_build_with_initial_tokens (hroom : 1 ≤ burst_capacity)
    (h : build_with_initial_tokens scenarios_per_sec burst_capacity now = some made) :
    made.Sound ∧ made.capacity = burst_capacity ∧ made.refill_per_sec = scenarios_per_sec ∧
      made.tokens = burst_capacity ∧ made.last_refill = now := by
  obtain ⟨bucket, hbuild, rfl⟩ := Option.map_eq_some_iff.mp h
  obtain ⟨hsound, hcapacity, hrate, -, hnow⟩ := sound_of_build hroom hbuild
  exact ⟨⟨hsound.rate, hsound.room, hsound.nonneg.trans hsound.full, le_refl _⟩, hcapacity, hrate,
    hcapacity, hnow⟩

end built

end pulse.rate_limiter
