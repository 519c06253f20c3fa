-- The time types of Rust, as numbers of nanoseconds: a `Duration` goes up to
-- a maximum, and an `Instant` is a point of the monotonic clock of a process.
import Mathlib.Algebra.Order.Ring.Nat
import Mathlib.Tactic.Common

namespace durations

def NANOS_PER_MILLI : Nat := 1000000

namespace Duration

/-- The longest duration: `u64::MAX` seconds and 999,999,999 nanoseconds. -/
def MAX : Nat := 2 ^ 64 * 1000000000 - 1

def from_millis (n : Nat) : Nat := n * NANOS_PER_MILLI

def from_secs (n : Nat) : Nat := n * 1000000000

def as_millis (d : Nat) : Nat := d / NANOS_PER_MILLI

def checked_add (a b : Nat) : Option Nat := if a + b ≤ MAX then some (a + b) else none

def checked_mul (d k : Nat) : Option Nat := if d * k ≤ MAX then some (d * k) else none

def saturating_mul (d k : Nat) : Nat := min (d * k) MAX

def saturating_sub (a b : Nat) : Nat := a - b

@[simp]
theorem as_millis_from_millis (n : Nat) : as_millis (from_millis n) = n := by
  simp [as_millis, from_millis, NANOS_PER_MILLI]

theorem as_millis_mono {a b : Nat} (h : a ≤ b) : as_millis a ≤ as_millis b :=
  Nat.div_le_div_right h

theorem checked_add_eq_some {a b c : Nat} : checked_add a b = some c ↔ a + b ≤ MAX ∧ c = a + b := by
  unfold checked_add
  split <;> rename_i h
  · simp [h, eq_comm]
  · simp [h]

theorem checked_mul_eq_some {d k c : Nat} : checked_mul d k = some c ↔ d * k ≤ MAX ∧ c = d * k := by
  unfold checked_mul
  split <;> rename_i h
  · simp [h, eq_comm]
  · simp [h]

end Duration

namespace Instant

/-- The last instant that the clock of a process can hold: an `i64` of seconds. -/
def MAX : Nat := 2 ^ 63 * 1000000000 - 1

def checked_add (t d : Nat) : Option Nat := if t + d ≤ MAX then some (t + d) else none

end Instant

end durations
