-- A histogram of logarithmic resolution: the classes of its values double in
-- width with each power of two. A count between two values takes the whole
-- classes of both.
import Mathlib.Algebra.Order.Ring.Nat
import Mathlib.Tactic.Common

namespace histograms

/-! ## The classes of the values -/

/-- The width of the class of a value: 1 below `2^(precision + 1)`, doubled at each power of two. -/
def width (precision v : Nat) : Nat := 2 ^ (v.log2 - precision)

/-- The lowest value of the class of a value; the classes are aligned to their width. -/
def lowest (precision v : Nat) : Nat := v / width precision v * width precision v

/-- The first value above the class of a value. -/
def next (precision v : Nat) : Nat := lowest precision v + width precision v

variable (precision : Nat)

theorem width_pos (v : Nat) : 0 < width precision v := Nat.two_pow_pos _

theorem lowest_le (v : Nat) : lowest precision v ≤ v := Nat.div_mul_le_self ..

variable {v high low : Nat}

/-- No class goes over a power of two. -/
theorem pow_log2_le_lowest (h : v ≠ 0) : 2 ^ v.log2 ≤ lowest precision v := by
  have hpow : 2 ^ v.log2 = 2 ^ (v.log2 - (v.log2 - precision)) * width precision v := by
    rw [width, ← Nat.pow_add]
    congr 1
    omega
  have hle : 2 ^ (v.log2 - (v.log2 - precision)) ≤ v / width precision v := by
    rw [Nat.le_div_iff_mul_le (width_pos precision v), ← hpow]
    exact Nat.log2_self_le h
  calc 2 ^ v.log2 = 2 ^ (v.log2 - (v.log2 - precision)) * width precision v := hpow
    _ ≤ lowest precision v := Nat.mul_le_mul_right _ hle

theorem next_le_pow (v : Nat) : next precision v ≤ 2 ^ (v.log2 + 1) := by
  have hpow : 2 ^ (v.log2 + 1) = 2 ^ (v.log2 + 1 - (v.log2 - precision)) * width precision v := by
    rw [width, ← Nat.pow_add]
    congr 1
    omega
  have hlt : v / width precision v < 2 ^ (v.log2 + 1 - (v.log2 - precision)) := by
    rw [Nat.div_lt_iff_lt_mul (width_pos precision v), ← hpow]
    exact Nat.lt_log2_self
  calc next precision v = (v / width precision v + 1) * width precision v := by
        rw [next, lowest, Nat.add_mul, Nat.one_mul]
    _ ≤ 2 ^ (v.log2 + 1 - (v.log2 - precision)) * width precision v :=
        Nat.mul_le_mul_right _ hlt
    _ = 2 ^ (v.log2 + 1) := hpow.symm

/-- The classes up to the class of `high` hold the values below the next class. -/
theorem lowest_le_lowest_iff (hv : v ≠ 0) (hhigh : high ≠ 0) :
    lowest precision v ≤ lowest precision high ↔ v < next precision high := by
  rcases Nat.lt_trichotomy v.log2 high.log2 with hlog | hlog | hlog
  · -- below the power of two of `high`
    have hpow : 2 ^ (v.log2 + 1) ≤ 2 ^ high.log2 := Nat.pow_le_pow_right (by decide) hlog
    have hlt : v < 2 ^ (v.log2 + 1) := Nat.lt_log2_self
    have hlow := pow_log2_le_lowest precision hhigh
    have hle := lowest_le precision v
    have hwidth := width_pos precision high
    unfold next
    constructor <;> intro _ <;> omega
  · -- in the same power of two all classes have one width
    have hsame : width precision v = width precision high := by rw [width, width, hlog]
    have hwidth := width_pos precision high
    rw [next, lowest, lowest, hsame, Nat.mul_le_mul_right_iff hwidth, ← Nat.succ_mul,
      ← Nat.div_lt_iff_lt_mul hwidth, Nat.lt_succ_iff]
  · have hpow : 2 ^ (high.log2 + 1) ≤ 2 ^ v.log2 := Nat.pow_le_pow_right (by decide) hlog
    have hlow := pow_log2_le_lowest precision hv
    have hle := lowest_le precision v
    have hnext := next_le_pow precision high
    have hwidth := width_pos precision high
    unfold next at hnext ⊢
    constructor <;> intro _ <;> omega

/-- The classes from the class of `low` on hold the values from its lowest one on. -/
theorem lowest_le_lowest_iff_le (hv : v ≠ 0) (hlow : low ≠ 0) :
    lowest precision low ≤ lowest precision v ↔ lowest precision low ≤ v := by
  constructor
  · intro h
    exact Nat.le_trans h (lowest_le precision v)
  · intro h
    have hstart := pow_log2_le_lowest precision hlow
    rcases Nat.lt_trichotomy low.log2 v.log2 with hlog | hlog | hlog
    · have hpow : 2 ^ (low.log2 + 1) ≤ 2 ^ v.log2 := Nat.pow_le_pow_right (by decide) hlog
      have hlt : low < 2 ^ (low.log2 + 1) := Nat.lt_log2_self
      have hle := lowest_le precision low
      have hvalue := pow_log2_le_lowest precision hv
      omega
    · have hsame : width precision low = width precision v := by rw [width, width, hlog]
      have hwidth := width_pos precision v
      rw [lowest, hsame, ← Nat.le_div_iff_mul_le hwidth] at h
      rw [lowest, lowest, hsame]
      exact Nat.mul_le_mul_right _ h
    · have hpow : 2 ^ (v.log2 + 1) ≤ 2 ^ low.log2 := Nat.pow_le_pow_right (by decide) hlog
      have hlt : v < 2 ^ (v.log2 + 1) := Nat.lt_log2_self
      omega

/-! ## The histogram -/

/-- The classes of the recorded values, one for each record. -/
structure Histogram where
  classes : List Nat

def Histogram.empty : Histogram := ⟨[]⟩

def Histogram.record (h : Histogram) (v : Nat) : Histogram := ⟨lowest precision v :: h.classes⟩

def Histogram.add (h other : Histogram) : Histogram := ⟨other.classes ++ h.classes⟩

/-- The records of all classes from the class of `low` through the class of `high`. -/
def Histogram.count_between (h : Histogram) (low high : Nat) : Nat :=
  h.classes.countP fun c => decide (lowest precision low ≤ c ∧ c ≤ lowest precision high)

/-- The histogram of some values. -/
def Histogram.Holds (h : Histogram) (values : List Nat) : Prop :=
  h.classes = values.map (lowest precision)

variable {values : List Nat} {h : Histogram} (hh : h.Holds precision values)
include hh

theorem Histogram.Holds.record (v : Nat) :
    (h.record precision v).Holds precision (v :: values) := by
  unfold Histogram.Holds Histogram.record
  rw [hh, List.map_cons]

theorem Histogram.Holds.add {other : Histogram} {values' : List Nat}
    (hother : other.Holds precision values') :
    (h.add other).Holds precision (values' ++ values) := by
  unfold Histogram.Holds Histogram.add
  rw [hh, hother, List.map_append]

/-- A count takes the values from the lowest one of the class of `low` to the class of `high`. -/
theorem Histogram.Holds.count_between (hvalues : ∀ v ∈ values, v ≠ 0) (hlow : low ≠ 0)
    (hhigh : high ≠ 0) :
    h.count_between precision low high =
      values.countP fun v => decide (lowest precision low ≤ v ∧ v < next precision high) := by
  rw [Histogram.count_between, hh, List.countP_map]
  apply List.countP_congr
  intro v hv
  simp only [Function.comp_apply, decide_eq_true_eq,
    lowest_le_lowest_iff_le precision (hvalues v hv) hlow,
    lowest_le_lowest_iff precision (hvalues v hv) hhigh]

end histograms
