-- Integers on the wire: groups of seven bits, bytes of a fixed width, and the
-- zigzag order of signed integers. What is written is read back.
import Mathlib.Tactic.Common
import Mathlib.Tactic.Ring

namespace varints

/-! ## Groups of seven bits -/

/-- The groups of a number, the lowest first. Every group but the last has the high bit set;
there are at most as many of them as the first argument says. -/
def groups : Nat → Nat → List UInt8
  | 0, _ => []
  | count + 1, n =>
    if n < 128 then [UInt8.ofNat n] else UInt8.ofNat (n % 128 + 128) :: groups count (n / 128)

/-- A byte that another one follows. -/
def continues (b : UInt8) : Prop := 128 ≤ b.toNat

instance (b : UInt8) : Decidable (continues b) := inferInstanceAs (Decidable (128 ≤ b.toNat))

theorem and_high_bit : ∀ b : UInt8, b &&& 0x80 = 0 ↔ ¬ continues b := by
  have h : ∀ n < 256, UInt8.ofNat n &&& 0x80 = 0 ↔ ¬ continues (UInt8.ofNat n) := by
    decide +kernel
  intro b
  simpa using h b.toNat b.toNat_lt

theorem toNat_and_low_bits (b : UInt8) : (b &&& 0x7F).toNat = b.toNat % 128 := by
  rw [UInt8.toNat_and]
  exact Nat.and_two_pow_sub_one_eq_mod b.toNat 7

theorem toNat_shiftRight_seven (v : UInt64) : (v >>> 7).toNat = v.toNat / 128 := by
  rw [UInt64.toNat_shiftRight]
  simp [Nat.shiftRight_eq_div_pow]

/-- The group of a value with the high bit set. -/
theorem toUInt8_or_high_bit (v : UInt64) :
    (v.toUInt8 &&& 0x7F) ||| 0x80 = UInt8.ofNat (v.toNat % 128 + 128) := by
  have hlow : (v.toUInt8 &&& 0x7F).toNat = v.toNat % 128 := by
    rw [toNat_and_low_bits, UInt64.toNat_toUInt8]
    omega
  apply UInt8.toNat_inj.mp
  rw [UInt8.toNat_or, hlow, UInt8.toNat_ofNat']
  have hor := Nat.two_pow_add_eq_or_of_lt (Nat.mod_lt v.toNat (by decide : 0 < 2 ^ 7)) 1
  have hhigh : (0x80 : UInt8).toNat = 2 ^ 7 * 1 := rfl
  rw [hhigh, Nat.or_comm, ← hor]
  omega

/-- A group is joined to the groups below it. -/
theorem toNat_or_group {out : UInt64} {b : UInt8} {shift : Nat} (hshift : shift < 64)
    (hout : out.toNat < 2 ^ shift) (hfit : b.toNat % 128 * 2 ^ shift < 2 ^ 64) :
    (out ||| ((b &&& 0x7F).toUInt64 <<< UInt64.ofNat shift)).toNat =
      out.toNat + 2 ^ shift * (b.toNat % 128) := by
  have hnat : (UInt64.ofNat shift).toNat % 64 = shift := by
    rw [UInt64.toNat_ofNat_of_lt' (by unfold UInt64.size; omega), Nat.mod_eq_of_lt hshift]
  rw [UInt64.toNat_or, UInt64.toNat_shiftLeft, UInt8.toNat_toUInt64, toNat_and_low_bits, hnat,
    Nat.shiftLeft_eq, Nat.mod_eq_of_lt hfit, Nat.mul_comm, Nat.or_comm,
    ← Nat.two_pow_add_eq_or_of_lt hout, Nat.add_comm]

theorem groups_ne_nil {count : Nat} (n : Nat) (h : 0 < count) : groups count n ≠ [] := by
  obtain ⟨count, rfl⟩ : ∃ k, count = k + 1 := ⟨count - 1, by omega⟩
  unfold groups
  split <;> simp

/-- The bytes are groups of a number, lowest first; the groups above the number are zero. -/
inductive Encodes : List UInt8 → Nat → Prop
  | last {b : UInt8} : ¬ continues b → Encodes [b] b.toNat
  | more {b : UInt8} {bs : List UInt8} {n : Nat} : continues b → Encodes bs n →
      Encodes (b :: bs) (b.toNat % 128 + 128 * n)

/-- A varint of 64 bits, which may be longer than it needs to be. -/
structure Varint (bytes : List UInt8) (n : Nat) : Prop where
  encodes : Encodes bytes n
  length : bytes.length ≤ 10
  fits : n < 2 ^ 64

theorem Encodes.length_pos {bytes : List UInt8} {n : Nat} (h : Encodes bytes n) :
    1 ≤ bytes.length := by
  cases h <;> simp

/-! ## Bytes of a fixed width -/

/-- `to_le_bytes` of a number of `width` bytes. -/
def le_bytes : Nat → Nat → List UInt8
  | 0, _ => []
  | width + 1, n => UInt8.ofNat (n % 256) :: le_bytes width (n / 256)

/-- `from_le_bytes`. -/
def from_le_bytes : List UInt8 → Nat
  | [] => 0
  | b :: bs => b.toNat + 256 * from_le_bytes bs

@[simp]
theorem length_le_bytes (width n : Nat) : (le_bytes width n).length = width := by
  induction width generalizing n with
  | zero => rfl
  | succ width ih => simp [le_bytes, ih]

theorem from_le_bytes_lt (bs : List UInt8) : from_le_bytes bs < 256 ^ bs.length := by
  induction bs with
  | nil => simp [from_le_bytes]
  | cons b bs ih =>
    have hb := b.toNat_lt
    rw [from_le_bytes, List.length_cons, Nat.pow_succ]
    omega

theorem from_le_bytes_le_bytes {width n : Nat} (h : n < 256 ^ width) :
    from_le_bytes (le_bytes width n) = n := by
  induction width generalizing n with
  | zero =>
    rw [Nat.pow_zero] at h
    rw [le_bytes, from_le_bytes]
    omega
  | succ width ih =>
    rw [Nat.pow_succ] at h
    rw [le_bytes, from_le_bytes, ih (by omega), UInt8.toNat_ofNat']
    omega

theorem from_le_bytes_append_zeros (bs : List UInt8) (k : Nat) :
    from_le_bytes (bs ++ List.replicate k 0) = from_le_bytes bs := by
  induction bs with
  | nil =>
    induction k with
    | zero => rfl
    | succ k ih =>
      simpa [List.replicate_succ, from_le_bytes] using ih
  | cons b bs ih => rw [List.cons_append, from_le_bytes, from_le_bytes, ih]

/-! ## Zigzag -/

/-- The order 0, -1, 1, -2, … of the signed integers. -/
def zigzag {w : Nat} (x : BitVec w) : BitVec w := (x <<< 1) ^^^ x.sshiftRight (w - 1)

def unzigzag {w : Nat} (x : BitVec w) : BitVec w := (x >>> 1) ^^^ (-(x &&& 1#w))

/-- The sign of a signed integer in every bit. -/
theorem sshiftRight_sign {w : Nat} (hw : 0 < w) (x : BitVec w) :
    x.sshiftRight (w - 1) = if x.msb then BitVec.allOnes w else 0#w := by
  apply BitVec.eq_of_getLsbD_eq
  intro i hi
  rw [BitVec.getLsbD_sshiftRight]
  have hbit : (if w - 1 + i < w then x.getLsbD (w - 1 + i) else x.msb) = x.msb := by
    split
    · rw [BitVec.msb_eq_getLsbD_last, show w - 1 + i = w - 1 by omega]
    · rfl
  rw [hbit]
  cases x.msb <;> simp [hi]

theorem unzigzag_zigzag {w : Nat} (hw : 1 < w) (x : BitVec w) : unzigzag (zigzag x) = x := by
  unfold unzigzag zigzag
  rw [sshiftRight_sign (by omega)]
  cases hx : x.msb with
  | false =>
    have hlow : (x <<< 1) &&& 1#w = 0#w := by
      apply BitVec.eq_of_getLsbD_eq
      intro i hi
      simp [BitVec.getLsbD_one]
      omega
    have hlast : x.getLsbD (w - 1) = false := by
      rw [← BitVec.msb_eq_getLsbD_last, hx]
    simp only [Bool.false_eq_true, if_false, BitVec.xor_zero, hlow, BitVec.neg_zero]
    apply BitVec.eq_of_getLsbD_eq
    intro i hi
    simp only [BitVec.getLsbD_ushiftRight, BitVec.getLsbD_shiftLeft]
    rcases Nat.lt_or_eq_of_le (by omega : i ≤ w - 1) with h | rfl
    · simp [show 1 + i < w by omega]
    · simp [hlast]
  | true =>
    have hlow : ((x <<< 1) ^^^ BitVec.allOnes w) &&& 1#w = 1#w := by
      apply BitVec.eq_of_getLsbD_eq
      intro i hi
      simp [hi]
      omega
    have hlast : x.getLsbD (w - 1) = true := by
      rw [← BitVec.msb_eq_getLsbD_last, hx]
    simp only [if_true, hlow, BitVec.neg_one_eq_allOnes]
    apply BitVec.eq_of_getLsbD_eq
    intro i hi
    simp only [BitVec.getLsbD_ushiftRight, BitVec.getLsbD_shiftLeft, BitVec.getLsbD_xor,
      BitVec.getLsbD_allOnes]
    rcases Nat.lt_or_eq_of_le (by omega : i ≤ w - 1) with h | rfl
    · simp [show 1 + i < w by omega, hi]
    · simp only [show ¬ 1 + (w - 1) < w by omega, hlast, hi]
      simp

end varints
