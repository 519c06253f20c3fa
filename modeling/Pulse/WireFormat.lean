-- The protobuf wire format of the dynamic gateway
-- (infrastructure/grpc/dynamic_gateway.rs): keys, varints, fixed widths and
-- length-delimited data, read at an index into the payload.
import Pulse.Checks
import Pulse.Varints

open checks varints

namespace pulse.grpc

/-- `PulseError`. The encoder and the decoder give only the variant `Client`. -/
inductive PulseError
  | MissingContextVar (name : String)
  | Client (message : String)
  | GrpcStatus (code message : String)
  | InvalidScenario (message : String)
  | TargetTransport (message : String)
  | TargetStatus (code message : String)
  | RequestTimeout (step : String)
  | TransientInfrastructure (message : String)
  | PermanentProcessing (message : String)
  | Cancelled (message : String)
  | InvariantViolation (message : String)
deriving DecidableEq, Repr

abbrev Bytes := List UInt8

/-- A `usize` index: `checked_add` fails above it. -/
def usize_MAX : Nat := 2 ^ 64 - 1

/-! ## Writers -/

/-- The turns of the loop of `write_varint`; ten groups of seven bits hold a `u64`. -/
def write_varint_loop : Nat → UInt64 → Bytes
  | 0, _ => []
  | turns + 1, value =>
    if value < 0x80 then [value.toUInt8]
    else ((value.toUInt8 &&& 0x7F) ||| 0x80) :: write_varint_loop turns (value >>> 7)

/-- What `write_varint` pushes. -/
def write_varint (value : UInt64) : Bytes := write_varint_loop 10 value

def write_key (field_number : UInt32) (wire_type : UInt8) : Bytes :=
  write_varint ((field_number.toUInt64 <<< 3) ||| wire_type.toUInt64)

def zigzag_i32 (value : Int32) : UInt64 :=
  ((value <<< 1) ^^^ (value >>> 31)).toUInt32.toUInt64

def zigzag_i64 (value : Int64) : UInt64 := ((value <<< 1) ^^^ (value >>> 63)).toUInt64

def unzigzag_i32 (value : UInt64) : Except PulseError Int32 :=
  let v := value.toUInt32
  .ok ((v >>> 1).toInt32 ^^^ (-(v &&& 1).toInt32))

def unzigzag_i64 (value : UInt64) : Int64 := (value >>> 1).toInt64 ^^^ (-(value &&& 1).toInt64)

/-! ## Readers -/

/-- The turns of the loop of `read_varint`, with the index, the shift and the value so far. -/
def read_varint_loop (bytes : Bytes) : Nat → Nat → Nat → UInt64 → Except PulseError (UInt64 × Nat)
  | 0, _, _, _ => .error (.Client "varint too long")
  | turns + 1, idx, shift, out =>
    match bytes[idx]? with
    | none => .error (.Client "unexpected end of payload while reading varint")
    | some b =>
      let out := out ||| ((b &&& 0x7F).toUInt64 <<< UInt64.ofNat shift)
      if b &&& 0x80 = 0 then .ok (out, idx + 1)
      else if shift + 7 > 63 then .error (.Client "varint too long")
      else read_varint_loop bytes turns (idx + 1) (shift + 7) out

/-- The value and the index after it. The shift passes 63 in the tenth turn. -/
def read_varint (bytes : Bytes) (idx : Nat) : Except PulseError (UInt64 × Nat) :=
  read_varint_loop bytes 10 idx 0 0

/-- The `n` bytes at the index and the index after them. -/
def take_bytes (overflow underflow : String) (bytes : Bytes) (idx n : Nat) :
    Except PulseError (Bytes × Nat) := do
  rejectIf (usize_MAX < idx + n) (.Client overflow)
  rejectIf (bytes.length < idx + n) (.Client underflow)
  return ((bytes.drop idx).take n, idx + n)

def advance (bytes : Bytes) (idx n : Nat) : Except PulseError Nat := do
  let (_, idx) ← take_bytes "buffer index overflow" "buffer underflow while decoding" bytes idx n
  return idx

def read_fixed32 (bytes : Bytes) (idx : Nat) : Except PulseError (UInt32 × Nat) := do
  let (arr, idx) ←
    take_bytes "buffer index overflow" "buffer underflow reading fixed32" bytes idx 4
  return (UInt32.ofNat (from_le_bytes arr), idx)

def read_fixed64 (bytes : Bytes) (idx : Nat) : Except PulseError (UInt64 × Nat) := do
  let (arr, idx) ←
    take_bytes "buffer index overflow" "buffer underflow reading fixed64" bytes idx 8
  return (UInt64.ofNat (from_le_bytes arr), idx)

def read_length_delimited (bytes : Bytes) (idx : Nat) : Except PulseError (Bytes × Nat) := do
  let (len, idx) ← read_varint bytes idx
  take_bytes "length-delimited overflow" "length-delimited field exceeds payload" bytes idx
    len.toNat

def skip_wire_value (wire_type : UInt8) (bytes : Bytes) (idx : Nat) : Except PulseError Nat :=
  match wire_type with
  | 0 => do
    let (_, idx) ← read_varint bytes idx
    return idx
  | 1 => advance bytes idx 8
  | 2 => do
    let (len, idx) ← read_varint bytes idx
    advance bytes idx len.toNat
  | 5 => advance bytes idx 4
  | _ => .error
    (.Client s!"unsupported wire type while skipping unknown field: {wire_type.toNat}")

/-! ## What is written is read back -/

theorem write_varint_loop_eq (turns : Nat) (value : UInt64) :
    write_varint_loop turns value = groups turns value.toNat := by
  induction turns generalizing value with
  | zero => rfl
  | succ turns ih =>
    have hlt : value < 0x80 ↔ value.toNat < 128 := UInt64.lt_iff_toNat_lt
    unfold write_varint_loop groups
    by_cases h : value.toNat < 128
    · rw [if_pos (hlt.mpr h), if_pos h]
      rfl
    · rw [if_neg (mt hlt.mp h), if_neg h, toUInt8_or_high_bit, ih, toNat_shiftRight_seven]

theorem write_varint_ne_nil (value : UInt64) : write_varint value ≠ [] := by
  rw [write_varint, write_varint_loop_eq]
  exact groups_ne_nil _ (by decide)

variable {bytes rest data : Bytes} {idx idx' turns shift : Nat} {b wire_type : UInt8}

theorem getElem?_of_drop (h : bytes.drop idx = b :: rest) : bytes[idx]? = some b := by
  rw [← List.head?_drop, h, List.head?_cons]

theorem drop_succ_of_drop (h : bytes.drop idx = b :: rest) : bytes.drop (idx + 1) = rest := by
  rw [← List.tail_drop, h, List.tail_cons]

variable {value out : UInt64}

/-- One turn on a byte of the payload. -/
theorem read_varint_loop_byte (h : bytes.drop idx = b :: rest) :
    read_varint_loop bytes (turns + 1) idx shift out =
      let out := out ||| ((b &&& 0x7F).toUInt64 <<< UInt64.ofNat shift)
      if continues b then
        if shift + 7 > 63 then .error (.Client "varint too long")
        else read_varint_loop bytes turns (idx + 1) (shift + 7) out
      else .ok (out, idx + 1) := by
  rw [read_varint_loop, getElem?_of_drop h]
  by_cases hb : continues b
  · simp only [and_high_bit, hb, not_true_eq_false, if_false, if_true]
  · simp only [and_high_bit, hb, not_false_eq_true, if_false, if_true]

/-- The groups below the shift are in `out`; the payload goes on with the groups above it. -/
theorem read_varint_loop_groups {value : Nat} (hvalue : value < 2 ^ 64) :
    ∀ (turns idx shift : Nat) (out : UInt64), shift + 7 * turns = 70 → 0 < turns →
      out.toNat = value % 2 ^ shift →
      bytes.drop idx = groups turns (value / 2 ^ shift) ++ rest →
      read_varint_loop bytes turns idx shift out =
        .ok (UInt64.ofNat value, idx + (groups turns (value / 2 ^ shift)).length) := by
  intro turns
  induction turns with
  | zero => intro _ _ _ _ hpos; omega
  | succ turns ih =>
    intro idx shift out hturns _ hout hdrop
    have hlow : out.toNat < 2 ^ shift := by
      rw [hout]
      exact Nat.mod_lt _ (Nat.two_pow_pos shift)
    have hsplit := Nat.div_add_mod value (2 ^ shift)
    rw [groups] at hdrop ⊢
    by_cases hlast : value / 2 ^ shift < 128
    · -- the last group: `out` is the whole value
      rw [if_pos hlast] at hdrop ⊢
      have hbyte : (UInt8.ofNat (value / 2 ^ shift)).toNat = value / 2 ^ shift := by
        rw [UInt8.toNat_ofNat', Nat.mod_eq_of_lt (Nat.lt_trans hlast (by decide))]
      have hstop : ¬ continues (UInt8.ofNat (value / 2 ^ shift)) := by
        rw [continues, hbyte]
        omega
      have hfit : value / 2 ^ shift % 128 * 2 ^ shift < 2 ^ 64 := by
        rw [Nat.mod_eq_of_lt hlast, Nat.mul_comm]
        omega
      rw [read_varint_loop_byte hdrop]
      dsimp only
      rw [if_neg hstop, List.length_singleton]
      congr 2
      apply UInt64.toNat_inj.mp
      rw [toNat_or_group (by omega) hlow (by rwa [hbyte]), hbyte, Nat.mod_eq_of_lt hlast, hout,
        UInt64.toNat_ofNat_of_lt' hvalue]
      omega
    · -- one more group comes, so the shift is at most 56
      rw [if_neg hlast] at hdrop ⊢
      have hbyte : (UInt8.ofNat (value / 2 ^ shift % 128 + 128)).toNat =
          value / 2 ^ shift % 128 + 128 := by
        rw [UInt8.toNat_ofNat']
        omega
      have hgroup : (UInt8.ofNat (value / 2 ^ shift % 128 + 128)).toNat % 128 =
          value / 2 ^ shift % 128 := by omega
      have hmore : continues (UInt8.ofNat (value / 2 ^ shift % 128 + 128)) := by
        rw [continues, hbyte]
        omega
      have hshift : shift < 63 := by
        by_contra hge
        have hpow : 2 ^ 63 ≤ 2 ^ shift := Nat.pow_le_pow_right (by decide) (by omega)
        have := Nat.div_le_div_left hpow (by decide) (a := value)
        omega
      have hpow : 2 ^ (shift + 7) = 2 ^ shift * 128 := by rw [Nat.pow_add]
      have hfit : value / 2 ^ shift % 128 * 2 ^ shift < 2 ^ 64 := by
        have := Nat.mul_le_mul_right (2 ^ shift) (Nat.mod_le (value / 2 ^ shift) 128)
        rw [Nat.mul_comm (value / 2 ^ shift)] at this
        omega
      rw [read_varint_loop_byte hdrop]
      dsimp only
      rw [if_pos hmore, if_neg (by omega), ih _ _ _ (by omega) (by omega), List.length_cons,
        hpow, ← Nat.div_div_eq_div_mul]
      · congr 2
        omega
      · rw [toNat_or_group (by omega) hlow (by rwa [hgroup]), hgroup, hout, hpow, Nat.mod_mul]
      · rw [List.cons_append] at hdrop
        rw [drop_succ_of_drop hdrop, hpow, ← Nat.div_div_eq_div_mul]

/-- A varint is read back from wherever it stands in the payload. -/
theorem read_varint_write_varint (h : bytes.drop idx = write_varint value ++ rest) :
    read_varint bytes idx = .ok (value, idx + (write_varint value).length) := by
  rw [write_varint, write_varint_loop_eq] at h ⊢
  have hread := read_varint_loop_groups value.toNat_lt 10 idx 0 0 (by decide) (by decide)
    (by simp [Nat.mod_one]) (by simpa using h)
  simpa [read_varint] using hread

theorem toNat_key (field_number : UInt32) (h : wire_type.toNat < 8) :
    ((field_number.toUInt64 <<< 3) ||| wire_type.toUInt64).toNat =
      8 * field_number.toNat + wire_type.toNat := by
  have hlt := field_number.toNat_lt
  have hor := Nat.two_pow_add_eq_or_of_lt (i := 3) h field_number.toNat
  have hshift : (field_number.toUInt64 <<< 3).toNat = 2 ^ 3 * field_number.toNat := by
    rw [UInt64.toNat_shiftLeft, UInt32.toNat_toUInt64]
    simp [Nat.shiftLeft_eq]
    omega
  rw [UInt64.toNat_or, hshift, UInt8.toNat_toUInt64, ← hor]

theorem key_field_number (field_number : UInt32) (h : wire_type.toNat < 8) :
    (((field_number.toUInt64 <<< 3) ||| wire_type.toUInt64) >>> 3).toUInt32 = field_number := by
  have hlt := field_number.toNat_lt
  apply UInt32.toNat_inj.mp
  rw [UInt64.toNat_toUInt32, UInt64.toNat_shiftRight, toNat_key field_number h]
  simp [Nat.shiftRight_eq_div_pow]
  omega

theorem key_wire_type (field_number : UInt32) (h : wire_type.toNat < 8) :
    (((field_number.toUInt64 <<< 3) ||| wire_type.toUInt64) &&& 0x7).toUInt8 = wire_type := by
  apply UInt8.toNat_inj.mp
  rw [UInt64.toNat_toUInt8, UInt64.toNat_and, toNat_key field_number h]
  have hmod := Nat.and_two_pow_sub_one_eq_mod (8 * field_number.toNat + wire_type.toNat) 3
  simp at hmod ⊢
  omega

/-- The bytes at an index that stands inside the payload or at its end. -/
theorem take_bytes_of_drop (overflow underflow : String) (hsize : bytes.length ≤ usize_MAX)
    (hidx : idx ≤ bytes.length) (h : bytes.drop idx = data ++ rest) :
    take_bytes overflow underflow bytes idx data.length = .ok (data, idx + data.length) := by
  have hlength := congrArg List.length h
  rw [List.length_drop, List.length_append] at hlength
  unfold take_bytes
  rw [rejectIf_neg _ (by omega), rejectIf_neg _ (by omega), h, List.take_left]
  rfl

theorem read_fixed32_of_drop (hsize : bytes.length ≤ usize_MAX) (hdata : data.length = 4)
    (h : bytes.drop idx = data ++ rest) :
    read_fixed32 bytes idx = .ok (UInt32.ofNat (from_le_bytes data), idx + 4) := by
  have hlength := congrArg List.length h
  rw [List.length_drop, List.length_append] at hlength
  have htake := take_bytes_of_drop "buffer index overflow" "buffer underflow reading fixed32" hsize
    (by omega) h
  rw [hdata] at htake
  rw [read_fixed32, htake, ok_bind]
  rfl

theorem read_fixed64_of_drop (hsize : bytes.length ≤ usize_MAX) (hdata : data.length = 8)
    (h : bytes.drop idx = data ++ rest) :
    read_fixed64 bytes idx = .ok (UInt64.ofNat (from_le_bytes data), idx + 8) := by
  have hlength := congrArg List.length h
  rw [List.length_drop, List.length_append] at hlength
  have htake := take_bytes_of_drop "buffer index overflow" "buffer underflow reading fixed64" hsize
    (by omega) h
  rw [hdata] at htake
  rw [read_fixed64, htake, ok_bind]
  rfl

/-- The length and the data of a length-delimited field. -/
def delimited (data : Bytes) : Bytes := write_varint (UInt64.ofNat data.length) ++ data

theorem read_length_delimited_delimited (hsize : bytes.length ≤ usize_MAX)
    (h : bytes.drop idx = delimited data ++ rest) :
    read_length_delimited bytes idx = .ok (data, idx + (delimited data).length) := by
  have hlength := congrArg List.length h
  rw [List.length_drop] at hlength
  unfold delimited at h hlength ⊢
  rw [List.append_assoc] at h
  simp only [List.length_append] at hlength ⊢
  have hpos := List.length_pos_iff.mpr (write_varint_ne_nil (UInt64.ofNat data.length))
  have hdrop : bytes.drop (idx + (write_varint (UInt64.ofNat data.length)).length) =
      data ++ rest := by
    rw [← List.drop_drop, h, List.drop_left]
  have hfits : data.length < UInt64.size := by
    unfold usize_MAX at hsize
    unfold UInt64.size
    omega
  rw [read_length_delimited, read_varint_write_varint h, ok_bind]
  dsimp only
  rw [UInt64.toNat_ofNat_of_lt' hfits, take_bytes_of_drop _ _ hsize (by omega) hdrop, Nat.add_assoc]

theorem unzigzag_i32_zigzag_i32 (value : Int32) : unzigzag_i32 (zigzag_i32 value) = .ok value := by
  have h := unzigzag_zigzag (by decide : 1 < 32) value.toBitVec
  unfold unzigzag_i32 zigzag_i32
  dsimp only
  congr 1
  apply Int32.toBitVec_inj.mp
  simpa [unzigzag, zigzag] using h

theorem unzigzag_i64_zigzag_i64 (value : Int64) : unzigzag_i64 (zigzag_i64 value) = value := by
  have h := unzigzag_zigzag (by decide : 1 < 64) value.toBitVec
  unfold unzigzag_i64 zigzag_i64
  apply Int64.toBitVec_inj.mp
  simpa [unzigzag, zigzag] using h

/-! ## A read moves the index inside the payload -/

theorem read_varint_loop_bounds
    (h : read_varint_loop bytes turns idx shift out = .ok (value, idx')) :
    idx < idx' ∧ idx' ≤ bytes.length := by
  induction turns generalizing idx shift out with
  | zero => simp [read_varint_loop] at h
  | succ turns ih =>
    unfold read_varint_loop at h
    split at h
    · simp at h
    · rename_i b hb
      have hlt := (List.getElem?_eq_some_iff.mp hb).1
      dsimp only at h
      split at h
      · simp only [Except.ok.injEq, Prod.mk.injEq] at h
        omega
      · split at h
        · simp at h
        · have := ih h
          omega

theorem read_varint_bounds (h : read_varint bytes idx = .ok (value, idx')) :
    idx < idx' ∧ idx' ≤ bytes.length :=
  read_varint_loop_bounds h

theorem take_bytes_bounds {overflow underflow : String} {n : Nat}
    (h : take_bytes overflow underflow bytes idx n = .ok (data, idx')) :
    idx' = idx + n ∧ idx' ≤ bytes.length ∧ data = (bytes.drop idx).take n := by
  unfold take_bytes at h
  simp only [seq_eq_ok, rejectIf_eq_ok] at h
  obtain ⟨_, hle, h⟩ := h
  cases h
  exact ⟨rfl, by omega, rfl⟩

end pulse.grpc
