-- What the decoder of untrusted responses does (infrastructure/grpc/dynamic_gateway.rs):
-- the same decoder with a log of the bytes that it reads, its shifts and sums, the
-- turns of its loops and the depth of its calls. Message types may contain each
-- other; it is the payload that bounds the work.
import Pulse.DynamicDecoding
import Pulse.PackedFields
import Pulse.Traces

open checks json traces

namespace pulse.grpc

/-! ## The log -/

/-- A part of a payload that is read. -/
structure Access where
  start : Nat
  stop : Nat
  length : Nat

structure Log where
  reads : List Access
  /-- The distances of the shifts of a `u64`. -/
  shifts : List Nat
  /-- The results of the sums that are not checked. -/
  sums : List Nat
  /-- The index before and after each turn of a loop that came to its end. -/
  ended : List (Nat × Nat)
  /-- How many turns were begun. -/
  turns : Nat
  /-- How deep the calls of `decode_message` are nested. -/
  depth : Nat
  /-- A count of turns ran out. -/
  exhausted : Bool

namespace Log

instance : EmptyCollection Log := ⟨⟨[], [], [], [], 0, 0, false⟩⟩

/-- One log after the other. -/
instance : Append Log where
  append a b :=
    { reads := a.reads ++ b.reads
      shifts := a.shifts ++ b.shifts
      sums := a.sums ++ b.sums
      ended := a.ended ++ b.ended
      turns := a.turns + b.turns
      depth := max a.depth b.depth
      exhausted := a.exhausted || b.exhausted }

def read (start stop length : Nat) : Log := { (∅ : Log) with reads := [⟨start, stop, length⟩] }

/-- One byte is read and shifted into a varint, and the index goes on. -/
def byte (idx shift length : Nat) : Log :=
  { (∅ : Log) with
    reads := [⟨idx, idx + 1, length⟩]
    shifts := [shift]
    sums := [idx + 1] }

def turn : Log := { (∅ : Log) with turns := 1 }

def endOfTurn (before after : Nat) : Log := { (∅ : Log) with ended := [(before, after)] }

def exhaustion : Log := { (∅ : Log) with exhausted := true }

variable (a b : Log)

@[simp] theorem reads_append : (a ++ b).reads = a.reads ++ b.reads := rfl
@[simp] theorem shifts_append : (a ++ b).shifts = a.shifts ++ b.shifts := rfl
@[simp] theorem sums_append : (a ++ b).sums = a.sums ++ b.sums := rfl
@[simp] theorem ended_append : (a ++ b).ended = a.ended ++ b.ended := rfl
@[simp] theorem turns_append : (a ++ b).turns = a.turns + b.turns := rfl
@[simp] theorem depth_append : (a ++ b).depth = max a.depth b.depth := rfl
@[simp] theorem exhausted_append : (a ++ b).exhausted = (a.exhausted || b.exhausted) := rfl

/-- Every read is inside its payload, no shift and no sum overflows, every turn moves the
index forward, and no loop needs more turns than it is given. -/
structure Safe (log : Log) : Prop where
  inside : ∀ access ∈ log.reads, access.start ≤ access.stop ∧ access.stop ≤ access.length
  shifts : ∀ shift ∈ log.shifts, shift < 64
  sums : ∀ sum ∈ log.sums, sum ≤ usize_MAX
  forward : ∀ turn ∈ log.ended, turn.1 < turn.2
  ends : log.exhausted = false

theorem safe_empty : Safe ∅ where
  inside := by simp [show (∅ : Log).reads = [] from rfl]
  shifts := by simp [show (∅ : Log).shifts = [] from rfl]
  sums := by simp [show (∅ : Log).sums = [] from rfl]
  forward := by simp [show (∅ : Log).ended = [] from rfl]
  ends := rfl

theorem safe_additive : Additive Safe where
  empty := safe_empty
  append ha hb :=
    { inside := List.forall_mem_append.mpr ⟨ha.inside, hb.inside⟩
      shifts := List.forall_mem_append.mpr ⟨ha.shifts, hb.shifts⟩
      sums := List.forall_mem_append.mpr ⟨ha.sums, hb.sums⟩
      forward := List.forall_mem_append.mpr ⟨ha.forward, hb.forward⟩
      ends := by rw [exhausted_append, ha.ends, hb.ends]; rfl }

variable {stop length shift : Nat}

theorem safe_read {start : Nat} (hle : start ≤ stop) (hstop : stop ≤ length) :
    Safe (read start stop length) :=
  { safe_empty with inside := by simpa [read] using ⟨hle, hstop⟩ }

theorem safe_byte {idx : Nat} (hidx : idx < length) (hlength : length ≤ usize_MAX)
    (hshift : shift < 64) : Safe (byte idx shift length) :=
  { safe_empty with
    inside := by simpa [byte] using Nat.succ_le_of_lt hidx
    shifts := by simpa [byte] using hshift
    sums := by
      simp only [byte, List.mem_singleton, forall_eq]
      omega }

theorem safe_turn : Safe turn := { safe_empty with }

theorem safe_endOfTurn {before after : Nat} (h : before < after) : Safe (endOfTurn before after) :=
  { safe_empty with forward := by simpa [endOfTurn] using h }

/-- The log of a reader: no loop over fields or elements, and no call. -/
structure Plain (log : Log) : Prop where
  turns : log.turns = 0
  depth : log.depth = 0

theorem plain_additive : Additive Plain where
  empty := ⟨rfl, rfl⟩
  append ha hb :=
    { turns := by rw [turns_append, ha.turns, hb.turns]
      depth := by rw [depth_append, ha.depth, hb.depth, max_self] }

end Log

abbrev Decoding := Traced Log PulseError

/-- One call of `decode_message` deeper. -/
def calling {α : Type} (x : Decoding α) : Decoding α :=
  ⟨x.result, { x.log with depth := x.log.depth + 1 }⟩

/-! ## The decoder with its log -/

namespace traced

def read_varint_loop (bytes : Bytes) : Nat → Nat → Nat → UInt64 → Decoding (UInt64 × Nat)
  | 0, _, _, _ => do
    note .exhaustion
    of (.error (.Client "varint too long"))
  | turns + 1, idx, shift, out =>
    match bytes[idx]? with
    | none => of (.error (.Client "unexpected end of payload while reading varint"))
    | some b => do
      note (.byte idx shift bytes.length)
      let out := out ||| ((b &&& 0x7F).toUInt64 <<< UInt64.ofNat shift)
      if b &&& 0x80 = 0 then return (out, idx + 1)
      else if shift + 7 > 63 then of (.error (.Client "varint too long"))
      else read_varint_loop bytes turns (idx + 1) (shift + 7) out

def read_varint (bytes : Bytes) (idx : Nat) : Decoding (UInt64 × Nat) :=
  read_varint_loop bytes 10 idx 0 0

def take_bytes (overflow underflow : String) (bytes : Bytes) (idx n : Nat) :
    Decoding (Bytes × Nat) := do
  of (rejectIf (usize_MAX < idx + n) (.Client overflow))
  of (rejectIf (bytes.length < idx + n) (.Client underflow))
  note (.read idx (idx + n) bytes.length)
  return ((bytes.drop idx).take n, idx + n)

def advance (bytes : Bytes) (idx n : Nat) : Decoding Nat := do
  let (_, idx) ← take_bytes "buffer index overflow" "buffer underflow while decoding" bytes idx n
  return idx

def read_fixed32 (bytes : Bytes) (idx : Nat) : Decoding (UInt32 × Nat) := do
  let (arr, idx) ←
    take_bytes "buffer index overflow" "buffer underflow reading fixed32" bytes idx 4
  return (UInt32.ofNat (varints.from_le_bytes arr), idx)

def read_fixed64 (bytes : Bytes) (idx : Nat) : Decoding (UInt64 × Nat) := do
  let (arr, idx) ←
    take_bytes "buffer index overflow" "buffer underflow reading fixed64" bytes idx 8
  return (UInt64.ofNat (varints.from_le_bytes arr), idx)

def read_length_delimited (bytes : Bytes) (idx : Nat) : Decoding (Bytes × Nat) := do
  let (len, idx) ← read_varint bytes idx
  take_bytes "length-delimited overflow" "length-delimited field exceeds payload" bytes idx
    len.toNat

def skip_wire_value (wire_type : UInt8) (bytes : Bytes) (idx : Nat) : Decoding Nat :=
  match wire_type with
  | 0 => do
    let (_, idx) ← read_varint bytes idx
    return idx
  | 1 => advance bytes idx 8
  | 2 => do
    let (len, idx) ← read_varint bytes idx
    advance bytes idx len.toNat
  | 5 => advance bytes idx 4
  | _ => of (.error
    (.Client s!"unsupported wire type while skipping unknown field: {wire_type.toNat}"))

/-- The value comes from what the reader of the kind reads. -/
def decode_packable_value (kind : FieldKind) (bytes : Bytes) (idx : Nat) :
    Decoding (Value × Nat) where
  result := grpc.decode_packable_value kind bytes idx
  log :=
    match kind.wire_type with
    | 0 => (read_varint bytes idx).log
    | 1 => (read_fixed64 bytes idx).log
    | 5 => (read_fixed32 bytes idx).log
    | _ => ∅

def decode_single_field_value (library : Library) (nested : String → Bytes → Decoding Value)
    (field : FieldSchema) (wire_type : UInt8) (bytes : Bytes) (idx : Nat) :
    Decoding (Value × Nat) := do
  of (ensure_wire_type wire_type field.kind.wire_type field)
  match field.kind with
  | .String => do
    let (data, idx) ← read_length_delimited bytes idx
    let text ← of (okOr (String.fromUTF8? ⟨data.toArray⟩)
      (.Client s!"invalid utf8 in field '{field.name}': {library.utf8_error data}"))
    return (.String text, idx)
  | .Message message_name => do
    let (data, idx) ← read_length_delimited bytes idx
    return (← nested message_name data, idx)
  | .Bytes => do
    let (data, idx) ← read_length_delimited bytes idx
    return (.String (library.encode_base64 data), idx)
  | kind => decode_packable_value kind bytes idx

def decode_packed_loop (kind : FieldKind) (bytes : Bytes) (stop : Nat) :
    Nat → Nat → Decoding (List Value)
  | 0, packed_idx =>
    if packed_idx < stop then do
      note .exhaustion
      return []
    else return []
  | turns + 1, packed_idx =>
    if packed_idx < stop then do
      note .turn
      let (value, next_idx) ← decode_packable_value kind bytes packed_idx
      note (.endOfTurn packed_idx next_idx)
      return value :: (← decode_packed_loop kind bytes stop turns next_idx)
    else return []

def decode_packed (kind : FieldKind) (bytes : Bytes) (idx : Nat) :
    Decoding (List Value × Nat) := do
  let (packed_len, idx) ← read_varint bytes idx
  let stop := idx + packed_len.toNat
  of (rejectIf (usize_MAX < stop) (.Client "packed field length overflow"))
  of (rejectIf (bytes.length < stop) (.Client "packed field exceeds payload bounds"))
  return (← decode_packed_loop kind bytes stop packed_len.toNat idx, stop)

def decode_step (library : Library) (nested : String → Bytes → Decoding Value)
    (schema : MessageSchema) (bytes : Bytes) (idx : Nat) (out : Members) :
    Decoding (Nat × Members) := do
  let (key, idx) ← read_varint bytes idx
  let field_number := (key >>> 3).toUInt32
  let wire_type := (key &&& 0x7).toUInt8
  match schema.fields_by_number field_number with
  | none => return (← skip_wire_value wire_type bytes idx, out)
  | some field =>
    if field.repeated ∧ field.packable ∧ wire_type = 2 then do
      let (arr, idx) ← decode_packed field.kind bytes idx
      return (idx, append_decoded_field out field.name (.Array arr) true)
    else do
      let (value, idx) ← decode_single_field_value library nested field wire_type bytes idx
      return (idx, append_decoded_field out field.name value field.repeated)

def decode_loop (library : Library) (messages : MessageRegistry) :
    Nat → MessageSchema → Bytes → Nat → Members → Decoding Members
  | 0, _, _, _, _ => do
    note .exhaustion
    of (.error (.Client "the payload is too long"))
  | turns + 1, schema, bytes, idx, out =>
    if idx < bytes.length then do
      note .turn
      let nested := fun message_name data => calling do
        let schema ← of (okOr (messages message_name)
          (.Client s!"message '{message_name}' not found in descriptor set"))
        return Value.Object (← decode_loop library messages turns schema data 0 [])
      let (next_idx, out) ← decode_step library nested schema bytes idx out
      note (.endOfTurn idx next_idx)
      decode_loop library messages turns schema bytes next_idx out
    else return out

def decode_message (library : Library) (messages : MessageRegistry) (message_name : String)
    (bytes : Bytes) : Decoding Value :=
  calling do
    let schema ← of (okOr (messages message_name)
      (.Client s!"message '{message_name}' not found in descriptor set"))
    return .Object (← decode_loop library messages (bytes.length + 1) schema bytes 0 [])

/-! ## The log does not change the results -/

@[simp]
theorem read_varint_loop_result (bytes : Bytes) (turns idx shift : Nat) (out : UInt64) :
    (read_varint_loop bytes turns idx shift out).result =
      grpc.read_varint_loop bytes turns idx shift out := by
  induction turns generalizing idx shift out with
  | zero => rfl
  | succ turns ih =>
    unfold read_varint_loop grpc.read_varint_loop
    cases bytes[idx]? with
    | none => rfl
    | some b =>
      dsimp only
      rw [result_bind, result_note, ok_bind]
      by_cases hlast : b &&& 0x80 = 0
      · rw [if_pos hlast, if_pos hlast]
        rfl
      · rw [if_neg hlast, if_neg hlast]
        by_cases hshift : shift + 7 > 63
        · rw [if_pos hshift, if_pos hshift]
          rfl
        · rw [if_neg hshift, if_neg hshift]
          exact ih ..

@[simp]
theorem read_varint_result (bytes : Bytes) (idx : Nat) :
    (read_varint bytes idx).result = grpc.read_varint bytes idx :=
  read_varint_loop_result ..

@[simp]
theorem take_bytes_result (overflow underflow : String) (bytes : Bytes) (idx n : Nat) :
    (take_bytes overflow underflow bytes idx n).result =
      grpc.take_bytes overflow underflow bytes idx n := by
  simp [take_bytes, grpc.take_bytes, ok_bind]
  rfl

@[simp]
theorem advance_result (bytes : Bytes) (idx n : Nat) :
    (advance bytes idx n).result = grpc.advance bytes idx n := by
  simp [advance, grpc.advance]
  rfl

@[simp]
theorem read_fixed32_result (bytes : Bytes) (idx : Nat) :
    (read_fixed32 bytes idx).result = grpc.read_fixed32 bytes idx := by
  simp [read_fixed32, grpc.read_fixed32]
  rfl

@[simp]
theorem read_fixed64_result (bytes : Bytes) (idx : Nat) :
    (read_fixed64 bytes idx).result = grpc.read_fixed64 bytes idx := by
  simp [read_fixed64, grpc.read_fixed64]
  rfl

@[simp]
theorem read_length_delimited_result (bytes : Bytes) (idx : Nat) :
    (read_length_delimited bytes idx).result = grpc.read_length_delimited bytes idx := by
  simp [read_length_delimited, grpc.read_length_delimited]

@[simp]
theorem skip_wire_value_result (wire_type : UInt8) (bytes : Bytes) (idx : Nat) :
    (skip_wire_value wire_type bytes idx).result = grpc.skip_wire_value wire_type bytes idx := by
  unfold skip_wire_value grpc.skip_wire_value
  split
  · rw [result_bind, read_varint_result]
    rfl
  · exact advance_result ..
  · simp
  · exact advance_result ..
  · simp

variable (kind : FieldKind)

@[simp]
theorem decode_packable_value_result (bytes : Bytes) (idx : Nat) :
    (decode_packable_value kind bytes idx).result = grpc.decode_packable_value kind bytes idx :=
  rfl

variable (library : Library)

@[simp]
theorem decode_single_field_value_result (nested : String → Bytes → Decoding Value)
    (field : FieldSchema) (wire_type : UInt8) (bytes : Bytes) (idx : Nat) :
    (decode_single_field_value library nested field wire_type bytes idx).result =
      grpc.decode_single_field_value library (fun name data => (nested name data).result) field
        wire_type bytes idx := by
  unfold decode_single_field_value grpc.decode_single_field_value
  rw [result_bind, result_of]
  congr 1
  funext _
  cases field.kind <;> simp <;> rfl

@[simp]
theorem decode_packed_loop_result (bytes : Bytes) (stop turns idx : Nat) :
    (decode_packed_loop kind bytes stop turns idx).result =
      grpc.decode_packed_loop kind bytes stop turns idx := by
  induction turns generalizing idx with
  | zero =>
    unfold decode_packed_loop
    split <;> rfl
  | succ turns ih =>
    unfold decode_packed_loop grpc.decode_packed_loop
    split
    · simp [ok_bind, ih]
      rfl
    · rfl

@[simp]
theorem decode_packed_result (bytes : Bytes) (idx : Nat) :
    (decode_packed kind bytes idx).result = grpc.decode_packed kind bytes idx := by
  simp [decode_packed, grpc.decode_packed]
  rfl

@[simp]
theorem decode_step_result (nested : String → Bytes → Decoding Value) (schema : MessageSchema)
    (bytes : Bytes) (idx : Nat) (out : Members) :
    (decode_step library nested schema bytes idx out).result =
      grpc.decode_step library (fun name data => (nested name data).result) schema bytes idx
        out := by
  unfold decode_step grpc.decode_step
  rw [result_bind, read_varint_result]
  congr 1
  funext key
  dsimp only
  cases schema.fields_by_number (key.1 >>> 3).toUInt32 with
  | none =>
    dsimp only
    rw [result_bind, skip_wire_value_result]
    rfl
  | some field =>
    dsimp only
    by_cases hpacked : field.repeated ∧ field.packable ∧ (key.1 &&& 0x7).toUInt8 = 2
    · rw [if_pos hpacked, if_pos hpacked, result_bind, decode_packed_result]
      rfl
    · rw [if_neg hpacked, if_neg hpacked, result_bind, decode_single_field_value_result]
      rfl

variable (messages : MessageRegistry)

@[simp]
theorem decode_loop_result (turns : Nat) (schema : MessageSchema) (bytes : Bytes) (idx : Nat)
    (out : Members) :
    (decode_loop library messages turns schema bytes idx out).result =
      grpc.decode_loop library messages turns schema bytes idx out := by
  induction turns generalizing schema bytes idx out with
  | zero => rfl
  | succ turns ih =>
    unfold decode_loop grpc.decode_loop
    split
    · simp [ok_bind, calling, ih]
      rfl
    · rfl

variable (message_name : String)

theorem decode_message_result (bytes : Bytes) :
    (decode_message library messages message_name bytes).result =
      grpc.decode_message library messages message_name bytes := by
  simp [decode_message, grpc.decode_message, calling]
  rfl

/-! ## What the readers note -/

/-- A property of logs that the readers of a payload keep. -/
structure OfReaders (bytes : Bytes) (P : Log → Prop) : Prop extends Additive P where
  byte : ∀ {idx shift : Nat}, idx < bytes.length → shift < 64 → P (.byte idx shift bytes.length)
  read : ∀ {start stop : Nat}, start ≤ stop → stop ≤ bytes.length →
    P (.read start stop bytes.length)

variable {bytes : Bytes}

theorem safe_ofReaders (h : bytes.length ≤ usize_MAX) : OfReaders bytes Log.Safe where
  toAdditive := Log.safe_additive
  byte hidx hshift := Log.safe_byte hidx h hshift
  read hle hstop := Log.safe_read hle hstop

theorem plain_ofReaders (bytes : Bytes) : OfReaders bytes Log.Plain where
  toAdditive := Log.plain_additive
  byte _ _ := ⟨rfl, rfl⟩
  read _ _ := ⟨rfl, rfl⟩

namespace OfReaders

variable {P : Log → Prop} (hP : OfReaders bytes P)
include hP

variable {idx turns start : Nat}

theorem read_varint_loop (out : UInt64) (hturns : shift + 7 * turns = 70) (hshift : shift < 64) :
    P (traced.read_varint_loop bytes turns idx shift out).log := by
  induction turns generalizing idx shift out with
  | zero => omega
  | succ turns ih =>
    unfold traced.read_varint_loop
    cases hb : bytes[idx]? with
    | none => exact hP.empty
    | some b =>
      apply hP.bind (hP.byte (List.getElem?_eq_some_iff.mp hb).1 hshift)
      intro _ _
      dsimp only
      split
      · exact hP.empty
      · split
        · exact hP.empty
        · exact ih _ (by omega) (by omega)

theorem read_varint (idx : Nat) : P (traced.read_varint bytes idx).log :=
  hP.read_varint_loop 0 (by omega) (by omega)

theorem take_bytes (overflow underflow : String) (idx n : Nat) :
    P (traced.take_bytes overflow underflow bytes idx n).log := by
  unfold traced.take_bytes
  apply hP.bind hP.empty
  intro _ _
  apply hP.bind hP.empty
  intro _ hle
  rw [result_of, rejectIf_eq_ok] at hle
  exact hP.bind (hP.read (by omega) (by omega)) fun _ _ => hP.empty

theorem advance (idx n : Nat) : P (traced.advance bytes idx n).log :=
  hP.bind (hP.take_bytes ..) fun _ _ => hP.empty

theorem read_fixed32 (idx : Nat) : P (traced.read_fixed32 bytes idx).log :=
  hP.bind (hP.take_bytes ..) fun _ _ => hP.empty

theorem read_fixed64 (idx : Nat) : P (traced.read_fixed64 bytes idx).log :=
  hP.bind (hP.take_bytes ..) fun _ _ => hP.empty

theorem read_length_delimited (idx : Nat) : P (traced.read_length_delimited bytes idx).log :=
  hP.bind (hP.read_varint idx) fun _ _ => hP.take_bytes ..

theorem skip_wire_value (wire_type : UInt8) (idx : Nat) :
    P (traced.skip_wire_value wire_type bytes idx).log := by
  unfold traced.skip_wire_value
  split
  · exact hP.bind (hP.read_varint idx) fun _ _ => hP.empty
  · exact hP.advance ..
  · exact hP.bind (hP.read_varint idx) fun _ _ => hP.advance ..
  · exact hP.advance ..
  · exact hP.empty

theorem decode_packable_value (kind : FieldKind) (idx : Nat) :
    P (traced.decode_packable_value kind bytes idx).log := by
  unfold traced.decode_packable_value
  dsimp only
  split
  · exact hP.read_varint idx
  · exact hP.read_fixed64 idx
  · exact hP.read_fixed32 idx
  · exact hP.empty

variable {nested : String → Bytes → Decoding Value}

/-- A field adds what its nested messages add. Their data is shorter than the rest of the
payload by their key and their length. -/
theorem decode_single_field_value (library : Library) (field : FieldSchema) (wire_type : UInt8)
    (hnested : ∀ message_name data, idx + data.length < bytes.length →
      P (nested message_name data).log) :
    P (traced.decode_single_field_value library nested field wire_type bytes idx).log := by
  unfold traced.decode_single_field_value
  apply hP.bind hP.empty
  intro _ _
  split
  · apply hP.bind (hP.read_length_delimited idx)
    intro _ _
    exact hP.bind hP.empty fun _ _ => hP.empty
  · apply hP.bind (hP.read_length_delimited idx)
    intro data hdata
    rw [read_length_delimited_result] at hdata
    have hbounds := read_length_delimited_bounds hdata
    exact hP.bind (hnested _ data.1 (by omega)) fun _ _ => hP.empty
  · exact hP.bind (hP.read_length_delimited idx) fun _ _ => hP.empty
  · exact hP.decode_packable_value _ idx

end OfReaders

/-! ## Nothing overflows and every turn moves on -/

section safety

variable (hbytes : bytes.length ≤ usize_MAX)
include hbytes

theorem decode_packed_loop_safe (kind : FieldKind) (hturns : stop ≤ idx + turns) :
    (decode_packed_loop kind bytes stop turns idx).log.Safe := by
  induction turns generalizing idx with
  | zero =>
    unfold decode_packed_loop
    rw [if_neg (by omega)]
    exact Log.safe_empty
  | succ turns ih =>
    unfold decode_packed_loop
    split
    · apply Log.safe_additive.bind Log.safe_turn
      intro _ _
      apply Log.safe_additive.bind ((safe_ofReaders hbytes).decode_packable_value kind idx)
      intro next hnext
      rw [decode_packable_value_result] at hnext
      have hbounds := decode_packable_value_bounds hnext
      apply Log.safe_additive.bind (Log.safe_endOfTurn hbounds.1)
      intro _ _
      exact Log.safe_additive.bind (ih (by omega)) fun _ _ => Log.safe_empty
    · exact Log.safe_empty

theorem decode_packed_safe (kind : FieldKind) (idx : Nat) :
    (decode_packed kind bytes idx).log.Safe := by
  unfold decode_packed
  apply Log.safe_additive.bind ((safe_ofReaders hbytes).read_varint idx)
  intro _ _
  apply Log.safe_additive.bind Log.safe_empty
  intro _ _
  apply Log.safe_additive.bind Log.safe_empty
  intro _ _
  exact Log.safe_additive.bind (decode_packed_loop_safe hbytes kind (by omega)) fun _ _ =>
    Log.safe_empty

theorem decode_step_safe (library : Library) (schema : MessageSchema) (out : Members)
    (hnested : ∀ message_name data, data.length < bytes.length - idx →
      (nested message_name data).log.Safe) :
    (decode_step library nested schema bytes idx out).log.Safe := by
  unfold decode_step
  apply Log.safe_additive.bind ((safe_ofReaders hbytes).read_varint idx)
  intro key hkey
  rw [read_varint_result] at hkey
  have hbounds := read_varint_bounds hkey
  dsimp only
  split
  · exact Log.safe_additive.bind ((safe_ofReaders hbytes).skip_wire_value ..) fun _ _ =>
      Log.safe_empty
  · split
    · exact Log.safe_additive.bind (decode_packed_safe hbytes ..) fun _ _ => Log.safe_empty
    · apply Log.safe_additive.bind
      · apply (safe_ofReaders hbytes).decode_single_field_value library
        intro message_name data hdata
        exact hnested message_name data (by omega)
      · intro _ _
        exact Log.safe_empty

end safety

theorem calling_safe {α : Type} {x : Decoding α} (h : x.log.Safe) : (calling x).log.Safe :=
  { h with }

theorem decode_loop_safe (schema : MessageSchema) (out : Members)
    (hbytes : bytes.length ≤ usize_MAX) (hturns : bytes.length - idx < turns) :
    (decode_loop library messages turns schema bytes idx out).log.Safe := by
  induction turns generalizing schema bytes idx out with
  | zero => omega
  | succ turns ih =>
    unfold decode_loop
    split
    · apply Log.safe_additive.bind Log.safe_turn
      intro _ _
      apply Log.safe_additive.bind
      · apply decode_step_safe hbytes
        intro message_name data hdata
        apply calling_safe
        apply Log.safe_additive.bind Log.safe_empty
        intro inner _
        exact Log.safe_additive.bind (ih inner [] (by omega) (by omega)) fun _ _ => Log.safe_empty
      · intro next hnext
        rw [decode_step_result] at hnext
        have hbounds := decode_step_bounds hnext
        apply Log.safe_additive.bind (Log.safe_endOfTurn hbounds.1)
        intro _ _
        exact ih schema _ hbytes (by omega)
    · exact Log.safe_empty

/-! ## The payload bounds the work -/

/-- Every byte pays for one turn at each depth, and two bytes pay for a call. -/
structure Within (available turns depth : Nat) : Prop where
  paid : turns ≤ available * (depth + 1)
  nested : 2 * depth ≤ available

namespace Within

variable {m n turns turns' depth depth' : Nat}

theorem flat (h : turns ≤ n) : Within n turns 0 where
  paid := by omega
  nested := by omega

theorem mono (h : Within m turns depth) (hle : m ≤ n) : Within n turns depth where
  paid := h.paid.trans (Nat.mul_le_mul_right _ hle)
  nested := h.nested.trans hle

theorem append (h : Within m turns depth) (h' : Within n turns' depth') :
    Within (m + n) (turns + turns') (max depth depth') where
  paid := by
    have hleft : m * (depth + 1) ≤ m * (max depth depth' + 1) := by gcongr; exact le_max_left ..
    have hright : n * (depth' + 1) ≤ n * (max depth depth' + 1) := by gcongr; exact le_max_right ..
    have hpaid := h.paid
    have hpaid' := h'.paid
    rw [Nat.add_mul]
    omega
  nested := by
    have hnested := h.nested
    have hnested' := h'.nested
    omega

/-- A turn that decodes a nested message reads its key and its length too. -/
theorem call (h : Within m turns depth) : Within (m + 2) (turns + 1) (depth + 1) where
  paid := by
    have hpaid : turns ≤ m * (depth + 1) := h.paid
    have hmore : m * (depth + 1) ≤ m * (depth + 1 + 1) := by gcongr; omega
    rw [Nat.add_mul]
    omega
  nested := by
    have hnested := h.nested
    omega

end Within

/-- A property of the turns, the depth and the result of a computation. -/
def Weighs {β : Type} (P : Nat → Nat → Except PulseError β → Prop) (x : Decoding β) : Prop :=
  P x.log.turns x.log.depth x.result

section weights

variable {α β : Type} {P : Nat → Nat → Except PulseError β → Prop}

/-- A reader before a computation adds no turns and no depth. -/
theorem Weighs.bind {x : Decoding α} {f : α → Decoding β} (hx : x.log.Plain)
    (herror : ∀ e, P 0 0 (.error e)) (hf : ∀ a, x.result = .ok a → Weighs P (f a)) :
    Weighs P (x >>= f) := by
  unfold Weighs
  rw [result_bind]
  cases h : x.result with
  | error e =>
    rw [log_bind_error h, hx.turns, hx.depth]
    exact herror e
  | ok a =>
    rw [log_bind_ok h, Log.turns_append, Log.depth_append, hx.turns, hx.depth, Nat.zero_add,
      Nat.zero_max]
    exact hf a h

theorem Weighs.map {x : Decoding α} {f : α → β}
    (h : Weighs (fun turns depth r => P turns depth (r.map f)) x) :
    Weighs P (x >>= fun a => pure (f a)) := by
  unfold Weighs at h ⊢
  rw [result_bind]
  cases hx : x.result with
  | error e =>
    rw [log_bind_error hx]
    rw [hx] at h
    exact h
  | ok a =>
    rw [log_bind_ok hx, Log.turns_append, Log.depth_append]
    rw [hx] at h
    change P (x.log.turns + 0) (max x.log.depth 0) (.ok (f a))
    rw [Nat.add_zero, Nat.max_zero]
    exact h

/-- The bytes that a computation reads from an index on: all that are left when it fails. -/
def spent (bytes : Bytes) (idx : Nat) (index : α → Nat) : Except PulseError α → Nat
  | .ok a => index a - idx
  | .error _ => bytes.length - idx

/-- The turn that a computation is part of, and all that it does, is paid by what it reads. -/
def Paid (bytes : Bytes) (idx : Nat) (index : α → Nat) (turns depth : Nat)
    (r : Except PulseError α) : Prop :=
  Within (spent bytes idx index r) (turns + 1) depth

theorem paid_error (index : α → Nat) (h : idx < bytes.length) (e : PulseError) :
    Paid bytes idx index 0 0 (.error e) := by
  apply Within.flat
  change 0 + 1 ≤ bytes.length - idx
  omega

theorem paid_ok {index : α → Nat} {a : α} (h : idx < index a) :
    Paid bytes idx index 0 0 (.ok a) := by
  apply Within.flat
  change 0 + 1 ≤ index a - idx
  omega

end weights

theorem decode_packed_loop_turns (bytes : Bytes) (stop turns idx : Nat) :
    Weighs (fun turns depth _ => turns ≤ stop - idx ∧ depth = 0)
      (decode_packed_loop kind bytes stop turns idx) := by
  induction turns generalizing idx with
  | zero =>
    unfold decode_packed_loop
    split
    · exact ⟨Nat.zero_le _, rfl⟩
    · exact ⟨Nat.zero_le _, rfl⟩
  | succ turns ih =>
    unfold decode_packed_loop
    split
    · rename_i hlt
      -- the turn reads a byte before the next one begins
      have hturn : Weighs (fun turns depth _ => 1 + turns ≤ stop - idx ∧ depth = 0) (do
          let (value, next_idx) ← decode_packable_value kind bytes idx
          note (.endOfTurn idx next_idx)
          return value :: (← decode_packed_loop kind bytes stop turns next_idx)) := by
        apply Weighs.bind ((plain_ofReaders bytes).decode_packable_value kind idx)
        · intro _
          exact ⟨by omega, rfl⟩
        · intro next hnext
          rw [decode_packable_value_result] at hnext
          have hbounds := decode_packable_value_bounds hnext
          apply Weighs.bind ⟨rfl, rfl⟩
          · intro _
            exact ⟨by omega, rfl⟩
          · intro _ _
            apply Weighs.map
            obtain ⟨hrest, hdepth⟩ := ih next.2
            exact ⟨by omega, hdepth⟩
      unfold Weighs at hturn ⊢
      rw [log_bind_ok (result_note _), Log.turns_append, Log.depth_append]
      change 1 + _ ≤ stop - idx ∧ max 0 _ = 0
      rw [Nat.zero_max]
      exact hturn
    · exact ⟨Nat.zero_le _, rfl⟩

theorem decode_packed_paid (hidx : idx < start) (hstart : start ≤ bytes.length) :
    Weighs (Paid bytes idx Prod.snd) (decode_packed kind bytes start) := by
  have hlt : idx < bytes.length := by omega
  unfold decode_packed
  apply Weighs.bind ((plain_ofReaders bytes).read_varint start) (paid_error _ hlt)
  intro key hkey
  rw [read_varint_result] at hkey
  have hkey := read_varint_bounds hkey
  apply Weighs.bind ⟨rfl, rfl⟩ (paid_error _ hlt)
  intro _ _
  apply Weighs.bind ⟨rfl, rfl⟩ (paid_error _ hlt)
  intro _ hstop
  rw [result_of, rejectIf_eq_ok] at hstop
  apply Weighs.map
  obtain ⟨hloop, hdepth⟩ :=
    decode_packed_loop_turns kind bytes (key.2 + key.1.toNat) key.1.toNat key.2
  unfold Weighs Paid
  rw [hdepth]
  apply Within.flat
  cases (decode_packed_loop kind bytes (key.2 + key.1.toNat) key.1.toNat key.2).result with
  | error e =>
    change _ ≤ bytes.length - idx
    omega
  | ok arr =>
    change _ ≤ key.2 + key.1.toNat - idx
    omega

theorem decode_single_field_value_paid (field : FieldSchema) (wire_type : UInt8)
    (hidx : idx < start) (hstart : start ≤ bytes.length)
    (hnested : ∀ message_name data, Within (data.length + 2)
      ((nested message_name data).log.turns + 1) (nested message_name data).log.depth) :
    Weighs (Paid bytes idx Prod.snd)
      (decode_single_field_value library nested field wire_type bytes start) := by
  have hlt : idx < bytes.length := by omega
  have hdelimited := (plain_ofReaders bytes).read_length_delimited start
  unfold decode_single_field_value
  apply Weighs.bind ⟨rfl, rfl⟩ (paid_error _ hlt)
  intro _ _
  split
  · apply Weighs.bind hdelimited (paid_error _ hlt)
    intro data hdata
    rw [read_length_delimited_result] at hdata
    have hbounds := read_length_delimited_bounds hdata
    apply Weighs.bind ⟨rfl, rfl⟩ (paid_error _ hlt)
    intro text _
    exact paid_ok (hidx.trans hbounds.1)
  · rename_i message_name _
    apply Weighs.bind hdelimited (paid_error _ hlt)
    intro data hdata
    rw [read_length_delimited_result] at hdata
    have hbounds := read_length_delimited_bounds hdata
    apply Weighs.map
    -- the key, the length and the data of the field
    apply (hnested message_name data.1).mono
    cases (nested message_name data.1).result with
    | error e =>
      change data.1.length + 2 ≤ bytes.length - idx
      omega
    | ok value =>
      change data.1.length + 2 ≤ data.2 - idx
      omega
  · apply Weighs.bind hdelimited (paid_error _ hlt)
    intro data hdata
    rw [read_length_delimited_result] at hdata
    have hbounds := read_length_delimited_bounds hdata
    exact paid_ok (hidx.trans hbounds.1)
  · have hplain := (plain_ofReaders bytes).decode_packable_value field.kind start
    unfold Weighs
    rw [hplain.turns, hplain.depth]
    cases hvalue : (decode_packable_value field.kind bytes start).result with
    | error e => exact paid_error _ hlt e
    | ok next => exact paid_ok (hidx.trans (decode_packable_value_bounds hvalue).1)

/-- A turn of the loop is paid by the bytes that it reads. -/
theorem decode_step_paid (schema : MessageSchema) (out : Members) (hidx : idx < bytes.length)
    (hnested : ∀ message_name data, Within (data.length + 2)
      ((nested message_name data).log.turns + 1) (nested message_name data).log.depth) :
    Weighs (Paid bytes idx Prod.fst) (decode_step library nested schema bytes idx out) := by
  unfold decode_step
  apply Weighs.bind ((plain_ofReaders bytes).read_varint idx) (paid_error _ hidx)
  intro key hkey
  rw [read_varint_result] at hkey
  have hstart := read_varint_bounds hkey
  dsimp only
  split
  · apply Weighs.bind ((plain_ofReaders bytes).skip_wire_value ..) (paid_error _ hidx)
    intro stop hstop
    rw [skip_wire_value_result] at hstop
    have hbounds := skip_wire_value_bounds hstop
    exact paid_ok (hstart.1.trans_le hbounds.1)
  · rename_i field _
    split
    · apply Weighs.map
      have hpacked := decode_packed_paid field.kind hstart.1 hstart.2
      unfold Weighs at hpacked ⊢
      cases hresult : (decode_packed field.kind bytes key.2).result <;>
        (rw [hresult] at hpacked; exact hpacked)
    · apply Weighs.map
      have hsingle := decode_single_field_value_paid library field (key.1 &&& 0x7).toUInt8
        hstart.1 hstart.2 hnested
      unfold Weighs at hsingle ⊢
      cases hresult : (decode_single_field_value library nested field (key.1 &&& 0x7).toUInt8
          bytes key.2).result <;>
        (rw [hresult] at hsingle; exact hsingle)

theorem calling_within {α : Type} {n : Nat} {x : Decoding α}
    (h : Weighs (fun turns depth _ => Within n turns depth) x) :
    Within (n + 2) ((calling x).log.turns + 1) (calling x).log.depth :=
  Within.call h

/-- What a call does is what its loop does. -/
theorem message_within {library : Library} {messages : MessageRegistry}
    (hloop : ∀ schema, Weighs (fun turns depth _ => Within bytes.length turns depth)
      (decode_loop library messages turns schema bytes 0 [])) :
    Weighs (fun turns depth _ => Within bytes.length turns depth) (do
      let schema ← of (okOr (messages message_name)
        (.Client s!"message '{message_name}' not found in descriptor set"))
      return Value.Object (← decode_loop library messages turns schema bytes 0 [])) := by
  apply Weighs.bind ⟨rfl, rfl⟩
  · intro _
    exact .flat (Nat.zero_le _)
  · intro schema _
    apply Weighs.map
    exact hloop schema

/-- The loop of a message is paid by the rest of the payload. -/
theorem decode_loop_within (turns : Nat) (schema : MessageSchema) (bytes : Bytes) (idx : Nat)
    (out : Members) :
    Weighs (fun turns depth _ => Within (bytes.length - idx) turns depth)
      (decode_loop library messages turns schema bytes idx out) := by
  induction turns generalizing schema bytes idx out with
  | zero => exact .flat (Nat.zero_le _)
  | succ turns ih =>
    unfold decode_loop
    split
    · rename_i hidx
      dsimp only
      generalize hnested : (fun message_name data => calling do
        let schema ← of (okOr (messages message_name)
          (.Client s!"message '{message_name}' not found in descriptor set"))
        return Value.Object (← decode_loop library messages turns schema data 0 [])) = nested
      have hstep : Weighs (Paid bytes idx Prod.fst)
          (decode_step library nested schema bytes idx out) := by
        apply decode_step_paid library schema out hidx
        intro message_name data
        rw [← hnested]
        exact calling_within (message_within message_name fun inner => ih inner data 0 [])
      unfold Weighs Paid at hstep
      unfold Weighs
      rw [log_bind_ok (result_note _), Log.turns_append, Log.depth_append]
      change Within _ (1 + _) (max 0 _)
      rw [Nat.zero_max, Nat.add_comm]
      cases hresult : (decode_step library nested schema bytes idx out).result with
      | error e =>
        rw [hresult] at hstep
        rw [log_bind_error hresult]
        exact hstep
      | ok next =>
        rw [hresult] at hstep
        rw [decode_step_result] at hresult
        have hbounds := decode_step_bounds hresult
        rw [← decode_step_result] at hresult
        rw [log_bind_ok hresult, log_bind_ok (result_note _)]
        have hall := (hstep.append (ih schema bytes next.1 next.2)).mono
          (show next.1 - idx + (bytes.length - next.1) ≤ bytes.length - idx by omega)
        change Within _ (_ + (0 + _) + 1) (max _ (max 0 _))
        rw [Nat.zero_add, Nat.zero_max, Nat.add_right_comm]
        exact hall
    · exact .flat (Nat.zero_le _)

theorem decode_message_safe (hbytes : bytes.length ≤ usize_MAX) :
    (decode_message library messages message_name bytes).log.Safe := by
  apply calling_safe
  apply Log.safe_additive.bind Log.safe_empty
  intro schema _
  apply Log.safe_additive.bind (decode_loop_safe library messages schema [] hbytes (by omega))
  intro _ _
  exact Log.safe_empty

theorem decode_message_work (bytes : Bytes) :
    (decode_message library messages message_name bytes).log.depth ≤ bytes.length / 2 + 1 ∧
      (decode_message library messages message_name bytes).log.turns ≤
        bytes.length * (decode_message library messages message_name bytes).log.depth := by
  obtain ⟨hpaid, hnested⟩ := message_within message_name fun schema =>
    decode_loop_within library messages (bytes.length + 1) schema bytes 0 []
  refine ⟨?_, hpaid⟩
  unfold decode_message
  change _ + 1 ≤ _
  omega

end traced

/-! ## Untrusted responses -/

/-- The work on a response is bounded by its length, whatever messages the registry has and
however they contain each other: the loops end, no read leaves the payload, nothing
overflows, every turn reads a byte, two bytes pay for each nested call, and every byte for
one turn at each depth. The length of a payload is a `usize`. -/
theorem decoding_is_bounded_by_the_payload (library : Library) (messages : MessageRegistry)
    (message_name : String) (bytes : Bytes) (hbytes : bytes.length ≤ usize_MAX) :
    (traced.decode_message library messages message_name bytes).result =
        decode_message library messages message_name bytes ∧
      (traced.decode_message library messages message_name bytes).log.Safe ∧
      (traced.decode_message library messages message_name bytes).log.depth ≤
        bytes.length / 2 + 1 ∧
      (traced.decode_message library messages message_name bytes).log.turns ≤
        bytes.length * (traced.decode_message library messages message_name bytes).log.depth := by
  obtain ⟨hdepth, hturns⟩ := traced.decode_message_work library messages message_name bytes
  exact ⟨traced.decode_message_result library messages message_name bytes,
    traced.decode_message_safe library messages message_name hbytes, hdepth, hturns⟩

/-- Three nodes inside each other reach the bound of the depth. -/
theorem nested_nodes_reach_the_bound :
    (traced.decode_message plainLibrary nodeMessages "Node" [18, 2, 18, 0]).log.depth = 3 ∧
      (traced.decode_message plainLibrary nodeMessages "Node" [18, 2, 18, 0]).log.Safe ∧
      (traced.decode_message plainLibrary nodeMessages "Node" [18, 2, 18, 0]).log.turns ≤
        4 * (traced.decode_message plainLibrary nodeMessages "Node" [18, 2, 18, 0]).log.depth := by
  obtain ⟨_, hsafe, _, hturns⟩ := decoding_is_bounded_by_the_payload plainLibrary nodeMessages
    "Node" [18, 2, 18, 0] (by decide)
  exact ⟨rfl, hsafe, hturns⟩

end pulse.grpc
