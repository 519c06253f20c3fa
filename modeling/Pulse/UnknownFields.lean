-- Fields that a message type does not have (infrastructure/grpc/dynamic_gateway.rs):
-- the decoder skips them. It reads its payload field by field, so a field that it
-- skips at the end of an accepted payload changes nothing of what follows.
import Pulse.DynamicDecoding
import Pulse.LocalReaders
import Pulse.PackedFields

open checks json varints readers

namespace pulse.grpc

/-! ## The readers of the decoder -/

section primitives

variable {bytes : Bytes} {idx n : Nat}

theorem take_bytes_toOption (overflow underflow : String) (h : bytes.length ≤ usize_MAX) :
    (take_bytes overflow underflow bytes idx n).toOption =
      if idx + n ≤ bytes.length then some ((bytes.drop idx).take n, idx + n) else none := by
  unfold take_bytes rejectIf
  by_cases hlength : idx + n ≤ bytes.length
  · rw [if_pos hlength, if_neg (by omega), if_neg (by omega)]
    rfl
  · rw [if_neg hlength]
    by_cases hoverflow : usize_MAX < idx + n
    · rw [if_pos hoverflow]
      rfl
    · rw [if_neg hoverflow, if_pos (Nat.lt_of_not_le hlength)]
      rfl

theorem local_take_bytes (overflow underflow : String) (n : Nat) :
    Local usize_MAX fun bytes idx => take_bytes overflow underflow bytes idx n where
  extend := by
    rintro bytes idx ⟨data, idx'⟩ more hok
    unfold take_bytes at hok ⊢
    simp only [seq_eq_ok, rejectIf_eq_ok] at hok ⊢
    obtain ⟨hoverflow, hlength, hdata⟩ := hok
    refine ⟨hoverflow, ?_, ?_⟩
    · rw [List.length_append]
      omega
    · rw [← hdata, List.drop_append_of_le_length (by omega),
        List.take_append_of_le_length (by rw [List.length_drop]; omega)]
  shift front bytes idx hlimit := by
    have hbytes : bytes.length ≤ usize_MAX := by
      rw [List.length_append] at hlimit
      omega
    rw [take_bytes_toOption _ _ hlimit, take_bytes_toOption _ _ hbytes, ← List.drop_drop,
      List.drop_left, List.length_append]
    by_cases hlength : idx + n ≤ bytes.length
    · rw [if_pos hlength, if_pos (by omega)]
      simp [Nat.add_assoc]
    · rw [if_neg hlength, if_neg (by omega)]
      rfl

variable {turns : Nat}

theorem read_varint_loop_extend {shift : Nat} {out : UInt64} {result : UInt64 × Nat} (more : Bytes)
    (h : read_varint_loop bytes turns idx shift out = .ok result) :
    read_varint_loop (bytes ++ more) turns idx shift out = .ok result := by
  induction turns generalizing idx shift out with
  | zero => exact h
  | succ turns ih =>
    unfold read_varint_loop at h ⊢
    cases hbyte : bytes[idx]? with
    | none =>
      rw [hbyte] at h
      cases h
    | some b =>
      rw [List.getElem?_append_left (List.getElem?_eq_some_iff.mp hbyte).1, hbyte]
      rw [hbyte] at h
      dsimp only at h ⊢
      split at h
      · rename_i hlast
        rw [if_pos hlast]
        exact h
      · rename_i hmore
        rw [if_neg hmore]
        split at h
        · cases h
        · rename_i hshift
          rw [if_neg hshift]
          exact ih h

theorem read_varint_loop_shift (front bytes : Bytes) (turns idx shift : Nat) (out : UInt64) :
    (read_varint_loop (front ++ bytes) turns (front.length + idx) shift out).toOption =
      (read_varint_loop bytes turns idx shift out).toOption.map fun result =>
        (result.1, front.length + result.2) := by
  induction turns generalizing idx shift out with
  | zero => rfl
  | succ turns ih =>
    unfold read_varint_loop
    rw [List.getElem?_append_right (Nat.le_add_right _ _), Nat.add_sub_cancel_left]
    cases bytes[idx]? with
    | none => rfl
    | some b =>
      dsimp only
      by_cases hlast : b &&& 0x80 = 0
      · rw [if_pos hlast, if_pos hlast]
        rfl
      · rw [if_neg hlast, if_neg hlast]
        by_cases hshift : shift + 7 > 63
        · rw [if_pos hshift, if_pos hshift]
          rfl
        · rw [if_neg hshift, if_neg hshift]
          exact ih (idx + 1) (shift + 7) _

theorem local_read_varint : Local usize_MAX read_varint where
  extend more hok := read_varint_loop_extend more hok
  shift front bytes idx _ := read_varint_loop_shift front bytes 10 idx 0 0

theorem local_read_fixed32 : Local usize_MAX read_fixed32 :=
  (local_take_bytes _ _ 4).map fun arr => UInt32.ofNat (from_le_bytes arr)

theorem local_read_fixed64 : Local usize_MAX read_fixed64 :=
  (local_take_bytes _ _ 8).map fun arr => UInt64.ofNat (from_le_bytes arr)

theorem local_read_length_delimited : Local usize_MAX read_length_delimited :=
  local_read_varint.bind fun len => local_take_bytes _ _ len.toNat

end primitives

/-- A function that gives only the index after what it reads. -/
def skipping (skip : Bytes → Nat → Except PulseError Nat) : Reader PulseError Unit :=
  fun bytes idx => do
    let idx ← skip bytes idx
    return ((), idx)

theorem local_advance (n : Nat) :
    Local usize_MAX (skipping fun bytes idx => advance bytes idx n) := by
  have hlocal := (local_take_bytes "buffer index overflow" "buffer underflow while decoding"
    n).map fun _ => ()
  refine cast (congrArg (Local usize_MAX) ?_) hlocal
  funext bytes idx
  unfold skipping advance
  dsimp only
  cases take_bytes "buffer index overflow" "buffer underflow while decoding" bytes idx n <;> rfl

theorem local_skip_wire_value (wire_type : UInt8) :
    Local usize_MAX (skipping (skip_wire_value wire_type)) := by
  unfold skip_wire_value
  split
  · refine cast (congrArg (Local usize_MAX) ?_) (local_read_varint.map fun _ => ())
    funext bytes idx
    unfold skipping
    dsimp only
    cases read_varint bytes idx <;> rfl
  · exact local_advance 8
  · refine cast (congrArg (Local usize_MAX) ?_)
      (local_read_varint.bind fun len => local_advance len.toNat)
    funext bytes idx
    unfold skipping
    dsimp only
    cases read_varint bytes idx <;> rfl
  · exact local_advance 4
  · exact local_const (.error _) id

theorem local_read_as {α : Type} {read : Bytes → Nat → Except PulseError (α × Nat)}
    (h : Local usize_MAX read) (value : α → Except PulseError Value) :
    Local usize_MAX (read_as read value) :=
  h.convert value id

theorem local_decode_packable_value (kind : FieldKind) :
    Local usize_MAX (decode_packable_value kind) := by
  rcases decode_packable_value_reader kind with ⟨f, -, hf⟩ | ⟨f, -, hf⟩ | ⟨f, -, hf⟩ | ⟨-, hf⟩
  · rw [hf]
    exact local_read_as local_read_varint f
  · rw [hf]
    exact local_read_as local_read_fixed64 f
  · rw [hf]
    exact local_read_as local_read_fixed32 f
  · rw [hf]
    exact local_const (.error _) id

/-! ## A packed block -/

section packed

variable {kind : FieldKind} {bytes : Bytes}

theorem decode_packed_loop_extend {stop : Nat} {arr : List Value} (more : Bytes)
    (h : decode_packed_loop kind bytes stop turns idx = .ok arr) :
    decode_packed_loop kind (bytes ++ more) stop turns idx = .ok arr := by
  induction turns generalizing idx arr with
  | zero => exact h
  | succ turns ih =>
    unfold decode_packed_loop at h ⊢
    split at h
    · rename_i hlt
      rw [if_pos hlt]
      obtain ⟨first, hfirst, h⟩ := bind_eq_ok.mp h
      obtain ⟨rest, hrest, h⟩ := bind_eq_ok.mp h
      rw [(local_decode_packable_value kind).extend more hfirst, ok_bind]
      dsimp only
      rw [ih hrest]
      exact h
    · rename_i hge
      rw [if_neg hge]
      exact h

theorem decode_packed_loop_shift {front : Bytes} (hlimit : (front ++ bytes).length ≤ usize_MAX)
    (stop turns idx : Nat) :
    (decode_packed_loop kind (front ++ bytes) (front.length + stop) turns
        (front.length + idx)).toOption =
      (decode_packed_loop kind bytes stop turns idx).toOption := by
  induction turns generalizing idx with
  | zero => rfl
  | succ turns ih =>
    unfold decode_packed_loop
    by_cases hlt : idx < stop
    · rw [if_pos hlt, if_pos (by omega), toOption_bind, toOption_bind,
        (local_decode_packable_value kind).shift front bytes idx hlimit]
      cases (decode_packable_value kind bytes idx).toOption with
      | none => rfl
      | some first =>
        simp only [Option.map_some, Option.bind_some]
        rw [toOption_bind, toOption_bind, ih]
    · rw [if_neg hlt, if_neg (by omega)]

/-- A block after its length. It is read from the whole payload, and the index then goes to the
end of the block. -/
def packed_block (kind : FieldKind) (len : UInt64) : Reader PulseError (List Value) :=
  fun bytes idx => do
    let stop := idx + len.toNat
    rejectIf (usize_MAX < stop) (PulseError.Client "packed field length overflow")
    rejectIf (bytes.length < stop) (PulseError.Client "packed field exceeds payload bounds")
    return (← decode_packed_loop kind bytes stop len.toNat idx, stop)

theorem packed_block_toOption (h : bytes.length ≤ usize_MAX) (len : UInt64) (idx : Nat) :
    (packed_block kind len bytes idx).toOption =
      if idx + len.toNat ≤ bytes.length then
        (decode_packed_loop kind bytes (idx + len.toNat) len.toNat idx).toOption.map
          fun arr => (arr, idx + len.toNat)
      else none := by
  unfold packed_block rejectIf
  dsimp only
  by_cases hlength : idx + len.toNat ≤ bytes.length
  · rw [if_pos hlength, if_neg (by omega), if_neg (by omega), ok_bind, ok_bind]
    cases decode_packed_loop kind bytes (idx + len.toNat) len.toNat idx <;> rfl
  · rw [if_neg hlength]
    by_cases hoverflow : usize_MAX < idx + len.toNat
    · rw [if_pos hoverflow]
      rfl
    · rw [if_neg hoverflow, if_pos (Nat.lt_of_not_le hlength)]
      rfl

theorem local_packed_block (kind : FieldKind) (len : UInt64) :
    Local usize_MAX (packed_block kind len) where
  extend := by
    intro bytes idx result more hok
    unfold packed_block at hok ⊢
    simp only [seq_eq_ok, rejectIf_eq_ok] at hok ⊢
    obtain ⟨hoverflow, hlength, hok⟩ := hok
    obtain ⟨arr, harr, hok⟩ := bind_eq_ok.mp hok
    refine ⟨hoverflow, ?_, ?_⟩
    · rw [List.length_append]
      omega
    · rw [decode_packed_loop_extend more harr]
      exact hok
  shift front bytes idx hlimit := by
    have hbytes : bytes.length ≤ usize_MAX := by
      rw [List.length_append] at hlimit
      omega
    rw [packed_block_toOption hlimit, packed_block_toOption hbytes, List.length_append]
    by_cases hlength : idx + len.toNat ≤ bytes.length
    · rw [if_pos hlength, if_pos (by omega), Nat.add_assoc, decode_packed_loop_shift hlimit]
      cases decode_packed_loop kind bytes (idx + len.toNat) len.toNat idx <;> rfl
    · rw [if_neg hlength, if_neg (by omega)]
      rfl

theorem local_decode_packed (kind : FieldKind) : Local usize_MAX (decode_packed kind) :=
  local_read_varint.bind (local_packed_block kind)

end packed

/-! ## One turn of the decoder -/

section turns

variable (library : Library) (nested : String → Bytes → Except PulseError Value)

theorem local_decode_single_field_value (field : FieldSchema) (wire_type : UInt8) :
    Local usize_MAX (decode_single_field_value library nested field wire_type) := by
  unfold decode_single_field_value ensure_wire_type
  by_cases htype : wire_type ≠ field.kind.wire_type
  · simp only [rejectIf_pos _ htype]
    exact local_const (.error _) id
  · simp only [rejectIf_neg _ htype, ok_bind]
    split
    · exact local_read_length_delimited.convert (fun data => okOr (String.fromUTF8? ⟨data.toArray⟩)
        (.Client s!"invalid utf8 in field '{field.name}': {library.utf8_error data}")) Value.String
    · exact local_read_length_delimited.convert _ id
    · exact local_read_length_delimited.map fun data => Value.String (library.encode_base64 data)
    · exact local_decode_packable_value _

/-- The object after a turn, as what the turn reads. -/
def turn (schema : MessageSchema) (out : Members) : Reader PulseError Members :=
  fun bytes idx => do
    let next ← decode_step library nested schema bytes idx out
    return (next.2, next.1)

/-- What a turn does after the key of a field. -/
def turn_after_key (schema : MessageSchema) (out : Members) (key : UInt64) :
    Reader PulseError Members :=
  match schema.fields_by_number (key >>> 3).toUInt32 with
  | none => fun bytes idx => do
    let next ← skipping (skip_wire_value (key &&& 0x7).toUInt8) bytes idx
    return (out, next.2)
  | some field =>
    if field.repeated ∧ field.packable ∧ (key &&& 0x7).toUInt8 = 2 then fun bytes idx => do
      let next ← decode_packed field.kind bytes idx
      return (append_decoded_field out field.name (.Array next.1) true, next.2)
    else fun bytes idx => do
      let next ← decode_single_field_value library nested field (key &&& 0x7).toUInt8 bytes idx
      return (append_decoded_field out field.name next.1 field.repeated, next.2)

variable (schema : MessageSchema)

theorem turn_eq (out : Members) :
    turn library nested schema out = fun bytes idx => (do
      let key ← read_varint bytes idx
      turn_after_key library nested schema out key.1 bytes key.2) := by
  funext bytes idx
  unfold turn decode_step turn_after_key
  cases read_varint bytes idx with
  | error e => rfl
  | ok key =>
    simp only [ok_bind]
    cases schema.fields_by_number (key.1 >>> 3).toUInt32 with
    | none =>
      unfold skipping
      dsimp only
      cases skip_wire_value (key.1 &&& 0x7).toUInt8 bytes key.2 <;> rfl
    | some field =>
      dsimp only
      split
      · dsimp only
        cases decode_packed field.kind bytes key.2 <;> rfl
      · dsimp only
        cases decode_single_field_value library nested field (key.1 &&& 0x7).toUInt8 bytes key.2 <;>
          rfl

theorem local_turn_after_key (out : Members) (key : UInt64) :
    Local usize_MAX (turn_after_key library nested schema out key) := by
  unfold turn_after_key
  split
  · exact (local_skip_wire_value _).map fun _ => out
  · rename_i field _
    split
    · exact (local_decode_packed field.kind).map fun arr =>
        append_decoded_field out field.name (.Array arr) true
    · exact (local_decode_single_field_value library nested field _).map fun value =>
        append_decoded_field out field.name value field.repeated

theorem local_turn (out : Members) : Local usize_MAX (turn library nested schema out) := by
  rw [turn_eq]
  exact local_read_varint.bind (local_turn_after_key library nested schema out)

end turns

/-! ## The rest of a payload -/

section fields

variable {library : Library} {messages : MessageRegistry} {schema : MessageSchema}
  {nested : String → Bytes → Except PulseError Value} {out out' : Members} {bytes front : Bytes}

theorem turn_eq_ok {idx' : Nat} :
    turn library nested schema out bytes idx = .ok (out', idx') ↔
      decode_step library nested schema bytes idx out = .ok (idx', out') := by
  unfold turn
  rw [bind_eq_ok]
  constructor
  · rintro ⟨next, hstep, hnext⟩
    cases hnext
    exact hstep
  · intro hstep
    exact ⟨_, hstep, rfl⟩

theorem decode_step_extend {next : Nat × Members} (more : Bytes)
    (h : decode_step library nested schema bytes idx out = .ok next) :
    decode_step library nested schema (bytes ++ more) idx out = .ok next :=
  turn_eq_ok.mp ((local_turn library nested schema out).extend more (turn_eq_ok.mpr h))

theorem decode_step_shift (hlimit : (front ++ bytes).length ≤ usize_MAX) (idx : Nat) :
    (decode_step library nested schema (front ++ bytes) (front.length + idx) out).toOption =
      (decode_step library nested schema bytes idx out).toOption.map fun next =>
        (front.length + next.1, next.2) := by
  have hswap : ∀ (bytes : Bytes) (idx : Nat),
      (decode_step library nested schema bytes idx out).toOption =
        (turn library nested schema out bytes idx).toOption.map fun next => (next.2, next.1) := by
    intro bytes idx
    unfold turn
    cases decode_step library nested schema bytes idx out <;> rfl
  rw [hswap, hswap, (local_turn library nested schema out).shift front bytes idx hlimit,
    Option.map_map, Option.map_map]
  rfl

/-- After an accepted payload, the decoder goes on with what it has. -/
theorem decode_fields_append (more : Bytes) {members : Members} (hidx : idx ≤ bytes.length)
    (h : decode_fields library messages schema bytes idx out = .ok members) :
    decode_fields library messages schema (bytes ++ more) idx out =
      decode_fields library messages schema (bytes ++ more) bytes.length members := by
  induction hrest : bytes.length - idx using Nat.strongRecOn generalizing idx out with
  | ind rest ih =>
    rw [decode_fields_eq] at h
    split at h
    · rename_i hlt
      obtain ⟨next, hstep, h⟩ := bind_eq_ok.mp h
      have hbounds := decode_step_bounds hstep
      rw [decode_fields_eq, if_pos (by rw [List.length_append]; omega),
        decode_step_extend more hstep, ok_bind]
      exact ih _ (by omega) hbounds.2 h rfl
    · rename_i hge
      cases h
      rw [Nat.le_antisymm hidx (Nat.le_of_not_lt hge)]

/-- The fields before an index only move it. -/
theorem decode_fields_shift (hlimit : (front ++ bytes).length ≤ usize_MAX) (idx : Nat)
    (out : Members) :
    (decode_fields library messages schema (front ++ bytes) (front.length + idx) out).toOption =
      (decode_fields library messages schema bytes idx out).toOption := by
  induction hrest : bytes.length - idx using Nat.strongRecOn generalizing idx out with
  | ind rest ih =>
    rw [decode_fields_eq, decode_fields_eq, List.length_append]
    by_cases hlt : idx < bytes.length
    · rw [if_pos hlt, if_pos (by omega), toOption_bind, toOption_bind, decode_step_shift hlimit]
      cases hstep : decode_step library (decode_message library messages) schema bytes idx out with
      | error e => rfl
      | ok next =>
        have hbounds := decode_step_bounds hstep
        exact ih _ (by omega) next.1 next.2 rfl
    · rw [if_neg hlt, if_neg (by omega)]

end fields

/-! ## Well-formed fields -/

/-- The bytes of a value of a wire type. -/
inductive WireValue : UInt8 → Bytes → Prop
  | varint {bytes : Bytes} {n : Nat} : Varint bytes n → WireValue 0 bytes
  | fixed64 {bytes : Bytes} : bytes.length = 8 → WireValue 1 bytes
  | delimited {len data : Bytes} : Varint len data.length → WireValue 2 (len ++ data)
  | fixed32 {bytes : Bytes} : bytes.length = 4 → WireValue 5 bytes

/-- A field with a number that the message type does not have. -/
structure UnknownField (schema : MessageSchema) (bytes : Bytes) : Prop where
  field : ∃ (number : UInt32) (wire_type : UInt8) (key value : Bytes),
    1 ≤ number.toNat ∧ number.toNat < 2 ^ 29 ∧ schema.fields_by_number number = none ∧
      Varint key (8 * number.toNat + wire_type.toNat) ∧ WireValue wire_type value ∧
      bytes = key ++ value

section skips

variable {bytes rest : Bytes} {idx : Nat} {encoded value field : Bytes}

/-- The groups so far are in `out`, and the payload goes on with the others. -/
theorem read_varint_loop_encodes (h : Encodes encoded n) (turns shift : Nat) (out : UInt64)
    (hturns : encoded.length ≤ turns) (hshift : shift + 7 * turns = 70)
    (hout : out.toNat < 2 ^ shift) (hfits : out.toNat + 2 ^ shift * n < 2 ^ 64)
    (hdrop : bytes.drop idx = encoded ++ rest) :
    read_varint_loop bytes turns idx shift out =
      .ok (UInt64.ofNat (out.toNat + 2 ^ shift * n), idx + encoded.length) := by
  induction h generalizing idx turns shift out with
  | last hlast =>
    rename_i b
    obtain ⟨turns, rfl⟩ : ∃ t, turns = t + 1 := ⟨turns - 1, by simp at hturns; omega⟩
    have hsmall : b.toNat % 128 = b.toNat := by
      unfold continues at hlast
      omega
    have hgroup : b.toNat % 128 * 2 ^ shift < 2 ^ 64 := by
      rw [hsmall, Nat.mul_comm]
      omega
    rw [read_varint_loop_byte hdrop]
    dsimp only
    rw [if_neg hlast]
    congr 2
    apply UInt64.toNat_inj.mp
    rw [toNat_or_group (by omega) hout hgroup, hsmall, UInt64.toNat_ofNat_of_lt' hfits]
  | more hmore hrest ih =>
    rename_i b bs n
    obtain ⟨turns, rfl⟩ : ∃ t, turns = t + 1 := ⟨turns - 1, by simp at hturns; omega⟩
    have hnonempty := hrest.length_pos
    rw [List.length_cons] at hturns
    have hpow : 2 ^ (shift + 7) = 2 ^ shift * 128 := by rw [Nat.pow_add]
    have hsplit : 2 ^ shift * (b.toNat % 128 + 128 * n) =
        2 ^ shift * (b.toNat % 128) + 2 ^ (shift + 7) * n := by
      rw [hpow, Nat.mul_add, Nat.mul_assoc]
    rw [hsplit] at hfits ⊢
    have hgroup : b.toNat % 128 * 2 ^ shift < 2 ^ 64 := by
      rw [Nat.mul_comm]
      omega
    have hor := toNat_or_group (b := b) (by omega) hout hgroup
    have hlow : (out ||| ((b &&& 0x7F).toUInt64 <<< UInt64.ofNat shift)).toNat <
      2 ^ (shift + 7) := by
      have hmod : b.toNat % 128 < 128 := Nat.mod_lt _ (by decide)
      have hmul := Nat.mul_le_mul_left (2 ^ shift) (Nat.le_of_lt_succ hmod)
      rw [hor, hpow]
      omega
    rw [read_varint_loop_byte hdrop]
    dsimp only
    have hidx : idx + 1 + bs.length = idx + (b :: bs).length := by
      rw [List.length_cons]
      omega
    rw [if_pos hmore, if_neg (by omega),
      ih turns (shift + 7) _ (by omega) (by omega) hlow (by rw [hor]; omega)
        (drop_succ_of_drop hdrop), hor, hidx, Nat.add_assoc]

theorem read_varint_varint (h : Varint encoded n) (hdrop : bytes.drop idx = encoded ++ rest) :
    read_varint bytes idx = .ok (UInt64.ofNat n, idx + encoded.length) := by
  have hread := read_varint_loop_encodes h.encodes 10 0 0 h.length rfl (by decide)
    (by simpa using h.fits) hdrop
  simpa [read_varint] using hread

theorem advance_of_drop {data : Bytes} (hsize : bytes.length ≤ usize_MAX)
    (hidx : idx ≤ bytes.length) (hdrop : bytes.drop idx = data ++ rest) :
    advance bytes idx data.length = .ok (idx + data.length) := by
  unfold advance
  rw [take_bytes_of_drop _ _ hsize hidx hdrop, ok_bind]
  rfl

theorem drop_of_drop {first : Bytes} (hdrop : bytes.drop idx = first ++ rest) :
    bytes.drop (idx + first.length) = rest := by
  rw [← List.drop_drop, hdrop, List.drop_left]

/-- The value of a field is skipped to its end. -/
theorem skip_wire_value_of_drop {wire_type : UInt8} (h : WireValue wire_type value)
    (hsize : bytes.length ≤ usize_MAX) (hidx : idx ≤ bytes.length)
    (hdrop : bytes.drop idx = value ++ rest) :
    skip_wire_value wire_type bytes idx = .ok (idx + value.length) := by
  cases h with
  | varint hvarint =>
    change (read_varint bytes idx >>= fun v => .ok v.2) = _
    rw [read_varint_varint hvarint hdrop, ok_bind]
  | fixed64 hlength =>
    change advance bytes idx 8 = _
    rw [← hlength, advance_of_drop hsize hidx hdrop]
  | delimited hvarint =>
    rename_i len data
    rw [List.append_assoc] at hdrop
    have hlength := congrArg List.length hdrop
    simp only [List.length_drop, List.length_append] at hlength
    change (read_varint bytes idx >>= fun v => advance bytes v.2 v.1.toNat) = _
    rw [read_varint_varint hvarint hdrop, ok_bind]
    dsimp only
    rw [UInt64.toNat_ofNat_of_lt' hvarint.fits,
      advance_of_drop hsize (by omega) (drop_of_drop hdrop), List.length_append, Nat.add_assoc]
  | fixed32 hlength =>
    change advance bytes idx 4 = _
    rw [← hlength, advance_of_drop hsize hidx hdrop]

theorem WireValue.lt {wire_type : UInt8} (h : WireValue wire_type value) : wire_type.toNat < 8 := by
  cases h <;> decide

/-- A turn of the decoder skips a field that the message type does not have. -/
theorem decode_step_unknown {library : Library} {nested : String → Bytes → Except PulseError Value}
    {schema : MessageSchema} {out : Members} (h : UnknownField schema field)
    (hsize : bytes.length ≤ usize_MAX) (hdrop : bytes.drop idx = field ++ rest) :
    decode_step library nested schema bytes idx out = .ok (idx + field.length, out) := by
  obtain ⟨number, wire_type, key, value, -, hnumber, hnone, hkey, hvalue, rfl⟩ := h.field
  rw [List.append_assoc] at hdrop
  have hkeyNumber : UInt64.ofNat (8 * number.toNat + wire_type.toNat) =
      (number.toUInt64 <<< 3) ||| wire_type.toUInt64 := by
    apply UInt64.toNat_inj.mp
    rw [UInt64.toNat_ofNat_of_lt' hkey.fits, toNat_key number hvalue.lt]
  have hlength := congrArg List.length hdrop
  simp only [List.length_drop, List.length_append] at hlength
  have hkeyLength := hkey.encodes.length_pos
  unfold decode_step
  rw [read_varint_varint hkey hdrop, ok_bind]
  dsimp only
  rw [hkeyNumber, key_field_number number hvalue.lt, key_wire_type number hvalue.lt, hnone]
  dsimp only
  rw [skip_wire_value_of_drop hvalue hsize (by omega) (drop_of_drop hdrop), ok_bind,
    List.length_append, Nat.add_assoc]
  rfl

theorem UnknownField.ne_nil {schema : MessageSchema} (h : UnknownField schema field) :
    field ≠ [] := by
  obtain ⟨_, _, key, _, -, -, -, hkey, -, rfl⟩ := h.field
  have hkeyLength := hkey.encodes.length_pos
  intro hnil
  have hlength := congrArg List.length hnil
  rw [List.length_append, List.length_nil] at hlength
  omega

end skips

/-! ## The law -/

section law

variable {library : Library} {messages : MessageRegistry} {message_name : String}
  {schema : MessageSchema}

/-- After an accepted payload, an unknown field is not seen. -/
theorem decode_message_unknown {a u b : Bytes} {value : Value}
    (hschema : messages message_name = some schema) (hsize : (a ++ u ++ b).length ≤ usize_MAX)
    (ha : decode_message library messages message_name a = .ok value) (hu : UnknownField schema u) :
    (decode_message library messages message_name (a ++ u ++ b)).toOption =
      (decode_message library messages message_name (a ++ b)).toOption := by
  rw [decode_message_eq, hschema] at ha
  simp only [okOr, ok_bind] at ha
  obtain ⟨members, hmembers, -⟩ := bind_eq_ok.mp ha
  have hsizeA : (a ++ b).length ≤ usize_MAX := by
    simp only [List.length_append] at hsize ⊢
    omega
  have hskip : decode_fields library messages schema (a ++ u ++ b) a.length members =
      decode_fields library messages schema (a ++ u ++ b) (a ++ u).length members := by
    have hpos := List.length_pos_iff.mpr hu.ne_nil
    have hdrop : (a ++ u ++ b).drop a.length = u ++ b := by rw [List.append_assoc, List.drop_left]
    have hstep : decode_step library (decode_message library messages) schema (a ++ u ++ b) a.length
        members = .ok (a.length + u.length, members) := decode_step_unknown hu hsize hdrop
    rw [decode_fields_eq, if_pos (by simp only [List.length_append]; omega), hstep, ok_bind,
      List.length_append]
  have hafter : (decode_fields library messages schema (a ++ u ++ b) 0 []).toOption =
      (decode_fields library messages schema b 0 members).toOption := by
    rw [List.append_assoc, decode_fields_append (u ++ b) (Nat.zero_le _) hmembers,
      ← List.append_assoc, hskip]
    exact decode_fields_shift hsize 0 members
  have hwithout : (decode_fields library messages schema (a ++ b) 0 []).toOption =
      (decode_fields library messages schema b 0 members).toOption := by
    rw [decode_fields_append b (Nat.zero_le _) hmembers]
    exact decode_fields_shift hsizeA 0 members
  rw [decode_message_eq, decode_message_eq, hschema]
  simp only [okOr, ok_bind]
  rw [toOption_bind, toOption_bind, hafter, hwithout]

/-- Unknown fields are put into a payload one after the other, each one after a part that is
accepted by itself. -/
inductive Inserted (library : Library) (messages : MessageRegistry) (message_name : String)
    (schema : MessageSchema) (bytes : Bytes) : Bytes → Prop
  | none : Inserted library messages message_name schema bytes bytes
  | insert {a u b : Bytes} {value : Value} :
      Inserted library messages message_name schema bytes (a ++ b) →
      decode_message library messages message_name a = .ok value → UnknownField schema u →
      Inserted library messages message_name schema bytes (a ++ u ++ b)

theorem decode_message_inserted {padded : Bytes} (hschema : messages message_name = some schema)
    (h : Inserted library messages message_name schema bytes padded)
    (hsize : padded.length ≤ usize_MAX) :
    (decode_message library messages message_name padded).toOption =
      (decode_message library messages message_name bytes).toOption := by
  induction h with
  | none => rfl
  | insert _ ha hu ih =>
    rw [decode_message_unknown hschema hsize ha hu]
    apply ih
    simp only [List.length_append] at hsize ⊢
    omega

end law

/-- A field that the message type does not have does not change the outcome, a value or a rejection,
after any accepted part of a payload. So any number of such fields leaves an accepted message as it
is. -/
theorem unknown_fields_are_transparent (library : Library) (messages : MessageRegistry)
    (message_name : String) (schema : MessageSchema)
    (hschema : messages message_name = some schema) :
    (∀ (a u b : Bytes) (value : Value), (a ++ u ++ b).length ≤ usize_MAX →
      decode_message library messages message_name a = .ok value → UnknownField schema u →
        (decode_message library messages message_name (a ++ u ++ b)).toOption =
          (decode_message library messages message_name (a ++ b)).toOption) ∧
      ∀ (bytes padded : Bytes) (value : Value), padded.length ≤ usize_MAX →
        Inserted library messages message_name schema bytes padded →
        decode_message library messages message_name bytes = .ok value →
          decode_message library messages message_name padded = .ok value := by
  refine ⟨?_, ?_⟩
  · intro a u b value hsize ha hu
    exact decode_message_unknown hschema hsize ha hu
  · intro bytes padded value hsize hinserted hvalue
    have hsame := decode_message_inserted hschema hinserted hsize
    rw [hvalue] at hsame
    cases hpadded : decode_message library messages message_name padded with
    | error e =>
      rw [hpadded] at hsame
      cases hsame
    | ok value' =>
      rw [hpadded] at hsame
      cases hsame
      rfl

/-- Between two numbers of a list, field 2 with one byte. -/
theorem an_unknown_field_between_two_numbers :
    decode_message plainLibrary valuesMessages "Values" ([8, 1] ++ [18, 1, 7] ++ [8, 2]) =
      .ok (.Object [("values", .Array [integer 1, integer 2])]) := by
  have hvalue : WireValue 2 ([1] ++ [7]) := .delimited ⟨.last (by decide), by decide, by decide⟩
  have hkey : Varint [18] (8 * 2 + 2) := ⟨.last (by decide), by decide, by decide⟩
  have hfield : UnknownField valuesSchema [18, 1, 7] :=
    ⟨2, 2, [18], [1] ++ [7], by decide, by decide, rfl, hkey, hvalue, rfl⟩
  have hlaw := unknown_fields_are_transparent plainLibrary valuesMessages "Values" valuesSchema rfl
  exact hlaw.2 ([8, 1] ++ [8, 2]) _ _ (by decide) (.insert .none rfl hfield) rfl

end pulse.grpc
