-- Dynamic protobuf messages (infrastructure/grpc/dynamic_gateway.rs): JSON is
-- encoded by the schema of a message type, and a payload is decoded to JSON.
import Pulse.Json
import Pulse.Strings
import Pulse.WireFormat
import Mathlib.Data.List.Sort

open checks json varints

namespace pulse.grpc

/-! ## Schemas -/

inductive FieldKind
  | Double
  | Float
  | Int64
  | UInt64
  | Int32
  | Fixed64
  | Fixed32
  | Bool
  | String
  | Message (message_name : String)
  | Bytes
  | UInt32
  | Enum
  | SFixed32
  | SFixed64
  | SInt32
  | SInt64
deriving DecidableEq

structure FieldSchema where
  name : String
  number : UInt32
  repeated : Bool
  packable : Bool
  kind : FieldKind

structure MessageSchema where
  fields_by_name : String → Option UInt32
  fields_by_number : UInt32 → Option FieldSchema

/-- The message types of a descriptor set by their full names. -/
abbrev MessageRegistry := String → Option MessageSchema

def is_packable : FieldKind → Bool
  | .String | .Bytes | .Message _ => false
  | _ => true

/-- The wire type of a kind, as the encoder writes it and `ensure_wire_type` asks for it. -/
def FieldKind.wire_type : FieldKind → UInt8
  | .Double | .Fixed64 | .SFixed64 => 1
  | .Float | .Fixed32 | .SFixed32 => 5
  | .String | .Message _ | .Bytes => 2
  | _ => 0

/-! ## Values -/

/-- The parts of other crates and of the float formats that the codec calls: the text of a value
in an error, standard base64, the bits of a number as a float and the message of `from_utf8`. -/
structure Library where
  display : Value → String
  encode_base64 : Bytes → String
  decode_base64 : String → Except String Bytes
  as_f64 : Number → Option UInt64
  as_f32 : Number → Option UInt32
  parse_f64 : String → Option UInt64
  parse_f32 : String → Option UInt32
  utf8_error : Bytes → String

/-- The finite value of the bits of a float with the given widths. -/
def finite_value (exponent_bits fraction_bits bits : Nat) : Option ℚ :=
  let fraction := bits % 2 ^ fraction_bits
  let exponent := bits / 2 ^ fraction_bits % 2 ^ exponent_bits
  let bias := 2 ^ (exponent_bits - 1) - 1 + fraction_bits
  let sign : ℚ := if bits / 2 ^ (fraction_bits + exponent_bits) = 0 then 1 else -1
  if exponent = 2 ^ exponent_bits - 1 then none
  else if exponent = 0 then some (sign * fraction * 2 / 2 ^ bias)
  else some (sign * (2 ^ fraction_bits + fraction) * 2 ^ exponent / 2 ^ bias)

/-- `Number::from_f64` of the bits of an `f64`. -/
def from_f64 (bits : UInt64) : Option Number := (finite_value 11 52 bits.toNat).map .Float

/-- `Number::from_f64` of the bits of an `f32`. -/
def from_f32 (bits : UInt32) : Option Number := (finite_value 8 23 bits.toNat).map .Float

section values

variable (library : Library)

def to_string_value (value : Value) : Except PulseError String :=
  match value with
  | .String s => .ok s
  | .Number _ => .ok (library.display value)
  | .Bool b => .ok (toString b)
  | .Null => .error (.Client "null is not valid here")
  | .Array _ | .Object _ => .error (.Client "object/array is not valid for scalar field")

def to_bool (value : Value) : Except PulseError Bool :=
  match value with
  | .Bool b => .ok b
  | .String s =>
    if strings.eq_ignore_ascii_case s "true" then .ok true
    else if strings.eq_ignore_ascii_case s "false" then .ok false
    else .error (.Client s!"expected boolean value, got {library.display value}")
  | _ => .error (.Client s!"expected boolean value, got {library.display value}")

/-- A number of a type: a JSON number in its range, or its text. -/
def to_number {α : Type} (type : String) (number : Number → Option α) (parse : String → Option α)
    (value : Value) : Except PulseError α :=
  match value with
  | .Number n =>
    okOr (number n) (.Client s!"expected {type} value, got {library.display value}")
  | .String s => okOr (parse s) (.Client s!"expected {type} string, got '{s}'")
  | _ => .error (.Client s!"expected {type} value, got {library.display value}")

def to_i32 : Value → Except PulseError Int32 :=
  to_number library "i32"
    (fun n => n.as_i64.bind fun v =>
      if -2 ^ 31 ≤ v.toInt ∧ v.toInt < 2 ^ 31 then some v.toInt32 else none)
    (fun s => (strings.parse_integer true (-2 ^ 31) (2 ^ 31 - 1) s).map Int32.ofInt)

def to_i64 : Value → Except PulseError Int64 :=
  to_number library "i64" Number.as_i64
    (fun s => (strings.parse_integer true (-2 ^ 63) (2 ^ 63 - 1) s).map Int64.ofInt)

def to_u32 : Value → Except PulseError UInt32 :=
  to_number library "u32"
    (fun n => n.as_u64.bind fun v => if v.toNat < 2 ^ 32 then some v.toUInt32 else none)
    (fun s => (strings.parse_integer false 0 (2 ^ 32 - 1) s).map fun z => UInt32.ofNat z.toNat)

def to_u64 : Value → Except PulseError UInt64 :=
  to_number library "u64" Number.as_u64
    (fun s => (strings.parse_integer false 0 (2 ^ 64 - 1) s).map fun z => UInt64.ofNat z.toNat)

/-- The bits of the float. -/
def to_f32 : Value → Except PulseError UInt32 :=
  to_number library "float" library.as_f32 library.parse_f32

/-- The bits of the double. -/
def to_f64 : Value → Except PulseError UInt64 :=
  to_number library "double" library.as_f64 library.parse_f64

def as_bytes (text : String) : Bytes := text.toUTF8.data.toList

def to_bytes (value : Value) : Except PulseError Bytes :=
  match value with
  | .String s =>
    if "base64:".toList.isPrefixOf s.toList then
      (library.decode_base64 (String.ofList (s.toList.drop 7))).mapError fun e =>
        .Client s!"invalid base64 bytes value: {e}"
    else .ok (as_bytes s)
  | _ => .error (.Client s!"expected bytes field as string, got {library.display value}")

/-! ## The encoder -/

/-- What `encode_packable_value` appends. -/
def encode_packable_value (kind : FieldKind) (value : Value) : Except PulseError Bytes :=
  match kind with
  | .Double => return le_bytes 8 (← to_f64 library value).toNat
  | .Float => return le_bytes 4 (← to_f32 library value).toNat
  | .Int64 => return write_varint (← to_i64 library value).toUInt64
  | .UInt64 => return write_varint (← to_u64 library value)
  | .Int32 => return write_varint (← to_i32 library value).toUInt32.toUInt64
  | .Fixed64 => return le_bytes 8 (← to_u64 library value).toNat
  | .Fixed32 => return le_bytes 4 (← to_u32 library value).toNat
  | .Bool => return write_varint (if (← to_bool library value) then 1 else 0)
  | .UInt32 => return write_varint (← to_u32 library value).toUInt64
  | .Enum => return write_varint (← to_i32 library value).toUInt32.toUInt64
  | .SFixed32 => return le_bytes 4 (← to_i32 library value).toUInt32.toNat
  | .SFixed64 => return le_bytes 8 (← to_i64 library value).toUInt64.toNat
  | .SInt32 => return write_varint (zigzag_i32 (← to_i32 library value))
  | .SInt64 => return write_varint (zigzag_i64 (← to_i64 library value))
  | .String | .Bytes | .Message _ => .error (.Client "non-packable field encoded as packed")

def encode_packed_repeated_field (field : FieldSchema) (items : List Value) :
    Except PulseError Bytes := do
  let packed ← items.mapM (encode_packable_value library field.kind)
  return write_key field.number 2 ++ delimited packed.flatten

/-- A single value behind its key. A scalar is written as in a packed block; `nested` is
`encode_message` for the values inside this one. -/
def encode_body (nested : String → Value → Except PulseError Bytes) (kind : FieldKind)
    (value : Value) : Except PulseError Bytes :=
  match kind with
  | .String => return delimited (as_bytes (← to_string_value library value))
  | .Message message_name => return delimited (← nested message_name value)
  | .Bytes => return delimited (← to_bytes library value)
  | kind => encode_packable_value library kind value

def encode_single_field_value (nested : String → Value → Except PulseError Bytes)
    (field : FieldSchema) (value : Value) : Except PulseError Bytes := do
  let body ← encode_body library nested field.kind value
  return write_key field.number field.kind.wire_type ++ body

def encode_field (nested : String → Value → Except PulseError Bytes) (field : FieldSchema)
    (value : Value) : Except PulseError Bytes :=
  if field.repeated then
    match value with
    | .Array items =>
      if field.packable then encode_packed_repeated_field library field items
      else return (← items.mapM (encode_single_field_value library nested field)).flatten
    | _ => .error (.Client s!"field '{field.name}' is repeated and expects a JSON array")
  else encode_single_field_value library nested field value

/-- The field of a key of the object, with its number. -/
def lookup_field (message_name : String) (schema : MessageSchema) (member : String × Value) :
    Except PulseError (UInt32 × FieldSchema × Value) := do
  let field_number ← okOr (schema.fields_by_name member.1)
    (.Client s!"field '{member.1}' is not defined in message '{message_name}'")
  let field_schema ← okOr (schema.fields_by_number field_number)
    (.Client s!"field number '{field_number}' missing from schema for '{message_name}'")
  return (field_number, field_schema, member.2)

/-- One level of `encode_message`. -/
def encode_level (messages : MessageRegistry) (nested : String → Value → Except PulseError Bytes)
    (message_name : String) (value : Value) : Except PulseError Bytes := do
  let schema ← okOr (messages message_name)
    (.Client s!"message '{message_name}' not found in descriptor set")
  match value with
  | .Object map =>
    let field_pairs ← map.mapM (lookup_field message_name schema)
    -- `sort_by_key` is stable, as the insertion sort is
    let sorted := field_pairs.insertionSort fun a b => a.1 ≤ b.1
    return (← sorted.mapM fun pair => encode_field library nested pair.2.1 pair.2.2).flatten
  | _ => .error (.Client s!"request_fields for '{message_name}' must be a JSON object")

/-- `encode_message` for values whose nesting is at most the count. -/
def encode_within (messages : MessageRegistry) : Nat → String → Value → Except PulseError Bytes
  | 0, _, _ => .error (.Client "the value is nested too deep")
  | depth + 1, message_name, value =>
    encode_level library messages (encode_within messages depth) message_name value

def encode_message (messages : MessageRegistry) (message_name : String) (value : Value) :
    Except PulseError Bytes :=
  encode_within library messages value.depth message_name value

/-! ## The decoder -/

/-- A number is read from the payload and made a JSON value. -/
def read_as {α : Type} (read : Bytes → Nat → Except PulseError (α × Nat))
    (value : α → Except PulseError Value) (bytes : Bytes) (idx : Nat) :
    Except PulseError (Value × Nat) := do
  let (v, idx) ← read bytes idx
  return (← value v, idx)

def decode_packable_value (kind : FieldKind) :
    Bytes → Nat → Except PulseError (Value × Nat) :=
  match kind with
  | .Double => read_as read_fixed64 fun v => do
    return .Number (← okOr (from_f64 v) (.Client "invalid double value"))
  | .Float => read_as read_fixed32 fun v => do
    return .Number (← okOr (from_f32 v) (.Client "invalid float value"))
  | .Int64 => read_as read_varint fun v => .ok (integer v.toInt64.toInt)
  | .UInt64 => read_as read_varint fun v => .ok (integer v.toNat)
  | .Int32 => read_as read_varint fun v => .ok (integer v.toUInt32.toInt32.toInt)
  | .Fixed64 => read_as read_fixed64 fun v => .ok (integer v.toNat)
  | .Fixed32 => read_as read_fixed32 fun v => .ok (integer v.toNat)
  | .Bool => read_as read_varint fun v => .ok (.Bool (v != 0))
  | .UInt32 => read_as read_varint fun v => .ok (integer v.toUInt32.toNat)
  | .Enum => read_as read_varint fun v => .ok (integer v.toUInt32.toInt32.toInt)
  | .SFixed32 => read_as read_fixed32 fun v => .ok (integer v.toInt32.toInt)
  | .SFixed64 => read_as read_fixed64 fun v => .ok (integer v.toInt64.toInt)
  | .SInt32 => read_as read_varint fun v => do return integer (← unzigzag_i32 v).toInt
  | .SInt64 => read_as read_varint fun v => .ok (integer (unzigzag_i64 v).toInt)
  | .String | .Bytes | .Message _ => fun _ _ =>
    .error (.Client "non-packable field decoded as packed")

def ensure_wire_type (wire_type expected : UInt8) (field : FieldSchema) :
    Except PulseError Unit :=
  rejectIf (wire_type ≠ expected)
    (.Client s!"unexpected wire type {wire_type} for field '{field.name}' (expected {expected})")

/-- A scalar is read as in a packed block; `nested` is `decode_message` for the data inside. -/
def decode_single_field_value (nested : String → Bytes → Except PulseError Value)
    (field : FieldSchema) (wire_type : UInt8) (bytes : Bytes) (idx : Nat) :
    Except PulseError (Value × Nat) := do
  ensure_wire_type wire_type field.kind.wire_type field
  match field.kind with
  | .String => do
    let (data, idx) ← read_length_delimited bytes idx
    let text ← okOr (String.fromUTF8? ⟨data.toArray⟩)
      (.Client s!"invalid utf8 in field '{field.name}': {library.utf8_error data}")
    return (.String text, idx)
  | .Message message_name => do
    let (data, idx) ← read_length_delimited bytes idx
    return (← nested message_name data, idx)
  | .Bytes => do
    let (data, idx) ← read_length_delimited bytes idx
    return (.String (library.encode_base64 data), idx)
  | kind => decode_packable_value kind bytes idx

def append_decoded_field (target : Members) (name : String) (value : Value) (repeated : Bool) :
    Members :=
  if repeated then
    match target.lookup name with
    | some (.Array existing) => insert name (.Array (existing ++ [value])) target
    | some existing => insert name (.Array [existing, value]) target
    | none => insert name (.Array [value]) target
  else insert name value target

/-- The loop over a packed block that ends at `stop`; every turn reads a byte at least. -/
def decode_packed_loop (kind : FieldKind) (bytes : Bytes) (stop : Nat) :
    Nat → Nat → Except PulseError (List Value)
  | 0, _ => .ok []
  | turns + 1, packed_idx =>
    if packed_idx < stop then do
      let (value, packed_idx) ← decode_packable_value kind bytes packed_idx
      return value :: (← decode_packed_loop kind bytes stop turns packed_idx)
    else .ok []

/-- The packed branch of `decode_message`: the elements and the index after the block. -/
def decode_packed (kind : FieldKind) (bytes : Bytes) (idx : Nat) :
    Except PulseError (List Value × Nat) := do
  let (packed_len, idx) ← read_varint bytes idx
  let stop := idx + packed_len.toNat
  rejectIf (usize_MAX < stop) (.Client "packed field length overflow")
  rejectIf (bytes.length < stop) (.Client "packed field exceeds payload bounds")
  return (← decode_packed_loop kind bytes stop packed_len.toNat idx, stop)

/-- One turn of the loop of `decode_message`: the index and the object after it. -/
def decode_step (nested : String → Bytes → Except PulseError Value) (schema : MessageSchema)
    (bytes : Bytes) (idx : Nat) (out : Members) : Except PulseError (Nat × Members) := do
  let (key, idx) ← read_varint bytes idx
  let field_number := (key >>> 3).toUInt32
  let wire_type := (key &&& 0x7).toUInt8
  match schema.fields_by_number field_number with
  | none => return (← skip_wire_value wire_type bytes idx, out)
  | some field =>
    if field.repeated ∧ field.packable ∧ wire_type = 2 then do
      let (arr, idx) ← decode_packed field.kind bytes idx
      return (idx, append_decoded_field out field.name (.Array arr) true)
    else do
      let (value, idx) ← decode_single_field_value library nested field wire_type bytes idx
      return (idx, append_decoded_field out field.name value field.repeated)

/-- The loop of `decode_message`, for payloads that fewer turns than the count read. -/
def decode_loop (messages : MessageRegistry) :
    Nat → MessageSchema → Bytes → Nat → Members → Except PulseError Members
  | 0, _, _, _, _ => .error (.Client "the payload is too long")
  | turns + 1, schema, bytes, idx, out =>
    if idx < bytes.length then do
      let nested := fun message_name data => do
        let schema ← okOr (messages message_name)
          (.Client s!"message '{message_name}' not found in descriptor set")
        return .Object (← decode_loop messages turns schema data 0 [])
      let (idx, out) ← decode_step library nested schema bytes idx out
      decode_loop messages turns schema bytes idx out
    else .ok out

/-- Every turn reads a byte, and nested data is shorter than the payload around it. -/
def decode_message (messages : MessageRegistry) (message_name : String) (bytes : Bytes) :
    Except PulseError Value := do
  let schema ← okOr (messages message_name)
    (.Client s!"message '{message_name}' not found in descriptor set")
  return .Object (← decode_loop library messages (bytes.length + 1) schema bytes 0 [])

end values

end pulse.grpc
