-- What the dynamic encoder writes, the decoder reads back: the canonical form
-- of the value, field by field and message by message.
import Pulse.DynamicDecoding
import Mathlib.Logic.Relation
import Mathlib.Tactic.Choose

open checks json varints

namespace pulse.grpc

/-! ## The canonical form of a value -/

/-- The JSON value of a scalar that the encoder accepts. Floats have their own rounding and
messages are no scalars. -/
def canonical_scalar (library : Library) (kind : FieldKind) (value : Value) :
    Except PulseError Value :=
  match kind with
  | .Int64 | .SFixed64 | .SInt64 => return integer (← to_i64 library value).toInt
  | .Int32 | .Enum | .SFixed32 | .SInt32 => return integer (← to_i32 library value).toInt
  | .UInt64 | .Fixed64 => return integer (← to_u64 library value).toNat
  | .UInt32 | .Fixed32 => return integer (← to_u32 library value).toNat
  | .Bool => return .Bool (← to_bool library value)
  | .String => return .String (← to_string_value library value)
  | .Bytes => return .String (library.encode_base64 (← to_bytes library value))
  | .Double | .Float | .Message _ => .error (.Client "no canonical scalar")

/-- The field that a key of an object stands for. -/
def MessageSchema.field (schema : MessageSchema) (key : String) : Option FieldSchema :=
  (schema.fields_by_name key).bind schema.fields_by_number

mutual

/-- The canonical form of a value of a kind. -/
inductive Canonical (library : Library) (messages : MessageRegistry) :
    FieldKind → Value → Value → Prop
  | scalar {kind : FieldKind} {value out : Value}
      (h : canonical_scalar library kind value = .ok out) :
      Canonical library messages kind value out
  | message {message_name : String} {schema : MessageSchema} {map members : Members}
      (hschema : messages message_name = some schema)
      (hmembers : CanonicalMembers library messages schema map members) :
      Canonical library messages (.Message message_name) (.Object map) (.Object (ofList members))

/-- The members of an object under the names of their fields; an empty array is left out. -/
inductive CanonicalMembers (library : Library) (messages : MessageRegistry) :
    MessageSchema → Members → Members → Prop
  | nil {schema : MessageSchema} : CanonicalMembers library messages schema [] []
  | single {schema : MessageSchema} {field : FieldSchema} {key : String} {value out : Value}
      {map members : Members} (hfield : schema.field key = some field)
      (hsingle : field.repeated = false) (hvalue : Canonical library messages field.kind value out)
      (hrest : CanonicalMembers library messages schema map members) :
      CanonicalMembers library messages schema ((key, value) :: map) ((field.name, out) :: members)
  | array {schema : MessageSchema} {field : FieldSchema} {key : String} {items outs : List Value}
      {map members : Members} (hfield : schema.field key = some field)
      (hrepeated : field.repeated = true) (hne : outs ≠ [])
      (hitems : CanonicalItems library messages field.kind items outs)
      (hrest : CanonicalMembers library messages schema map members) :
      CanonicalMembers library messages schema ((key, .Array items) :: map)
        ((field.name, .Array outs) :: members)
  | empty {schema : MessageSchema} {field : FieldSchema} {key : String} {map members : Members}
      (hfield : schema.field key = some field) (hrepeated : field.repeated = true)
      (hrest : CanonicalMembers library messages schema map members) :
      CanonicalMembers library messages schema ((key, .Array []) :: map) members

inductive CanonicalItems (library : Library) (messages : MessageRegistry) :
    FieldKind → List Value → List Value → Prop
  | nil {kind : FieldKind} : CanonicalItems library messages kind [] []
  | cons {kind : FieldKind} {item out : Value} {items outs : List Value}
      (hitem : Canonical library messages kind item out)
      (hrest : CanonicalItems library messages kind items outs) :
      CanonicalItems library messages kind (item :: items) (out :: outs)

end

/-! ## Scalars -/

/-- A reader gives the value that stands at the index. -/
def Reads (read : Bytes → Nat → Except PulseError (Value × Nat)) (body : Bytes) (out : Value) :
    Prop :=
  ∀ ⦃bytes rest : Bytes⦄ ⦃idx : Nat⦄, bytes.length ≤ usize_MAX → bytes.drop idx = body ++ rest →
    read bytes idx = .ok (out, idx + body.length)

variable {out value : Value} {convert : UInt64 → Except PulseError Value}

theorem reads_varint {v : UInt64} (h : convert v = .ok out) :
    Reads (read_as read_varint convert) (write_varint v) out := by
  intro bytes rest idx _ hdrop
  rw [read_as, read_varint_write_varint hdrop, ok_bind]
  dsimp only
  rw [h, ok_bind]
  rfl

variable {body : Bytes}

theorem reads_fixed64 (hbody : body.length = 8)
    (h : convert (UInt64.ofNat (from_le_bytes body)) = .ok out) :
    Reads (read_as read_fixed64 convert) body out := by
  intro bytes rest idx hsize hdrop
  rw [read_as, read_fixed64_of_drop hsize hbody hdrop, ok_bind]
  dsimp only
  rw [h, ok_bind, hbody]
  rfl

theorem reads_fixed32 {convert : UInt32 → Except PulseError Value} (hbody : body.length = 4)
    (h : convert (UInt32.ofNat (from_le_bytes body)) = .ok out) :
    Reads (read_as read_fixed32 convert) body out := by
  intro bytes rest idx hsize hdrop
  rw [read_as, read_fixed32_of_drop hsize hbody hdrop, ok_bind]
  dsimp only
  rw [h, ok_bind, hbody]
  rfl

theorem ofNat_from_le_bytes_u64 (v : UInt64) :
    UInt64.ofNat (from_le_bytes (le_bytes 8 v.toNat)) = v := by
  rw [from_le_bytes_le_bytes v.toNat_lt, UInt64.ofNat_toNat]

theorem ofNat_from_le_bytes_u32 (v : UInt32) :
    UInt32.ofNat (from_le_bytes (le_bytes 4 v.toNat)) = v := by
  rw [from_le_bytes_le_bytes v.toNat_lt, UInt32.ofNat_toNat]

/-- A conversion and what is written of its result. -/
theorem reads_converted {α : Type} {x : Except PulseError α} {write : α → Bytes}
    {canonical : α → Value} {read : Bytes → Nat → Except PulseError (Value × Nat)}
    (hreads : ∀ n, Reads read (write n) (canonical n))
    (h : (x >>= fun n => pure (write n)) = .ok body) :
    ∃ out, (x >>= fun n => pure (canonical n)) = .ok out ∧ Reads read body out := by
  obtain ⟨n, hn, hbody⟩ := bind_eq_ok.mp h
  cases hbody
  refine ⟨canonical n, ?_, hreads n⟩
  rw [hn]
  rfl

theorem bool_of_varint (b : Bool) : ((if b then 1 else 0 : UInt64) != 0) = b := by
  cases b <;> rfl

/-- A scalar other than a float is read back from its bytes. -/
theorem decode_encode_packable {library : Library} {kind : FieldKind}
    (h : encode_packable_value library kind value = .ok body) (hdouble : kind ≠ .Double)
    (hfloat : kind ≠ .Float) :
    ∃ out, canonical_scalar library kind value = .ok out ∧
      Reads (decode_packable_value kind) body out := by
  unfold decode_packable_value
  cases kind with
  | Double => contradiction
  | Float => contradiction
  | String | Bytes | Message => cases h
  | Fixed64 =>
    exact reads_converted
      (fun n => reads_fixed64 (length_le_bytes ..) (by rw [ofNat_from_le_bytes_u64])) h
  | Fixed32 =>
    exact reads_converted
      (fun n => reads_fixed32 (length_le_bytes ..) (by rw [ofNat_from_le_bytes_u32])) h
  | SFixed64 =>
    exact reads_converted
      (fun n => reads_fixed64 (length_le_bytes ..) (by rw [ofNat_from_le_bytes_u64]; rfl)) h
  | SFixed32 =>
    exact reads_converted
      (fun n => reads_fixed32 (length_le_bytes ..) (by rw [ofNat_from_le_bytes_u32]; rfl)) h
  | Int64 | UInt64 => exact reads_converted (fun n => reads_varint rfl) h
  | Int32 | Enum | UInt32 => exact reads_converted (fun n => reads_varint (by simp)) h
  | Bool => exact reads_converted (fun n => reads_varint (by rw [bool_of_varint])) h
  | SInt32 =>
    exact reads_converted (fun n => reads_varint (by rw [unzigzag_i32_zigzag_i32]; rfl)) h
  | SInt64 => exact reads_converted (fun n => reads_varint (by rw [unzigzag_i64_zigzag_i64])) h

/-! ## One field -/

theorem from_utf8_as_bytes (text : String) :
    String.fromUTF8? ⟨(as_bytes text).toArray⟩ = some text := by
  have hbytes : (⟨(as_bytes text).toArray⟩ : ByteArray) = text.toUTF8 := by simp [as_bytes]
  rw [hbytes, String.fromUTF8?, String.toUTF8_eq_toByteArray, dif_pos text.isValidUTF8]
  rfl

/-- The value of a field behind its key. -/
theorem decode_encode_single {library : Library} {messages : MessageRegistry} {field : FieldSchema}
    {chunk : Bytes} (hinner : ∀ name, field.kind = .Message name → ∀ data,
      encode_message library messages name value = .ok data → data.length ≤ usize_MAX →
      ∃ out, decode_message library messages name data = .ok out ∧
        Canonical library messages (.Message name) value out) (hdouble : field.kind ≠ .Double)
    (hfloat : field.kind ≠ .Float) (hsize : chunk.length ≤ usize_MAX)
    (h : encode_single_field_value library (encode_message library messages) field value =
      .ok chunk) :
    ∃ body out, chunk = write_key field.number field.kind.wire_type ++ body ∧
      Canonical library messages field.kind value out ∧
      Reads (decode_single_field_value library (decode_message library messages) field
        field.kind.wire_type) body out := by
  unfold encode_single_field_value at h
  obtain ⟨body, hbody, h⟩ := bind_eq_ok.mp h
  cases h
  unfold encode_body at hbody
  have hwire : ensure_wire_type field.kind.wire_type field.kind.wire_type field = .ok () :=
    rejectIf_neg _ (by simp)
  split at hbody
  · -- a string: its bytes are valid UTF-8
    rename_i hkind
    obtain ⟨text, htext, hbody⟩ := bind_eq_ok.mp hbody
    cases hbody
    refine ⟨_, .String text, rfl, .scalar ?_, ?_⟩
    · rw [hkind, canonical_scalar, htext]
      rfl
    · intro bytes rest idx hbytes hdrop
      rw [decode_single_field_value, hwire, ok_bind, hkind]
      dsimp only
      rw [read_length_delimited_delimited hbytes hdrop, ok_bind]
      dsimp only
      rw [from_utf8_as_bytes]
      rfl
  · rename_i name hkind
    obtain ⟨data, hdata, hbody⟩ := bind_eq_ok.mp hbody
    cases hbody
    have hlength : data.length ≤ usize_MAX := by
      simp only [delimited, List.length_append] at hsize
      omega
    obtain ⟨out, hout, hcanonical⟩ := hinner name hkind data hdata hlength
    refine ⟨_, out, rfl, hkind ▸ hcanonical, ?_⟩
    intro bytes rest idx hbytes hdrop
    rw [decode_single_field_value, hwire, ok_bind, hkind]
    dsimp only
    rw [read_length_delimited_delimited hbytes hdrop, ok_bind]
    dsimp only
    rw [hout]
    rfl
  · rename_i hkind
    obtain ⟨data, hdata, hbody⟩ := bind_eq_ok.mp hbody
    cases hbody
    refine ⟨_, .String (library.encode_base64 data), rfl, .scalar ?_, ?_⟩
    · rw [hkind, canonical_scalar, hdata]
      rfl
    · intro bytes rest idx hbytes hdrop
      rw [decode_single_field_value, hwire, ok_bind, hkind]
      dsimp only
      rw [read_length_delimited_delimited hbytes hdrop, ok_bind]
      rfl
  · rename_i hstring hmessage hbytes'
    obtain ⟨out, hout, hreads⟩ := decode_encode_packable hbody hdouble hfloat
    refine ⟨body, out, rfl, .scalar hout, ?_⟩
    intro bytes rest idx hbytes hdrop
    rw [decode_single_field_value, hwire, ok_bind]
    split
    · contradiction
    · exact absurd ‹_› (hmessage _)
    · contradiction
    · exact hreads hbytes hdrop

/-! ## Runs of the loop -/

/-- The loop reads the chunk wherever it stands and applies `f` to the object. -/
def Runs (library : Library) (messages : MessageRegistry) (schema : MessageSchema) (chunk : Bytes)
    (f : Members → Members) : Prop :=
  ∀ ⦃bytes rest : Bytes⦄ ⦃idx : Nat⦄ ⦃map : Members⦄, bytes.length ≤ usize_MAX →
    bytes.drop idx = chunk ++ rest →
    decode_fields library messages schema bytes idx map =
      decode_fields library messages schema bytes (idx + chunk.length) (f map)

section runs

variable {library : Library} {messages : MessageRegistry} {schema : MessageSchema}

theorem Runs.nil : Runs library messages schema [] id := by
  intro bytes rest idx map _ _
  rfl

theorem Runs.append {chunk chunk' : Bytes} {f g : Members → Members}
    (hf : Runs library messages schema chunk f) (hg : Runs library messages schema chunk' g) :
    Runs library messages schema (chunk ++ chunk') (fun map => g (f map)) := by
  intro bytes rest idx map hsize hdrop
  rw [List.append_assoc] at hdrop
  have hdrop' : bytes.drop (idx + chunk.length) = chunk' ++ rest := by
    rw [← List.drop_drop, hdrop, List.drop_left]
  rw [hf hsize hdrop, hg hsize hdrop', List.length_append, Nat.add_assoc]

variable {bytes rest : Bytes} {map : Members}

/-- A turn behind a written key, with the index after the key. -/
theorem decode_step_key {nested : String → Bytes → Except PulseError Value} {field : FieldSchema}
    {wire_type : UInt8} {idx : Nat} (hfield : schema.fields_by_number field.number = some field)
    (hwire : wire_type.toNat < 8)
    (hdrop : bytes.drop idx = write_key field.number wire_type ++ rest) :
    decode_step library nested schema bytes idx map =
      let idx := idx + (write_key field.number wire_type).length
      if field.repeated ∧ field.packable ∧ wire_type = 2 then do
        let (arr, idx) ← decode_packed field.kind bytes idx
        return (idx, append_decoded_field map field.name (.Array arr) true)
      else do
        let (value, idx) ← decode_single_field_value library nested field wire_type bytes idx
        return (idx, append_decoded_field map field.name value field.repeated) := by
  unfold write_key at hdrop ⊢
  rw [decode_step, read_varint_write_varint hdrop, ok_bind]
  dsimp only
  rw [key_field_number _ hwire, key_wire_type _ hwire, hfield]

theorem lt_length_of_key {field_number : UInt32} {wire_type : UInt8} {idx : Nat}
    (h : bytes.drop idx = write_key field_number wire_type ++ rest) : idx < bytes.length := by
  have hpos := List.length_pos_iff.mpr
    (write_varint_ne_nil ((field_number.toUInt64 <<< 3) ||| wire_type.toUInt64))
  have hlength := congrArg List.length h
  simp only [write_key, List.length_drop, List.length_append] at hlength
  omega

/-- One turn for a field of the schema that is not a packed block. -/
theorem Runs.single {field : FieldSchema}
    (hfield : schema.fields_by_number field.number = some field)
    (hpacked : ¬ (field.repeated = true ∧ field.packable = true ∧ field.kind.wire_type = 2))
    (hreads : Reads (decode_single_field_value library (decode_message library messages) field
      field.kind.wire_type) body out) :
    Runs library messages schema (write_key field.number field.kind.wire_type ++ body)
      (fun map => append_decoded_field map field.name out field.repeated) := by
  intro bytes rest idx map hsize hdrop
  have hwire : field.kind.wire_type.toNat < 8 := by
    unfold FieldKind.wire_type
    split <;> decide
  rw [List.append_assoc] at hdrop
  have hdrop' : bytes.drop (idx + (write_key field.number field.kind.wire_type).length) =
      body ++ rest := by
    rw [← List.drop_drop, hdrop, List.drop_left]
  rw [decode_fields_eq, if_pos (lt_length_of_key hdrop), decode_step_key hfield hwire hdrop]
  dsimp only
  rw [if_neg hpacked, hreads hsize hdrop', List.length_append, Nat.add_assoc]
  rfl

/-- The loop ends at the end of the payload. -/
theorem Runs.decodes {message_name : String} {f : Members → Members}
    (hschema : messages message_name = some schema) (hsize : bytes.length ≤ usize_MAX)
    (h : Runs library messages schema bytes f) :
    decode_message library messages message_name bytes = .ok (.Object (f [])) := by
  rw [decode_message_eq, hschema, okOr, ok_bind, h hsize (List.append_nil _).symm,
    decode_fields_eq, if_neg (by omega)]
  rfl

/-- The values of a repeated field are collected in one array. -/
theorem foldl_append_decoded {name : String} {existing outs : List Value} :
    outs.foldl (fun map out => append_decoded_field map name out true)
        (insert name (.Array existing) map) =
      insert name (.Array (existing ++ outs)) map := by
  induction outs generalizing existing with
  | nil => simp
  | cons out outs ih =>
    rw [List.foldl_cons, append_decoded_field, if_pos rfl, lookup_insert_self]
    dsimp only
    rw [insert_insert_self, ih, List.append_assoc, List.singleton_append]

theorem foldl_append_decoded_new {name : String} {outs : List Value} (hne : outs ≠ [])
    (hnew : map.lookup name = none) :
    outs.foldl (fun map out => append_decoded_field map name out true) map =
      insert name (.Array outs) map := by
  cases outs with
  | nil => contradiction
  | cons out outs =>
    rw [List.foldl_cons, append_decoded_field, if_pos rfl, hnew]
    dsimp only
    rw [foldl_append_decoded, List.singleton_append]

end runs

/-! ## Messages -/

/-- What `collect_messages` gives for a message type whose fields have distinct names. -/
structure MessageSchema.WellFormed (schema : MessageSchema) : Prop where
  numbers : ∀ {number field}, schema.fields_by_number number = some field → field.number = number
  packable : ∀ {number field}, schema.fields_by_number number = some field →
    field.packable = is_packable field.kind
  names : ∀ {number number' field field'}, schema.fields_by_number number = some field →
    schema.fields_by_number number' = some field' → field.name = field'.name → number = number'

/-- A message type has a field of another one. -/
def Contains (messages : MessageRegistry) (outer inner : String) : Prop :=
  ∃ schema number field, messages outer = some schema ∧
    schema.fields_by_number number = some field ∧ field.kind = .Message inner

/-- Every message type inside a message type is well formed. -/
def WellFormedFrom (messages : MessageRegistry) (message_name : String) : Prop :=
  ∀ inner schema, Relation.ReflTransGen (Contains messages) message_name inner →
    messages inner = some schema → schema.WellFormed

/-- The value uses each field under one key only, and no float, double or packed field. -/
inductive Plain (messages : MessageRegistry) : FieldKind → Value → Prop
  | scalar {kind : FieldKind} {value : Value} (hdouble : kind ≠ .Double) (hfloat : kind ≠ .Float)
      (hmessage : ∀ message_name, kind ≠ .Message message_name) : Plain messages kind value
  | message {message_name : String} {schema : MessageSchema} {map : Members}
      (hschema : messages message_name = some schema)
      (hkeys : (map.map fun member => schema.fields_by_name member.1).Nodup)
      (hsingle : ∀ {key value field}, (key, value) ∈ map → schema.field key = some field →
        field.repeated = false → Plain messages field.kind value)
      (hpacked : ∀ {key value field}, (key, value) ∈ map → schema.field key = some field →
        field.repeated = true → is_packable field.kind = false)
      (hitems : ∀ {key items field}, (key, .Array items) ∈ map → schema.field key = some field →
        field.repeated = true → ∀ item ∈ items, Plain messages field.kind item) :
      Plain messages (.Message message_name) (.Object map)

/-! ## The round trip -/

/-- What a member leaves in the object: nothing for an empty array. -/
def Entry (library : Library) (messages : MessageRegistry) (field : FieldSchema) (value : Value)
    (entry : Option Value) : Prop :=
  (field.repeated = false ∧ ∃ out, entry = some out ∧
    Canonical library messages field.kind value out) ∨
  (field.repeated = true ∧ ∃ items outs, value = .Array items ∧
    CanonicalItems library messages field.kind items outs ∧
    entry = if outs = [] then none else some (.Array outs))

/-- The entry in the object. -/
def enter (name : String) (entry : Option Value) (map : Members) : Members :=
  match entry with
  | none => map
  | some value => insert name value map

section roundTrip

variable {library : Library} {messages : MessageRegistry} {schema : MessageSchema}
  {field : FieldSchema}

theorem Entry.members {key : String} {entry : Option Value} {map members : Members}
    (h : Entry library messages field value entry) (hfield : schema.field key = some field)
    (hrest : CanonicalMembers library messages schema map members) :
    CanonicalMembers library messages schema ((key, value) :: map)
      ((entry.map fun out => (field.name, out)).toList ++ members) := by
  rcases h with ⟨hsingle, out, rfl, hcanonical⟩ | ⟨hrepeated, items, outs, rfl, hitems, rfl⟩
  · exact .single hfield hsingle hcanonical hrest
  · by_cases hne : outs = []
    · subst hne
      cases hitems
      exact .empty hfield hrepeated hrest
    · rw [if_neg hne]
      exact .array hfield hrepeated hne hitems hrest

theorem flatten_length_le {α : Type} {chunk : List α} {chunks : List (List α)}
    (h : chunk ∈ chunks) : chunk.length ≤ chunks.flatten.length :=
  (List.sublist_flatten_of_mem h).length_le

/-- The items of a repeated field, each behind its own key. -/
theorem runs_items {items : List Value} {chunks : List Bytes}
    (hinner : ∀ item ∈ items, ∀ name, field.kind = .Message name → ∀ data,
      encode_message library messages name item = .ok data → data.length ≤ usize_MAX →
      ∃ out, decode_message library messages name data = .ok out ∧
        Canonical library messages (.Message name) item out)
    (hfield : schema.fields_by_number field.number = some field) (hrepeated : field.repeated = true)
    (hpacked : field.packable = false) (hdouble : field.kind ≠ .Double)
    (hfloat : field.kind ≠ .Float) (hsize : ∀ chunk ∈ chunks, chunk.length ≤ usize_MAX)
    (h : List.Forall₂ (fun item chunk =>
      encode_single_field_value library (encode_message library messages) field item = .ok chunk)
      items chunks) :
    ∃ outs, CanonicalItems library messages field.kind items outs ∧
      Runs library messages schema chunks.flatten fun map =>
        outs.foldl (fun map out => append_decoded_field map field.name out true) map := by
  induction h with
  | nil => exact ⟨[], .nil, Runs.nil⟩
  | cons hitem hrest ih =>
    obtain ⟨outs, hcanonical, hruns⟩ := ih (fun item hmem => hinner item (by simp [hmem]))
      (fun chunk hmem => hsize chunk (by simp [hmem]))
    obtain ⟨body, out, rfl, hout, hreads⟩ :=
      decode_encode_single (hinner _ (by simp)) hdouble hfloat (hsize _ (by simp)) hitem
    have hfirst := Runs.single hfield (by simp [hpacked]) hreads
    rw [hrepeated] at hfirst
    refine ⟨out :: outs, .cons hout hcanonical, ?_⟩
    rw [List.flatten_cons]
    exact hfirst.append hruns

/-- One field of the message: its entry, and the run of the loop over its bytes. -/
theorem runs_field {chunk : Bytes}
    (hinner : ∀ inner, (inner = value ∨ ∃ items, value = .Array items ∧ inner ∈ items) →
      ∀ name, field.kind = .Message name → Plain messages (.Message name) inner → ∀ data,
      encode_message library messages name inner = .ok data → data.length ≤ usize_MAX →
      ∃ out, decode_message library messages name data = .ok out ∧
        Canonical library messages (.Message name) inner out)
    (hfield : schema.fields_by_number field.number = some field)
    (hsingle : field.repeated = false → Plain messages field.kind value)
    (hpacked : field.repeated = true → field.packable = false)
    (hkind : field.repeated = true → is_packable field.kind = false)
    (hitems : field.repeated = true → ∀ items, value = .Array items → ∀ item ∈ items,
      Plain messages field.kind item) (hsize : chunk.length ≤ usize_MAX)
    (h : encode_field library (encode_message library messages) field value = .ok chunk) :
    ∃ entry f, Entry library messages field value entry ∧
      (∀ map : Members, map.lookup field.name = none → f map = enter field.name entry map) ∧
      Runs library messages schema chunk f := by
  unfold encode_field at h
  cases hrepeated : field.repeated with
  | false =>
    rw [hrepeated] at h
    have hplain := hsingle hrepeated
    have hfloats : field.kind ≠ .Double ∧ field.kind ≠ .Float := by
      generalize field.kind = kind at hplain
      cases hplain with
      | scalar hdouble hfloat _ => exact ⟨hdouble, hfloat⟩
      | message => exact ⟨by simp, by simp⟩
    obtain ⟨body, out, rfl, hout, hreads⟩ := decode_encode_single
      (fun name hname => hinner value (.inl rfl) name hname (hname ▸ hplain))
      hfloats.1 hfloats.2 hsize h
    have hruns := Runs.single hfield (by simp [hrepeated]) hreads
    refine ⟨some out, _, .inl ⟨hrepeated, out, rfl, hout⟩, ?_, hruns⟩
    intro map _
    rw [append_decoded_field, hrepeated]
    rfl
  | true =>
    rw [hrepeated, if_pos rfl] at h
    split at h
    · rename_i items
      rw [hpacked hrepeated, if_neg (by simp)] at h
      obtain ⟨chunks, hchunks, h⟩ := bind_eq_ok.mp h
      cases h
      have hunpackable := hkind hrepeated
      obtain ⟨outs, hcanonical, hruns⟩ := runs_items
        (fun item hmem name hname => hinner item (.inr ⟨items, rfl, hmem⟩) name hname
          (hname ▸ hitems hrepeated items rfl item hmem))
        hfield hrepeated (hpacked hrepeated)
        (by intro hdouble; rw [hdouble] at hunpackable; cases hunpackable)
        (by intro hfloat; rw [hfloat] at hunpackable; cases hunpackable)
        (fun chunk hmem => (flatten_length_le hmem).trans hsize) (mapM_eq_ok.mp hchunks)
      refine ⟨_, _, .inr ⟨hrepeated, items, outs, rfl, hcanonical, rfl⟩, ?_, hruns⟩
      intro map hnew
      by_cases hne : outs = []
      · rw [hne]
        rfl
      · rw [if_neg hne, foldl_append_decoded_new hne hnew]
        rfl
    · cases h

variable {message_name : String}

/-- The field and the value of an accepted key. -/
theorem lookup_field_eq_ok {member : String × Value} {pair : UInt32 × FieldSchema × Value}
    (h : lookup_field message_name schema member = .ok pair) :
    schema.fields_by_name member.1 = some pair.1 ∧
      schema.fields_by_number pair.1 = some pair.2.1 ∧ pair.2.2 = member.2 := by
  unfold lookup_field at h
  obtain ⟨number, hnumber, h⟩ := bind_eq_ok.mp h
  obtain ⟨field, hfield, h⟩ := bind_eq_ok.mp h
  rw [okOr_eq_ok] at hnumber hfield
  cases h
  exact ⟨hnumber, hfield, rfl⟩

variable {pairs : List (UInt32 × FieldSchema × Value)}

/-- The keys of the object have different fields, so these have different names. -/
theorem names_nodup {map : Members} (hwf : schema.WellFormed)
    (hkeys : (map.map fun member => schema.fields_by_name member.1).Nodup)
    (h : map.mapM (lookup_field message_name schema) = .ok pairs) :
    (pairs.map fun pair => pair.2.1.name).Nodup := by
  have hnumbers : map.map (fun member => schema.fields_by_name member.1) =
      (pairs.map Prod.fst).map some := by
    rw [mapM_eq_ok] at h
    clear hkeys
    induction h with
    | nil => rfl
    | cons hpair _ ih =>
      rw [List.map_cons, List.map_cons, List.map_cons, ih, (lookup_field_eq_ok hpair).1]
  rw [hnumbers] at hkeys
  have hfirst : (pairs.map Prod.fst).Nodup := List.Nodup.of_map some hkeys
  apply List.Nodup.map_on _ (List.Nodup.of_map Prod.fst hfirst)
  intro pair hpair pair' hpair' hname
  obtain ⟨_, _, hlookup⟩ := mem_of_mapM h hpair
  obtain ⟨_, _, hlookup'⟩ := mem_of_mapM h hpair'
  have hnumber := hwf.names (lookup_field_eq_ok hlookup).2.1 (lookup_field_eq_ok hlookup').2.1 hname
  exact List.inj_on_of_nodup_map hfirst hpair hpair' hnumber

variable {entry : UInt32 × FieldSchema × Value → Option Value}

/-- The entries of the members, in the order of the object. -/
theorem canonicalMembers_of_entries {map : Members}
    (h : map.mapM (lookup_field message_name schema) = .ok pairs)
    (hentry : ∀ pair ∈ pairs, Entry library messages pair.2.1 pair.2.2 (entry pair)) :
    CanonicalMembers library messages schema map
      (pairs.filterMap fun pair => (entry pair).map fun out => (pair.2.1.name, out)) := by
  rw [mapM_eq_ok] at h
  induction h with
  | nil => exact .nil
  | @cons member pair map pairs hpair _ ih =>
    obtain ⟨hname, hnumber, hvalue⟩ := lookup_field_eq_ok hpair
    have hfield : schema.field member.1 = some pair.2.1 := by
      rw [MessageSchema.field, hname, Option.bind_some, hnumber]
    have hfirst := hentry pair List.mem_cons_self
    have hrest := ih fun pair' hmem => hentry pair' (List.mem_cons_of_mem pair hmem)
    rw [hvalue] at hfirst
    have hmembers := hfirst.members hfield hrest
    rw [List.filterMap_cons]
    cases hcase : entry pair <;> simpa [hcase] using hmembers

theorem entries_nodup (h : (pairs.map fun pair => pair.2.1.name).Nodup) :
    ((pairs.filterMap fun pair => (entry pair).map fun out => (pair.2.1.name, out)).map
      Prod.fst).Nodup := by
  refine List.Nodup.sublist ?_ h
  clear h
  induction pairs with
  | nil => exact .slnil
  | cons pair pairs ih =>
    rw [List.filterMap_cons, List.map_cons]
    cases entry pair with
    | none => exact ih.cons _
    | some out => exact ih.cons_cons _

variable {f : UInt32 × FieldSchema × Value → Members → Members}

/-- The entries are put into the object one after the other. -/
theorem foldl_enter (map : Members) (hnames : (pairs.map fun pair => pair.2.1.name).Nodup)
    (hf : ∀ pair ∈ pairs, ∀ map : Members, map.lookup pair.2.1.name = none →
      f pair map = enter pair.2.1.name (entry pair) map)
    (hnew : ∀ pair ∈ pairs, map.lookup pair.2.1.name = none) :
    pairs.foldl (fun map pair => f pair map) map =
      (pairs.filterMap fun pair => (entry pair).map fun out => (pair.2.1.name, out)).foldl
        (fun map member => insert member.1 member.2 map) map := by
  induction pairs generalizing map with
  | nil => rfl
  | cons pair pairs ih =>
    rw [List.map_cons, List.nodup_cons] at hnames
    have hrest : ∀ map : Members, (∀ pair ∈ pairs, map.lookup pair.2.1.name = none) →
        pairs.foldl (fun map pair => f pair map) map = _ := fun map hnew' =>
      ih map hnames.2 (fun pair' hmem => hf pair' (List.mem_cons_of_mem pair hmem)) hnew'
    have hfirst := hnew pair List.mem_cons_self
    rw [List.foldl_cons, hf pair List.mem_cons_self map hfirst, List.filterMap_cons]
    cases hcase : entry pair with
    | none =>
      rw [enter, Option.map_none]
      exact hrest map fun pair' hmem => hnew pair' (List.mem_cons_of_mem pair hmem)
    | some out =>
      rw [enter, Option.map_some, List.foldl_cons]
      apply hrest
      intro pair' hmem
      have hne : pair'.2.1.name ≠ pair.2.1.name := by
        intro heq
        exact hnames.1 (heq ▸ List.mem_map_of_mem hmem)
      rw [lookup_insert_of_ne hne]
      exact hnew pair' (List.mem_cons_of_mem pair hmem)

/-- The fields of a message one after the other. -/
theorem runs_fields {chunks : List Bytes} (hruns : ∀ pair ∈ pairs, ∀ chunk ∈ chunks,
      encode_field library (encode_message library messages) pair.2.1 pair.2.2 = .ok chunk →
      Runs library messages schema chunk (f pair)) (h : List.Forall₂ (fun pair chunk =>
      encode_field library (encode_message library messages) pair.2.1 pair.2.2 = .ok chunk)
      pairs chunks) :
    Runs library messages schema chunks.flatten fun map =>
      pairs.foldl (fun map pair => f pair map) map := by
  induction h with
  | nil => exact .nil
  | cons hpair _ ih =>
    have hfirst := hruns _ List.mem_cons_self _ List.mem_cons_self hpair
    have hrest := ih fun pair hmem chunk hchunk =>
      hruns pair (List.mem_cons_of_mem _ hmem) chunk (List.mem_cons_of_mem _ hchunk)
    rw [List.flatten_cons]
    exact hfirst.append hrest

/-- What `encode_message` writes, `decode_message` reads as the canonical form of the value. The
bytes are those of a `Vec`, so that a `usize` counts them. -/
theorem dynamic_messages_round_trip (library : Library) (messages : MessageRegistry)
    (message_name : String) (value : Value) (bytes : Bytes)
    (hwf : WellFormedFrom messages message_name)
    (hplain : Plain messages (.Message message_name) value) (hsize : bytes.length ≤ usize_MAX)
    (h : encode_message library messages message_name value = .ok bytes) :
    ∃ out, decode_message library messages message_name bytes = .ok out ∧
      Canonical library messages (.Message message_name) value out := by
  induction hdepth : value.depth using Nat.strongRecOn
    generalizing message_name value bytes with
  | ind depth ih =>
    cases hplain with
    | scalar _ _ hmessage => exact absurd rfl (hmessage message_name)
    | @message _ schema map hschema hkeys hsingle hpacked hitems =>
      have hwell := hwf message_name schema .refl hschema
      rw [encode_message_eq, encode_level, hschema, okOr, ok_bind] at h
      dsimp only at h
      obtain ⟨pairs, hpairs, h⟩ := bind_eq_ok.mp h
      obtain ⟨chunks, hchunks, h⟩ := bind_eq_ok.mp h
      cases h
      have hperm := List.perm_insertionSort (fun a b => a.1 ≤ b.1) pairs
      have hnames := names_nodup hwell hkeys hpairs
      -- every field of the message: its entry and the run over its bytes
      have hfields : ∀ pair ∈ pairs, ∃ entry f,
          Entry library messages pair.2.1 pair.2.2 entry ∧
          (∀ map : Members, map.lookup pair.2.1.name = none →
            f map = enter pair.2.1.name entry map) ∧
          ∀ chunk ∈ chunks,
            encode_field library (encode_message library messages) pair.2.1 pair.2.2 = .ok chunk →
            Runs library messages schema chunk f := by
        intro pair hpair
        obtain ⟨member, hmember, hlookup⟩ := mem_of_mapM hpairs hpair
        obtain ⟨hname, hnumber, hvalue⟩ := lookup_field_eq_ok hlookup
        have hfield : schema.field member.1 = some pair.2.1 := by
          rw [MessageSchema.field, hname, Option.bind_some, hnumber]
        have hmember' : (member.1, pair.2.2) ∈ map := by
          rw [hvalue]
          exact hmember
        have hnumber' : schema.fields_by_number pair.2.1.number = some pair.2.1 := by
          rw [hwell.numbers hnumber, hnumber]
        obtain ⟨chunk, hchunk, hencode⟩ : ∃ chunk ∈ chunks,
            encode_field library (encode_message library messages) pair.2.1 pair.2.2 =
              .ok chunk := by
          obtain ⟨chunk, hchunk⟩ := exists_of_mapM hchunks (hperm.mem_iff.mpr hpair)
          exact ⟨chunk, hchunk⟩
        obtain ⟨entry, f, hentry, hf, hruns⟩ := runs_field
          (by
            intro inner hinside name hname hplain data hdata hlength
            have hless : inner.depth < depth := by
              have hvalue := depth_mem_members hmember'
              rcases hinside with rfl | ⟨items, hitems, hmem⟩
              · omega
              · have := hitems ▸ depth_mem_elements hmem
                omega
            refine ih inner.depth hless name inner data ?_ hplain hlength hdata rfl
            intro deepest schema' hreach
            exact hwf deepest schema' (.head ⟨schema, pair.1, pair.2.1, hschema, hnumber, hname⟩
              hreach))
          hnumber' (hsingle hmember' hfield)
          (fun hrepeated => by rw [hwell.packable hnumber, hpacked hmember' hfield hrepeated])
          (hpacked hmember' hfield)
          (fun hrepeated items hvalue => hitems (hvalue ▸ hmember') hfield hrepeated)
          ((flatten_length_le hchunk).trans hsize) hencode
        refine ⟨entry, f, hentry, hf, ?_⟩
        intro chunk' _ hencode'
        rw [hencode] at hencode'
        cases hencode'
        exact hruns
      choose! entry f hentry hf hruns using hfields
      have hmembers := canonicalMembers_of_entries hpairs hentry
      have hrun := runs_fields (fun pair hmem => hruns pair (hperm.mem_iff.mp hmem))
        (mapM_eq_ok.mp hchunks)
      refine ⟨_, hrun.decodes hschema hsize, ?_⟩
      -- the object does not show the order of the fields in the payload
      have hobject := foldl_enter [] ((hperm.map _).nodup_iff.mpr hnames)
        (fun pair hmem => hf pair (hperm.mem_iff.mp hmem)) (fun _ _ => rfl)
      have hsame : (pairs.insertionSort fun a b => a.1 ≤ b.1).foldl
          (fun map pair => f pair map) [] = ofList (pairs.filterMap fun pair =>
            (entry pair).map fun out => (pair.2.1.name, out)) := by
        rw [hobject]
        exact (ofList_perm (hperm.symm.filterMap _) (entries_nodup hnames)).symm
      rw [hsame]
      exact .message hschema hmembers

end roundTrip

/-! ## A tree of nodes -/

/-- The codec of messages without floats and bytes. -/
def plainLibrary : Library where
  display := fun _ => ""
  encode_base64 := fun _ => ""
  decode_base64 := fun _ => .error ""
  as_f64 := fun _ => none
  as_f32 := fun _ => none
  parse_f64 := fun _ => none
  parse_f32 := fun _ => none
  utf8_error := fun _ => ""

/-- A message type inside itself. -/
def nodeSchema : MessageSchema where
  fields_by_name := fun key =>
    if key = "id" then some 1 else if key = "children" then some 2 else none
  fields_by_number := fun number =>
    if number = 1 then some ⟨"id", 1, false, true, .SInt32⟩
    else if number = 2 then some ⟨"children", 2, true, false, .Message "Node"⟩
    else none

def nodeMessages : MessageRegistry := fun name => if name = "Node" then some nodeSchema else none

def leaf : Value := .Object [("id", integer (-3))]

def tree : Value := .Object [("children", .Array [leaf]), ("id", .String "7")]

theorem nodeSchema_field {number : UInt32} {field : FieldSchema}
    (h : nodeSchema.fields_by_number number = some field) :
    (number = 1 ∧ field = ⟨"id", 1, false, true, .SInt32⟩) ∨
      (number = 2 ∧ field = ⟨"children", 2, true, false, .Message "Node"⟩) := by
  unfold nodeSchema at h
  dsimp only at h
  split at h
  · cases h
    exact .inl ⟨‹_›, rfl⟩
  · split at h
    · cases h
      exact .inr ⟨‹_›, rfl⟩
    · cases h

theorem nodeSchema_wellFormed : nodeSchema.WellFormed where
  numbers := by
    intro number field h
    rcases nodeSchema_field h with ⟨rfl, rfl⟩ | ⟨rfl, rfl⟩ <;> rfl
  packable := by
    intro number field h
    rcases nodeSchema_field h with ⟨rfl, rfl⟩ | ⟨rfl, rfl⟩ <;> rfl
  names := by
    intro number number' field field' h h' hname
    rcases nodeSchema_field h with ⟨rfl, rfl⟩ | ⟨rfl, rfl⟩ <;>
      rcases nodeSchema_field h' with ⟨rfl, rfl⟩ | ⟨rfl, rfl⟩ <;> simp_all

theorem nodeMessages_wellFormed : WellFormedFrom nodeMessages "Node" := by
  intro inner schema _ hschema
  unfold nodeMessages at hschema
  split at hschema
  · cases hschema
    exact nodeSchema_wellFormed
  · cases hschema

theorem nodeSchema_id : nodeSchema.field "id" = some ⟨"id", 1, false, true, .SInt32⟩ := rfl

theorem nodeSchema_children :
    nodeSchema.field "children" = some ⟨"children", 2, true, false, .Message "Node"⟩ := rfl

theorem leaf_plain : Plain nodeMessages (.Message "Node") leaf := by
  refine .message rfl (by simp) ?_ ?_ ?_
  · intro key value field hmem hfield _
    simp only [List.mem_singleton, Prod.mk.injEq] at hmem
    obtain ⟨rfl, rfl⟩ := hmem
    rw [nodeSchema_id] at hfield
    cases hfield
    exact .scalar (by simp) (by simp) (by simp)
  · intro key value field hmem hfield hrepeated
    simp only [List.mem_singleton, Prod.mk.injEq] at hmem
    obtain ⟨rfl, rfl⟩ := hmem
    rw [nodeSchema_id] at hfield
    cases hfield
    cases hrepeated
  · intro key items field hmem hfield hrepeated
    simp only [List.mem_singleton, Prod.mk.injEq] at hmem
    obtain ⟨rfl, _⟩ := hmem
    rw [nodeSchema_id] at hfield
    cases hfield
    cases hrepeated

theorem tree_plain : Plain nodeMessages (.Message "Node") tree := by
  refine .message rfl (by decide) ?_ ?_ ?_
  · intro key value field hmem hfield hsingle
    simp only [List.mem_cons, List.not_mem_nil, or_false, Prod.mk.injEq] at hmem
    rcases hmem with ⟨rfl, rfl⟩ | ⟨rfl, rfl⟩
    · rw [nodeSchema_children] at hfield
      cases hfield
      cases hsingle
    · rw [nodeSchema_id] at hfield
      cases hfield
      exact .scalar (by simp) (by simp) (by simp)
  · intro key value field hmem hfield hrepeated
    simp only [List.mem_cons, List.not_mem_nil, or_false, Prod.mk.injEq] at hmem
    rcases hmem with ⟨rfl, rfl⟩ | ⟨rfl, rfl⟩
    · rw [nodeSchema_children] at hfield
      cases hfield
      rfl
    · rw [nodeSchema_id] at hfield
      cases hfield
      cases hrepeated
  · intro key items field hmem hfield hrepeated item hitem
    simp only [List.mem_cons, List.not_mem_nil, or_false, Prod.mk.injEq] at hmem
    rcases hmem with ⟨rfl, hitems⟩ | ⟨rfl, hitems⟩
    · cases hitems
      rw [nodeSchema_children] at hfield
      cases hfield
      rw [List.mem_singleton.mp hitem]
      exact leaf_plain
    · cases hitems

theorem encode_tree :
    encode_message plainLibrary nodeMessages "Node" tree = .ok [8, 14, 18, 2, 8, 5] := by
  decide +kernel

theorem a_tree_of_nodes_round_trips :
    encode_message plainLibrary nodeMessages "Node" tree = .ok [8, 14, 18, 2, 8, 5] ∧
    ∃ out, decode_message plainLibrary nodeMessages "Node" [8, 14, 18, 2, 8, 5] = .ok out ∧
      Canonical plainLibrary nodeMessages (.Message "Node") tree out :=
  ⟨encode_tree, dynamic_messages_round_trip _ _ _ _ _ nodeMessages_wellFormed tree_plain
    (by decide) encode_tree⟩

end pulse.grpc
