-- The loops of the dynamic codec: every turn of the decoder reads a byte of the
-- payload, and the encoder goes down the nesting of its value. So both end, and
-- their equations need no count of turns.
import Pulse.DynamicMessages

open checks json varints

namespace pulse.grpc

/-! ## The index goes forward -/

variable {idx idx' : Nat} {bytes : Bytes}

theorem advance_bounds {n : Nat} (h : advance bytes idx n = .ok idx') :
    idx ≤ idx' ∧ idx' ≤ bytes.length := by
  unfold advance at h
  obtain ⟨⟨data, stop⟩, htake, h⟩ := bind_eq_ok.mp h
  have hbounds := take_bytes_bounds htake
  cases h
  omega

theorem read_fixed32_bounds {v : UInt32} (h : read_fixed32 bytes idx = .ok (v, idx')) :
    idx < idx' ∧ idx' ≤ bytes.length := by
  unfold read_fixed32 at h
  obtain ⟨⟨data, stop⟩, htake, h⟩ := bind_eq_ok.mp h
  have hbounds := take_bytes_bounds htake
  cases h
  omega

theorem read_fixed64_bounds {v : UInt64} (h : read_fixed64 bytes idx = .ok (v, idx')) :
    idx < idx' ∧ idx' ≤ bytes.length := by
  unfold read_fixed64 at h
  obtain ⟨⟨data, stop⟩, htake, h⟩ := bind_eq_ok.mp h
  have hbounds := take_bytes_bounds htake
  cases h
  omega

theorem read_length_delimited_bounds {data : Bytes}
    (h : read_length_delimited bytes idx = .ok (data, idx')) :
    idx < idx' ∧ idx' ≤ bytes.length ∧ idx + data.length < idx' := by
  unfold read_length_delimited at h
  obtain ⟨⟨len, start⟩, hread, h⟩ := bind_eq_ok.mp h
  have hstart := read_varint_bounds hread
  obtain ⟨rfl, hle, rfl⟩ := take_bytes_bounds h
  have hlength : ((bytes.drop start).take len.toNat).length ≤ len.toNat :=
    List.length_take_le ..
  omega

theorem skip_wire_value_bounds {wire_type : UInt8}
    (h : skip_wire_value wire_type bytes idx = .ok idx') : idx ≤ idx' ∧ idx' ≤ bytes.length := by
  unfold skip_wire_value at h
  split at h
  · obtain ⟨⟨v, stop⟩, hread, h⟩ := bind_eq_ok.mp h
    have hbounds := read_varint_bounds hread
    cases h
    omega
  · exact advance_bounds h
  · obtain ⟨⟨len, start⟩, hread, h⟩ := bind_eq_ok.mp h
    have hstart := read_varint_bounds hread
    have hbounds := advance_bounds h
    omega
  · exact advance_bounds h
  · cases h

variable {value : Value}

theorem read_as_bounds {α : Type} {read : Bytes → Nat → Except PulseError (α × Nat)}
    {convert : α → Except PulseError Value}
    (hread : ∀ {v idx'}, read bytes idx = .ok (v, idx') → idx < idx' ∧ idx' ≤ bytes.length)
    (h : read_as read convert bytes idx = .ok (value, idx')) :
    idx < idx' ∧ idx' ≤ bytes.length := by
  unfold read_as at h
  obtain ⟨⟨v, stop⟩, hv, h⟩ := bind_eq_ok.mp h
  obtain ⟨w, _, h⟩ := bind_eq_ok.mp h
  cases h
  exact hread hv

/-- The wire type of a kind says which reader its values have. -/
theorem decode_packable_value_reader (kind : FieldKind) :
    (∃ f, kind.wire_type = 0 ∧ decode_packable_value kind = read_as read_varint f) ∨
    (∃ f, kind.wire_type = 1 ∧ decode_packable_value kind = read_as read_fixed64 f) ∨
    (∃ f, kind.wire_type = 5 ∧ decode_packable_value kind = read_as read_fixed32 f) ∨
    (is_packable kind = false ∧ decode_packable_value kind = fun _ _ =>
      .error (.Client "non-packable field decoded as packed")) := by
  cases kind with
  | Double | Fixed64 | SFixed64 => exact .inr (.inl ⟨_, rfl, by rw [decode_packable_value]⟩)
  | Float | Fixed32 | SFixed32 => exact .inr (.inr (.inl ⟨_, rfl, by rw [decode_packable_value]⟩))
  | String | Bytes | Message => exact .inr (.inr (.inr ⟨rfl, rfl⟩))
  | _ => exact .inl ⟨_, rfl, by rw [decode_packable_value]⟩

theorem decode_packable_value_bounds {kind : FieldKind}
    (h : decode_packable_value kind bytes idx = .ok (value, idx')) :
    idx < idx' ∧ idx' ≤ bytes.length := by
  rcases decode_packable_value_reader kind with ⟨f, _, hf⟩ | ⟨f, _, hf⟩ | ⟨f, _, hf⟩ | ⟨_, hf⟩
  · exact read_as_bounds read_varint_bounds (hf ▸ h)
  · exact read_as_bounds read_fixed64_bounds (hf ▸ h)
  · exact read_as_bounds read_fixed32_bounds (hf ▸ h)
  · rw [hf] at h
    cases h

variable {nested : String → Bytes → Except PulseError Value}

theorem decode_single_field_value_bounds {library : Library} {field : FieldSchema}
    {wire_type : UInt8}
    (h : decode_single_field_value library nested field wire_type bytes idx = .ok (value, idx')) :
    idx < idx' ∧ idx' ≤ bytes.length := by
  unfold decode_single_field_value at h
  obtain ⟨_, h⟩ := seq_eq_ok.mp h
  split at h
  · obtain ⟨⟨data, stop⟩, hread, h⟩ := bind_eq_ok.mp h
    obtain ⟨text, _, h⟩ := bind_eq_ok.mp h
    have hbounds := read_length_delimited_bounds hread
    cases h
    omega
  · obtain ⟨⟨data, stop⟩, hread, h⟩ := bind_eq_ok.mp h
    obtain ⟨inner, _, h⟩ := bind_eq_ok.mp h
    have hbounds := read_length_delimited_bounds hread
    cases h
    omega
  · obtain ⟨⟨data, stop⟩, hread, h⟩ := bind_eq_ok.mp h
    have hbounds := read_length_delimited_bounds hread
    cases h
    omega
  · exact decode_packable_value_bounds h

theorem decode_packed_bounds {kind : FieldKind} {arr : List Value}
    (h : decode_packed kind bytes idx = .ok (arr, idx')) : idx < idx' ∧ idx' ≤ bytes.length := by
  unfold decode_packed at h
  obtain ⟨⟨len, start⟩, hread, h⟩ := bind_eq_ok.mp h
  have hstart := read_varint_bounds hread
  simp only [seq_eq_ok, rejectIf_eq_ok] at h
  obtain ⟨_, hle, h⟩ := h
  obtain ⟨arr', _, h⟩ := bind_eq_ok.mp h
  cases h
  omega

variable {schema : MessageSchema} {out : Members}

/-- A turn of the loop reads a byte and stays inside the payload. -/
theorem decode_step_bounds {library : Library} {out' : Members}
    (h : decode_step library nested schema bytes idx out = .ok (idx', out')) :
    idx < idx' ∧ idx' ≤ bytes.length := by
  unfold decode_step at h
  obtain ⟨⟨key, start⟩, hread, h⟩ := bind_eq_ok.mp h
  have hstart := read_varint_bounds hread
  dsimp only at h
  split at h
  · obtain ⟨stop, hskip, h⟩ := bind_eq_ok.mp h
    have hbounds := skip_wire_value_bounds hskip
    cases h
    omega
  · split at h
    · obtain ⟨⟨arr, stop⟩, hpacked, h⟩ := bind_eq_ok.mp h
      have hbounds := decode_packed_bounds hpacked
      cases h
      omega
    · obtain ⟨⟨value, stop⟩, hsingle, h⟩ := bind_eq_ok.mp h
      have hbounds := decode_single_field_value_bounds hsingle
      cases h
      omega

/-! ## The loops end -/

variable (library : Library)

/-- A turn decodes nested messages from less than the rest of the payload. -/
theorem decode_step_congr (nested nested' : String → Bytes → Except PulseError Value)
    (h : ∀ message_name data, data.length < bytes.length - idx →
      nested message_name data = nested' message_name data) :
    decode_step library nested schema bytes idx out =
      decode_step library nested' schema bytes idx out := by
  unfold decode_step
  cases hread : read_varint bytes idx with
  | error e => rfl
  | ok key =>
    have hstart := read_varint_bounds hread
    simp only [ok_bind]
    split
    · rfl
    · rename_i field _
      have hsingle : decode_single_field_value library nested field (key.1 &&& 7).toUInt8 bytes
            key.2 =
          decode_single_field_value library nested' field (key.1 &&& 7).toUInt8 bytes key.2 := by
        unfold decode_single_field_value
        cases hkind : field.kind with
        | Message message_name =>
          dsimp only
          congr 1
          funext _
          cases hdata : read_length_delimited bytes key.2 with
          | error e => rfl
          | ok data =>
            have hbounds := read_length_delimited_bounds hdata
            simp only [ok_bind, h message_name data.1 (by omega)]
        | _ => rfl
      rw [hsingle]

variable (messages : MessageRegistry)

/-- More turns than there are bytes left do not change the result. -/
theorem decode_loop_turns {turns turns' : Nat} (h : bytes.length - idx < turns)
    (h' : bytes.length - idx < turns') :
    decode_loop library messages turns schema bytes idx out =
      decode_loop library messages turns' schema bytes idx out := by
  induction turns generalizing turns' schema bytes idx out with
  | zero => omega
  | succ turns ih =>
    obtain ⟨turns', rfl⟩ : ∃ t, turns' = t + 1 := ⟨turns' - 1, by omega⟩
    unfold decode_loop
    split
    · rename_i hlt
      dsimp only
      rw [decode_step_congr library _ (fun message_name data => do
        let schema ← okOr (messages message_name)
          (.Client s!"message '{message_name}' not found in descriptor set")
        return .Object (← decode_loop library messages turns' schema data 0 []))]
      · cases hstep : decode_step library _ schema bytes idx out with
        | error e => rfl
        | ok next =>
          have hbounds := decode_step_bounds hstep
          simp only [ok_bind]
          exact ih (by omega) (by omega)
      · intro message_name data hdata
        congr 1
        funext inner
        have hloop : decode_loop library messages turns inner data 0 [] =
            decode_loop library messages turns' inner data 0 [] := ih (by omega) (by omega)
        rw [hloop]
    · rfl

/-- The loop of `decode_message` from an index on. -/
def decode_fields (library : Library) (messages : MessageRegistry) (schema : MessageSchema)
    (bytes : Bytes) (idx : Nat) (out : Members) : Except PulseError Members :=
  decode_loop library messages (bytes.length - idx + 1) schema bytes idx out

theorem decode_message_eq (message_name : String) (bytes : Bytes) :
    decode_message library messages message_name bytes = do
      let schema ← okOr (messages message_name)
        (.Client s!"message '{message_name}' not found in descriptor set")
      return .Object (← decode_fields library messages schema bytes 0 []) := rfl

/-- The loop without the count of its turns. -/
theorem decode_fields_eq (schema : MessageSchema) (bytes : Bytes) (idx : Nat) (out : Members) :
    decode_fields library messages schema bytes idx out =
      if idx < bytes.length then do
        let next ← decode_step library (decode_message library messages) schema bytes idx out
        decode_fields library messages schema bytes next.1 next.2
      else .ok out := by
  unfold decode_fields
  rw [decode_loop]
  split
  · rename_i hlt
    dsimp only
    rw [decode_step_congr library _ (decode_message library messages)]
    · cases hstep : decode_step library (decode_message library messages) schema bytes idx out with
      | error e => rfl
      | ok next =>
        have hbounds := decode_step_bounds hstep
        simp only [ok_bind]
        exact decode_loop_turns library messages (by omega) (by omega)
    · intro message_name data hdata
      unfold decode_message
      congr 1
      funext inner
      have hloop : decode_loop library messages (bytes.length - idx) inner data 0 [] =
          decode_loop library messages (data.length + 1) inner data 0 [] :=
        decode_loop_turns library messages (by omega) (by omega)
      rw [hloop]
  · rfl

/-- An encoder looks at nested values that are less deep than the value. -/
theorem encode_level_congr (nested nested' : String → Value → Except PulseError Bytes)
    {message_name : String}
    (h : ∀ name inner, inner.depth < value.depth → nested name inner = nested' name inner) :
    encode_level library messages nested message_name value =
      encode_level library messages nested' message_name value := by
  have hsingle : ∀ (field : FieldSchema) (inner : Value), inner.depth < value.depth →
      encode_single_field_value library nested field inner =
        encode_single_field_value library nested' field inner := by
    intro field inner hinner
    unfold encode_single_field_value encode_body
    cases field.kind with
    | Message name => simp only [h name inner hinner]
    | _ => rfl
  have hfield : ∀ (field : FieldSchema) (inner : Value), inner.depth < value.depth →
      encode_field library nested field inner = encode_field library nested' field inner := by
    intro field inner hinner
    unfold encode_field
    split
    · split
      · rename_i items
        rw [mapM_congr fun item hitem =>
          hsingle field item ((depth_mem_elements hitem).trans hinner)]
      · rfl
    · exact hsingle field inner hinner
  unfold encode_level
  cases messages message_name with
  | none => rfl
  | some schema =>
    simp only [okOr, ok_bind]
    cases value with
    | Object map =>
      dsimp only
      cases hpairs : map.mapM (lookup_field message_name schema) with
      | error e => rfl
      | ok field_pairs =>
        simp only [ok_bind]
        rw [mapM_congr]
        intro pair hpair
        -- every pair carries the value of a member
        obtain ⟨member, hmember, hlookup⟩ := mem_of_mapM hpairs
          ((List.perm_insertionSort _ _).mem_iff.mp hpair)
        have hvalue : pair.2.2 = member.2 := by
          unfold lookup_field at hlookup
          obtain ⟨number, _, hlookup⟩ := bind_eq_ok.mp hlookup
          obtain ⟨field, _, hlookup⟩ := bind_eq_ok.mp hlookup
          cases hlookup
          rfl
        apply hfield
        rw [hvalue]
        exact depth_mem_members hmember
    | _ => rfl

theorem encode_within_depth {depth : Nat} {message_name : String} (h : value.depth ≤ depth) :
    encode_within library messages depth message_name value =
      encode_message library messages message_name value := by
  induction depth using Nat.strongRecOn generalizing message_name value with
  | ind depth ih =>
    have hpos := depth_pos value
    unfold encode_message
    obtain ⟨k, hk⟩ : ∃ k, value.depth = k + 1 := ⟨value.depth - 1, by omega⟩
    obtain ⟨m, rfl⟩ : ∃ m, depth = m + 1 := ⟨depth - 1, by omega⟩
    rw [hk, encode_within, encode_within]
    apply encode_level_congr
    intro name inner hinner
    rw [ih m (by omega) (by omega), ih k (by omega) (by omega)]

/-- The encoder without the count of the nesting. -/
theorem encode_message_eq (message_name : String) (value : Value) :
    encode_message library messages message_name value =
      encode_level library messages (encode_message library messages) message_name value := by
  have hpos := depth_pos value
  obtain ⟨k, hk⟩ : ∃ k, value.depth = k + 1 := ⟨value.depth - 1, by omega⟩
  rw [encode_message, hk, encode_within]
  apply encode_level_congr
  intro name inner hinner
  exact encode_within_depth library messages (by omega)

end pulse.grpc
