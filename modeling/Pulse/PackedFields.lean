-- A repeated scalar field may stand in a payload as packed blocks and as single
-- entries, in any mixture. The decoder collects one value for every piece.
import Pulse.PackedBlocks

open checks json varints

namespace pulse.grpc

/-! ## The pieces of a repeated field -/

/-- A packed block with its values, or one value behind its own key. -/
inductive Piece
  | packed (items : List Value)
  | unpacked (item : Value)

def Piece.items : Piece → List Value
  | .packed items => items
  | .unpacked item => [item]

/-- The bytes of a piece, as the encoder writes a packed block and a single value. -/
def Piece.encode (library : Library) (messages : MessageRegistry) (field : FieldSchema) :
    Piece → Except PulseError Bytes
  | .packed items => encode_packed_repeated_field library field items
  | .unpacked item =>
    encode_single_field_value library (encode_message library messages) field item

/-- The field is decoded to the flat array of the values of all pieces. -/
def DecodedFlat (library : Library) (messages : MessageRegistry) (message_name : String)
    (field : FieldSchema) (pieces : List Piece) (bytes : Bytes) : Prop :=
  ∃ outs, (pieces.flatMap Piece.items).mapM (canonical_scalar library field.kind) = .ok outs ∧
    decode_message library messages message_name bytes =
      .ok (.Object [(field.name, .Array outs)])

section pieces

variable {library : Library} {messages : MessageRegistry} {schema : MessageSchema}
  {field : FieldSchema} {chunks : List Bytes}

/-- The values of a packed block in order. -/
theorem decode_packed_loop_items {kind : FieldKind} {bytes rest : Bytes} {outs : List Value}
    (hsize : bytes.length ≤ usize_MAX)
    (h : List.Forall₂ (Reads (decode_packable_value kind)) chunks outs) :
    ∀ (turns idx : Nat), chunks.flatten.length ≤ turns →
      bytes.drop idx = chunks.flatten ++ rest →
      decode_packed_loop kind bytes (idx + chunks.flatten.length) turns idx = .ok outs := by
  induction h with
  | nil =>
    intro turns idx _ _
    cases turns with
    | zero => rfl
    | succ turns => simp [decode_packed_loop]
  | @cons chunk out chunks outs hreads _ ih =>
    intro turns idx hlength hdrop
    rw [List.flatten_cons, List.append_assoc] at hdrop
    rw [List.flatten_cons, List.length_append] at hlength ⊢
    have hpos : 0 < chunk.length := by
      have hbounds := decode_packable_value_bounds (hreads hsize hdrop)
      omega
    obtain ⟨turns, rfl⟩ : ∃ t, turns = t + 1 := ⟨turns - 1, by omega⟩
    rw [decode_packed_loop_element hreads hsize hdrop (by omega), ← Nat.add_assoc,
      ih turns (idx + chunk.length) (by omega) (drop_rest hdrop)]
    rfl

/-- One turn for a packed block. -/
theorem Runs.packed {outs : List Value} (hfield : schema.fields_by_number field.number = some field)
    (hrepeated : field.repeated = true) (hpackable : field.packable = true)
    (h : List.Forall₂ (Reads (decode_packable_value field.kind)) chunks outs) :
    Runs library messages schema (write_key field.number 2 ++ delimited chunks.flatten)
      (fun map => append_decoded_field map field.name (.Array outs) true) := by
  intro bytes rest idx map hsize hdrop
  rw [delimited, List.append_assoc, List.append_assoc] at hdrop
  have hlt := lt_length_of_key hdrop
  have hlength := congrArg List.length hdrop
  simp only [List.length_drop, List.length_append] at hlength
  have hdrop' := drop_rest hdrop
  have hfits : chunks.flatten.length < UInt64.size := by
    unfold usize_MAX at hsize
    unfold UInt64.size
    omega
  have hpacked : decode_packed field.kind bytes (idx + (write_key field.number 2).length) =
      .ok (outs, idx + (write_key field.number 2 ++ delimited chunks.flatten).length) := by
    rw [decode_packed, read_varint_write_varint hdrop', ok_bind]
    dsimp only
    rw [UInt64.toNat_ofNat_of_lt' hfits, rejectIf_neg _ (by omega), ok_bind,
      rejectIf_neg _ (by omega), ok_bind,
      decode_packed_loop_items hsize h _ _ le_rfl (drop_rest hdrop'), ok_bind, delimited,
      List.length_append, List.length_append, Nat.add_assoc, Nat.add_assoc]
    rfl
  rw [decode_fields_eq, if_pos hlt, decode_step_key hfield (by decide) hdrop]
  dsimp only
  rw [if_pos ⟨hrepeated, hpackable, rfl⟩, hpacked]
  rfl

/-- A scalar of a packable kind is no array. -/
theorem canonical_scalar_ne_array {kind : FieldKind} {value out : Value}
    (hkind : is_packable kind = true) (h : canonical_scalar library kind value = .ok out)
    (items : List Value) : out ≠ .Array items := by
  cases kind with
  | Double | Float => cases h
  | String | Bytes | Message => cases hkind
  | _ =>
    obtain ⟨n, _, h⟩ := bind_eq_ok.mp h
    cases h
    intro harray
    cases harray

/-- The values of a packed block, each read back from its bytes. -/
theorem reads_items {items : List Value} (hdouble : field.kind ≠ .Double)
    (hfloat : field.kind ≠ .Float)
    (h : items.mapM (encode_packable_value library field.kind) = .ok chunks) :
    ∃ outs, items.mapM (canonical_scalar library field.kind) = .ok outs ∧
      List.Forall₂ (Reads (decode_packable_value field.kind)) chunks outs := by
  rw [mapM_eq_ok] at h
  induction h with
  | nil => exact ⟨[], rfl, .nil⟩
  | cons hitem _ ih =>
    obtain ⟨outs, houts, hreads⟩ := ih
    obtain ⟨out, hout, hread⟩ := decode_encode_packable hitem hdouble hfloat
    exact ⟨out :: outs, mapM_eq_ok.mpr (.cons hout (mapM_eq_ok.mp houts)), .cons hread hreads⟩

/-- A packed block leaves one array, and a single entry leaves its value. -/
theorem runs_piece {piece : Piece} {chunk : Bytes}
    (hfield : schema.fields_by_number field.number = some field)
    (hrepeated : field.repeated = true) (hpackable : field.packable = true)
    (hkind : is_packable field.kind = true) (hdouble : field.kind ≠ .Double)
    (hfloat : field.kind ≠ .Float)
    (h : piece.encode library messages field = .ok chunk) :
    ∃ outs decoded, piece.items.mapM (canonical_scalar library field.kind) = .ok outs ∧
      Runs library messages schema chunk
        (fun map => append_decoded_field map field.name decoded true) ∧
      ((∃ item, piece = .unpacked item) ∧ outs = [decoded] ∨
        (∃ items, piece = .packed items) ∧ decoded = .Array outs) := by
  cases piece with
  | packed items =>
    rw [Piece.encode, encode_packed_repeated_field] at h
    obtain ⟨chunks, hchunks, h⟩ := bind_eq_ok.mp h
    cases h
    obtain ⟨outs, houts, hreads⟩ := reads_items hdouble hfloat hchunks
    exact ⟨outs, .Array outs, houts, Runs.packed hfield hrepeated hpackable hreads,
      .inr ⟨⟨items, rfl⟩, rfl⟩⟩
  | unpacked item =>
    rw [Piece.encode, encode_single_field_value] at h
    obtain ⟨body, hbody, h⟩ := bind_eq_ok.mp h
    cases h
    have hscalar : encode_packable_value library field.kind item = .ok body := by
      generalize field.kind = kind at hbody hkind
      cases kind <;> first | exact hbody | cases hkind
    obtain ⟨out, hout, hreads⟩ := decode_encode_packable hscalar hdouble hfloat
    have hwire : field.kind.wire_type ≠ 2 := by
      rcases packable_wire_type hkind with hwire | hwire | hwire <;> rw [hwire] <;> decide
    have hsingle : Reads (decode_single_field_value library (decode_message library messages) field
        field.kind.wire_type) body out := by
      intro bytes rest idx hsize hdrop
      have hread := hreads hsize hdrop
      rw [decode_single_field_value, ensure_wire_type, rejectIf_neg _ (by simp), ok_bind]
      generalize field.kind = kind at hread hkind
      cases kind <;> first | exact hread | cases hkind
    have hruns := Runs.single hfield (fun hpacked => hwire hpacked.2.2) hsingle
    rw [hrepeated] at hruns
    exact ⟨[out], out, mapM_eq_ok.mpr (.cons hout .nil), hruns, .inl ⟨⟨item, rfl⟩, rfl⟩⟩

/-- The pieces one after the other: the array has one element for each of them, and it is flat
only when no piece is packed. -/
theorem runs_pieces {pieces : List Piece}
    (hfield : schema.fields_by_number field.number = some field) (hrepeated : field.repeated = true)
    (hpackable : field.packable = true) (hkind : is_packable field.kind = true)
    (hdouble : field.kind ≠ .Double) (hfloat : field.kind ≠ .Float)
    (h : pieces.mapM (Piece.encode library messages field) = .ok chunks) :
    ∃ outs decoded, (pieces.flatMap Piece.items).mapM (canonical_scalar library field.kind) =
        .ok outs ∧
      Runs library messages schema chunks.flatten (fun map =>
        decoded.foldl (fun map out => append_decoded_field map field.name out true) map) ∧
      decoded.length = pieces.length ∧
      (decoded = outs ↔ ∀ piece ∈ pieces, ∃ item, piece = .unpacked item) := by
  rw [mapM_eq_ok] at h
  induction h with
  | nil => exact ⟨[], [], rfl, Runs.nil, rfl, by simp⟩
  | @cons piece chunk pieces chunks hpiece _ ih =>
    obtain ⟨outs, decoded, houts, hruns, hlength, hflat⟩ := ih
    obtain ⟨outs', decoded', houts', hruns', hshape⟩ :=
      runs_piece hfield hrepeated hpackable hkind hdouble hfloat hpiece
    have hall : (piece :: pieces).flatMap Piece.items = piece.items ++ pieces.flatMap Piece.items :=
      List.flatMap_cons
    refine ⟨outs' ++ outs, decoded' :: decoded, ?_, ?_, by simp [hlength], ?_⟩
    · rw [hall, List.mapM_append, houts', houts]
      rfl
    · rw [List.flatten_cons]
      exact hruns'.append hruns
    · rw [List.forall_mem_cons]
      rcases hshape with ⟨hunpacked, rfl⟩ | ⟨⟨items, rfl⟩, rfl⟩
      · rw [List.singleton_append, List.cons_inj_right, hflat]
        exact ⟨fun h => ⟨hunpacked, h⟩, fun h => h.2⟩
      · -- the first element is an array, and no scalar is one
        constructor
        · intro heq
          cases hfirst : outs' ++ outs with
          | nil =>
            rw [hfirst] at heq
            cases heq
          | cons out rest =>
            rw [hfirst] at heq
            have hmem : out ∈ outs' ++ outs := by
              rw [hfirst]
              exact List.mem_cons_self
            have hcanonical : ((.packed items :: pieces).flatMap Piece.items).mapM
                (canonical_scalar library field.kind) = .ok (outs' ++ outs) := by
              rw [hall, List.mapM_append, houts', houts]
              rfl
            obtain ⟨value, _, hvalue⟩ := mem_of_mapM hcanonical hmem
            exact absurd (List.cons.inj heq).1.symm (canonical_scalar_ne_array hkind hvalue outs')
        · rintro ⟨⟨item, hitem⟩, _⟩
          cases hitem

end pieces

/-- A repeated scalar field is decoded to the flat array of its values exactly when no value of it
stands in a packed block. -/
theorem repeated_fields_are_flat_iff_unpacked (library : Library) (messages : MessageRegistry)
    (message_name : String) (schema : MessageSchema) (field : FieldSchema) (pieces : List Piece)
    (chunks : List Bytes) (hschema : messages message_name = some schema)
    (hfield : schema.fields_by_number field.number = some field)
    (hrepeated : field.repeated = true) (hpackable : field.packable = is_packable field.kind)
    (hkind : is_packable field.kind = true) (hdouble : field.kind ≠ .Double)
    (hfloat : field.kind ≠ .Float) (hne : pieces ≠ [])
    (hsize : chunks.flatten.length ≤ usize_MAX)
    (h : pieces.mapM (Piece.encode library messages field) = .ok chunks) :
    DecodedFlat library messages message_name field pieces chunks.flatten ↔
      ∀ piece ∈ pieces, ∃ item, piece = .unpacked item := by
  obtain ⟨outs, decoded, houts, hruns, hlength, hflat⟩ :=
    runs_pieces hfield hrepeated (hpackable.trans hkind) hkind hdouble hfloat h
  have hdecoded : decoded ≠ [] := by
    intro hnil
    rw [hnil, List.length_nil] at hlength
    exact hne (List.length_eq_zero_iff.mp hlength.symm)
  have hresult : decode_message library messages message_name chunks.flatten =
      .ok (.Object [(field.name, .Array decoded)]) := by
    rw [hruns.decodes hschema hsize, foldl_append_decoded_new hdecoded rfl]
    rfl
  rw [← hflat]
  constructor
  · rintro ⟨outs', houts', hobject⟩
    rw [houts] at houts'
    cases houts'
    rw [hresult] at hobject
    simpa using hobject
  · rintro rfl
    exact ⟨decoded, houts, hresult⟩

/-! ## A list of numbers -/

def valuesField : FieldSchema := ⟨"values", 1, true, true, .UInt32⟩

def valuesSchema : MessageSchema where
  fields_by_name := fun key => if key = "values" then some 1 else none
  fields_by_number := fun number => if number = 1 then some valuesField else none

def valuesMessages : MessageRegistry := fun name =>
  if name = "Values" then some valuesSchema else none

theorem unpacked_numbers_are_flat :
    DecodedFlat plainLibrary valuesMessages "Values" valuesField
      [.unpacked (integer 1), .unpacked (integer 2)] [[8, 1], [8, 2]].flatten ↔
      ∀ piece ∈ [Piece.unpacked (integer 1), Piece.unpacked (integer 2)],
        ∃ item, piece = Piece.unpacked item :=
  repeated_fields_are_flat_iff_unpacked plainLibrary valuesMessages "Values" valuesSchema
    valuesField _ [[8, 1], [8, 2]] rfl rfl rfl rfl rfl (by decide) (by decide) (by simp)
    (by decide) rfl

/-- The block that the encoder writes for `[1, 2]` is decoded to `[[1, 2]]`. -/
theorem a_packed_list_is_nested :
    encode_message plainLibrary valuesMessages "Values"
        (.Object [("values", .Array [integer 1, integer 2])]) = .ok [10, 2, 1, 2] ∧
      decode_message plainLibrary valuesMessages "Values" [10, 2, 1, 2] =
        .ok (.Object [("values", .Array [.Array [integer 1, integer 2]])]) ∧
      ¬ DecodedFlat plainLibrary valuesMessages "Values" valuesField
        [.packed [integer 1, integer 2]] [10, 2, 1, 2] := by
  have hdecoded : decode_message plainLibrary valuesMessages "Values" [10, 2, 1, 2] =
      .ok (.Object [("values", .Array [.Array [integer 1, integer 2]])]) := rfl
  refine ⟨rfl, hdecoded, ?_⟩
  rintro ⟨outs, houts, hobject⟩
  have hflat : ([Piece.packed [integer 1, integer 2]].flatMap Piece.items).mapM
      (canonical_scalar plainLibrary .UInt32) = .ok [integer 1, integer 2] := rfl
  rw [show valuesField.kind = .UInt32 from rfl, hflat] at houts
  cases houts
  rw [hdecoded] at hobject
  cases hobject

end pulse.grpc
