-- A packed block of a repeated field. Its elements are read with an index over
-- the whole payload, so an element that the block cuts off goes on in the bytes
-- behind the block.
import Pulse.DynamicRoundTrip
import Mathlib.Data.List.TakeWhile

open checks json varints

namespace pulse.grpc

/-! ## The elements of a block -/

/-- The bytes of one whole element. -/
def Element (kind : FieldKind) (bytes : Bytes) : Prop :=
  match kind.wire_type with
  | 0 => ∃ init last, bytes = init ++ [last] ∧ (∀ b ∈ init, continues b) ∧ ¬ continues last ∧
      init.length < 10
  | 1 => bytes.length = 8
  | 5 => bytes.length = 4
  | _ => False

/-- The first bytes of an element, without its last. -/
def Unfinished (kind : FieldKind) (bytes : Bytes) : Prop :=
  bytes ≠ [] ∧
    match kind.wire_type with
    | 0 => (∀ b ∈ bytes, continues b) ∧ bytes.length < 10
    | 1 => bytes.length < 8
    | 5 => bytes.length < 4
    | _ => False

/-- A float that is a number. -/
def Finite (kind : FieldKind) (bytes : Bytes) : Prop :=
  match kind with
  | .Double => from_le_bytes bytes / 2 ^ 52 % 2 ^ 11 ≠ 2 ^ 11 - 1
  | .Float => from_le_bytes bytes / 2 ^ 23 % 2 ^ 8 ≠ 2 ^ 8 - 1
  | _ => True

/-- The last element of the block is not complete. -/
def EndsInside (kind : FieldKind) (block : Bytes) : Prop :=
  ∃ (elements : List Bytes) (cut : Bytes), block = elements.flatten ++ cut ∧
    (∀ element ∈ elements, Element kind element) ∧ Unfinished kind cut

/-- The last element is not complete, and the decoder accepts all the others. -/
def CutOff (kind : FieldKind) (block : Bytes) : Prop :=
  ∃ (elements : List Bytes) (cut : Bytes), block = elements.flatten ++ cut ∧
    (∀ element ∈ elements, Element kind element ∧ Finite kind element) ∧ Unfinished kind cut

/-! ## One element -/

/-- The value of the groups from a shift on. -/
def groups_value : Bytes → Nat → UInt64 → UInt64
  | [], _, out => out
  | b :: bs, shift, out =>
    groups_value bs (shift + 7) (out ||| ((b &&& 0x7F).toUInt64 <<< UInt64.ofNat shift))

variable {bytes rest element post init cut block more : Bytes}

section

variable (hinit : ∀ b ∈ init, continues b)
include hinit

theorem read_varint_loop_element {last : UInt8} (hlast : ¬ continues last) :
    ∀ (turns idx shift : Nat) (out : UInt64), shift + 7 * turns = 70 → init.length < turns →
      bytes.drop idx = init ++ last :: rest →
      read_varint_loop bytes turns idx shift out =
        .ok (groups_value (init ++ [last]) shift out, idx + (init.length + 1)) := by
  induction init with
  | nil =>
    intro turns idx shift out _ hturns hdrop
    obtain ⟨turns, rfl⟩ : ∃ t, turns = t + 1 := ⟨turns - 1, by simp at hturns; omega⟩
    rw [read_varint_loop_byte hdrop]
    dsimp only
    rw [if_neg hlast]
    rfl
  | cons b init ih =>
    intro turns idx shift out hshift hturns hdrop
    rw [List.length_cons] at hturns
    obtain ⟨turns, rfl⟩ : ∃ t, turns = t + 1 := ⟨turns - 1, by omega⟩
    rw [read_varint_loop_byte hdrop]
    dsimp only
    rw [if_pos (hinit b List.mem_cons_self), if_neg (by omega),
      ih (fun c hc => hinit c (List.mem_cons_of_mem b hc)) turns (idx + 1) (shift + 7) _ (by omega)
        (by omega) (drop_succ_of_drop hdrop)]
    rw [List.cons_append, groups_value, List.length_cons]
    congr 2
    omega

/-- Ten bytes that all continue are too long, whatever comes behind them. -/
theorem read_varint_loop_overlong :
    ∀ (turns idx shift : Nat) (out : UInt64), shift + 7 * turns = 70 → 0 < turns →
      init.length = turns → bytes.drop idx = init ++ rest →
      read_varint_loop bytes turns idx shift out = .error (.Client "varint too long") := by
  induction init with
  | nil =>
    intro turns _ _ _ _ hpos hlength
    rw [List.length_nil] at hlength
    omega
  | cons b init ih =>
    intro turns idx shift out hshift _ hlength hdrop
    rw [List.length_cons] at hlength
    obtain ⟨turns, rfl⟩ : ∃ t, turns = t + 1 := ⟨turns - 1, by omega⟩
    rw [read_varint_loop_byte hdrop]
    dsimp only
    rw [if_pos (hinit b List.mem_cons_self)]
    split
    · rfl
    · exact ih (fun c hc => hinit c (List.mem_cons_of_mem b hc)) turns (idx + 1) (shift + 7) _
        (by omega) (by omega) (by omega) (drop_succ_of_drop hdrop)

theorem reads_varint_element {convert : UInt64 → Except PulseError Value} {last : UInt8}
    {out : Value} (hlast : ¬ continues last) (hlength : init.length < 10)
    (h : convert (groups_value (init ++ [last]) 0 0) = .ok out) :
    Reads (read_as read_varint convert) (init ++ [last]) out := by
  intro bytes rest idx _ hdrop
  rw [List.append_assoc, List.singleton_append] at hdrop
  rw [read_as, read_varint, read_varint_loop_element hinit hlast 10 idx 0 0 rfl hlength hdrop,
    ok_bind]
  dsimp only
  rw [h, ok_bind, List.length_append, List.length_singleton]
  rfl

end

variable {idx turns exponent_bits fraction_bits bits stop : Nat}

/-- The bits of a float are a number unless the exponent is all ones. -/
theorem finite_value_isSome
    (h : bits / 2 ^ fraction_bits % 2 ^ exponent_bits ≠ 2 ^ exponent_bits - 1) :
    ∃ value, finite_value exponent_bits fraction_bits bits = some value := by
  unfold finite_value
  dsimp only
  rw [if_neg h]
  split <;> exact ⟨_, rfl⟩

theorem finite_value_none
    (h : bits / 2 ^ fraction_bits % 2 ^ exponent_bits = 2 ^ exponent_bits - 1) :
    finite_value exponent_bits fraction_bits bits = none := by
  unfold finite_value
  dsimp only
  rw [if_pos h]

theorem toNat_from_le_bytes_u64 (h : bytes.length = 8) :
    (UInt64.ofNat (from_le_bytes bytes)).toNat = from_le_bytes bytes := by
  have hlt := from_le_bytes_lt bytes
  rw [h] at hlt
  exact UInt64.toNat_ofNat_of_lt' hlt

theorem toNat_from_le_bytes_u32 (h : bytes.length = 4) :
    (UInt32.ofNat (from_le_bytes bytes)).toNat = from_le_bytes bytes := by
  have hlt := from_le_bytes_lt bytes
  rw [h] at hlt
  exact UInt32.toNat_ofNat_of_lt' hlt

variable {kind : FieldKind}

/-- A whole element has one value, whatever comes behind it. -/
theorem reads_element (h : Element kind element) (hfinite : Finite kind element) :
    ∃ out, Reads (decode_packable_value kind) element out := by
  unfold decode_packable_value
  cases kind with
  | Double =>
    obtain ⟨value, hvalue⟩ := finite_value_isSome hfinite
    refine ⟨.Number (.Float value), reads_fixed64 h ?_⟩
    rw [from_f64, toNat_from_le_bytes_u64 h, hvalue]
    rfl
  | Float =>
    obtain ⟨value, hvalue⟩ := finite_value_isSome hfinite
    refine ⟨.Number (.Float value), reads_fixed32 h ?_⟩
    rw [from_f32, toNat_from_le_bytes_u32 h, hvalue]
    rfl
  | Fixed64 | SFixed64 => exact ⟨_, reads_fixed64 h rfl⟩
  | Fixed32 | SFixed32 => exact ⟨_, reads_fixed32 h rfl⟩
  | String | Bytes | Message => exact absurd h id
  | _ =>
    obtain ⟨init, last, rfl, hinit, hlast, hlength⟩ := h
    exact ⟨_, reads_varint_element hinit hlast hlength rfl⟩

/-- A float that is no number is rejected, whatever comes behind it. -/
theorem rejects_element (h : Element kind element) (hfinite : ¬ Finite kind element)
    (hsize : bytes.length ≤ usize_MAX) (hdrop : bytes.drop idx = element ++ rest) :
    decode_packable_value kind bytes idx =
      .error (.Client
        (if kind = .Double then "invalid double value" else "invalid float value")) := by
  cases kind with
  | Double =>
    have hnone : finite_value 11 52 (from_le_bytes element) = none :=
      finite_value_none (not_not.mp hfinite)
    rw [decode_packable_value, read_as, read_fixed64_of_drop hsize h hdrop, ok_bind]
    dsimp only
    rw [from_f64, toNat_from_le_bytes_u64 h, hnone]
    rfl
  | Float =>
    have hnone : finite_value 8 23 (from_le_bytes element) = none :=
      finite_value_none (not_not.mp hfinite)
    rw [decode_packable_value, read_as, read_fixed32_of_drop hsize h hdrop, ok_bind]
    dsimp only
    rw [from_f32, toNat_from_le_bytes_u32 h, hnone]
    rfl
  | _ => exact absurd trivial hfinite

/-! ## Cutting a block into elements -/

theorem packable_wire_type (h : is_packable kind = true) :
    kind.wire_type = 0 ∨ kind.wire_type = 1 ∨ kind.wire_type = 5 := by
  cases kind <;> simp_all [is_packable, FieldKind.wire_type]

theorem decode_packable_value_varint (hwire : kind.wire_type = 0)
    (hkind : is_packable kind = true) :
    ∃ f, decode_packable_value kind = read_as read_varint f := by
  rcases decode_packable_value_reader kind with ⟨f, _, hf⟩ | ⟨f, hother, _⟩ | ⟨f, hother, _⟩ |
    ⟨hother, _⟩
  · exact ⟨f, hf⟩
  · rw [hwire] at hother
    cases hother
  · rw [hwire] at hother
    cases hother
  · rw [hkind] at hother
    cases hother

theorem Element.pos (h : Element kind element) : 0 < element.length := by
  unfold Element at h
  split at h
  · obtain ⟨init, last, rfl, _⟩ := h
    simp
  · omega
  · omega
  · exact absurd h id

/-- A block begins with a whole element, or it ends inside of the first one, or the first one is
too long. -/
theorem first_element (hkind : is_packable kind = true) (hne : block ≠ []) :
    (∃ element rest, block = element ++ rest ∧ Element kind element) ∨ Unfinished kind block ∨
      (kind.wire_type = 0 ∧ ∃ init rest, block = init ++ rest ∧ init.length = 10 ∧
        ∀ b ∈ init, continues b) := by
  have hwidth : ∀ width, block.length < width ∨
      ∃ element rest, block = element ++ rest ∧ element.length = width := by
    intro width
    by_cases hlt : block.length < width
    · exact .inl hlt
    · exact .inr ⟨block.take width, block.drop width, (List.take_append_drop ..).symm,
        List.length_take_of_le (by omega)⟩
  unfold Element Unfinished
  rcases packable_wire_type hkind with hwire | hwire | hwire <;> simp only [hwire]
  · have hsplit := List.takeWhile_append_dropWhile (p := fun b => decide (continues b)) (l := block)
    have hinit : ∀ b ∈ block.takeWhile fun b => decide (continues b), continues b := by
      intro b hb
      simpa using List.mem_takeWhile_imp hb
    by_cases hlong : 10 ≤ (block.takeWhile fun b => decide (continues b)).length
    · refine .inr (.inr ⟨trivial, block.take 10, block.drop 10,
        (List.take_append_drop ..).symm, ?_, ?_⟩)
      · have hle := (List.takeWhile_prefix (l := block) fun b => decide (continues b)).length_le
        exact List.length_take_of_le (by omega)
      · intro b hb
        rw [← hsplit, List.take_append_of_le_length hlong] at hb
        exact hinit b (List.mem_of_mem_take hb)
    · cases hrest : block.dropWhile fun b => decide (continues b) with
      | nil =>
        rw [hrest, List.append_nil] at hsplit
        refine .inr (.inl ⟨hne, ?_, ?_⟩)
        · rw [← hsplit]
          exact hinit
        · rw [← hsplit]
          omega
      | cons last rest =>
        have hlast : ¬ continues last := by
          have hhead := List.head_dropWhile_not (fun b => decide (continues b))
            (by rw [hrest]; simp : block.dropWhile (fun b => decide (continues b)) ≠ [])
          simpa [hrest] using hhead
        rw [hrest] at hsplit
        refine .inl ⟨_ ++ [last], rest, ?_, _, last, rfl, hinit, hlast, by omega⟩
        rw [List.append_assoc, List.singleton_append, hsplit]
  · rcases hwidth 8 with hlt | helement
    · exact .inr (.inl ⟨hne, hlt⟩)
    · exact .inl helement
  · rcases hwidth 4 with hlt | helement
    · exact .inr (.inl ⟨hne, hlt⟩)
    · exact .inl helement

/-- Zeros complete a cut element. -/
theorem Unfinished.completed (h : Unfinished kind cut) :
    ∃ more : Bytes, more.length ≤ 8 ∧ Element kind (cut ++ more) ∧ Finite kind (cut ++ more) := by
  obtain ⟨hne, h⟩ := h
  have hpos := List.length_pos_iff.mpr hne
  have hlt := from_le_bytes_lt cut
  cases kind with
  | Double =>
    refine ⟨List.replicate (8 - cut.length) 0, by simp, ?_, ?_⟩
    · change (cut ++ _).length = 8
      have hlength : cut.length < 8 := h
      simp
      omega
    · have hpow : 256 ^ cut.length ≤ 256 ^ 7 :=
        Nat.pow_le_pow_right (by decide) (Nat.le_of_lt_succ h)
      change from_le_bytes (cut ++ _) / 2 ^ 52 % 2 ^ 11 ≠ 2 ^ 11 - 1
      rw [from_le_bytes_append_zeros]
      omega
  | Float =>
    refine ⟨List.replicate (4 - cut.length) 0, by simp; omega, ?_, ?_⟩
    · change (cut ++ _).length = 4
      have hlength : cut.length < 4 := h
      simp
      omega
    · have hpow : 256 ^ cut.length ≤ 256 ^ 3 :=
        Nat.pow_le_pow_right (by decide) (Nat.le_of_lt_succ h)
      change from_le_bytes (cut ++ _) / 2 ^ 23 % 2 ^ 8 ≠ 2 ^ 8 - 1
      rw [from_le_bytes_append_zeros]
      omega
  | Fixed64 | SFixed64 =>
    refine ⟨List.replicate (8 - cut.length) 0, by simp, ?_, trivial⟩
    change (cut ++ _).length = 8
    have hlength : cut.length < 8 := h
    simp
    omega
  | Fixed32 | SFixed32 =>
    refine ⟨List.replicate (4 - cut.length) 0, by simp; omega, ?_, trivial⟩
    change (cut ++ _).length = 4
    have hlength : cut.length < 4 := h
    simp
    omega
  | String | Bytes | Message => exact absurd h id
  | _ => exact ⟨[0], by simp, ⟨cut, 0, rfl, h.1, by decide, h.2⟩, trivial⟩

/-! ## The loop over a block -/

theorem CutOff.cons (helement : Element kind element) (hfinite : Finite kind element)
    (h : CutOff kind rest) : CutOff kind (element ++ rest) := by
  obtain ⟨elements, cut, rfl, helements, hcut⟩ := h
  refine ⟨element :: elements, cut, by simp, ?_, hcut⟩
  intro element' hmem
  rcases List.mem_cons.mp hmem with rfl | hmem
  · exact ⟨helement, hfinite⟩
  · exact helements element' hmem

theorem drop_rest (h : bytes.drop idx = element ++ rest) :
    bytes.drop (idx + element.length) = rest := by
  rw [← List.drop_drop, h, List.drop_left]

/-- A turn of the loop on a whole element. -/
theorem decode_packed_loop_element {out : Value}
    (hreads : Reads (decode_packable_value kind) element out) (hsize : bytes.length ≤ usize_MAX)
    (hdrop : bytes.drop idx = element ++ rest) (hlt : idx < stop) :
    decode_packed_loop kind bytes stop (turns + 1) idx =
      (decode_packed_loop kind bytes stop turns (idx + element.length) >>= fun values =>
        pure (out :: values)) := by
  rw [decode_packed_loop, if_pos hlt, hreads hsize hdrop, ok_bind]

/-- A turn of the loop on bytes that are rejected. -/
theorem decode_packed_loop_error {e : PulseError}
    (h : decode_packable_value kind bytes idx = .error e) (hlt : idx < stop) :
    decode_packed_loop kind bytes stop (turns + 1) idx = .error e := by
  rw [decode_packed_loop, if_pos hlt, h, error_bind]

/-- A block that does not end inside an element is decoded without the bytes behind it. -/
theorem decode_packed_loop_own_bytes (hkind : is_packable kind = true) {bytes' post' : Bytes}
    (hsize : bytes.length ≤ usize_MAX) (hsize' : bytes'.length ≤ usize_MAX) :
    ∀ {block : Bytes} {idx : Nat}, block.length ≤ turns → ¬ CutOff kind block →
      bytes.drop idx = block ++ post → bytes'.drop idx = block ++ post' →
      decode_packed_loop kind bytes (idx + block.length) turns idx =
        decode_packed_loop kind bytes' (idx + block.length) turns idx := by
  induction turns with
  | zero =>
    intro block idx _ _ _ _
    rfl
  | succ turns ih =>
    intro block idx hlength hcut hdrop hdrop'
    by_cases hne : block = []
    · subst hne
      simp [decode_packed_loop]
    · have hlt : idx < idx + block.length := by
        have := List.length_pos_iff.mpr hne
        omega
      rcases first_element hkind hne with ⟨element, rest, rfl, helement⟩ | hunfinished |
        ⟨hwire, init, rest, rfl, hten, hinit⟩
      · rw [List.append_assoc] at hdrop hdrop'
        rw [List.length_append] at hlength
        by_cases hfinite : Finite kind element
        · obtain ⟨out, hreads⟩ := reads_element helement hfinite
          have hpos := helement.pos
          rw [decode_packed_loop_element hreads hsize hdrop hlt,
            decode_packed_loop_element hreads hsize' hdrop' hlt, List.length_append,
            ← Nat.add_assoc, ih (by omega) (fun h => hcut (h.cons helement hfinite))
              (drop_rest hdrop) (drop_rest hdrop')]
        · rw [decode_packed_loop_error (rejects_element helement hfinite hsize hdrop) hlt,
            decode_packed_loop_error (rejects_element helement hfinite hsize' hdrop') hlt]
      · exact absurd ⟨[], block, rfl, by simp, hunfinished⟩ hcut
      · have herror : ∀ {bytes post : Bytes}, bytes.drop idx = (init ++ rest) ++ post →
            decode_packable_value kind bytes idx = .error (.Client "varint too long") := by
          intro bytes post hdrop
          rw [List.append_assoc] at hdrop
          obtain ⟨f, hf⟩ := decode_packable_value_varint hwire hkind
          rw [hf, read_as, read_varint,
            read_varint_loop_overlong hinit 10 idx 0 0 rfl (by decide) hten hdrop, error_bind]
        rw [decode_packed_loop_error (herror hdrop) hlt,
          decode_packed_loop_error (herror hdrop') hlt]

/-- A block that ends inside an element behind a float that is no number is rejected. -/
theorem decode_packed_loop_rejects (hsize : bytes.length ≤ usize_MAX) {elements : List Bytes}
    (helements : ∀ element ∈ elements, Element kind element) (hunfinished : Unfinished kind cut) :
    ∀ (turns idx : Nat), (elements.flatten ++ cut).length ≤ turns →
      ¬ CutOff kind (elements.flatten ++ cut) →
      bytes.drop idx = (elements.flatten ++ cut) ++ post →
      ∃ e, decode_packed_loop kind bytes (idx + (elements.flatten ++ cut).length) turns idx =
        .error e := by
  induction elements with
  | nil =>
    intro turns idx _ hcut _
    exact absurd ⟨[], cut, rfl, by simp, hunfinished⟩ hcut
  | cons element elements ih =>
    intro turns idx hlength hcut hdrop
    have helement := helements element List.mem_cons_self
    have hpos := helement.pos
    replace hdrop : bytes.drop idx = element ++ ((elements.flatten ++ cut) ++ post) := by
      simpa using hdrop
    rw [List.flatten_cons, List.append_assoc] at hlength hcut ⊢
    rw [List.length_append] at hlength ⊢
    obtain ⟨turns, rfl⟩ : ∃ t, turns = t + 1 := ⟨turns - 1, by omega⟩
    by_cases hfinite : Finite kind element
    · obtain ⟨out, hreads⟩ := reads_element helement hfinite
      obtain ⟨e, he⟩ := ih (fun element' hmem => helements element' (List.mem_cons_of_mem _ hmem))
        turns (idx + element.length) (by omega) (fun h => hcut (h.cons helement hfinite))
          (drop_rest hdrop)
      refine ⟨e, ?_⟩
      rw [decode_packed_loop_element hreads hsize hdrop (by omega), ← Nat.add_assoc, he, error_bind]
    · exact ⟨_, decode_packed_loop_error (rejects_element helement hfinite hsize hdrop) (by omega)⟩

/-- A block that ends inside an element is accepted when the bytes behind it complete the
element. -/
theorem decode_packed_loop_completed (hsize : bytes.length ≤ usize_MAX) {elements : List Bytes}
    (helements : ∀ element ∈ elements, Element kind element ∧ Finite kind element) (hne : cut ≠ [])
    (hcut : Element kind (cut ++ more) ∧ Finite kind (cut ++ more)) :
    ∀ (turns idx : Nat), (elements.flatten ++ cut).length ≤ turns →
      bytes.drop idx = elements.flatten ++ ((cut ++ more) ++ post) →
      ∃ values, decode_packed_loop kind bytes (idx + (elements.flatten ++ cut).length) turns idx =
        .ok values := by
  have hpos := List.length_pos_iff.mpr hne
  induction elements with
  | nil =>
    intro turns idx hlength hdrop
    rw [List.flatten_nil, List.nil_append] at hlength hdrop ⊢
    obtain ⟨turns, rfl⟩ : ∃ t, turns = t + 1 := ⟨turns - 1, by omega⟩
    obtain ⟨out, hreads⟩ := reads_element hcut.1 hcut.2
    rw [decode_packed_loop_element hreads hsize hdrop (by omega)]
    -- the index is behind the block now
    have hdone : decode_packed_loop kind bytes (idx + cut.length) turns
        (idx + (cut ++ more).length) = .ok [] := by
      cases turns with
      | zero => rfl
      | succ turns =>
        rw [decode_packed_loop, if_neg]
        rw [List.length_append]
        omega
    exact ⟨[out], by rw [hdone]; rfl⟩
  | cons element elements ih =>
    intro turns idx hlength hdrop
    obtain ⟨helement, hfinite⟩ := helements element List.mem_cons_self
    have hpos' := helement.pos
    rw [List.flatten_cons, List.append_assoc] at hlength hdrop ⊢
    rw [List.length_append] at hlength ⊢
    obtain ⟨turns, rfl⟩ : ∃ t, turns = t + 1 := ⟨turns - 1, by omega⟩
    obtain ⟨out, hreads⟩ := reads_element helement hfinite
    obtain ⟨values, hvalues⟩ := ih
      (fun element' hmem => helements element' (List.mem_cons_of_mem _ hmem)) turns
      (idx + element.length) (by omega) (drop_rest hdrop)
    rw [decode_packed_loop_element hreads hsize hdrop (by omega), ← Nat.add_assoc, hvalues]
    exact ⟨out :: values, rfl⟩

/-! ## A block between a payload and its rest -/

theorem read_varint_loop_append {value : UInt64} {idx' : Nat} :
    ∀ {turns idx shift : Nat} {out : UInt64},
      read_varint_loop bytes turns idx shift out = .ok (value, idx') →
      read_varint_loop (bytes ++ more) turns idx shift out = .ok (value, idx') := by
  intro turns
  induction turns with
  | zero =>
    intro idx shift out h
    cases h
  | succ turns ih =>
    intro idx shift out h
    unfold read_varint_loop at h ⊢
    split at h
    · cases h
    · rename_i b hb
      rw [List.getElem?_append_left (List.getElem?_eq_some_iff.mp hb).1, hb]
      dsimp only at h ⊢
      split at h
      · rw [if_pos ‹_›, h]
      · rw [if_neg ‹_›]
        split at h
        · cases h
        · rw [if_neg ‹_›]
          exact ih h

/-- The elements of a block behind its length. -/
theorem decode_packed_block {payload : Bytes} {len : UInt64}
    (hlen : read_varint payload idx = .ok (len, payload.length)) (hblock : block.length = len.toNat)
    (hsize : (payload ++ block ++ post).length ≤ usize_MAX) :
    decode_packed kind (payload ++ block ++ post) idx =
      (decode_packed_loop kind (payload ++ block ++ post) (payload.length + block.length)
        block.length payload.length >>= fun values =>
        pure (values, payload.length + block.length)) := by
  have hlength : payload.length + block.length ≤ (payload ++ block ++ post).length := by
    simp only [List.length_append]
    omega
  rw [decode_packed, List.append_assoc, read_varint, read_varint_loop_append hlen, ok_bind]
  dsimp only
  rw [← hblock, ← List.append_assoc, rejectIf_neg _ (by omega), rejectIf_neg _ (by omega)]
  rfl

/-- The largest payload. -/
def isize_MAX : Nat := 2 ^ 63 - 1

/-- The block is decoded from its own bytes: two payloads that differ behind the block give the
same elements or reject it both, and a block that ends inside an element is rejected. -/
def OwnBytesOnly (kind : FieldKind) (payload block : Bytes) (idx : Nat) : Prop :=
  (∀ post post' : Bytes, (payload ++ block ++ post).length ≤ usize_MAX →
    (payload ++ block ++ post').length ≤ usize_MAX →
    (decode_packed kind (payload ++ block ++ post) idx).toOption =
      (decode_packed kind (payload ++ block ++ post') idx).toOption) ∧
  (EndsInside kind block → ∀ post : Bytes, (payload ++ block ++ post).length ≤ usize_MAX →
    (decode_packed kind (payload ++ block ++ post) idx).toOption = none)

/-- A packed block is decoded from its own bytes exactly when it does not end inside an element
behind elements that the decoder accepts. -/
theorem packed_blocks_use_their_own_bytes_unless_cut_off (kind : FieldKind)
    (payload block : Bytes) (idx : Nat) (len : UInt64) (hkind : is_packable kind = true)
    (hlen : read_varint payload idx = .ok (len, payload.length))
    (hblock : block.length = len.toNat) (hsize : (payload ++ block).length ≤ isize_MAX) :
    OwnBytesOnly kind payload block idx ↔ ¬ CutOff kind block := by
  have hdrop : ∀ post, (payload ++ block ++ post).drop payload.length = block ++ post := by
    intro post
    rw [List.append_assoc, List.drop_left]
  constructor
  · rintro ⟨-, hrejects⟩ ⟨elements, cut, rfl, helements, hcut⟩
    obtain ⟨more, hmore, hcompleted⟩ := hcut.completed
    have htotal : (payload ++ (elements.flatten ++ cut) ++ more).length ≤ usize_MAX := by
      rw [List.length_append]
      unfold isize_MAX at hsize
      unfold usize_MAX
      omega
    have hends : EndsInside kind (elements.flatten ++ cut) :=
      ⟨elements, cut, rfl, fun element hmem => (helements element hmem).1, hcut⟩
    have hnone := hrejects hends more htotal
    obtain ⟨values, hvalues⟩ := decode_packed_loop_completed htotal helements hcut.1 hcompleted
      _ payload.length le_rfl (by rw [hdrop, List.append_nil, List.append_assoc])
    rw [decode_packed_block hlen hblock htotal, hvalues] at hnone
    cases hnone
  · intro hcut
    refine ⟨?_, ?_⟩
    · intro post post' htotal htotal'
      rw [decode_packed_block hlen hblock htotal, decode_packed_block hlen hblock htotal',
        decode_packed_loop_own_bytes hkind htotal htotal' le_rfl hcut (hdrop post) (hdrop post')]
    · rintro ⟨elements, cut, rfl, helements, hunfinished⟩ post htotal
      obtain ⟨e, he⟩ := decode_packed_loop_rejects htotal helements hunfinished _ payload.length
        le_rfl hcut (hdrop post)
      rw [decode_packed_block hlen hblock htotal, he]
      rfl

theorem a_whole_block_uses_its_own_bytes :
    read_varint [1] 0 = .ok (1, 1) ∧
      (OwnBytesOnly .UInt32 [1] [5] 0 ↔ ¬ CutOff .UInt32 [5]) :=
  ⟨by decide +kernel, packed_blocks_use_their_own_bytes_unless_cut_off .UInt32 [1] [5] 0 1 rfl
    (by decide +kernel) rfl (by decide)⟩

/-- The block of one byte ends inside its element, and the next byte, which is the key of the next
field, completes it. -/
theorem a_cut_block_takes_the_next_key :
    EndsInside .UInt32 [0x80] ∧
      decode_packed .UInt32 ([1] ++ [0x80] ++ [0x08, 0x05]) 0 = .ok ([integer 1024], 2) ∧
      ¬ OwnBytesOnly .UInt32 [1] [0x80] 0 := by
  have hends : EndsInside .UInt32 [0x80] :=
    ⟨[], [0x80], rfl, by simp, by simp, ⟨by simp [continues], by simp⟩⟩
  have haccepted : decode_packed .UInt32 ([1] ++ [0x80] ++ [0x08, 0x05]) 0 =
      .ok ([integer 1024], 2) := by rfl
  refine ⟨hends, haccepted, ?_⟩
  rintro ⟨-, hrejects⟩
  have hnone := hrejects hends [0x08, 0x05] (by decide)
  rw [haccepted] at hnone
  cases hnone

end pulse.grpc
