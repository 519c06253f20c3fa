-- The URL-safe base64 text of bytes, without padding: three bytes are four
-- characters of six bits each, and one or two bytes at the end are two or
-- three characters.
import Mathlib.Tactic.Common

namespace base64

def ALPHABET : List Char :=
  "ABCDEFGHIJKLMNOPQRSTUVWXYZabcdefghijklmnopqrstuvwxyz0123456789-_".toList

/-- The six-bit groups of the bytes. The last one is filled up with zero bits. -/
def groups : List UInt8 → List Nat
  | a :: b :: c :: rest =>
    a.toNat / 4 :: (a.toNat % 4 * 16 + b.toNat / 16) :: (b.toNat % 16 * 4 + c.toNat / 64) ::
      c.toNat % 64 :: groups rest
  | [a, b] => [a.toNat / 4, a.toNat % 4 * 16 + b.toNat / 16, b.toNat % 16 * 4]
  | [a] => [a.toNat / 4, a.toNat % 4 * 16]
  | [] => []

def symbol (group : Nat) : Char := ALPHABET.getD group 'A'

/-- `URL_SAFE_NO_PAD.encode`. -/
def encode (bytes : List UInt8) : String := String.ofList ((groups bytes).map symbol)

/-! ## The text determines the bytes -/

variable {bytes bytes' : List UInt8}

theorem groups_lt {group : Nat} (h : group ∈ groups bytes) : group < 64 := by
  induction bytes using groups.induct with
  | case1 a b c rest ih =>
    have ha := a.toNat_lt
    have hb := b.toNat_lt
    have hc := c.toNat_lt
    simp only [groups, List.mem_cons] at h
    rcases h with rfl | rfl | rfl | rfl | hrest
    · omega
    · omega
    · omega
    · omega
    · exact ih hrest
  | case2 a b =>
    have ha := a.toNat_lt
    have hb := b.toNat_lt
    simp only [groups, List.mem_cons, List.not_mem_nil, or_false] at h
    omega
  | case3 a =>
    have ha := a.toNat_lt
    simp only [groups, List.mem_cons, List.not_mem_nil, or_false] at h
    omega
  | case4 => cases h

/-- Three bytes are read back from their four groups. -/
theorem bytes_eq {a b c a' b' c' : UInt8} (h₀ : a.toNat / 4 = a'.toNat / 4)
    (h₁ : a.toNat % 4 * 16 + b.toNat / 16 = a'.toNat % 4 * 16 + b'.toNat / 16)
    (h₂ : b.toNat % 16 * 4 + c.toNat / 64 = b'.toNat % 16 * 4 + c'.toNat / 64)
    (h₃ : c.toNat % 64 = c'.toNat % 64) : a = a' ∧ b = b' ∧ c = c' := by
  have hb := b.toNat_lt
  have hb' := b'.toNat_lt
  have hc := c.toNat_lt
  have hc' := c'.toNat_lt
  refine ⟨UInt8.toNat_inj.mp ?_, UInt8.toNat_inj.mp ?_, UInt8.toNat_inj.mp ?_⟩
  · omega
  · omega
  · omega

theorem groups_inj (h : groups bytes = groups bytes') : bytes = bytes' := by
  induction bytes using groups.induct generalizing bytes' with
  | case1 a b c rest ih =>
    match bytes' with
    | a' :: b' :: c' :: rest' =>
      simp only [groups, List.cons.injEq] at h
      obtain ⟨h₀, h₁, h₂, h₃, hrest⟩ := h
      obtain ⟨rfl, rfl, rfl⟩ := bytes_eq h₀ h₁ h₂ h₃
      rw [ih hrest]
    | [_, _] => simp [groups] at h
    | [_] => simp [groups] at h
    | [] => simp [groups] at h
  | case2 a b =>
    match bytes' with
    | _ :: _ :: _ :: _ => simp [groups] at h
    | [a', b'] =>
      simp only [groups, List.cons.injEq, and_true] at h
      obtain ⟨h₀, h₁, h₂⟩ := h
      -- Without a third byte the third group is that of a zero byte.
      have hzero : b.toNat % 16 * 4 + (0 : UInt8).toNat / 64 =
          b'.toNat % 16 * 4 + (0 : UInt8).toNat / 64 := by rw [h₂]
      obtain ⟨rfl, rfl, -⟩ := bytes_eq h₀ h₁ hzero rfl
      rfl
    | [_] => simp [groups] at h
    | [] => simp [groups] at h
  | case3 a =>
    match bytes' with
    | _ :: _ :: _ :: _ => simp [groups] at h
    | [_, _] => simp [groups] at h
    | [a'] =>
      simp only [groups, List.cons.injEq, and_true] at h
      have ha : a.toNat = a'.toNat := by omega
      rw [UInt8.toNat_inj.mp ha]
    | [] => simp [groups] at h
  | case4 =>
    match bytes' with
    | _ :: _ :: _ :: _ => simp [groups] at h
    | [_, _] => simp [groups] at h
    | [_] => simp [groups] at h
    | [] => rfl

theorem idxOf_symbol : ∀ group < 64, ALPHABET.idxOf (symbol group) = group := by decide

theorem symbol_mem : ∀ group < 64, symbol group ∈ ALPHABET := by decide

/-- The groups are read back from their characters. -/
theorem map_idxOf_symbol (bytes : List UInt8) :
    ((groups bytes).map symbol).map ALPHABET.idxOf = groups bytes := by
  rw [List.map_map]
  conv_rhs => rw [← List.map_id (groups bytes)]
  apply List.map_congr_left
  intro group hgroup
  exact idxOf_symbol group (groups_lt hgroup)

theorem encode_inj (h : encode bytes = encode bytes') : bytes = bytes' := by
  apply groups_inj
  rw [← map_idxOf_symbol bytes, String.ofList_injective h, map_idxOf_symbol bytes']

/-- The text has characters of the alphabet only. -/
theorem mem_encode {c : Char} (h : c ∈ (encode bytes).toList) : c ∈ ALPHABET := by
  unfold encode at h
  rw [String.toList_ofList, List.mem_map] at h
  obtain ⟨group, hgroup, rfl⟩ := h
  exact symbol_mem group (groups_lt hgroup)

end base64
