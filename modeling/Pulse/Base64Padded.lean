-- The padded base64 text of bytes with the standard alphabet, and its strict
-- decoder: the text is a whole number of quartets, and the bits that no byte
-- uses are zero.
import Pulse.Base64
import Pulse.Strings

open strings

namespace base64.padded

def ALPHABET : List Char :=
  "ABCDEFGHIJKLMNOPQRSTUVWXYZabcdefghijklmnopqrstuvwxyz0123456789+/".toList

def symbol (group : Nat) : Char := ALPHABET.getD group 'A'

/-- How many characters the last quartet lacks. -/
def padding (bytes : Nat) : Nat := (3 - bytes % 3) % 3

/-- `STANDARD.encode`. -/
def encode (bytes : List UInt8) : String :=
  String.ofList ((groups bytes).map symbol ++ List.replicate (padding bytes.length) '=')

def group (c : Char) : Option Nat := ALPHABET.idxOf? c

/-- The bytes of six-bit groups. -/
def ungroup : List Nat → Option (List UInt8)
  | a :: b :: c :: d :: rest => do
    return UInt8.ofNat (a * 4 + b / 16) :: UInt8.ofNat (b % 16 * 16 + c / 4) ::
      UInt8.ofNat (c % 4 * 64 + d) :: (← ungroup rest)
  | [a, b, c] =>
    if c % 4 = 0 then some [UInt8.ofNat (a * 4 + b / 16), UInt8.ofNat (b % 16 * 16 + c / 4)]
    else none
  | [a, b] => if b % 16 = 0 then some [UInt8.ofNat (a * 4 + b / 16)] else none
  | [_] => none
  | [] => some []

/-- `STANDARD.decode`. -/
def decode (text : String) : Option (List UInt8) :=
  let body := text.toList.takeWhile (· ≠ '=')
  if text.toList = body ++ List.replicate ((4 - body.length % 4) % 4) '=' then do
    ungroup (← body.mapM group)
  else none

/-! ## A text is decoded to its bytes -/

theorem group_symbol : ∀ n < 64, group (symbol n) = some n := by decide

theorem symbol_plain : ∀ n < 64, symbol n ≠ '=' ∧ symbol n ≠ '"' ∧ symbol n ≠ '\\' ∧
    32 ≤ (symbol n).toNat ∧ (symbol n).toNat < 128 := by decide +kernel

theorem ungroup_groups (bytes : List UInt8) : ungroup (groups bytes) = some bytes := by
  induction bytes using groups.induct with
  | case1 a b c rest ih =>
    have hb := b.toNat_lt
    have hc := c.toNat_lt
    have h₀ : a.toNat / 4 * 4 + (a.toNat % 4 * 16 + b.toNat / 16) / 16 = a.toNat := by omega
    have h₁ : (a.toNat % 4 * 16 + b.toNat / 16) % 16 * 16 +
        (b.toNat % 16 * 4 + c.toNat / 64) / 4 = b.toNat := by omega
    have h₂ : (b.toNat % 16 * 4 + c.toNat / 64) % 4 * 64 + c.toNat % 64 = c.toNat := by omega
    simp only [groups, ungroup, ih, h₀, h₁, h₂, UInt8.ofNat_toNat]
    rfl
  | case2 a b =>
    have hb := b.toNat_lt
    have h₀ : a.toNat / 4 * 4 + (a.toNat % 4 * 16 + b.toNat / 16) / 16 = a.toNat := by omega
    have h₁ : (a.toNat % 4 * 16 + b.toNat / 16) % 16 * 16 + b.toNat % 16 * 4 / 4 = b.toNat := by
      omega
    simp only [groups, ungroup, h₀, h₁, UInt8.ofNat_toNat]
    rw [if_pos (by omega)]
  | case3 a =>
    have h₀ : a.toNat / 4 * 4 + a.toNat % 4 * 16 / 16 = a.toNat := by omega
    simp only [groups, ungroup, h₀, UInt8.ofNat_toNat]
    rw [if_pos (by omega)]
  | case4 => rfl

theorem mapM_group_symbol {ns : List Nat} (h : ∀ n ∈ ns, n < 64) :
    (ns.map symbol).mapM group = some ns := by
  induction ns with
  | nil => rfl
  | cons n ns ih =>
    rw [List.map_cons, List.mapM_cons, group_symbol n (h n List.mem_cons_self),
      ih fun m hm => h m (List.mem_cons_of_mem n hm)]
    rfl

/-- The padding fills the last quartet. -/
theorem padding_groups (bytes : List UInt8) :
    (4 - (groups bytes).length % 4) % 4 = padding bytes.length := by
  unfold padding
  induction bytes using groups.induct with
  | case1 a b c rest ih =>
    simp only [groups, List.length_cons]
    omega
  | case2 a b => rfl
  | case3 a => rfl
  | case4 => rfl

theorem takeWhile_encode (bytes : List UInt8) :
    (encode bytes).toList.takeWhile (· ≠ '=') = (groups bytes).map symbol := by
  have hsymbols : ∀ c ∈ (groups bytes).map symbol, (decide (c ≠ '=')) = true := by
    intro c hc
    obtain ⟨n, hn, rfl⟩ := List.mem_map.mp hc
    exact decide_eq_true (symbol_plain n (groups_lt hn)).1
  unfold encode
  rw [String.toList_ofList, List.takeWhile_append_of_pos hsymbols]
  cases padding bytes.length with
  | zero => simp
  | succ n => simp [List.replicate_succ]

theorem decode_encode (bytes : List UInt8) : decode (encode bytes) = some bytes := by
  have htext : (encode bytes).toList =
      (groups bytes).map symbol ++ List.replicate (padding bytes.length) '=' :=
    String.toList_ofList
  unfold decode
  dsimp only
  rw [takeWhile_encode, List.length_map, padding_groups, if_pos htext,
    mapM_group_symbol fun n hn => groups_lt hn]
  exact ungroup_groups bytes

/-! ## The length of a text -/

/-- The text has characters that stand for themselves in JSON, one byte each. -/
theorem encode_plain {bytes : List UInt8} {c : Char} (h : c ∈ (encode bytes).toList) :
    c ≠ '"' ∧ c ≠ '\\' ∧ 32 ≤ c.toNat ∧ c.toNat < 128 := by
  unfold encode at h
  rw [String.toList_ofList, List.mem_append] at h
  rcases h with h | h
  · obtain ⟨n, hn, rfl⟩ := List.mem_map.mp h
    exact (symbol_plain n (groups_lt hn)).2
  · rw [List.eq_of_mem_replicate h]
    decide

theorem length_groups_padding (bytes : List UInt8) :
    (groups bytes).length + padding bytes.length = (bytes.length + 2) / 3 * 4 := by
  unfold padding
  induction bytes using groups.induct with
  | case1 a b c rest ih =>
    simp only [groups, List.length_cons]
    omega
  | case2 a b => simp [groups]
  | case3 a => simp [groups]
  | case4 => rfl

theorem len_padded_encode (bytes : List UInt8) :
    len (encode bytes) = (bytes.length + 2) / 3 * 4 := by
  have hascii : ∀ c ∈ (encode bytes).toList, c.toNat < 128 := fun c hc => (encode_plain hc).2.2.2
  unfold encode at hascii ⊢
  rw [String.toList_ofList] at hascii
  rw [len_ascii hascii, List.length_append, List.length_map, List.length_replicate,
    length_groups_padding]

end base64.padded
