-- The string functions of Rust that the program calls, over lists of
-- characters. `len` counts bytes, and the ASCII functions leave every other
-- character alone.
import Mathlib.Algebra.Order.Ring.Nat
import Mathlib.Tactic.Common

namespace strings

/-- The white space of `str::trim`. -/
def is_whitespace (c : Char) : Bool :=
  let n := c.toNat
  (9 ≤ n && n ≤ 13) || n == 0x20 || n == 0x85 || n == 0xA0 || n == 0x1680 ||
    (0x2000 ≤ n && n ≤ 0x200A) || n == 0x2028 || n == 0x2029 || n == 0x202F || n == 0x205F ||
    n == 0x3000

/-- `value.trim().is_empty()`. -/
def is_blank (value : String) : Bool := value.toList.all is_whitespace

def len (value : String) : Nat := value.utf8ByteSize

def trim (cs : List Char) : List Char :=
  ((cs.dropWhile is_whitespace).reverse.dropWhile is_whitespace).reverse

def to_ascii_lowercase (value : String) : String := String.ofList (value.toList.map Char.toLower)

def eq_ignore_ascii_case (a b : String) : Prop := to_ascii_lowercase a = to_ascii_lowercase b

instance (a b : String) : Decidable (eq_ignore_ascii_case a b) :=
  inferInstanceAs (Decidable (_ = _))

/-- `str::is_char_boundary`: no character has bytes on both sides of the index. -/
def is_char_boundary : List Char → Nat → Bool
  | _, 0 => true
  | [], _ + 1 => false
  | c :: cs, index + 1 =>
    if c.utf8Size ≤ index + 1 then is_char_boundary cs (index + 1 - c.utf8Size) else false

/-- The loop that goes down from an index to the boundary of a character. -/
def boundary_at_most (cs : List Char) : Nat → Nat
  | 0 => 0
  | index + 1 =>
    if is_char_boundary cs (index + 1) then index + 1 else boundary_at_most cs index

/-- The characters of the first `index` bytes. -/
def truncate : List Char → Nat → List Char
  | [], _ => []
  | c :: cs, index => if c.utf8Size ≤ index then c :: truncate cs (index - c.utf8Size) else []

/-- The last `width` hexadecimal digits of a number. -/
def hexDigits : Nat → Nat → List Char
  | 0, _ => []
  | width + 1, n => hexDigits width (n / 16) ++ [Nat.digitChar (n % 16)]

/-- A number below `16^width` with leading zeros. -/
def hex (width n : Nat) : String := String.ofList (hexDigits width n)

/-- `join` of a list of texts. -/
def join (sep : String) : List String → String
  | [] => ""
  | [text] => text
  | text :: next :: rest => text ++ sep ++ join sep (next :: rest)

/-- `str::strip_suffix` of one character. -/
def strip_suffix (value : String) (c : Char) : Option String :=
  if value.toList.getLast? = some c then some (String.ofList value.toList.dropLast) else none

/-- `str::contains` of a text. -/
def contains (value part : String) : Prop := part.toList <:+: value.toList

instance (value part : String) : Decidable (contains value part) :=
  inferInstanceAs (Decidable (_ <:+: _))

/-- `str::parse` of an integer type: a sign, then digits, in the range of the type. -/
def parse_integer (signed : Bool) (lowest highest : Int) (value : String) : Option Int :=
  let (negative, digits) :=
    match value.toList with
    | '+' :: digits => (false, digits)
    | '-' :: digits => if signed then (true, digits) else (false, '-' :: digits)
    | digits => (false, digits)
  if digits.isEmpty ∨ digits.all Char.isDigit = false then none
  else
    let n : Nat := digits.foldl (fun n digit => 10 * n + (digit.toNat - 48)) 0
    let z : Int := if negative then -n else n
    if lowest ≤ z ∧ z ≤ highest then some z else none

variable {c : Char}

theorem not_blank {value : String} (h : c ∈ value.toList) (hc : is_whitespace c = false) :
    is_blank value = false := by
  unfold is_blank
  rw [List.all_eq_false]
  exact ⟨c, h, by simp [hc]⟩

theorem is_blank_append (a b : String) : is_blank (a ++ b) = (is_blank a && is_blank b) := by
  unfold is_blank
  rw [String.toList_append, List.all_append]

/-! ## Texts that are cut at a separator -/

/-- A list has one cut at the last place of a character. -/
theorem cut_last {α : Type} {c : α} {a a' b b' : List α} (hb : c ∉ b) (hb' : c ∉ b')
    (h : a ++ c :: b = a' ++ c :: b') : a = a' ∧ b = b' := by
  induction a generalizing a' with
  | nil =>
    cases a' with
    | nil => exact ⟨rfl, (List.cons.inj h).2⟩
    | cons x a' =>
      obtain ⟨-, hrest⟩ := List.cons.inj h
      exact absurd (hrest ▸ by simp : c ∈ b) hb
  | cons x a ih =>
    cases a' with
    | nil =>
      obtain ⟨-, hrest⟩ := List.cons.inj h
      exact absurd (hrest ▸ by simp : c ∈ b') hb'
    | cons y a' =>
      obtain ⟨rfl, hrest⟩ := List.cons.inj h
      obtain ⟨rfl, hcut⟩ := ih hrest
      exact ⟨rfl, hcut⟩

/-- A list has one cut at the first place of a character. -/
theorem cut_first {α : Type} {c : α} {a a' b b' : List α} (ha : c ∉ a) (ha' : c ∉ a')
    (h : a ++ c :: b = a' ++ c :: b') : a = a' ∧ b = b' := by
  have hreverse := congrArg List.reverse h
  simp only [List.reverse_append, List.reverse_cons, List.append_assoc, List.singleton_append]
    at hreverse
  obtain ⟨hb, ha⟩ := cut_last (by simpa using ha) (by simpa using ha') hreverse
  exact ⟨List.reverse_inj.mp ha, List.reverse_inj.mp hb⟩

variable {a b a' b' p q : String} (sep : String)

/-- A text is cut at a separator whose last character is not found after it. -/
theorem cut_right (c : Char) (hsep : sep.toList.getLast? = some c) (hb : c ∉ b.toList)
    (hb' : c ∉ b'.toList) (h : a ++ sep ++ b = a' ++ sep ++ b') : a = a' ∧ b = b' := by
  obtain ⟨init, hinit⟩ := List.getLast?_eq_some_iff.mp hsep
  have hlists := congrArg String.toList h
  simp only [String.toList_append, hinit, List.append_assoc, List.singleton_append] at hlists
  rw [← List.append_assoc, ← List.append_assoc] at hlists
  obtain ⟨ha, hb⟩ := cut_last hb hb' hlists
  exact ⟨String.toList_inj.mp (List.append_cancel_right ha), String.toList_inj.mp hb⟩

/-- Where one text goes on from another and a colon. -/
theorem stem_of_append {rest : List Char} (hq : q.toList = p.toList ++ rest)
    (ha : ':' :: a.toList = rest ++ ':' :: b.toList) :
    (p = q ∧ a = b) ∨ ∃ stem, q = p ++ ":" ++ stem ∧ a = stem ++ ":" ++ b := by
  have hcolon : ":".toList = [':'] := by decide
  cases rest with
  | nil =>
    rw [List.append_nil] at hq
    exact .inl ⟨String.toList_inj.mp hq.symm, String.toList_inj.mp (List.cons.inj ha).2⟩
  | cons c rest =>
    obtain ⟨rfl, hname⟩ := List.cons.inj ha
    refine .inr ⟨String.ofList rest, String.toList_inj.mp ?_, String.toList_inj.mp ?_⟩
    · simp [String.toList_append, hq, hcolon]
    · simpa [String.toList_append, hcolon] using hname

/-- Two texts behind colons are the same text in three ways: the parts agree, or one of the first
parts goes on from the other one. -/
theorem append_colon_eq_iff : p ++ ":" ++ a = q ++ ":" ++ b ↔
    (p = q ∧ a = b) ∨ (∃ stem, p = q ++ ":" ++ stem ∧ b = stem ++ ":" ++ a) ∨
      ∃ stem, q = p ++ ":" ++ stem ∧ a = stem ++ ":" ++ b := by
  constructor
  · intro h
    have hlists := congrArg String.toList h
    have hcolon : ":".toList = [':'] := by decide
    simp only [String.toList_append, List.append_assoc, hcolon, List.singleton_append] at hlists
    obtain ⟨rest, hq, ha⟩ | ⟨rest, hp, hb⟩ := List.append_eq_append_iff.mp hlists
    · obtain hsame | houter := stem_of_append hq ha
      · exact .inl hsame
      · exact .inr (.inr houter)
    · obtain ⟨hsame, hname⟩ | hinner := stem_of_append hp hb
      · exact .inl ⟨hsame.symm, hname.symm⟩
      · exact .inr (.inl hinner)
  · rintro (⟨rfl, rfl⟩ | ⟨stem, rfl, rfl⟩ | ⟨stem, rfl, rfl⟩) <;> simp only [String.append_assoc]

/-- A text is cut at a separator whose first character is not found before it. -/
theorem cut_left (c : Char) (hsep : sep.toList.head? = some c) (ha : c ∉ a.toList)
    (ha' : c ∉ a'.toList) (h : a ++ sep ++ b = a' ++ sep ++ b') : a = a' ∧ b = b' := by
  obtain ⟨tail, htail⟩ := List.head?_eq_some_iff.mp hsep
  have hlists := congrArg String.toList h
  simp only [String.toList_append, htail, List.append_assoc, List.cons_append] at hlists
  obtain ⟨ha, hb⟩ := cut_first ha ha' hlists
  exact ⟨String.toList_inj.mp ha, String.toList_inj.mp (List.append_cancel_left hb)⟩

/-- A text whose first character does not come again in it. -/
def is_label (sep : String) : Bool :=
  match sep.toList with
  | [] => false
  | c :: rest => !rest.contains c

/-- Nothing, or a label and more. -/
def Begins (sep tail : String) : Prop := tail = "" ∨ ∃ rest, tail = sep ++ rest

/-- The label begins where the shorter part ends. It does not begin inside the longer part: it would
end there too, or a second label would begin inside it. -/
theorem cut_shorter {label a a' b b' : List Char} (hlabel : c ∉ label) (ha' : ¬ c :: label <:+: a')
    (h : a ++ (c :: label ++ b) = a' ++ b') (hle : a.length ≤ a'.length)
    (hb' : b' = [] ∨ c :: label <+: b') : a = a' := by
  obtain ⟨middle, rfl, hmiddle⟩ | ⟨middle, rfl, hmiddle⟩ := List.append_eq_append_iff.mp h
  · cases middle with
    | nil => exact (List.append_nil a).symm
    | cons d middle =>
      exfalso
      obtain ⟨rfl, htail⟩ := List.cons.inj hmiddle
      obtain ⟨rest, hrest, hb⟩ | ⟨rest, hrest, hb⟩ := List.append_eq_append_iff.mp htail
      · apply ha'
        rw [hrest]
        exact ⟨a, rest, by simp⟩
      · cases rest with
        | nil =>
          apply ha'
          rw [List.append_nil] at hrest
          rw [hrest]
          exact ⟨a, [], by simp⟩
        | cons e rest =>
          obtain rfl | ⟨more, rfl⟩ := hb'
          · cases hb
          · apply hlabel
            obtain ⟨rfl, -⟩ := List.cons.inj hb
            rw [hrest]
            simp
  · have hnil : middle = [] := by
      rw [List.length_append] at hle
      exact List.eq_nil_of_length_eq_zero (by omega)
    rw [hnil, List.append_nil]

/-- A text is cut at its first label, or at its end when it has none. -/
theorem cut_tail {t t' : String} (hsep : is_label sep = true) (ha : ¬ contains a sep)
    (ha' : ¬ contains a' sep) (ht : Begins sep t) (ht' : Begins sep t') (h : a ++ t = a' ++ t') :
    a = a' ∧ t = t' := by
  have hshorter : ∀ {a a' t t' : String}, ¬ contains a' sep → Begins sep t → Begins sep t' →
      a ++ t = a' ++ t' → a.toList.length ≤ a'.toList.length → a = a' := by
    intro a a' t t' ha' ht ht' h hle
    have hlists := congrArg String.toList h
    rw [String.toList_append, String.toList_append] at hlists
    obtain rfl | ⟨rest, rfl⟩ := ht
    · rw [String.toList_empty, List.append_nil] at hlists
      have hlength := congrArg List.length hlists
      rw [List.length_append] at hlength
      rw [List.eq_nil_of_length_eq_zero (by omega : t'.toList.length = 0),
        List.append_nil] at hlists
      exact String.toList_inj.mp hlists
    · unfold is_label at hsep
      split at hsep
      · cases hsep
      · rename_i c label hsep'
        rw [String.toList_append, hsep'] at hlists
        unfold contains at ha'
        rw [hsep'] at ha'
        refine String.toList_inj.mp (cut_shorter (by simpa using hsep) ha' hlists hle ?_)
        obtain rfl | ⟨rest', rfl⟩ := ht'
        · exact .inl rfl
        · right
          rw [String.toList_append, hsep']
          exact List.prefix_append _ _
  have heq : a = a' := by
    rcases Nat.le_total a.toList.length a'.toList.length with hle | hle
    · exact hshorter ha' ht ht' h hle
    · exact (hshorter ha ht' ht h.symm hle).symm
  refine ⟨heq, ?_⟩
  rw [heq] at h
  exact (String.append_right_inj _).mp h

/-- A text is cut at the first place of a label. -/
theorem cut_label (hsep : is_label sep = true) (ha : ¬ contains a sep) (ha' : ¬ contains a' sep)
    (h : a ++ sep ++ b = a' ++ sep ++ b') : a = a' ∧ b = b' := by
  rw [String.append_assoc, String.append_assoc] at h
  obtain ⟨heq, htail⟩ := cut_tail sep hsep ha ha' (.inr ⟨b, rfl⟩) (.inr ⟨b', rfl⟩) h
  exact ⟨heq, (String.append_right_inj _).mp htail⟩

/-- A list of texts is read back from their join: no text is empty or holds the separator. -/
theorem join_inj {l l' : List String} (hl : ∀ text ∈ l, text ≠ "" ∧ c ∉ text.toList)
    (hl' : ∀ text ∈ l', text ≠ "" ∧ c ∉ text.toList)
    (h : join (String.singleton c) l = join (String.singleton c) l') : l = l' := by
  have hnot : ∀ {text rest : String}, text ++ String.singleton c ++ rest ≠ "" := by
    intro text rest heq
    have hlists := congrArg String.toList heq
    simp at hlists
  have hmem : ∀ {text start rest : String}, text = start ++ String.singleton c ++ rest →
      c ∈ text.toList := by
    rintro text start rest rfl
    simp
  induction l generalizing l' with
  | nil =>
    match l' with
    | [] => rfl
    | [text'] => exact absurd h.symm (hl' text' List.mem_cons_self).1
    | text' :: next' :: rest' => exact absurd h.symm hnot
  | cons text rest ih =>
    match rest, l' with
    | [], [] => exact absurd h (hl text List.mem_cons_self).1
    | [], [text'] => rw [show text = text' from h]
    | [], text' :: next' :: rest' => exact absurd (hmem h) (hl text List.mem_cons_self).2
    | next :: rest, [] => exact absurd h hnot
    | next :: rest, [text'] => exact absurd (hmem h.symm) (hl' text' List.mem_cons_self).2
    | next :: rest, text' :: next' :: rest' =>
      obtain ⟨rfl, hrest⟩ := cut_left (String.singleton c) c (by simp)
        (hl text List.mem_cons_self).2 (hl' text' List.mem_cons_self).2 h
      rw [ih (fun t ht => hl t (List.mem_cons_of_mem _ ht))
        (fun t ht => hl' t (List.mem_cons_of_mem _ ht)) hrest]

/-! ## Numbers in texts -/

/-- The text of a number has digits only. -/
theorem not_mem_toString (hc : c.isDigit = false) (n : Nat) : c ∉ (toString n).toList := by
  rw [Nat.toString_eq_ofList_toDigits, String.toList_ofList]
  intro hmem
  rw [Nat.isDigit_of_mem_toDigits (by decide) (by decide) hmem] at hc
  cases hc

theorem isDigit_ascii (h : c.isDigit = true) : c.toNat < 128 := by
  rw [Char.isDigit, Bool.and_eq_true, decide_eq_true_eq, decide_eq_true_eq] at h
  exact Nat.lt_of_le_of_lt (UInt32.le_iff_toNat_le.mp h.2) (by decide)

variable {n m width k : Nat}

theorem toString_inj (h : toString m = toString n) : m = n := by
  rw [Nat.toString_eq_ofList_toDigits, Nat.toString_eq_ofList_toDigits] at h
  have hdigits := String.ofList_injective h
  rw [← Nat.ofDigitChars_ten_toDigits (n := m), hdigits, Nat.ofDigitChars_ten_toDigits]

/-! ## The length of a text -/

theorem len_append (a b : String) : len (a ++ b) = len a + len b := String.utf8ByteSize_append

variable (cs : List Char)

theorem len_ofList : len (String.ofList cs) = (cs.map Char.utf8Size).sum := by
  induction cs with
  | nil => rfl
  | cons c cs ih =>
    have hcons : String.ofList (c :: cs) = String.singleton c ++ String.ofList cs := by
      apply String.toList_inj.mp
      simp
    rw [hcons, len_append, ih, List.map_cons, List.sum_cons]
    congr 1
    exact String.utf8ByteSize_singleton

/-- A text of ASCII characters has as many bytes as characters. -/
theorem len_ascii {cs : List Char} (h : ∀ c ∈ cs, c.toNat < 128) :
    len (String.ofList cs) = cs.length := by
  have hmap : cs.map Char.utf8Size = cs.map fun _ => 1 := by
    apply List.map_congr_left
    intro c hc
    unfold Char.utf8Size
    rw [if_pos]
    exact UInt32.le_iff_toNat_le.mpr (Nat.le_of_lt_succ (h c hc))
  rw [len_ofList, hmap, List.map_const', List.sum_replicate_nat, Nat.mul_one]

theorem len_toString_le (hk : 0 < k) (h : n < 10 ^ k) : len (toString n) ≤ k := by
  rw [Nat.toString_eq_ofList_toDigits, len_ascii]
  · exact (Nat.length_toDigits_le_iff (by decide) hk).mpr h
  · intro c hc
    exact isDigit_ascii (Nat.isDigit_of_mem_toDigits (by decide) (by decide) hc)

theorem toString_int {z : Int} (h : 0 ≤ z) : toString z = toString z.toNat := by
  obtain ⟨n, rfl⟩ := Int.eq_ofNat_of_zero_le h
  rfl

theorem len_int_le {z : Int} (hk : 0 < k) (h : 0 ≤ z) (hz : z.toNat < 10 ^ k) :
    len (toString z) ≤ k := by
  rw [toString_int h]
  exact len_toString_le hk hz

/-! ## Cuts at a byte -/

theorem boundary_at_most_le (index : Nat) : boundary_at_most cs index ≤ index := by
  induction index with
  | zero => exact Nat.le_refl 0
  | succ index ih =>
    unfold boundary_at_most
    split
    · exact Nat.le_refl (index + 1)
    · omega

theorem is_char_boundary_at_most (index : Nat) :
    is_char_boundary cs (boundary_at_most cs index) = true := by
  induction index with
  | zero =>
    unfold boundary_at_most is_char_boundary
    rfl
  | succ index ih =>
    unfold boundary_at_most
    split
    · assumption
    · exact ih

theorem truncate_prefix (index : Nat) : truncate cs index <+: cs := by
  induction cs generalizing index with
  | nil => exact List.nil_prefix
  | cons c cs ih =>
    unfold truncate
    split
    · exact (List.prefix_cons_inj c).mpr (ih _)
    · exact List.nil_prefix

/-- A text that is cut at the boundary of a character has as many bytes as asked for. -/
theorem len_truncate {cs : List Char} {index : Nat} (h : is_char_boundary cs index = true) :
    len (String.ofList (truncate cs index)) = index := by
  rw [len_ofList]
  induction cs generalizing index with
  | nil =>
    cases index with
    | zero => rfl
    | succ index => cases h
  | cons c cs ih =>
    cases index with
    | zero =>
      have hpos := c.utf8Size_pos
      rw [truncate, if_neg (by omega)]
      rfl
    | succ index =>
      rw [is_char_boundary] at h
      split at h
      · rename_i hfits
        rw [truncate, if_pos hfits, List.map_cons, List.sum_cons, ih h]
        omega
      · cases h

/-! ## Hexadecimal digits -/

theorem length_hexDigits (width n : Nat) : (hexDigits width n).length = width := by
  induction width generalizing n with
  | zero => rfl
  | succ width ih => rw [hexDigits, List.length_append, ih, List.length_singleton]

theorem digitChar_ascii : ∀ d < 16, (Nat.digitChar d).toNat < 128 := by decide

theorem hexDigits_ascii (h : c ∈ hexDigits width n) : c.toNat < 128 := by
  induction width generalizing n with
  | zero => cases h
  | succ width ih =>
    rw [hexDigits, List.mem_append, List.mem_singleton] at h
    rcases h with hrest | rfl
    · exact ih hrest
    · exact digitChar_ascii (n % 16) (Nat.mod_lt n (by decide))

theorem digitChar_inj : ∀ d < 16, ∀ e < 16, Nat.digitChar d = Nat.digitChar e → d = e := by decide

theorem not_mem_hex (hc : ∀ digit < 16, c ≠ Nat.digitChar digit) (width n : Nat) :
    c ∉ (hex width n).toList := by
  unfold hex
  rw [String.toList_ofList]
  induction width generalizing n with
  | zero => exact List.not_mem_nil
  | succ width ih =>
    rw [hexDigits, List.mem_append, not_or, List.mem_singleton]
    exact ⟨ih (n / 16), hc (n % 16) (Nat.mod_lt n (by decide))⟩

theorem hexDigits_inj (hm : m < 16 ^ width) (hn : n < 16 ^ width)
    (h : hexDigits width m = hexDigits width n) : m = n := by
  induction width generalizing m n with
  | zero =>
    rw [Nat.pow_zero] at hm hn
    omega
  | succ width ih =>
    obtain ⟨hrest, hlast⟩ := List.append_inj' h rfl
    have hquotient : m / 16 = n / 16 := by
      apply ih _ _ hrest
      · exact Nat.div_lt_of_lt_mul (by rwa [Nat.pow_succ'] at hm)
      · exact Nat.div_lt_of_lt_mul (by rwa [Nat.pow_succ'] at hn)
    have hremainder : m % 16 = n % 16 :=
      digitChar_inj _ (Nat.mod_lt m (by decide)) _ (Nat.mod_lt n (by decide))
        (List.cons.inj hlast).1
    omega

theorem hex_inj (hm : m < 16 ^ width) (hn : n < 16 ^ width) (h : hex width m = hex width n) :
    m = n :=
  hexDigits_inj hm hn (String.ofList_injective h)

theorem len_hex (width n : Nat) : len (hex width n) = width := by
  unfold hex
  rw [len_ascii fun c hc => hexDigits_ascii hc, length_hexDigits]

end strings
