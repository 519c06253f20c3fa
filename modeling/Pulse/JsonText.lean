-- The compact text of JSON values, as `serde_json::to_string` writes it, and its
-- length. Integers are decimal; how a float is written is a parameter.
import Pulse.Decimals
import Pulse.Json
import Pulse.Strings

open strings

namespace json

/-! ## The text of a value -/

/-- A character that does not stand for itself in a string. -/
def isEscaped (c : Char) : Bool := c == '"' || c == '\\' || c.toNat < 32

/-- Control characters without a short form have four hexadecimal digits. -/
def escape (c : Char) : List Char :=
  if c = '"' then ['\\', '"']
  else if c = '\\' then ['\\', '\\']
  else if c = '\n' then ['\\', 'n']
  else if c = '\r' then ['\\', 'r']
  else if c = '\t' then ['\\', 't']
  else if c.toNat = 8 then ['\\', 'b']
  else if c.toNat = 12 then ['\\', 'f']
  else if c.toNat < 32 then
    ['\\', 'u', '0', '0', Nat.digitChar (c.toNat / 16), Nat.digitChar (c.toNat % 16)]
  else [c]

def quoted (text : String) : String := "\"" ++ String.ofList (text.toList.flatMap escape) ++ "\""

section texts

variable (float_text : ℚ → String)

def Number.text : Number → String
  | .PosInt n => toString n.toNat
  | .NegInt n => toString n.toInt
  | .Float value => float_text value

mutual
def Value.text : Value → String
  | .Null => "null"
  | .Bool value => if value then "true" else "false"
  | .Number value => value.text float_text
  | .String value => quoted value
  | .Array elements => "[" ++ elementsText true elements ++ "]"
  | .Object members => "\x7b" ++ membersText true members ++ "\x7d"

/-- Every element but the first comes after a comma. -/
def elementsText (first : Bool) : List Value → String
  | [] => ""
  | element :: rest =>
    (if first then "" else ",") ++ element.text ++ elementsText false rest

def memberText : String × Value → String
  | (name, value) => quoted name ++ ":" ++ value.text

def membersText (first : Bool) : List (String × Value) → String
  | [] => ""
  | member :: rest =>
    (if first then "" else ",") ++ memberText member ++ membersText false rest
end

end texts

/-! ## A few known texts -/

/-- The text of a value whose floats have few digits before the point. -/
def printed (value : Value) : String := value.text fun x => (floats.Decimal.shortest x).text

section known

variable {α : Type} (text : α → String) (known : List α)

def readerOf (bytes : List UInt8) : Except String α :=
  match known.find? fun x => (text x).toUTF8.data.toList = bytes with
  | some x => .ok x
  | none => .error "unknown text"

def writerOf [DecidableEq α] (x : α) : Except String String :=
  if x ∈ known then .ok (text x) else .error "unknown value"

variable {text known}

/-- Texts that differ are told apart. -/
theorem readerOf_text {x : α} (hnodup : (known.map fun x => (text x).toUTF8.data.toList).Nodup)
    (hx : x ∈ known) : readerOf text known (text x).toUTF8.data.toList = .ok x := by
  unfold readerOf
  cases hfind : known.find? fun y => (text y).toUTF8.data.toList = (text x).toUTF8.data.toList with
  | none => simpa using List.find?_eq_none.mp hfind x hx
  | some y =>
    have hy : (text y).toUTF8.data.toList = (text x).toUTF8.data.toList := by
      simpa using List.find?_some hfind
    rw [List.inj_on_of_nodup_map hnodup (List.mem_of_find?_eq_some hfind) hx hy]

theorem readerOf_writerOf [DecidableEq α] {x : α} {written : String}
    (hnodup : (known.map fun x => (text x).toUTF8.data.toList).Nodup)
    (h : writerOf text known x = .ok written) :
    x ∈ known ∧ readerOf text known written.toUTF8.data.toList = .ok x := by
  unfold writerOf at h
  split at h
  · rename_i hx
    cases h
    exact ⟨hx, readerOf_text hnodup hx⟩
  · cases h

end known

/-- A text layer that reads the texts of a few values. -/
def serdeOf (known : List Value) : Serde where
  to_string := printed
  from_slice := readerOf printed known
  message := fun _ => "invalid value"

theorem serdeOf_roundTrips (value : Value) : (serdeOf [value]).RoundTrips value :=
  readerOf_text (List.nodup_singleton _) (List.mem_singleton_self value)

/-! ## The length of a text -/

/-- An escape has at most six bytes. -/
theorem len_escape_le (c : Char) : len (String.ofList (escape c)) ≤ 6 * c.utf8Size := by
  have hpos := c.utf8Size_pos
  have hshort : ∀ d : Char, d.toNat < 128 → len (String.ofList ['\\', d]) ≤ 6 * c.utf8Size := by
    intro d hd
    rw [len_ascii (by simpa using hd)]
    change 2 ≤ 6 * c.utf8Size
    omega
  unfold escape
  iterate 7
    split
    · exact hshort _ (by decide)
  split
  · have hdigit : ∀ n < 16, (Nat.digitChar n).toNat < 128 := by decide
    rw [len_ascii]
    · change 6 ≤ 6 * c.utf8Size
      omega
    · simp only [List.forall_mem_cons]
      exact ⟨by decide, by decide, by decide, by decide, hdigit _ (by omega),
        hdigit _ (by omega), by simp⟩
  · rw [len_ofList, List.map_singleton, List.sum_singleton]
    omega

theorem escape_of_plain {c : Char} (h : isEscaped c = false) : escape c = [c] := by
  unfold isEscaped at h
  simp only [Bool.or_eq_false_iff, beq_eq_false_iff_ne, decide_eq_false_iff_not] at h
  obtain ⟨⟨hquote, hslash⟩, hcontrol⟩ := h
  have hne : ∀ d : Char, d.toNat < 32 → c ≠ d := fun d hd heq => hcontrol (heq ▸ hd)
  unfold escape
  rw [if_neg hquote, if_neg hslash, if_neg (hne _ (by decide)), if_neg (hne _ (by decide)),
    if_neg (hne _ (by decide)), if_neg (by omega), if_neg (by omega), if_neg hcontrol]

theorem len_quoted (text : String) :
    len (quoted text) = len (String.ofList (text.toList.flatMap escape)) + 2 := by
  have hquote : len "\"" = 1 := by decide
  unfold quoted
  rw [len_append, len_append]
  omega

theorem len_quoted_le (text : String) : len (quoted text) ≤ 6 * len text + 2 := by
  have hchars : ∀ cs : List Char, len (String.ofList (cs.flatMap escape)) ≤
      6 * len (String.ofList cs) := by
    intro cs
    induction cs with
    | nil => exact Nat.zero_le _
    | cons c cs ih =>
      have hc := len_escape_le c
      rw [len_ofList] at hc ih ⊢
      rw [len_ofList] at ih ⊢
      rw [List.flatMap_cons, List.map_append, List.sum_append, List.map_cons, List.sum_cons]
      omega
  have h := hchars text.toList
  rw [String.ofList_toList] at h
  rw [len_quoted]
  omega

/-- A text without escapes has its own length. -/
theorem len_quoted_plain {text : String} (h : ∀ c ∈ text.toList, isEscaped c = false) :
    len (quoted text) = len text + 2 := by
  have hchars : text.toList.flatMap escape = text.toList := by
    conv_rhs => rw [← List.flatMap_singleton' text.toList]
    exact List.flatMap_congr fun c hc => escape_of_plain (h c hc)
  rw [len_quoted, hchars, String.ofList_toList]

variable {float_text : ℚ → String}

/-- Every member has its name, a colon, its value and at most one comma. -/
theorem len_membersText_le {members : Members} {bounds : List Nat}
    (h : List.Forall₂ (fun member bound =>
      len (quoted member.1) + len (member.2.text float_text) + 2 ≤ bound) members bounds)
    (first : Bool) : len (membersText float_text first members) ≤ bounds.sum := by
  induction h generalizing first with
  | nil => exact Nat.zero_le _
  | @cons member bound members bounds hmember _ ih =>
    have hrest := ih false
    have hcomma : len (if first then "" else ",") ≤ 1 := by cases first <;> decide
    have hcolon : len ":" = 1 := by decide
    rw [membersText, memberText, List.sum_cons]
    simp only [len_append]
    omega

theorem len_object_text_le {members : Members} {bounds : List Nat}
    (h : List.Forall₂ (fun member bound =>
      len (quoted member.1) + len (member.2.text float_text) + 2 ≤ bound) members bounds) :
    len ((Value.Object members).text float_text) ≤ bounds.sum + 2 := by
  have hmembers := len_membersText_le h true
  have hopen : len "\x7b" = 1 := by decide
  have hclose : len "\x7d" = 1 := by decide
  rw [Value.text]
  simp only [len_append]
  omega

theorem len_bool_text_le (float_text : ℚ → String) (value : Bool) :
    len ((Value.Bool value).text float_text) ≤ 5 := by
  rw [Value.text]
  cases value <;> decide

/-- The integers of a number have 64 bits. -/
theorem len_number_text_le (hfloat : ∀ value, len (float_text value) ≤ 40) (number : Number) :
    len (number.text float_text) ≤ 40 := by
  cases number with
  | PosInt n =>
    have hlt := n.toNat_lt
    have hdigits : len (toString n.toNat) ≤ 20 := len_toString_le (by decide) (by omega)
    rw [Number.text]
    omega
  | NegInt n =>
    have hle := n.le_toInt
    have hlt := n.toInt_lt
    rw [Number.text]
    generalize n.toInt = z at hle hlt
    cases z with
    | ofNat m =>
      have hm : (m : Int) < 2 ^ 63 := hlt
      have hdigits : len (toString m) ≤ 20 := len_toString_le (by decide) (by omega)
      change len (toString m) ≤ 40
      omega
    | negSucc m =>
      have hdigits : len (toString (m + 1)) ≤ 20 := len_toString_le (by decide) (by omega)
      have hsign : len "-" = 1 := by decide
      change len ("-" ++ toString (m + 1)) ≤ 40
      rw [len_append]
      omega
  | Float value => exact hfloat value

end json
