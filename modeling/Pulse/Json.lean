-- JSON values as `serde_json` has them, and how the fields of a record are
-- read from the members of an object. The text of a value is a parameter.
import Mathlib.Algebra.Order.Ring.Nat
import Mathlib.Data.Rat.Defs
import Mathlib.Data.List.Nodup
import Mathlib.Data.String.Basic
import Mathlib.Tactic.Common

namespace json

/-! ## Values -/

/-- A number that is no `u64` and no negative `i64` is read as a float. -/
inductive Number
  | PosInt (n : UInt64)
  | NegInt (n : Int64)
  | Float (value : ℚ)
deriving DecidableEq

inductive Value
  | Null
  | Bool (value : Bool)
  | Number (value : Number)
  | String (value : String)
  | Array (elements : List Value)
  | Object (members : List (String × Value))

/-- The members of an object, in the order of the map. -/
abbrev Members := List (String × Value)

/-- The text of values: `to_string`, `from_slice` and the message of `from_value`. -/
structure Serde where
  to_string : Value → String
  from_slice : List UInt8 → Except String Value
  message : Value → String

/-- The text of a value is read back as the value. -/
def Serde.RoundTrips (serde : Serde) (value : Value) : Prop :=
  serde.from_slice (serde.to_string value).toUTF8.data.toList = .ok value

/-! ## Nesting -/

mutual
/-- How deep the arrays and the objects of a value are nested. -/
def Value.depth : Value → Nat
  | .Array elements => depthOfElements elements + 1
  | .Object members => depthOfMembers members + 1
  | .Null => 1
  | .Bool _ => 1
  | .Number _ => 1
  | .String _ => 1

def depthOfElements : List Value → Nat
  | [] => 0
  | element :: rest => max element.depth (depthOfElements rest)

def depthOfMember : String × Value → Nat
  | (_, value) => value.depth

def depthOfMembers : List (String × Value) → Nat
  | [] => 0
  | member :: rest => max (depthOfMember member) (depthOfMembers rest)
end

theorem depth_pos (value : Value) : 0 < value.depth := by
  cases value <;> simp [Value.depth]

theorem depth_mem_elements {value : Value} {elements : List Value} (h : value ∈ elements) :
    value.depth < (Value.Array elements).depth := by
  rw [Value.depth]
  induction elements with
  | nil => cases h
  | cons element rest ih =>
    rw [depthOfElements]
    rcases List.mem_cons.mp h with rfl | h
    · omega
    · have := ih h
      omega

variable {name name' : String}

theorem depth_mem_members {value : Value} {members : List (String × Value)}
    (h : (name, value) ∈ members) : value.depth < (Value.Object members).depth := by
  rw [Value.depth]
  induction members with
  | nil => cases h
  | cons member rest ih =>
    rw [depthOfMembers]
    rcases List.mem_cons.mp h with rfl | h
    · rw [depthOfMember]
      omega
    · have := ih h
      omega

/-! ## Maps -/

/-- `Map::insert`: the members stay in the order of their names, and a name keeps one value. -/
def insert (name : String) (value : Value) : Members → Members
  | [] => [(name, value)]
  | (key, old) :: rest =>
    if name < key then (name, value) :: (key, old) :: rest
    else if name = key then (name, value) :: rest
    else (key, old) :: insert name value rest

/-- The map of the members of a list. -/
def ofList (members : Members) : Members :=
  members.foldl (fun map member => insert member.1 member.2 map) []

theorem lookup_insert_self (name : String) (value : Value) (map : Members) :
    (insert name value map).lookup name = some value := by
  induction map with
  | nil => simp [insert]
  | cons member rest ih =>
    obtain ⟨key, old⟩ := member
    unfold insert
    split
    · simp
    · split
      · simp
      · rename_i hne
        rw [List.lookup_cons, beq_false_of_ne hne]
        exact ih

theorem lookup_insert_of_ne (h : name' ≠ name) (value : Value) (map : Members) :
    (insert name value map).lookup name' = map.lookup name' := by
  induction map with
  | nil => simp [insert, List.lookup_cons, beq_false_of_ne h]
  | cons member rest ih =>
    obtain ⟨key, old⟩ := member
    unfold insert
    split
    · rw [List.lookup_cons, beq_false_of_ne h]
    · split
      · rename_i heq
        subst heq
        rw [List.lookup_cons, List.lookup_cons, beq_false_of_ne h]
      · rw [List.lookup_cons, List.lookup_cons, ih]

/-- A second value of a name takes the place of the first. -/
theorem insert_insert_self (name : String) (value old : Value) (map : Members) :
    insert name value (insert name old map) = insert name value map := by
  induction map with
  | nil => simp [insert]
  | cons member rest ih =>
    obtain ⟨key, v⟩ := member
    by_cases hlt : name < key
    · simp [insert, hlt]
    · by_cases heq : name = key
      · simp [insert, heq]
      · simp [insert, hlt, heq, ih]

theorem insert_comm (h : name ≠ name') (value value' : Value) (map : Members) :
    insert name value (insert name' value' map) = insert name' value' (insert name value map) := by
  -- the order of the two names is settled, so that the smaller one is passed first
  wlog hlt : name < name' generalizing name name' value value'
  · have hgt : name' < name := by
      rcases lt_trichotomy name name' with h' | h' | h'
      · exact absurd h' hlt
      · exact absurd h' h
      · exact h'
    exact (this (Ne.symm h) value' value hgt).symm
  induction map with
  | nil => simp [insert, hlt, h.symm, not_lt_of_gt hlt]
  | cons member rest ih =>
    obtain ⟨key, v⟩ := member
    rcases lt_trichotomy name' key with hk | rfl | hk
    · simp [insert, hk, hlt, hlt.trans hk, h.symm, not_lt_of_gt hlt]
    · simp [insert, hlt, h.symm, not_lt_of_gt hlt]
    · rcases lt_trichotomy name key with hn | rfl | hn
      · simp [insert, hn, hk.ne', not_lt_of_gt hk, h.symm, not_lt_of_gt hlt]
      · simp [insert, h.symm, not_lt_of_gt hlt]
      · simp [insert, hn.ne', hk.ne', not_lt_of_gt hn, not_lt_of_gt hk, ih]

/-- The order of the insertions is not seen. -/
theorem ofList_perm {members members' : Members} (h : members.Perm members')
    (hnames : (members.map Prod.fst).Nodup) : ofList members = ofList members' := by
  apply h.foldl_eq'
  intro a ha b hb map
  by_cases hab : a = b
  · rw [hab]
  · have hne : b.1 ≠ a.1 := by
      intro heq
      exact hab (List.inj_on_of_nodup_map hnames ha hb heq.symm)
    exact insert_comm hne b.2 a.2 map

/-! ## Integers -/

/-- The number that the digits of an integer are read as. -/
def Number.ofInt (z : Int) : Number :=
  if 0 ≤ z ∧ z < 2 ^ 64 then .PosInt (UInt64.ofNat z.toNat)
  else if -2 ^ 63 ≤ z ∧ z < 0 then .NegInt (Int64.ofInt z)
  else .Float z

def Number.toInt : Number → Option Int
  | .PosInt n => some n.toNat
  | .NegInt n => some n.toInt
  | .Float _ => none

def Number.as_i64 : Number → Option Int64
  | .PosInt n => if n.toNat < 2 ^ 63 then some n.toInt64 else none
  | .NegInt n => some n
  | .Float _ => none

def Number.as_u64 : Number → Option UInt64
  | .PosInt n => some n
  | .NegInt _ => none
  | .Float _ => none

def integer (z : Int) : Value := .Number (.ofInt z)

/-- The integer of a value, in the range of its type. -/
def read_int (lowest highest : Int) : Value → Option Int
  | .Number n => n.toInt.filter fun z => lowest ≤ z ∧ z ≤ highest
  | _ => none

def read_u16 (value : Value) : Option UInt16 :=
  (read_int 0 (2 ^ 16 - 1) value).map fun z => UInt16.ofNat z.toNat

def read_u32 (value : Value) : Option UInt32 :=
  (read_int 0 (2 ^ 32 - 1) value).map fun z => UInt32.ofNat z.toNat

def read_u64 (value : Value) : Option UInt64 :=
  (read_int 0 (2 ^ 64 - 1) value).map fun z => UInt64.ofNat z.toNat

def read_u128 (value : Value) : Option Nat := (read_int 0 (2 ^ 128 - 1) value).map Int.toNat

def read_i32 (value : Value) : Option Int32 :=
  (read_int (-2 ^ 31) (2 ^ 31 - 1) value).map Int32.ofInt

def read_i64 (value : Value) : Option Int64 :=
  (read_int (-2 ^ 63) (2 ^ 63 - 1) value).map Int64.ofInt

def read_bool : Value → Option Bool
  | .Bool b => some b
  | _ => none

def read_string : Value → Option String
  | .String s => some s
  | _ => none

/-! ## Fields of a record -/

/-- A field that has to be there. -/
def required {α : Type} (members : Members) (name : String) (read : Value → Option α) : Option α :=
  (members.lookup name).bind read

/-- A field of a `#[serde(default)]`. -/
def defaulted {α : Type} (members : Members) (name : String) (read : Value → Option α)
    (default : α) : Option α :=
  match members.lookup name with
  | none => some default
  | some value => read value

/-- A reader of an `Option`: `null` is `None`. -/
def nullable {α : Type} (read : Value → Option α) : Value → Option (Option α)
  | .Null => some none
  | value => (read value).map some

/-- The value of an `Option`. -/
def orNull {α : Type} (write : α → Value) : Option α → Value
  | none => .Null
  | some a => write a

section fields

variable {α : Type} {members : Members} {value : Value} {read : Value → Option α} {default : α}

theorem required_cons_self : required ((name, value) :: members) name read = read value := by
  simp [required]

theorem required_cons_of_ne (h : name ≠ name') :
    required ((name', value) :: members) name read = required members name read := by
  rw [required, List.lookup_cons, beq_false_of_ne h, required]

theorem defaulted_cons_self :
    defaulted ((name, value) :: members) name read default = read value := by
  simp [defaulted]

theorem defaulted_cons_of_ne (h : name ≠ name') :
    defaulted ((name', value) :: members) name read default =
      defaulted members name read default := by
  rw [defaulted, List.lookup_cons, beq_false_of_ne h, defaulted]

end fields

/-! ## What is written is read back -/

theorem toInt_ofInt {z : Int} (hlow : -2 ^ 63 ≤ z) (hhigh : z < 2 ^ 64) :
    (Number.ofInt z).toInt = some z := by
  unfold Number.ofInt
  split
  · rename_i h
    have hnat : z.toNat < UInt64.size := by
      unfold UInt64.size
      omega
    rw [Number.toInt, UInt64.toNat_ofNat_of_lt' hnat, Int.toNat_of_nonneg h.1]
  · rw [if_pos (by omega), Number.toInt, Int64.toInt_ofInt_of_le hlow (by omega)]

theorem read_int_integer {lowest highest z : Int} (hlow : lowest ≤ z) (hhigh : z ≤ highest)
    (hlow' : -2 ^ 63 ≤ z) (hhigh' : z < 2 ^ 64) : read_int lowest highest (integer z) = some z := by
  rw [integer, read_int, toInt_ofInt hlow' hhigh']
  simp [hlow, hhigh]

theorem read_u16_integer (n : UInt16) : read_u16 (integer n.toNat) = some n := by
  have hlt := n.toNat_lt
  rw [read_u16, read_int_integer (by omega) (by omega) (by omega) (by omega)]
  simp

theorem read_u32_integer (n : UInt32) : read_u32 (integer n.toNat) = some n := by
  have hlt := n.toNat_lt
  rw [read_u32, read_int_integer (by omega) (by omega) (by omega) (by omega)]
  simp

theorem read_u64_integer (n : UInt64) : read_u64 (integer n.toNat) = some n := by
  have hlt := n.toNat_lt
  rw [read_u64, read_int_integer (by omega) (by omega) (by omega) (by omega)]
  simp

/-- A `u128` is read back when it is a `u64`. -/
theorem read_u128_integer {n : Nat} (h : n < 2 ^ 64) : read_u128 (integer n) = some n := by
  rw [read_u128, read_int_integer (by omega) (by omega) (by omega) (by omega)]
  simp

theorem read_i32_integer (n : Int32) : read_i32 (integer n.toInt) = some n := by
  have hlow := n.le_toInt
  have hhigh := n.toInt_lt
  rw [read_i32, read_int_integer (by omega) (by omega) (by omega) (by omega)]
  simp

theorem read_i64_integer (n : Int64) : read_i64 (integer n.toInt) = some n := by
  have hlow := n.le_toInt
  have hhigh := n.toInt_lt
  rw [read_i64, read_int_integer (by omega) (by omega) (by omega) (by omega)]
  simp

theorem nullable_orNull {α : Type} {read : Value → Option α} {write : α → Value}
    (hread : ∀ a, read (write a) = some a) (hwrite : ∀ a, write a ≠ .Null) (o : Option α) :
    nullable read (orNull write o) = some o := by
  cases o with
  | none => rfl
  | some a =>
    have hvalue := hwrite a
    unfold orNull nullable
    split
    · contradiction
    · rw [hread, Option.map_some]

end json
