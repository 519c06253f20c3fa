-- The search for a part of a text, from its start on. A part whose first
-- character does not come again in it cannot overlap with itself, so the first
-- place after a text without the part is where the part was put.
import Mathlib.Data.List.Infix
import Mathlib.Tactic.Common

namespace strings

/-- `str::find`: where the part comes first. -/
def find (part : List Char) : List Char → Option Nat
  | [] => if part = [] then some 0 else none
  | c :: cs => if part <+: c :: cs then some 0 else (find part cs).map (· + 1)

/-- `str::strip_prefix`. -/
def strip_start (start value : String) : Option String :=
  if start.toList <+: value.toList then some (String.ofList (value.toList.drop start.toList.length))
  else none

section search

variable {part a b : List Char}

theorem find_eq_none (h : ¬ part <:+: a) : find part a = none := by
  induction a with
  | nil =>
    have hpart : part ≠ [] := by
      rintro rfl
      exact h List.nil_infix
    rw [find, if_neg hpart]
  | cons c cs ih =>
    rw [List.infix_cons_iff, not_or] at h
    rw [find, if_neg h.1, ih h.2, Option.map_none]

/-- What is found lies in the text. -/
theorem find_le {index : Nat} (h : find part a = some index) : index + part.length ≤ a.length := by
  induction a generalizing index with
  | nil =>
    rw [find] at h
    split at h
    · rename_i hpart
      cases h
      simp [hpart]
    · cases h
  | cons c cs ih =>
    rw [find] at h
    split at h
    · rename_i hstart
      cases h
      rw [Nat.zero_add]
      exact hstart.length_le
    · obtain ⟨i, hi, rfl⟩ := Option.map_eq_some_iff.mp h
      have hle := ih hi
      rw [List.length_cons]
      omega

/-- A part with a first character of its own begins at its place, or already lies in the text
before. -/
theorem start_of_append {first : Char} {tail : List Char} (hfirst : first ∉ tail) (ha : a ≠ [])
    (h : first :: tail <+: a ++ (first :: tail ++ b)) : first :: tail <+: a := by
  by_cases hlength : (first :: tail).length ≤ a.length
  · exact List.prefix_of_prefix_length_le h (List.prefix_append _ _) hlength
  · -- the part reaches beyond the text, so its first character comes in its tail
    exfalso
    have hwithin : a <+: first :: tail :=
      List.prefix_of_prefix_length_le (List.prefix_append _ _) h (by omega)
    obtain ⟨rest, hrest⟩ := hwithin
    rw [← hrest, List.prefix_append_right_inj] at h
    have hne : rest ≠ [] := by
      rintro rfl
      rw [List.append_nil] at hrest
      rw [hrest] at hlength
      exact hlength (le_refl _)
    obtain ⟨c, rest', rfl⟩ := List.exists_cons_of_ne_nil hne
    obtain ⟨d, a', rfl⟩ := List.exists_cons_of_ne_nil ha
    rw [hrest, List.cons_append, List.cons_prefix_cons] at h
    rw [List.cons_append, List.cons.injEq] at hrest
    apply hfirst
    rw [← hrest.2, ← h.1]
    simp

theorem find_append {first : Char} {tail : List Char} (hfirst : first ∉ tail)
    (h : ¬ first :: tail <:+: a) :
    find (first :: tail) (a ++ (first :: tail ++ b)) = some a.length := by
  induction a with
  | nil => rw [List.nil_append, List.cons_append, find, if_pos (by simp)]; rfl
  | cons c cs ih =>
    rw [List.infix_cons_iff, not_or] at h
    have hstart : ¬ first :: tail <+: c :: (cs ++ (first :: tail ++ b)) := by
      intro hpart
      exact h.1 (start_of_append hfirst (List.cons_ne_nil _ _) hpart)
    rw [List.cons_append, find, if_neg hstart, ih h.2]
    rfl

end search

end strings
