-- Tables under keys, as the hash maps of Rust: a new entry has a default value,
-- and each entry of one table can be merged into another table.
import Mathlib.Data.List.AList
import Mathlib.Tactic.Common

namespace tables

variable {κ β : Type} [DecidableEq κ]

abbrev Table (κ β : Type) := AList fun _ : κ => β

/-- `*m.entry(k).or_insert(new) = f(..)`. -/
def entry (m : Table κ β) (k : κ) (new : β) (f : β → β) : Table κ β :=
  m.insert k (f ((m.lookup k).getD new))

/-- Each entry of `other` is merged into `m`. -/
def merge (m other : Table κ β) (new : β) (f : β → β → β) : Table κ β :=
  other.entries.foldl (fun m e => entry m e.1 new (f · e.2)) m

variable {m : Table κ β} {k : κ} {new : β}

@[simp]
theorem lookup_entry (f : β → β) : (entry m k new f).lookup k = some (f ((m.lookup k).getD new)) :=
  AList.lookup_insert m

theorem lookup_entry_of_ne {j : κ} (h : j ≠ k) (f : β → β) :
    (entry m k new f).lookup j = m.lookup j :=
  AList.lookup_insert_ne h

variable (f : β → β → β)

theorem lookup_foldl_of_notMem {entries : List ((_ : κ) × β)} (h : k ∉ entries.keys) :
    (entries.foldl (fun m e => entry m e.1 new (f · e.2)) m).lookup k = m.lookup k := by
  induction entries generalizing m with
  | nil => rfl
  | cons e entries ih =>
    rw [List.keys_cons, List.mem_cons, not_or] at h
    rw [List.foldl_cons, ih h.2, lookup_entry_of_ne h.1]

/-- A key that the other table does not have keeps its value. -/
theorem lookup_merge_of_none {other : Table κ β} (h : other.lookup k = none) :
    (merge m other new f).lookup k = m.lookup k :=
  lookup_foldl_of_notMem f (AList.lookup_eq_none.mp h)

theorem lookup_merge_of_some {other : Table κ β} {b : β} (h : other.lookup k = some b) :
    (merge m other new f).lookup k = some (f ((m.lookup k).getD new) b) := by
  obtain ⟨entries, hnodup⟩ := other
  have hmem : ⟨k, b⟩ ∈ entries := AList.mem_lookup_iff.mp h
  clear h
  unfold merge
  dsimp only
  induction entries generalizing m with
  | nil => cases hmem
  | cons e entries ih =>
    rw [List.nodupKeys_cons] at hnodup
    rw [List.foldl_cons]
    rcases List.mem_cons.mp hmem with rfl | hmem
    · -- the key comes once
      rw [lookup_foldl_of_notMem f hnodup.1, lookup_entry]
    · have hne : k ≠ e.1 := by
        intro heq
        rw [heq] at hmem
        exact hnodup.1 (List.mem_keys.mpr ⟨b, hmem⟩)
      rw [ih hnodup.2 hmem, lookup_entry_of_ne hne]

end tables
