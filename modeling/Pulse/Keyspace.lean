-- A Redis key with its expiry time. A key whose time has come is gone for
-- every command, also when nothing has deleted it yet.
import Mathlib.Tactic.Common

namespace keyspace

/-- A key: its value, and the time at which it expires when it has one. -/
structure Key (α : Type) where
  value : α
  expires_at : Option Nat
deriving DecidableEq, Repr

variable {α : Type}

/-- The value that a command finds at time `now`. -/
def get (now : Nat) (key : Option (Key α)) : Option α :=
  key.bind fun k => if k.expires_at.any (· ≤ now) then none else some k.value

/-- `PEXPIRE`: the key expires `ttl` from now. -/
def pexpire (now ttl : Nat) (k : Key α) : Key α := { k with expires_at := some (now + ttl) }

@[simp]
theorem get_none (now : Nat) : get now (none : Option (Key α)) = none := rfl

@[simp]
theorem get_persistent (now : Nat) (v : α) : get now (some ⟨v, none⟩) = some v := rfl

theorem get_expiring (now e : Nat) (v : α) :
    get now (some ⟨v, some e⟩) = if e ≤ now then none else some v := by
  simp [get]

variable {now later : Nat}

theorem get_of_lt {e : Nat} (v : α) (h : now < e) : get now (some ⟨v, some e⟩) = some v := by
  simp [get_expiring, Nat.not_le.mpr h]

variable {key : Option (Key α)}

theorem get_eq_some {v : α} :
    get now key = some v ↔
      ∃ k, key = some k ∧ k.value = v ∧ ∀ e, k.expires_at = some e → now < e := by
  constructor
  · intro h
    rcases key with _ | ⟨value, _ | e⟩
    · simp at h
    · simp only [get_persistent, Option.some.injEq] at h
      exact ⟨_, rfl, h, by simp⟩
    · rw [get_expiring] at h
      split at h
      · cases h
      · rename_i hlt
        simp only [Option.some.injEq] at h
        refine ⟨_, rfl, h, ?_⟩
        intro e' he'
        cases he'
        omega
  · rintro ⟨⟨value, _ | e⟩, rfl, rfl, hlt⟩
    · rfl
    · exact get_of_lt _ (hlt e rfl)

/-- A key that is there at `later` was there before. -/
theorem get_earlier {v : α} (h : now ≤ later) (hg : get later key = some v) :
    get now key = some v := by
  obtain ⟨k, hk, hv, hlt⟩ := get_eq_some.mp hg
  exact get_eq_some.mpr ⟨k, hk, hv, fun e he => by have := hlt e he; omega⟩

/-- A key that is gone stays gone. -/
theorem get_none_later (h : now ≤ later) (hg : get now key = none) : get later key = none := by
  cases hl : get later key with
  | none => rfl
  | some v =>
    rw [get_earlier h hl] at hg
    cases hg

end keyspace
