-- Readers of a byte string that go on from an index. A local reader looks at no
-- more than the bytes from its index to the index that it gives back: bytes
-- after them do not matter, and bytes before them only move the index. The
-- byte strings have at most `limit` bytes, and an error is just an error.
import Pulse.Checks

open checks

namespace readers

variable {ε α β : Type} {limit : Nat}

/-- What is read and the index after it. -/
abbrev Reader (ε α : Type) := List UInt8 → Nat → Except ε (α × Nat)

structure Local (limit : Nat) (read : Reader ε α) : Prop where
  extend : ∀ {bytes : List UInt8} {idx : Nat} {result : α × Nat} (more : List UInt8),
    read bytes idx = .ok result → read (bytes ++ more) idx = .ok result
  shift : ∀ (front bytes : List UInt8) (idx : Nat), (front ++ bytes).length ≤ limit →
    (read (front ++ bytes) (front.length + idx)).toOption =
      (read bytes idx).toOption.map fun result => (result.1, front.length + result.2)

theorem toOption_bind (x : Except ε α) (f : α → Except ε β) :
    (x >>= f).toOption = x.toOption.bind fun a => (f a).toOption := by
  cases x <;> rfl

variable {read : Reader ε α}

/-- A reader goes on where another one ended. -/
theorem Local.bind {next : α → Reader ε β} (h : Local limit read)
    (hnext : ∀ a, Local limit (next a)) :
    Local limit fun bytes idx => do
      let result ← read bytes idx
      next result.1 bytes result.2 where
  extend more hok := by
    obtain ⟨first, hread, hrest⟩ := bind_eq_ok.mp hok
    rw [h.extend more hread, ok_bind]
    exact (hnext first.1).extend more hrest
  shift front bytes idx hlimit := by
    rw [toOption_bind, toOption_bind, h.shift front bytes idx hlimit]
    cases (read bytes idx).toOption with
    | none => rfl
    | some first => exact (hnext first.1).shift front bytes first.2 hlimit

/-- What does not depend on the bytes. -/
theorem local_const (result : Except ε α) (f : α → β) :
    Local limit fun _ idx => do
      let a ← result
      return (f a, idx) where
  extend _ hok := hok
  shift front _ idx _ := by
    cases result with
    | error e => rfl
    | ok a => rfl

/-- The value of a reader is changed. -/
theorem Local.map (h : Local limit read) (f : α → β) :
    Local limit fun bytes idx => do
      let result ← read bytes idx
      return (f result.1, result.2) :=
  h.bind fun a => local_const (.ok a) f

/-- The value of a reader is turned down, or changed. -/
theorem Local.convert {γ : Type} (h : Local limit read) (g : α → Except ε γ) (f : γ → β) :
    Local limit fun bytes idx => do
      let result ← read bytes idx
      let c ← g result.1
      return (f c, result.2) :=
  h.bind fun a => local_const (g a) f

end readers
