-- Computations that keep a log of what they do, also when they fail.
import Pulse.Checks

open checks

namespace traces

structure Traced (Λ ε α : Type) where
  result : Except ε α
  log : Λ

variable {Λ ε α β : Type} [EmptyCollection Λ] [Append Λ]

/-- A result without a log. -/
def of (result : Except ε α) : Traced Λ ε α := ⟨result, ∅⟩

def note (log : Λ) : Traced Λ ε Unit := ⟨.ok (), log⟩

instance : Monad (Traced Λ ε) where
  pure a := of (.ok a)
  bind x f :=
    match x.result with
    | .error e => ⟨.error e, x.log⟩
    | .ok a => ⟨(f a).result, x.log ++ (f a).log⟩

omit [Append Λ] in
@[simp]
theorem result_of (result : Except ε α) : (of result : Traced Λ ε α).result = result := rfl

omit [EmptyCollection Λ] [Append Λ] in
@[simp]
theorem result_note (log : Λ) : (note log : Traced Λ ε Unit).result = .ok () := rfl

@[simp]
theorem result_pure (a : α) : (pure a : Traced Λ ε α).result = .ok a := rfl

@[simp]
theorem result_bind (x : Traced Λ ε α) (f : α → Traced Λ ε β) :
    (x >>= f).result = x.result >>= fun a => (f a).result := by
  change (match x.result with
    | .error e => (⟨.error e, x.log⟩ : Traced Λ ε β)
    | .ok a => ⟨(f a).result, x.log ++ (f a).log⟩).result = _
  cases x.result <;> rfl

variable {x : Traced Λ ε α}

theorem log_bind_error {e : ε} (h : x.result = .error e) (f : α → Traced Λ ε β) :
    (x >>= f).log = x.log := by
  change (match x.result with
    | .error e => (⟨.error e, x.log⟩ : Traced Λ ε β)
    | .ok a => ⟨(f a).result, x.log ++ (f a).log⟩).log = _
  rw [h]

theorem log_bind_ok {a : α} (h : x.result = .ok a) (f : α → Traced Λ ε β) :
    (x >>= f).log = x.log ++ (f a).log := by
  change (match x.result with
    | .error e => (⟨.error e, x.log⟩ : Traced Λ ε β)
    | .ok a => ⟨(f a).result, x.log ++ (f a).log⟩).log = _
  rw [h]

/-- A property of logs that goes from the parts to the whole. -/
structure Additive (P : Λ → Prop) : Prop where
  empty : P ∅
  append : ∀ {a b : Λ}, P a → P b → P (a ++ b)

/-- What the logs of the two parts have, the log of the whole has. -/
theorem Additive.bind {P : Λ → Prop} (hP : Additive P) {f : α → Traced Λ ε β} (hx : P x.log)
    (hf : ∀ a, x.result = .ok a → P (f a).log) : P (x >>= f).log := by
  cases h : x.result with
  | error e =>
    rw [log_bind_error h]
    exact hx
  | ok a =>
    rw [log_bind_ok h]
    exact hP.append hx (hf a h)

end traces
