-- A system that takes one event after another: an event is allowed in a
-- state or not, and leads to one next state. What an event leaves open, a
-- time or the answer of another party, is part of the event.
import Mathlib.Tactic.Common

namespace systems

structure System (σ ε : Type) where
  initial : σ → Prop
  allowed : σ → ε → Prop
  next : σ → ε → σ

variable {σ ε : Type} {S : System σ ε}

/-- The events `es` lead from the first state to the second. -/
inductive Run (S : System σ ε) : σ → List ε → σ → Prop
  | done (s : σ) : Run S s [] s
  | step {s t : σ} {es : List ε} {e : ε} :
      Run S s es t → S.allowed t e → Run S s (es ++ [e]) (S.next t e)

def Reachable (S : System σ ε) (t : σ) : Prop := ∃ s es, S.initial s ∧ Run S s es t

variable {s t : σ}

theorem Reachable.initial (h : S.initial s) : Reachable S s := ⟨s, [], h, .done s⟩

theorem Reachable.step {e : ε} (h : Reachable S s) (ha : S.allowed s e) :
    Reachable S (S.next s e) := by
  obtain ⟨s₀, es, h₀, hr⟩ := h
  exact ⟨s₀, es ++ [e], h₀, hr.step ha⟩

variable {es : List ε}

theorem Reachable.run (h : Reachable S s) (hr : Run S s es t) : Reachable S t := by
  induction hr with
  | done => exact h
  | step _ ha ih => exact ih.step ha

theorem Run.trans {u : σ} {fs : List ε} (h₁ : Run S s es t) (h₂ : Run S t fs u) :
    Run S s (es ++ fs) u := by
  induction h₂ with
  | done => simpa using h₁
  | step _ ha ih => rw [← List.append_assoc]; exact ih.step ha

/-- Each event of the list is allowed when the ones before it are done. -/
def Allowed (S : System σ ε) : σ → List ε → Prop
  | _, [] => True
  | s, e :: es => S.allowed s e ∧ Allowed S (S.next s e) es

instance decidableAllowed [∀ s e, Decidable (S.allowed s e)] :
    (s : σ) → (es : List ε) → Decidable (Allowed S s es)
  | _, [] => inferInstanceAs (Decidable True)
  | s, e :: es =>
    have := decidableAllowed (S.next s e) es
    inferInstanceAs (Decidable (_ ∧ _))

theorem Run.foldl (ha : Allowed S s es) : Run S s es (es.foldl S.next s) := by
  induction es generalizing s with
  | nil => exact .done s
  | cons e es ih => exact ((Run.done s).step ha.1).trans (ih ha.2)

/-- Events that are allowed in every state may come in any order. -/
theorem Allowed.of_forall (h : ∀ e ∈ es, ∀ s, S.allowed s e) (s : σ) : Allowed S s es := by
  induction es generalizing s with
  | nil => trivial
  | cons e es ih =>
    exact ⟨h e List.mem_cons_self s, ih (fun e he => h e (List.mem_cons_of_mem _ he)) _⟩

theorem Reachable.foldl (h : Reachable S s) (ha : Allowed S s es) :
    Reachable S (es.foldl S.next s) :=
  h.run (.foldl ha)

/-- What the initial states have and every allowed event keeps holds in every reachable state. -/
theorem Reachable.invariant {I : σ → Prop} (h₀ : ∀ s, S.initial s → I s)
    (hstep : ∀ s e, I s → S.allowed s e → I (S.next s e)) (h : Reachable S t) : I t := by
  obtain ⟨s, es, hs, hr⟩ := h
  induction hr with
  | done => exact h₀ s hs
  | step _ ha ih => exact hstep _ _ ih ha

/-- The same with what is known of reachable states. -/
theorem Reachable.induct {P : σ → Prop} (h₀ : ∀ s, S.initial s → P s)
    (hstep : ∀ s e, Reachable S s → P s → S.allowed s e → P (S.next s e)) (h : Reachable S t) :
    P t := by
  obtain ⟨s, es, hs, hr⟩ := h
  induction hr with
  | done => exact h₀ s hs
  | step hr ha ih => exact hstep _ _ ⟨s, _, hs, hr⟩ ih ha

/-- The same for what speaks of the events so far. -/
theorem Run.invariant {I : List ε → σ → Prop} (h₀ : I [] s)
    (hstep : ∀ es s e, I es s → S.allowed s e → I (es ++ [e]) (S.next s e)) (hr : Run S s es t) :
    I es t := by
  induction hr with
  | done => exact h₀
  | step _ ha ih => exact hstep _ _ _ ih ha

/-- What every allowed event keeps, in reachable states, holds to the end of a run. -/
theorem Run.stable {P : σ → Prop}
    (hstep : ∀ s e, Reachable S s → P s → S.allowed s e → P (S.next s e)) (hr : Run S s es t)
    (hs : Reachable S s) (hp : P s) : P t := by
  induction hr with
  | done => exact hp
  | step hr ha ih => exact hstep _ _ (hs.run hr) ih ha

end systems
