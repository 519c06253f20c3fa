-- A validator is a chain of checks: each one rejects the value with its own
-- error or lets the next one look. A value is accepted when no check rejects.
import Mathlib.Data.List.Forall2
import Mathlib.Tactic.Common

namespace checks

variable {ε α β : Type}

/-- One check: the error `e` when `bad` holds. -/
def rejectIf (bad : Prop) [Decidable bad] (e : ε) : Except ε Unit :=
  if bad then .error e else .ok ()

variable {bad : Prop} {e : ε}

@[simp]
theorem rejectIf_eq_ok [Decidable bad] {u : Unit} : rejectIf bad e = .ok u ↔ ¬ bad := by
  unfold rejectIf
  split <;> simp_all

theorem rejectIf_pos [Decidable bad] (e : ε) (h : bad) : rejectIf bad e = .error e :=
  if_pos h

theorem rejectIf_neg [Decidable bad] (e : ε) (h : ¬ bad) : rejectIf bad e = .ok () :=
  if_neg h

variable {f : α → Except ε β} {x : Except ε α} {b : β}

/-- What an accepted chain says: the first check accepts, and the rest does. -/
theorem bind_eq_ok : (x >>= f) = .ok b ↔ ∃ a, x = .ok a ∧ f a = .ok b := by
  cases x with
  | error e => simp [bind, Except.bind]
  | ok a => simp [bind, Except.bind]

/-- The same for a check that gives nothing to the rest. -/
theorem seq_eq_ok {x : Except ε Unit} {y : Except ε β} :
    (x >>= fun _ => y) = .ok b ↔ x = .ok () ∧ y = .ok b := by
  rw [bind_eq_ok]
  constructor
  · rintro ⟨⟨⟩, hx, hy⟩
    exact ⟨hx, hy⟩
  · rintro ⟨hx, hy⟩
    exact ⟨(), hx, hy⟩

@[simp]
theorem ok_bind (a : α) (f : α → Except ε β) : (Except.ok a >>= f) = f a := rfl

@[simp]
theorem error_bind (e : ε) (f : α → Except ε β) : (Except.error e >>= f) = .error e := rfl

/-- The value of an option, or an error when there is none. -/
def okOr (o : Option α) (e : ε) : Except ε α :=
  match o with
  | some a => .ok a
  | none => .error e

@[simp]
theorem okOr_eq_ok {o : Option α} {a : α} : okOr o e = .ok a ↔ o = some a := by
  unfold okOr
  split <;> simp_all

theorem isOk_iff : x.isOk = true ↔ ∃ a, x = .ok a := by
  cases x with
  | ok a => exact ⟨fun _ => ⟨a, rfl⟩, fun _ => rfl⟩
  | error e => simp [Except.isOk, Except.toBool]

/-- `?` with a conversion of the error. -/
@[simp]
theorem mapError_eq_ok {ε' : Type} {f : ε → ε'} {a : α} : x.mapError f = .ok a ↔ x = .ok a := by
  cases x <;> simp [Except.mapError]

variable {l : List α}

/-- A loop of checks accepts when each check does. -/
theorem forM_eq_ok {f : α → Except ε PUnit} : l.forM f = .ok () ↔ ∀ a ∈ l, f a = .ok () := by
  induction l with
  | nil => exact ⟨fun _ a ha => absurd ha List.not_mem_nil, fun _ => rfl⟩
  | cons a l ih =>
    have hcons : (a :: l).forM f = (f a >>= fun _ => l.forM f) := rfl
    rw [hcons, seq_eq_ok, ih, List.forall_mem_cons]

/-- A loop that collects its results. -/
theorem mapM_eq_ok {r : List β} : l.mapM f = .ok r ↔ List.Forall₂ (fun a b => f a = .ok b) l r := by
  induction l generalizing r with
  | nil =>
    rw [List.mapM_nil, List.forall₂_nil_left_iff]
    constructor
    · rintro ⟨⟩
      rfl
    · rintro rfl
      rfl
  | cons a l ih =>
    rw [List.mapM_cons, List.forall₂_cons_left_iff]
    constructor
    · intro h
      obtain ⟨b, hb, h⟩ := bind_eq_ok.mp h
      obtain ⟨bs, hbs, h⟩ := bind_eq_ok.mp h
      cases h
      exact ⟨b, bs, hb, ih.mp hbs, rfl⟩
    · rintro ⟨b, bs, hb, hbs, rfl⟩
      rw [hb, ih.mpr hbs]
      rfl

theorem mem_of_mapM {r : List β} (h : l.mapM f = .ok r) (hb : b ∈ r) : ∃ a ∈ l, f a = .ok b := by
  rw [mapM_eq_ok] at h
  induction h with
  | nil => cases hb
  | @cons a c l r hac _ ih =>
    rcases List.mem_cons.mp hb with rfl | hb
    · exact ⟨a, List.mem_cons_self, hac⟩
    · obtain ⟨a', ha', hf⟩ := ih hb
      exact ⟨a', List.mem_cons_of_mem a ha', hf⟩

theorem exists_of_mapM {r : List β} {a : α} (h : l.mapM f = .ok r) (ha : a ∈ l) :
    ∃ b ∈ r, f a = .ok b := by
  rw [mapM_eq_ok] at h
  induction h with
  | nil => cases ha
  | @cons c b l r hcb _ ih =>
    rcases List.mem_cons.mp ha with rfl | ha
    · exact ⟨b, List.mem_cons_self, hcb⟩
    · obtain ⟨b', hb', hf⟩ := ih ha
      exact ⟨b', List.mem_cons_of_mem b hb', hf⟩

theorem mapM_congr {g : α → Except ε β} (h : ∀ a ∈ l, f a = g a) : l.mapM f = l.mapM g := by
  induction l with
  | nil => rfl
  | cons a l ih =>
    rw [List.mapM_cons, List.mapM_cons, h a List.mem_cons_self,
      ih fun b hb => h b (List.mem_cons_of_mem a hb)]

/-- What every step of a loop keeps holds of its result. -/
theorem foldlM_invariant {f : β → α → Except ε β} (I : β → Prop) {b' : β}
    (hstep : ∀ b a b', a ∈ l → I b → f b a = .ok b' → I b') (hb : I b) (h : l.foldlM f b = .ok b') :
    I b' := by
  induction l generalizing b with
  | nil =>
    cases h
    exact hb
  | cons a l ih =>
    rw [List.foldlM_cons, bind_eq_ok] at h
    obtain ⟨c, hc, hrest⟩ := h
    apply ih
    · intro b a' b' ha'
      exact hstep b a' b' (List.mem_cons_of_mem a ha')
    · exact hstep b a c List.mem_cons_self hb hc
    · exact hrest

/-! ## The errors of a chain -/

/-- Every error of the chain has `P`. -/
def FailsOnly (P : ε → Prop) (x : Except ε α) : Prop := ∀ e, x = .error e → P e

namespace FailsOnly

variable {P : ε → Prop}

theorem ok (a : α) : FailsOnly P (.ok a : Except ε α) := by
  intro e he
  cases he

theorem error (h : P e) : FailsOnly P (.error e : Except ε α) := by
  intro e' he'
  cases he'
  exact h

theorem of_exists {Q : α → Prop} (h : ∃ a, x = .ok a ∧ Q a) : FailsOnly P x := by
  obtain ⟨a, hok, -⟩ := h
  rw [hok]
  exact ok a

theorem bind (hx : FailsOnly P x) (hf : ∀ a, x = .ok a → FailsOnly P (f a)) :
    FailsOnly P (x >>= f) := by
  cases h : x with
  | error e =>
    rw [error_bind]
    exact error (hx e h)
  | ok a =>
    rw [ok_bind]
    exact hf a h

theorem rejectIf [Decidable bad] (h : bad → P e) : FailsOnly P (rejectIf bad e) := by
  unfold checks.rejectIf
  split
  · rename_i hbad
    exact error (h hbad)
  · exact ok ()

theorem okOr {o : Option α} (h : o = none → P e) : FailsOnly P (okOr o e) := by
  cases o with
  | none => exact error (h rfl)
  | some a => exact ok a

theorem forM {f : α → Except ε PUnit} (h : ∀ a ∈ l, FailsOnly P (f a)) :
    FailsOnly P (l.forM f) := by
  induction l with
  | nil => exact ok _
  | cons a l ih =>
    change FailsOnly P (f a >>= fun _ => l.forM f)
    apply bind (h a List.mem_cons_self)
    intro _ _
    exact ih fun b hb => h b (List.mem_cons_of_mem a hb)

theorem mapM (h : ∀ a ∈ l, FailsOnly P (f a)) : FailsOnly P (l.mapM f) := by
  induction l with
  | nil => exact ok _
  | cons a l ih =>
    rw [List.mapM_cons]
    refine bind (h a List.mem_cons_self) fun _ _ => bind ?_ fun _ _ => ok _
    exact ih fun b hb => h b (List.mem_cons_of_mem a hb)

/-- A loop whose steps keep `I` on what is left of the list. -/
theorem foldlM {f : β → α → Except ε β} (I : List α → β → Prop)
    (hstep : ∀ {a l b}, I (a :: l) b → FailsOnly P (f b a) ∧ ∀ b', f b a = .ok b' → I l b')
    (hb : I l b) : FailsOnly P (l.foldlM f b) := by
  induction l generalizing b with
  | nil => exact ok b
  | cons a l ih =>
    rw [List.foldlM_cons]
    obtain ⟨hfails, hnext⟩ := hstep hb
    exact bind hfails fun b' hb' => ih (hnext b' hb')

end FailsOnly

end checks
