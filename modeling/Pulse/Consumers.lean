-- Consumers of a topic. Each partition is a log with one committed offset for
-- the whole group; a session reads a partition in order from there and keeps
-- what it has read in a queue. A commit is cumulative: it speaks of every
-- record below its offset. A node works on the oldest record of its session.
import Mathlib.Logic.Function.Basic
import Mathlib.Tactic.Common

namespace consumers

/-! ## Topics and sessions -/

/-- A record that a session has read, and the epoch of the session when it was queued. -/
structure Delivery (π μ : Type) where
  partition : π
  offset : Nat
  message : μ
  epoch : Nat

/-- A member of the group. The epoch counts the changes of its assignment. -/
structure Session (π μ : Type) where
  epoch : Nat
  position : π → Option Nat
  fetched : Option (Delivery π μ)
  queue : List (Delivery π μ)

/-- The requests to commit that were sent, and those that the broker has executed. -/
structure Topic (ν π μ : Type) where
  log : π → List μ
  committed : π → Nat
  session : ν → Session π μ
  requests : List (π × Nat)
  landed : List (π × Nat)

variable {ν π μ : Type} [DecidableEq ν] [DecidableEq π]

namespace Session

/-- A session without partitions. -/
def closed (epoch : Nat) : Session π μ := ⟨epoch, fun _ => none, none, []⟩

/-- What the session has read and not finished, oldest first. -/
def deliveries (s : Session π μ) : List (Delivery π μ) := s.queue ++ s.fetched.toList

def seen (s : Session π μ) : List (π × Nat) := s.deliveries.map fun d => (d.partition, d.offset)

end Session

/-- What happens between the broker and the sessions: a record is appended, a partition is assigned
to a session or taken from it, a session reads the next record and puts it into its queue, and a
request to commit is executed, at any time after it was sent. -/
inductive Move (ν π μ : Type)
  | append (partition : π) (message : μ)
  | assign (node : ν) (partition : π)
  | revoke (node : ν) (partition : π)
  | fetch (node : ν) (partition : π)
  | enqueue (node : ν)
  | land (partition : π) (offset : Nat)

namespace Topic

def setSession (t : Topic ν π μ) (node : ν) (s : Session π μ) : Topic ν π μ :=
  { t with session := Function.update t.session node s }

/-- The next record at the position of the session. -/
def next (t : Topic ν π μ) (node : ν) (partition : π) : Option (Delivery π μ) := do
  let offset ← (t.session node).position partition
  let message ← (t.log partition)[offset]?
  return ⟨partition, offset, message, (t.session node).epoch⟩

def move (t : Topic ν π μ) : Move ν π μ → Topic ν π μ
  | .append partition message =>
    { t with log := Function.update t.log partition (t.log partition ++ [message]) }
  | .assign node partition =>
    let s := t.session node
    t.setSession node { s with
      epoch := s.epoch + 1
      position := Function.update s.position partition (some (t.committed partition)) }
  | .revoke node partition =>
    let s := t.session node
    t.setSession node { s with
      epoch := s.epoch + 1
      position := Function.update s.position partition none }
  | .fetch node partition =>
    let s := t.session node
    match s.fetched, t.next node partition with
    | none, some delivery =>
      t.setSession node { s with
        position := Function.update s.position partition (some (delivery.offset + 1))
        fetched := some delivery }
    | _, _ => t
  | .enqueue node =>
    let s := t.session node
    match s.fetched with
    | some delivery =>
      -- the epoch is read after the record
      t.setSession node { s with
        fetched := none
        queue := s.queue ++ [{ delivery with epoch := s.epoch }] }
    | none => t
  | .land partition offset =>
    if (partition, offset) ∈ t.requests then
      { t with
        committed := Function.update t.committed partition offset
        landed := (partition, offset) :: t.landed }
    else t

/-- A request to commit the records up to this one. -/
def request (t : Topic ν π μ) (delivery : Delivery π μ) : Topic ν π μ :=
  { t with requests := (delivery.partition, delivery.offset + 1) :: t.requests }

/-- The oldest record of the session is done. -/
def finish (t : Topic ν π μ) (node : ν) : Topic ν π μ :=
  let s := t.session node
  t.setSession node { s with queue := s.queue.tail }

/-- The session ends, and what it has read is forgotten. -/
def stop (t : Topic ν π μ) (node : ν) : Topic ν π μ :=
  t.setSession node (.closed (t.session node).epoch)

end Topic

/-! ## What is committed is settled -/

/-- Each record of the list comes after every record below it that is not settled. -/
def InOrder (settled : π → Nat → Prop) (l : List (π × Nat)) : Prop :=
  ∀ front q back, l = front ++ q :: back → ∀ o < q.2, settled q.1 o ∨ (q.1, o) ∈ front

/-- Commits and requests speak of settled records only, and a session reads in order. -/
structure Kept (settled : π → Nat → Prop) (t : Topic ν π μ) : Prop where
  committed : ∀ p, ∀ o < t.committed p, settled p o
  requests : ∀ q ∈ t.requests, ∀ o < q.2, settled q.1 o
  ordered : ∀ n, InOrder settled (t.session n).seen
  positions : ∀ n p position, (t.session n).position p = some position →
    ∀ o < position, settled p o ∨ (p, o) ∈ (t.session n).seen
  logged : ∀ n, ∀ d ∈ (t.session n).deliveries, (t.log d.partition)[d.offset]? = some d.message

section order

variable {settled settled' : π → Nat → Prop} {l : List (π × Nat)} {q : π × Nat}

omit [DecidableEq π]

theorem InOrder.nil : InOrder settled [] := by
  intro front q back h
  simp at h

theorem InOrder.mono (h : InOrder settled l) (hle : ∀ p o, settled p o → settled' p o) :
    InOrder settled' l := by
  intro front q back heq o ho
  rcases h front q back heq o ho with hsettled | hmem
  · exact .inl (hle _ _ hsettled)
  · exact .inr hmem

theorem InOrder.concat (h : InOrder settled l) (hq : ∀ o < q.2, settled q.1 o ∨ (q.1, o) ∈ l) :
    InOrder settled (l ++ [q]) := by
  intro front x back heq o ho
  rcases List.append_eq_append_iff.mp heq with ⟨mid, rfl, hrest⟩ | ⟨mid, rfl, hrest⟩
  · -- `x` stands at the end
    cases mid with
    | nil =>
      cases hrest
      simpa using hq o ho
    | cons y mid => simp at hrest
  · cases mid with
    | nil =>
      simp only [List.nil_append, List.cons.injEq] at hrest
      obtain ⟨rfl, -⟩ := hrest
      simpa using hq o ho
    | cons y mid =>
      simp only [List.cons_append, List.cons.injEq] at hrest
      obtain ⟨rfl, -⟩ := hrest
      exact h front x mid rfl o ho

/-- A record that is settled may leave the front of the list. -/
theorem InOrder.tail (h : InOrder settled (q :: l)) (hq : settled q.1 q.2) : InOrder settled l := by
  intro front x back heq o ho
  rcases h (q :: front) x back (by rw [heq]; rfl) o ho with hsettled | hmem
  · exact .inl hsettled
  · rcases List.mem_cons.mp hmem with heq | hmem
    · left
      rw [← heq] at hq
      exact hq
    · exact .inr hmem

theorem InOrder.head (h : InOrder settled (q :: l)) : ∀ o < q.2, settled q.1 o := by
  intro o ho
  exact (h [] q l rfl o ho).resolve_right (by simp)

end order

section kept

variable {settled settled' : π → Nat → Prop} {t : Topic ν π μ} {n : ν} {p : π} {d : Delivery π μ}

omit [DecidableEq π] in
theorem Topic.session_setSession (t : Topic ν π μ) (n : ν) (s : Session π μ) (n' : ν) :
    (t.setSession n s).session n' = if n' = n then s else t.session n' := by
  unfold setSession
  by_cases h : n' = n
  · subst h
    simp
  · simp [h]

/-- A record of a log stays where it is. -/
theorem Topic.log_move (t : Topic ν π μ) (m : Move ν π μ) {o : Nat} {message : μ}
    (h : (t.log p)[o]? = some message) : ((t.move m).log p)[o]? = some message := by
  cases m with
  | append partition appended =>
    by_cases hp : p = partition
    · subst hp
      simp only [move, Function.update_self]
      exact List.getElem?_append_left (List.getElem?_eq_some_iff.mp h).1 ▸ h
    · simpa [move, hp] using h
  | assign | revoke => exact h
  | fetch | enqueue | land =>
    simp only [move]
    split <;> exact h

namespace Kept

omit [DecidableEq ν] [DecidableEq π] in
/-- Nothing is committed and no session is open. -/
theorem start (log : π → List μ) (epoch : Nat) :
    Kept settled (⟨log, fun _ => 0, fun _ => .closed epoch, [], []⟩ : Topic ν π μ) where
  committed := fun _ o ho => absurd ho (Nat.not_lt_zero o)
  requests := by simp
  ordered := fun _ => .nil
  positions := by simp [Session.closed]
  logged := by simp [Session.closed, Session.deliveries]

section

variable (hk : Kept settled t)
include hk

omit [DecidableEq ν] [DecidableEq π] in
theorem mono (hle : ∀ p o, settled p o → settled' p o) : Kept settled' t where
  committed := fun p o ho => hle _ _ (hk.committed p o ho)
  requests := fun q hq o ho => hle _ _ (hk.requests q hq o ho)
  ordered := fun n => (hk.ordered n).mono hle
  positions := fun n p position hpos o ho =>
    (hk.positions n p position hpos o ho).imp_left (hle _ _)
  logged := hk.logged

omit [DecidableEq π] in
/-- Only the session of one node changes. -/
theorem setSession {s : Session π μ} (hordered : InOrder settled s.seen)
    (hpositions : ∀ p position, s.position p = some position →
      ∀ o < position, settled p o ∨ (p, o) ∈ s.seen)
    (hlogged : ∀ d ∈ s.deliveries, (t.log d.partition)[d.offset]? = some d.message) :
    Kept settled (t.setSession n s) where
  committed := hk.committed
  requests := hk.requests
  ordered := by
    intro n'
    rw [Topic.session_setSession]
    split
    · exact hordered
    · exact hk.ordered n'
  positions := by
    intro n'
    rw [Topic.session_setSession]
    split
    · exact hpositions
    · exact hk.positions n'
  logged := by
    intro n'
    rw [Topic.session_setSession]
    split
    · exact hlogged
    · exact hk.logged n'

omit [DecidableEq π] in
theorem stop (n : ν) : Kept settled (t.stop n) := by
  apply hk.setSession InOrder.nil
  · intro p position h
    cases h
  · intro d hd
    cases hd

theorem assign (n : ν) (p : π) : Kept settled (t.move (.assign n p)) := by
  refine hk.setSession ?_ ?_ ?_
  · exact hk.ordered n
  · intro p' position hpos
    by_cases hp : p' = p
    · subst hp
      simp only [Function.update_self, Option.some.injEq] at hpos
      subst hpos
      exact fun o ho => .inl (hk.committed p' o ho)
    · simp only [Function.update_of_ne hp] at hpos
      exact hk.positions n p' position hpos
  · exact hk.logged n

theorem revoke (n : ν) (p : π) : Kept settled (t.move (.revoke n p)) := by
  refine hk.setSession ?_ ?_ ?_
  · exact hk.ordered n
  · intro p' position hpos
    by_cases hp : p' = p
    · subst hp
      simp at hpos
    · simp only [Function.update_of_ne hp] at hpos
      exact hk.positions n p' position hpos
  · exact hk.logged n

/-- The next record of a session comes after those that it has read. -/
theorem fetch (n : ν) (p : π) : Kept settled (t.move (.fetch n p)) := by
  simp only [Topic.move]
  split
  · rename_i delivery hnone hnext
    simp only [Topic.next, Option.bind_eq_bind, Option.bind_eq_some_iff] at hnext
    obtain ⟨offset, hpos, message, hlog, hd⟩ := hnext
    cases hd
    have hbelow := hk.positions n p offset hpos
    have hseen : ∀ position : π → Option Nat, ({ t.session n with
        position := position
        fetched := some ⟨p, offset, message, (t.session n).epoch⟩ } : Session π μ).seen =
          (t.session n).seen ++ [(p, offset)] := by
      intro position
      simp [Session.seen, Session.deliveries, hnone]
    apply hk.setSession
    · rw [hseen]
      exact (hk.ordered n).concat hbelow
    · intro p' position hpos' o ho
      rw [hseen, List.mem_append]
      by_cases hp : p' = p
      · subst hp
        simp only [Function.update_self, Option.some.injEq] at hpos'
        by_cases heq : o = offset
        · subst heq
          exact .inr (.inr List.mem_cons_self)
        · exact (hbelow o (by omega)).imp_right .inl
      · simp only [Function.update_of_ne hp] at hpos'
        exact (hk.positions n p' position hpos' o ho).imp_right .inl
    · intro d hd
      simp only [Session.deliveries, Option.toList_some, List.mem_append, List.mem_singleton] at hd
      rcases hd with hd | rfl
      · exact hk.logged n d (List.mem_append_left _ hd)
      · exact hlog
  · exact hk

/-- A record keeps its place when it is put into the queue. -/
theorem enqueue (n : ν) : Kept settled (t.move (.enqueue n)) := by
  simp only [Topic.move]
  split
  · rename_i delivery hfetched
    have hseen : ({ t.session n with
        fetched := none
        queue := (t.session n).queue ++ [{ delivery with epoch := (t.session n).epoch }] } :
          Session π μ).seen = (t.session n).seen := by
      simp [Session.seen, Session.deliveries, hfetched]
    have hdelivery := hk.logged n delivery (by simp [Session.deliveries, hfetched])
    apply hk.setSession
    · rw [hseen]
      exact hk.ordered n
    · intro p position hpos
      rw [hseen]
      exact hk.positions n p position hpos
    · intro d hd
      simp only [Session.deliveries, Option.toList_none, List.append_nil, List.mem_append,
        List.mem_singleton] at hd
      rcases hd with hd | rfl
      · exact hk.logged n d (List.mem_append_left _ hd)
      · exact hdelivery
  · exact hk

theorem land (p : π) (offset : Nat) : Kept settled (t.move (.land p offset)) := by
  simp only [Topic.move]
  split
  · rename_i hrequest
    refine { hk with committed := ?_ }
    intro p' o ho
    by_cases hp : p' = p
    · subst hp
      simp only [Function.update_self] at ho
      exact hk.requests _ hrequest o ho
    · simp only [Function.update_of_ne hp] at ho
      exact hk.committed p' o ho
  · exact hk

theorem append (p : π) (message : μ) : Kept settled (t.move (.append p message)) :=
  { hk with logged := fun n d hd => t.log_move (.append p message) (hk.logged n d hd) }

/-- What the broker and the sessions do keeps it all. -/
theorem move (m : Move ν π μ) : Kept settled (t.move m) := by
  cases m with
  | append p message => exact hk.append p message
  | assign n p => exact hk.assign n p
  | revoke n p => exact hk.revoke n p
  | fetch n p => exact hk.fetch n p
  | enqueue n => exact hk.enqueue n
  | land p offset => exact hk.land p offset

end

variable {rest : List (Delivery π μ)}

omit [DecidableEq ν] [DecidableEq π] in
theorem head (hk : Kept settled t) (hqueue : (t.session n).queue = d :: rest) :
    ∀ o < d.offset, settled d.partition o := by
  have hordered := hk.ordered n
  rw [Session.seen, Session.deliveries, hqueue] at hordered
  exact hordered.head

omit [DecidableEq ν] [DecidableEq π] in
/-- A request for a settled record at the front of a queue speaks of settled records. -/
theorem request (hk : Kept settled t) (hqueue : (t.session n).queue = d :: rest)
    (hd : settled d.partition d.offset) : Kept settled (t.request d) := by
  refine { hk with requests := ?_ }
  intro q hq o ho
  rcases List.mem_cons.mp hq with rfl | hq
  · by_cases heq : o = d.offset
    · subst heq
      exact hd
    · exact hk.head hqueue o (by simp only at ho; omega)
  · exact hk.requests q hq o ho

omit [DecidableEq π] in
/-- A settled record may leave the front of a queue. -/
theorem finish (hk : Kept settled t) (hqueue : (t.session n).queue = d :: rest)
    (hd : settled d.partition d.offset) : Kept settled (t.finish n) := by
  have hseen : (t.session n).seen = (d.partition, d.offset) ::
      ({ t.session n with queue := (t.session n).queue.tail } : Session π μ).seen := by
    simp [Session.seen, Session.deliveries, hqueue]
  have hordered := hk.ordered n
  rw [hseen] at hordered
  apply hk.setSession (hordered.tail hd)
  · intro p position hpos o ho
    rcases hk.positions n p position hpos o ho with hsettled | hmem
    · exact .inl hsettled
    · rw [hseen] at hmem
      rcases List.mem_cons.mp hmem with heq | hmem
      · cases heq
        exact .inl hd
      · exact .inr hmem
  · intro e he
    apply hk.logged n e
    rw [Session.deliveries, hqueue] at *
    exact List.mem_cons_of_mem _ he

end Kept

/-- The front of a queue stays there while records are read. -/
theorem Topic.queue_move {rest : List (Delivery π μ)} (hqueue : (t.session n).queue = d :: rest)
    (m : Move ν π μ) : ∃ rest', ((t.move m).session n).queue = d :: rest' := by
  have hset : ∀ n' (s : Session π μ), (∃ l, s.queue = (t.session n').queue ++ l) →
      ∃ rest', ((t.setSession n' s).session n).queue = d :: rest' := by
    rintro n' s ⟨l, hl⟩
    rw [session_setSession]
    split
    · rename_i heq
      subst heq
      rw [hl, hqueue]
      exact ⟨rest ++ l, rfl⟩
    · exact ⟨rest, hqueue⟩
  cases m with
  | append => exact ⟨rest, hqueue⟩
  | assign n' p | revoke n' p => exact hset n' _ ⟨[], by simp⟩
  | fetch n' p =>
    simp only [move]
    split
    · exact hset n' _ ⟨[], by simp⟩
    · exact ⟨rest, hqueue⟩
  | enqueue n' =>
    simp only [move]
    split
    · exact hset n' _ ⟨_, rfl⟩
    · exact ⟨rest, hqueue⟩
  | land p offset =>
    simp only [move]
    split <;> exact ⟨rest, hqueue⟩

end kept

/-! ## Nodes at work -/

/-- The sessions of the nodes, and where each node is in its work. -/
structure Group (ν π μ φ : Type) where
  topic : Topic ν π μ
  phase : ν → φ

namespace Group

variable {φ : Type}

def enter (g : Group ν π μ φ) (node : ν) (phase : φ) : Group ν π μ φ :=
  { g with phase := Function.update g.phase node phase }

/-- The node ends; what it has read is delivered again. -/
def leave (g : Group ν π μ φ) (node : ν) (idle : φ) : Group ν π μ φ :=
  ⟨g.topic.stop node, Function.update g.phase node idle⟩

def move (g : Group ν π μ φ) (m : Move ν π μ) : Group ν π μ φ := { g with topic := g.topic.move m }

def request (g : Group ν π μ φ) (node : ν) (delivery : Delivery π μ) (phase : φ) : Group ν π μ φ :=
  ⟨g.topic.request delivery, Function.update g.phase node phase⟩

def finish (g : Group ν π μ φ) (node : ν) (idle : φ) : Group ν π μ φ :=
  ⟨g.topic.finish node, Function.update g.phase node idle⟩

end Group

section working

variable {φ : Type} {settled settled' : π → Nat → Prop} {work : φ → Option (Delivery π μ)}
  {promise promise' : φ → Prop} {g : Group ν π μ φ} {n : ν} {d : Delivery π μ} {phase idle : φ}

/-- Each node works on the oldest record of its session, and its phase promises something. -/
structure Working (settled : π → Nat → Prop) (work : φ → Option (Delivery π μ))
    (promise : φ → Prop) (g : Group ν π μ φ) : Prop where
  kept : Kept settled g.topic
  front : ∀ n, ∀ d ∈ work (g.phase n), ∃ rest, (g.topic.session n).queue = d :: rest
  promise : ∀ n, promise (g.phase n)

/-- What every node but one has, and that one has too. -/
theorem forall_update {P : ν → φ → Prop} {f : ν → φ} (hothers : ∀ n', n' ≠ n → P n' (f n'))
    (hn : P n phase) : ∀ n', P n' (Function.update f n phase n') := by
  intro n'
  by_cases h : n' = n
  · subst h
    simpa using hn
  · simpa [h] using hothers n' h

namespace Working

omit [DecidableEq ν] [DecidableEq π] in
theorem start (log : π → List μ) (epoch : Nat) (hidle : work idle = none)
    (hpromise : promise idle) :
    Working settled work promise
      (⟨⟨log, fun _ => 0, fun _ => .closed epoch, [], []⟩, fun _ => idle⟩ : Group ν π μ φ) where
  kept := .start log epoch
  front := by simp [hidle]
  promise := fun _ => hpromise

variable (h : Working settled work promise g)
include h

omit [DecidableEq ν] [DecidableEq π] in
theorem mono (hle : ∀ p o, settled p o → settled' p o)
    (hpromise : ∀ phase, promise phase → promise' phase) : Working settled' work promise' g where
  kept := h.kept.mono hle
  front := h.front
  promise := fun n => hpromise _ (h.promise n)

omit [DecidableEq π] in
theorem enter (hfront : ∀ d ∈ work phase, ∃ rest, (g.topic.session n).queue = d :: rest)
    (hpromise : promise phase) : Working settled work promise (g.enter n phase) where
  kept := h.kept
  front := forall_update (P := fun n phase => ∀ d ∈ work phase, ∃ rest,
    (g.topic.session n).queue = d :: rest) (fun n' _ => h.front n') hfront
  promise := forall_update (P := fun _ phase => promise phase) (fun n' _ => h.promise n') hpromise

omit [DecidableEq π] in
/-- The node goes on with its record. -/
theorem goOn (hwork : work phase = work (g.phase n)) (hpromise : promise phase) :
    Working settled work promise (g.enter n phase) := by
  refine h.enter ?_ hpromise
  rw [hwork]
  exact h.front n

omit [DecidableEq π] in
/-- The node is idle, and its session has changed. -/
theorem rest {s : Session π μ} (hkept : Kept settled (g.topic.setSession n s))
    (hidle : work idle = none) (hpromise : promise idle) :
    Working settled work promise
      ⟨g.topic.setSession n s, Function.update g.phase n idle⟩ where
  kept := hkept
  front := by
    refine forall_update (P := fun n' phase => ∀ d ∈ work phase, ∃ rest,
      ((g.topic.setSession n s).session n').queue = d :: rest) ?_ ?_
    · intro n' hn'
      rw [Topic.session_setSession, if_neg hn']
      exact h.front n'
    · simp [hidle]
  promise := forall_update (P := fun _ phase => promise phase) (fun n' _ => h.promise n') hpromise

omit [DecidableEq π] in
theorem leave (n : ν) (hidle : work idle = none) (hpromise : promise idle) :
    Working settled work promise (g.leave n idle) :=
  h.rest (h.kept.stop n) hidle hpromise

theorem move (m : Move ν π μ) : Working settled work promise (g.move m) where
  kept := h.kept.move m
  front := by
    intro n d hd
    obtain ⟨rest, hrest⟩ := h.front n d hd
    exact Topic.queue_move hrest m
  promise := h.promise

omit [DecidableEq π] in
theorem request (hwork : work (g.phase n) = some d) (hd : settled d.partition d.offset)
    (hphase : work phase = some d) (hpromise : promise phase) :
    Working settled work promise (g.request n d phase) := by
  obtain ⟨rest, hqueue⟩ := h.front n d hwork
  have hrequested : Working settled work promise { g with topic := g.topic.request d } :=
    ⟨h.kept.request hqueue hd, h.front, h.promise⟩
  exact hrequested.goOn (hphase.trans hwork.symm) hpromise

omit [DecidableEq π] in
theorem finish (hwork : work (g.phase n) = some d) (hd : settled d.partition d.offset)
    (hidle : work idle = none) (hpromise : promise idle) :
    Working settled work promise (g.finish n idle) := by
  obtain ⟨rest, hqueue⟩ := h.front n d hwork
  exact h.rest (h.kept.finish hqueue hd) hidle hpromise

omit [DecidableEq ν] [DecidableEq π] in
theorem promised (hphase : g.phase n = phase) : promise phase :=
  hphase ▸ h.promise n

omit [DecidableEq ν] [DecidableEq π] in
/-- The record that a node works on is in its log. -/
theorem logged (hwork : work (g.phase n) = some d) :
    (g.topic.log d.partition)[d.offset]? = some d.message := by
  obtain ⟨rest, hqueue⟩ := h.front n d hwork
  apply h.kept.logged n d
  rw [Session.deliveries, hqueue]
  exact List.mem_append_left _ List.mem_cons_self

end Working

end working

end consumers
