-- The dispatch store: one Redis hash for each scenario, with the window that
-- is dispatched, the slices of it that are acknowledged, and the time of the
-- next one. Both scripts first check that the caller is the leader.
import Pulse.AggregationStore
import Pulse.LeaderLock
import Mathlib.Data.Finset.Card

open checks durations keyspace
open pulse.coordination pulse.leader_lock

namespace pulse.dispatch

/-! ## The types of the store -/

def MAX_DISPATCH_SLICES : Nat := 4096

inductive RepeatPolicy
  | Once
  | Every (interval : Nat)
deriving DecidableEq, Repr

structure DispatchSpec where
  scenario_id : String
  contract_version : UInt16
  total_slices : UInt32
  repeat_policy : RepeatPolicy
  plan_fingerprint : String
deriving DecidableEq, Repr

structure DispatchWindow extends aggregation.DispatchWindow where
  window_id : String
  plan_fingerprint : String
  missing_slices : List UInt32
deriving DecidableEq

inductive DispatchOutcome
  | Ready (window : DispatchWindow)
  | NotDue (retry_after : Nat)
  | Finished
deriving DecidableEq

inductive DispatchProgress
  | Pending (remaining_slices : UInt32)
  | Complete
deriving DecidableEq, Repr

/-- The identity of a slice of a window. -/
def slice_key (window_id : String) (slice_index total_slices : Nat) : String :=
  window_id ++ ":slice-" ++ toString slice_index ++ "-of-" ++ toString total_slices

def DispatchWindow.execution_key (window : DispatchWindow) (slice_index : UInt32) : Option String :=
  if slice_index < window.total_slices then
    some (slice_key window.window_id slice_index.toNat window.total_slices.toNat)
  else none

/-! ## The schedule of a scenario -/

inductive RepeatKind
  | once
  | every
deriving DecidableEq, Repr

/-- The `active_` fields. They are written and deleted together. -/
structure ActiveWindow where
  window_id : String
  scheduled_at : lua.Text
  contract_version : UInt16
  total_slices : Nat
  repeat_kind : RepeatKind
  repeat_ms : lua.Text
  plan_fingerprint : String
  ack_count : Nat
deriving DecidableEq, Repr

structure Schedule where
  active : Option ActiveWindow
  /-- The slices with a field `ack:`. -/
  acks : Finset Nat
  once_done : Bool
  next_at : Option lua.Text
  last_completed_window : Option String
  last_completed_at : Option lua.Text
deriving DecidableEq

/-- The schedule of a scenario that was never dispatched. -/
def Schedule.empty : Schedule := ⟨none, ∅, false, none, none, none⟩

/-- The check of both scripts: the lock has a time left, and it is under the owner and the fence of
the lease. -/
def leader_is_current (now_ms : Nat) (keys : LeaderKeys) (leader : LeaderLease) : Bool :=
  (keys.lock.bind (·.expires_at)).isSome && RedisLeaderElector.is_held_by now_ms keys leader

/-! ## The script of `prepare_window` -/

structure PrepareArgs where
  scenario_id : String
  contract_version : UInt16
  total_slices : Nat
  repeat_kind : RepeatKind
  repeat_ms : Nat
  plan_fingerprint : String

/-- The identity of the window that starts at `scheduled_at`. -/
def window_id (contract_version : UInt16) (scenario_id : String) (scheduled_at : lua.Text)
    (total_slices : Nat) : String :=
  "v" ++ toString contract_version.toNat ++ ":s" ++ toString (strings.len scenario_id) ++ ":" ++
    scenario_id ++ ":w" ++ scheduled_at.render ++ ":n" ++ toString total_slices

/-- The active window does not go with the dispatch spec. -/
def ActiveWindow.drifts (w : ActiveWindow) (a : PrepareArgs) : Prop :=
  w.contract_version ≠ a.contract_version ∨ w.total_slices ≠ a.total_slices ∨
    w.repeat_kind ≠ a.repeat_kind ∨ lua.tonumber w.repeat_ms ≠ a.repeat_ms ∨
    w.plan_fingerprint ≠ a.plan_fingerprint

instance (w : ActiveWindow) (a : PrepareArgs) : Decidable (w.drifts a) :=
  inferInstanceAs (Decidable (_ ∨ _))

/-- The slices that are not acknowledged. -/
def Schedule.missing (s : Schedule) (total_slices : Nat) : List Nat :=
  (List.range total_slices).filter (· ∉ s.acks)

/-- The window that a script makes active. -/
def activated (a : PrepareArgs) (scheduled_at : Nat) : ActiveWindow where
  window_id := window_id a.contract_version a.scenario_id (lua.tostring scheduled_at) a.total_slices
  scheduled_at := lua.tostring scheduled_at
  contract_version := a.contract_version
  total_slices := a.total_slices
  repeat_kind := a.repeat_kind
  repeat_ms := lua.tostring a.repeat_ms
  plan_fingerprint := a.plan_fingerprint
  ack_count := 0

inductive PrepareReply
  /-- Code 1: the indexes are the joined text, and no index is the empty text. -/
  | ready (window_id : String) (scheduled_at : Nat) (missing : List lua.Text)
  | not_due (retry_after : Nat)
  | finished
  | invalid (message : String)

/-- The time from which the next window may start. -/
def Schedule.due_at (s : Schedule) (now_ms : Nat) : Nat :=
  lua.tonumber (s.next_at.getD (lua.tostring now_ms))

def prepare_script (now_ms : Nat) (a : PrepareArgs) (s : Schedule) : PrepareReply × Schedule :=
  match s.active with
  | some w =>
    if w.drifts a then
      (.invalid "active window metadata does not match current dispatch spec", s)
    else if w.ack_count ≠ ((List.range a.total_slices).filter (· ∈ s.acks)).length then
      (.invalid "active acknowledgement count is inconsistent", s)
    else
      (.ready w.window_id (lua.tonumber w.scheduled_at)
        ((s.missing a.total_slices).map lua.tostring), s)
  | none =>
    if a.repeat_kind = .once ∧ s.once_done then (.finished, s)
    else if now_ms < s.due_at now_ms then (.not_due (s.due_at now_ms - now_ms), s)
    else
      let w := activated a (s.due_at now_ms)
      (.ready w.window_id (s.due_at now_ms) ((List.range a.total_slices).map lua.tostring),
        { s with active := some w })

/-! ## The script of `ack_slice` -/

structure AckArgs where
  window_id : String
  slice_index : Nat
  total_slices : Nat
  plan_fingerprint : String

inductive AckReply
  | pending (remaining : Nat)
  | complete
  | invalid (message : String)
deriving DecidableEq

/-- `HSETNX` of the field of a slice, and the count of the fields. -/
def Schedule.acknowledge (s : Schedule) (w : ActiveWindow) (slice_index : Nat) : Schedule :=
  if slice_index ∈ s.acks then s
  else { s with
    active := some { w with ack_count := w.ack_count + 1 }
    acks := insert slice_index s.acks }

/-- The count of the fields after the acknowledgement. -/
def Schedule.count_after (s : Schedule) (w : ActiveWindow) (slice_index : Nat) : Nat :=
  if slice_index ∈ s.acks then w.ack_count else w.ack_count + 1

/-- The window is complete: its fields are deleted, and the time of the next one is set. -/
def Schedule.complete (s : Schedule) (w : ActiveWindow) (now_ms : Nat) : Schedule where
  active := none
  acks := s.acks \ Finset.range w.total_slices
  once_done := if w.repeat_kind = .once then true else s.once_done
  next_at :=
    if w.repeat_kind = .once then none
    else some (lua.tostring (lua.tonumber w.scheduled_at + lua.tonumber w.repeat_ms))
  last_completed_window := some w.window_id
  last_completed_at := some (lua.tostring now_ms)

def ack_script (now_ms : Nat) (a : AckArgs) (s : Schedule) : AckReply × Schedule :=
  match s.active with
  | none =>
    if s.last_completed_window = some a.window_id then (.complete, s)
    else (.invalid "dispatch window is not active", s)
  | some w =>
    if w.window_id ≠ a.window_id then (.invalid "a different dispatch window is active", s)
    else if w.total_slices ≠ a.total_slices then (.invalid "dispatch slice count changed", s)
    else if w.plan_fingerprint ≠ a.plan_fingerprint then
      (.invalid "dispatch plan fingerprint changed", s)
    else if w.total_slices ≤ a.slice_index then
      (.invalid "slice index is outside the active window", s)
    else if w.repeat_kind ≠ .once ∧ lua.tonumber w.repeat_ms = 0 then
      (.invalid "active repeat policy is invalid", s)
    else if w.total_slices < w.ack_count then (.invalid "acknowledgement count is invalid", s)
    else
      let marked := s.acknowledge w a.slice_index
      let ack_count := s.count_after w a.slice_index
      if ack_count < w.total_slices then (.pending (w.total_slices - ack_count), marked)
      else if w.total_slices < ack_count then
        (.invalid "acknowledgement count exceeds slice count", marked)
      else (.complete, marked.complete w now_ms)

/-! ## `prepare_window` -/

/-- One index of the joined text: it is in range and above the one before. -/
def parse_missing_slice (operation : String) (total_slices : UInt32) (slices : List UInt32)
    (value : lua.Text) : Except CoordinationError (List UInt32) := do
  let index ← okOr (lua.parse aggregation.U32_MAX value)
    (.InvalidState operation ("invalid missing-slice index '" ++ value.render ++ "'"))
  rejectIf (total_slices.toNat ≤ index ∨ ∃ previous ∈ slices.getLast?, index ≤ previous.toNat)
    (.InvalidState operation "missing-slice indexes are out of range or not strictly ordered")
  return slices ++ [UInt32.ofNat index]

def parse_missing_slices (operation : String) (raw : List lua.Text) (total_slices : UInt32) :
    Except CoordinationError (List UInt32) :=
  raw.foldlM (parse_missing_slice operation total_slices) []

def repeat_args (operation : String) : RepeatPolicy → Except CoordinationError (RepeatKind × Nat)
  | .Once => .ok (.once, 0)
  | .Every interval => do
    let repeat_ms ← duration_ms operation interval
    return (.every, repeat_ms)

def prepare_args (spec : DispatchSpec) (leader : LeaderLease) :
    Except CoordinationError PrepareArgs := do
  let operation := "dispatch_prepare_window"
  rejectIf (strings.is_blank spec.scenario_id)
    (.InvalidState operation "scenario id must not be empty")
  rejectIf (spec.contract_version = 0) (.InvalidState operation "contract version must be positive")
  rejectIf (spec.total_slices = 0 ∨ MAX_DISPATCH_SLICES < spec.total_slices.toNat)
    (.InvalidState operation
      ("total slices must be between 1 and " ++ toString MAX_DISPATCH_SLICES))
  rejectIf (strings.is_blank spec.plan_fingerprint)
    (.InvalidState operation "plan fingerprint must not be empty")
  let (repeat_kind, repeat_ms) ← repeat_args operation spec.repeat_policy
  rejectIf (2 ^ 63 ≤ leader.fencing_token)
    (.InvalidState operation "fencing token exceeds Redis integer range")
  return {
    scenario_id := spec.scenario_id
    contract_version := spec.contract_version
    total_slices := spec.total_slices.toNat
    repeat_kind, repeat_ms
    plan_fingerprint := spec.plan_fingerprint }

def prepare_reply (spec : DispatchSpec) (reply : PrepareReply) :
    Except CoordinationError DispatchOutcome :=
  let operation := "dispatch_prepare_window"
  match reply with
  | .ready window_id scheduled_at raw => do
    let missing_slices ← parse_missing_slices operation raw spec.total_slices
    rejectIf (missing_slices = [])
      (.InvalidState operation "active window has no missing slices but is not complete")
    return .Ready {
      scenario_id := spec.scenario_id
      run_id := window_id
      window_id
      scheduled_at_unix_ms := scheduled_at
      contract_version := spec.contract_version
      total_slices := spec.total_slices
      plan_fingerprint := spec.plan_fingerprint
      missing_slices }
  | .not_due retry_after => .ok (.NotDue (Duration.from_millis retry_after))
  | .finished => .ok .Finished
  | .invalid message => .error (.InvalidState operation message)

/-- `keys` are the keys of the lock that the lease names. -/
def prepare_window (now_ms : Nat) (keys : LeaderKeys) (spec : DispatchSpec) (leader : LeaderLease)
    (s : Schedule) : Except CoordinationError DispatchOutcome × Schedule :=
  match prepare_args spec leader with
  | .error error => (.error error, s)
  | .ok args =>
    if leader_is_current now_ms keys leader then
      let (reply, s) := prepare_script now_ms args s
      (prepare_reply spec reply, s)
    else (.error (.StaleOwner "dispatch_prepare_window"), s)

/-! ## `ack_slice` -/

def ack_args (window : DispatchWindow) (slice_index : UInt32) (leader : LeaderLease) :
    Except CoordinationError AckArgs := do
  let operation := "dispatch_ack_slice"
  rejectIf (window.total_slices ≤ slice_index)
    (.InvalidState operation "slice index is outside the dispatch window")
  rejectIf (window.total_slices = 0 ∨ MAX_DISPATCH_SLICES < window.total_slices.toNat)
    (.InvalidState operation "dispatch window has an invalid slice count")
  rejectIf (2 ^ 63 ≤ leader.fencing_token)
    (.InvalidState operation "fencing token exceeds Redis integer range")
  return {
    window_id := window.window_id
    slice_index := slice_index.toNat
    total_slices := window.total_slices.toNat
    plan_fingerprint := window.plan_fingerprint }

def ack_reply (reply : AckReply) : Except CoordinationError DispatchProgress :=
  let operation := "dispatch_ack_slice"
  match reply with
  | .pending remaining => do
    rejectIf (aggregation.U32_MAX < remaining)
      (.InvalidState operation "remaining slice count is out of range")
    return .Pending (UInt32.ofNat remaining)
  | .complete => .ok .Complete
  | .invalid message => .error (.InvalidState operation message)

def ack_slice (now_ms : Nat) (keys : LeaderKeys) (window : DispatchWindow) (slice_index : UInt32)
    (leader : LeaderLease) (s : Schedule) : Except CoordinationError DispatchProgress × Schedule :=
  match ack_args window slice_index leader with
  | .error error => (.error error, s)
  | .ok args =>
    if leader_is_current now_ms keys leader then
      let (reply, s) := ack_script now_ms args s
      (ack_reply reply, s)
    else (.error (.StaleOwner "dispatch_ack_slice"), s)

/-! ## The cases of the scripts -/

/-- The reply and the schedule of the script of `prepare_window`. -/
inductive Prepared (now : Nat) (a : PrepareArgs) (s : Schedule) : PrepareReply × Schedule → Prop
  | drifted {w : ActiveWindow} (hactive : s.active = some w) (hdrifts : w.drifts a) :
      Prepared now a s (.invalid "active window metadata does not match current dispatch spec", s)
  | inconsistent {w : ActiveWindow} (hactive : s.active = some w)
      (hcount : w.ack_count ≠ ((List.range a.total_slices).filter (· ∈ s.acks)).length) :
      Prepared now a s (.invalid "active acknowledgement count is inconsistent", s)
  | resumed {w : ActiveWindow} (hactive : s.active = some w) (hsame : ¬ w.drifts a) :
      Prepared now a s (.ready w.window_id (lua.tonumber w.scheduled_at)
        ((s.missing a.total_slices).map lua.tostring), s)
  | finished (hidle : s.active = none) (honce : a.repeat_kind = .once)
      (hdone : s.once_done = true) :
      Prepared now a s (.finished, s)
  | not_due (hidle : s.active = none) (hearly : now < s.due_at now) :
      Prepared now a s (.not_due (s.due_at now - now), s)
  | activated (hidle : s.active = none) (hopen : ¬ (a.repeat_kind = .once ∧ s.once_done = true))
      (hdue : s.due_at now ≤ now) :
      Prepared now a s
        (.ready (activated a (s.due_at now)).window_id (s.due_at now)
          ((List.range a.total_slices).map lua.tostring),
          { s with active := some (activated a (s.due_at now)) })

theorem prepare_script_cases (now : Nat) (a : PrepareArgs) (s : Schedule) :
    Prepared now a s (prepare_script now a s) := by
  unfold prepare_script
  split
  · rename_i w hactive
    split
    · rename_i hdrifts
      exact .drifted hactive hdrifts
    split
    · rename_i hcount
      exact .inconsistent hactive hcount
    · rename_i hsame _
      exact .resumed hactive hsame
  · rename_i hidle
    split
    · rename_i hdone
      exact .finished hidle hdone.1 hdone.2
    rename_i hopen
    split
    · rename_i hearly
      exact .not_due hidle hearly
    · rename_i hdue
      exact .activated hidle hopen (Nat.not_lt.mp hdue)

/-- The acknowledgement is for a slice of the window. -/
structure AckArgs.Fits (a : AckArgs) (w : ActiveWindow) : Prop where
  window_id : w.window_id = a.window_id
  total_slices : w.total_slices = a.total_slices
  plan_fingerprint : w.plan_fingerprint = a.plan_fingerprint
  index : a.slice_index < w.total_slices
  count : w.ack_count ≤ w.total_slices

/-- The reply and the schedule of the script of `ack_slice`. -/
inductive Acked (now : Nat) (a : AckArgs) (s : Schedule) : AckReply × Schedule → Prop
  | repeated (hidle : s.active = none) (hlast : s.last_completed_window = some a.window_id) :
      Acked now a s (.complete, s)
  | refused (message : String) : Acked now a s (.invalid message, s)
  | pending {w : ActiveWindow} (hactive : s.active = some w) (hfits : a.Fits w)
      (hless : s.count_after w a.slice_index < w.total_slices) :
      Acked now a s (.pending (w.total_slices - s.count_after w a.slice_index),
        s.acknowledge w a.slice_index)
  | exceeded {w : ActiveWindow} (hactive : s.active = some w) (hfits : a.Fits w)
      (hmore : w.total_slices < s.count_after w a.slice_index) :
      Acked now a s (.invalid "acknowledgement count exceeds slice count",
        s.acknowledge w a.slice_index)
  | completed {w : ActiveWindow} (hactive : s.active = some w) (hfits : a.Fits w)
      (hall : s.count_after w a.slice_index = w.total_slices) :
      Acked now a s (.complete, (s.acknowledge w a.slice_index).complete w now)

theorem ack_script_cases (now : Nat) (a : AckArgs) (s : Schedule) :
    Acked now a s (ack_script now a s) := by
  unfold ack_script
  split
  · rename_i hidle
    split
    · rename_i hlast
      exact .repeated hidle hlast
    · exact .refused _
  rename_i w hactive
  split
  · exact .refused _
  rename_i hid
  split
  · exact .refused _
  rename_i htotal
  split
  · exact .refused _
  rename_i hfingerprint
  split
  · exact .refused _
  rename_i hindex
  split
  · exact .refused _
  split
  · exact .refused _
  rename_i hcount
  have hfits : a.Fits w :=
    ⟨not_not.mp hid, not_not.mp htotal, not_not.mp hfingerprint, Nat.not_le.mp hindex,
      Nat.not_lt.mp hcount⟩
  dsimp only
  split
  · rename_i hless
    exact .pending hactive hfits hless
  rename_i hless
  split
  · rename_i hmore
    exact .exceeded hactive hfits hmore
  · rename_i hmore
    exact .completed hactive hfits (Nat.le_antisymm (Nat.not_lt.mp hmore) (Nat.not_lt.mp hless))

end pulse.dispatch
