-- The law of the run records: their fields agree with each other after any
-- calls, and a finalized record decodes to a summary.
import Pulse.AggregationDecode

open counters systems
open pulse.contracts

namespace pulse.aggregation

/-- The call finalizes a run on request. -/
def Op.finalizes : Op → Prop
  | .finalize_run _ _ => True
  | _ => False

theorem Change.not_cancelled {store : RedisRunAggregationStore} {now : Nat} {i : String} {op : Op}
    {found : Option RunHash} {h' : RunHash} (hop : ¬ op.finalizes)
    (hfound : ∀ h, found = some h → h.status ≠ .Cancelled)
    (hchange : Change store now i op found h') : h'.status ≠ .Cancelled := by
  have haccepted : ∀ (a : IngestArgs) (g : RunHash), g.status ≠ .Cancelled →
      (accepted_hash a now g).status ≠ .Cancelled := by
    intro a g hg
    unfold accepted_hash
    dsimp only
    split
    · simp [RunHash.finalize]
    · exact hg
  cases hchange with
  | same => exact hfound _ rfl
  | registered => simp [registered_hash]
  | first => exact haccepted _ _ (by simp [first_hash])
  | @bound _ _ h => exact hfound h rfl
  | @accepted _ _ h => exact haccepted _ _ (hfound h rfl)
  | timed_out => simp [RunHash.finalize]
  | finalized => exact absurd trivial hop
  | @acknowledged h => exact hfound h rfl

/-- Every run record is consistent, and when it is not open it decodes to a summary whose missing
slices are the ones that it did not receive. -/
theorem run_records_are_consistent {store : RedisRunAggregationStore} {w : World}
    (hw : Reachable (storeSystem store lua.FIRST_SCIENTIFIC fun _ op => ¬ op.finalizes) w)
    {run_id : String} {h : RunHash} (hfind : w.find run_id = some h) :
    Consistent store h ∧
      (h.status ≠ .Open → ∀ operation, ∃ summary,
        summary_from_snapshot (some h) operation = .ok summary ∧
          summary.missing_slices = (List.range (lua.tonumber h.expected_slices)).filter
            fun index => index ∉ h.slices.keys) := by
  obtain ⟨-, l, hg, hunset⟩ := reachable_kept hw hfind
  refine ⟨hg.consistent, fun hopen operation => ?_⟩
  have hcancelled : h.status ≠ .Cancelled :=
    hash_invariant (P := fun _ h => h.status ≠ .Cancelled)
      (fun _ hop hfound hchange => hchange.not_cancelled hop hfound) hw hfind
  obtain ⟨status, first, final, hdecodes⟩ := hg.decodes (reachable_timed le_rfl hw hfind)
    (fun hnil => (hunset hnil).resolve_right hcancelled) hopen
  exact ⟨_, (hdecodes operation).2, rfl⟩

/-! ## A run that times out -/

/-- The slice is ingested, the deadline passes, and the run is marked. -/
def sampleOps : List Op := [.ingest sampleResult, .wait 60000, .mark_expired "run-1"]

def sampleWorld : World := sampleOps.foldl (.step defaultStore) (.start 0)

theorem run_records_are_consistent_after_timeout :
    ∃ h, sampleWorld.find "run-1" = some h ∧ h.status = .TimedOut ∧ Consistent defaultStore h ∧
      ∃ summary, summary_from_snapshot (some h) "aggregation_mark_expired" = .ok summary ∧
        summary.missing_slices = [0] := by
  have hstart : Reachable (storeSystem defaultStore lua.FIRST_SCIENTIFIC fun _ op => ¬ op.finalizes)
      (.start 0) := reachable_start (by decide)
  have hallowed : Allowed (storeSystem defaultStore lua.FIRST_SCIENTIFIC fun _ op => ¬ op.finalizes)
      (.start 0) sampleOps :=
    ⟨⟨id, by decide +kernel⟩, ⟨id, by decide +kernel⟩, ⟨id, by decide +kernel⟩, trivial⟩
  have hw := hstart.foldl hallowed
  have hfacts : ∀ h ∈ sampleWorld.find "run-1", h.status = .TimedOut ∧
      (List.range (lua.tonumber h.expected_slices)).filter (fun index => index ∉ h.slices.keys) =
        [0] := by decide +kernel
  obtain ⟨h, hfind⟩ := Option.isSome_iff_exists.mp
    (show (sampleWorld.find "run-1").isSome = true by decide +kernel)
  obtain ⟨hstatus, hmissing⟩ := hfacts h hfind
  obtain ⟨hconsistent, hsummary⟩ := run_records_are_consistent hw hfind
  obtain ⟨summary, hok, heq⟩ := hsummary (by rw [hstatus]; simp) "aggregation_mark_expired"
  exact ⟨h, hfind, hstatus, hconsistent, summary, hok, heq.trans hmissing⟩

end pulse.aggregation
