-- The invariant of a run hash: it is the tally of the slices that the run
-- accepted, with the status and the revisions that go with them. Every call
-- keeps it.
import Pulse.AggregationChanges
import Pulse.AggregationTally

open counters keyspace systems
open pulse.contracts

namespace pulse.aggregation

/-- The hash counts the slices `l`. -/
structure Counted (store : RedisRunAggregationStore) (h : RunHash) (l : List Slice) : Prop where
  tally : h.toTally = tally l
  fits : ∀ s ∈ l, s.Fits (lua.tonumber h.expected_slices) h.histogram_bounds
  indexes : (l.map (·.index)).Nodup
  keys : (l.map (·.execution_key)).Nodup
  expected : ∃ n, h.expected_slices = .decimal n ∧ 1 ≤ n ∧ n ≤ U32_MAX
  bounds : h.histogram_bounds.Pairwise (· < ·)
  total_exact : h.total ≤ lua.MAX_EXACT
  latency_exact : ∀ j, count h.latency j ≤ lua.MAX_EXACT
  errors_exact : ∀ kind, count h.errors kind ≤ lua.MAX_EXACT
  kinds : h.error_kind_count ≤ store.max_error_kinds

/-- The status and the revisions of the hash go with `n` accepted slices. -/
structure Phased (h : RunHash) (n : Nat) : Prop where
  status : ∀ text, h.status ≠ .Other text
  complete : h.status = .Complete ↔ n = lua.tonumber h.expected_slices
  opened : h.status = .Open ↔ h.summary_revision = 0
  revision : h.summary_revision ≤ if h.status = .Complete then 2 else 1
  pending : h.summary_pending_revision = lua.tostring h.summary_revision
  acknowledged : ∃ m ≤ h.summary_revision, h.summary_ack_revision = lua.tostring m

/-- The hash of a run that accepted the slices `l`. -/
structure Good (store : RedisRunAggregationStore) (h : RunHash) (l : List Slice) : Prop
    extends Counted store h l, Phased h l.length

/-- The bounds of a run without slices are only set when the run is cancelled. -/
def BoundsUnset (h : RunHash) (l : List Slice) : Prop :=
  l = [] → h.histogram_bounds = [] ∨ h.status = .Cancelled

theorem accepted_hash_fields (a : IngestArgs) (now : Nat) (h : RunHash) :
    (accepted_hash a now h).toTally = h.toTally.merge a.slice ∧
      (accepted_hash a now h).expected_slices = h.expected_slices ∧
      (accepted_hash a now h).histogram_bounds = h.histogram_bounds ∧
      (accepted_hash a now h).run_id = h.run_id := by
  unfold accepted_hash
  dsimp only
  split <;> exact ⟨rfl, rfl, rfl, rfl⟩

theorem accepted_hash_names (a : IngestArgs) (now : Nat) (h : RunHash) :
    (accepted_hash a now h).scenario_id = h.scenario_id ∧
      (accepted_hash a now h).schema_version = h.schema_version := by
  unfold accepted_hash
  dsimp only
  split <;> exact ⟨rfl, rfl⟩

section good

variable {store : RedisRunAggregationStore} {h : RunHash} {l : List Slice}

namespace Good

section

variable (hg : Good store h l)
include hg

theorem received : h.received_slices = l.length := by
  rw [hg.tally, tally_received]

theorem expected_pos : 1 ≤ lua.tonumber h.expected_slices := by
  obtain ⟨n, hn, hpos, -⟩ := hg.expected
  rw [hn]
  exact hpos

theorem tostring_revision {n : Nat} (hn : n ≤ h.summary_revision) :
    lua.tonumber (lua.tostring n) = n := by
  have hrev := hg.revision
  have hsmall : n < lua.FIRST_SCIENTIFIC := by
    have hbig : 2 < lua.FIRST_SCIENTIFIC := by decide
    split at hrev <;> omega
  exact lua.tonumber_tostring hsmall

theorem pending_eq : lua.tonumber h.summary_pending_revision = h.summary_revision := by
  rw [hg.pending, hg.tostring_revision le_rfl]

theorem acknowledged_le : lua.tonumber h.summary_ack_revision ≤ h.summary_revision := by
  obtain ⟨n, hn, ha⟩ := hg.acknowledged
  rw [ha, hg.tostring_revision hn]
  exact hn

theorem isPending_iff : h.isPending ↔ lua.tonumber h.summary_ack_revision < h.summary_revision := by
  unfold RunHash.isPending
  rw [hg.pending_eq]

theorem not_complete (hstatus : h.status ≠ .Complete) :
    l.length < lua.tonumber h.expected_slices := by
  have hle := length_le_expected hg.fits hg.indexes
  have hne : l.length ≠ lua.tonumber h.expected_slices := fun heq => hstatus (hg.complete.mpr heq)
  omega

end

/-! ### New hashes -/

theorem fresh {n : Nat} (hpos : 1 ≤ n) (hle : n ≤ U32_MAX)
    (hexpected : h.expected_slices = lua.tostring n) (htally : h.toTally = Tally.empty)
    (hbounds : h.histogram_bounds.Pairwise (· < ·)) (hopen : h.status = .Open)
    (hrevision : h.summary_revision = 0) (hpending : h.summary_pending_revision = lua.tostring 0)
    (hack : h.summary_ack_revision = lua.tostring 0) : Good store h [] := by
  have hsmall : U32_MAX < lua.FIRST_SCIENTIFIC := by decide
  have htext : h.expected_slices = .decimal n := by rw [hexpected, lua.tostring_of_lt (by omega)]
  exact
    { tally := htally
      fits := by simp
      indexes := List.nodup_nil
      keys := List.nodup_nil
      expected := ⟨n, htext, hpos, hle⟩
      bounds := hbounds
      total_exact := by rw [htally]; exact Nat.zero_le _
      latency_exact := fun j => by rw [htally]; exact Nat.zero_le _
      errors_exact := fun kind => by rw [htally]; exact Nat.zero_le _
      kinds := by rw [htally]; exact Nat.zero_le _
      status := fun text => by simp [hopen]
      complete := by
        rw [hopen, htext, List.length_nil, lua.tonumber_decimal]
        constructor
        · intro hs
          cases hs
        · omega
      opened := by simp [hopen, hrevision]
      revision := by rw [hrevision]; exact Nat.zero_le _
      pending := by rw [hpending, hrevision]
      acknowledged := ⟨0, Nat.zero_le _, hack⟩ }

theorem registered {window : DispatchWindow} {load_duration : Nat} {a : RegisterArgs}
    (hargs : register_args store.registration window load_duration = .ok a)
    (hexpected : 1 ≤ a.expected_slices) : Good store (registered_hash a) [] := by
  have hslices : a.expected_slices ≤ U32_MAX := by
    rw [(register_args_ok hargs).2.2.2.1]
    exact Nat.le_of_lt_succ window.total_slices.toNat_lt
  exact fresh hexpected hslices rfl rfl List.Pairwise.nil rfl rfl rfl rfl

variable {result : ScenarioRunResult} {a : IngestArgs}

theorem first (ha : Admissible store result a) (now : Nat) : Good store (first_hash a now) [] := by
  have hindex := ha.index_lt
  have hle := ha.expected_le
  have hu32 : 4096 ≤ U32_MAX := by decide
  exact fresh (by omega) (by omega) rfl rfl ha.bounds_increase rfl rfl rfl rfl

/-! ### Changes -/

variable (hg : Good store h l)
include hg

theorem bind (ha : Admissible store result a) (hbinds : a.Binds h) : Good store (a.bind h) l := by
  by_cases hbounds : h.histogram_bounds = []
  · have hnil : l = [] := by
      have hzero := hbinds.unset hbounds
      rw [hg.received] at hzero
      exact List.length_eq_zero_iff.mp hzero
    subst hnil
    exact { hg with fits := by simp, bounds := ha.bounds_increase }
  · rw [IngestArgs.bind_eq_self hbinds.agree hbounds]
    exact hg

theorem finalize (hopen : h.status = .Open) {status : RunStatus}
    (hstatus : status = .TimedOut ∨ status = .Partial ∨ status = .Cancelled) (now : Nat) :
    Good store (h.finalize status now) l := by
  have hzero := hg.opened.mp hopen
  have hcomplete : l.length ≠ lua.tonumber h.expected_slices := by
    intro heq
    have hs := hg.complete.mpr heq
    rw [hopen] at hs
    cases hs
  obtain ⟨n, hn, ha⟩ := hg.acknowledged
  exact { hg with
    status := fun text => by rcases hstatus with rfl | rfl | rfl <;> simp [RunHash.finalize]
    complete := by rcases hstatus with rfl | rfl | rfl <;> simpa [RunHash.finalize] using hcomplete
    opened := by rcases hstatus with rfl | rfl | rfl <;> simp [RunHash.finalize]
    revision := by
      rcases hstatus with rfl | rfl | rfl <;> simp [RunHash.finalize, hzero]
    pending := rfl
    acknowledged := ⟨n, Nat.le_succ_of_le hn, ha⟩ }

theorem acknowledge {revision : Nat} (hle : revision ≤ h.summary_revision) :
    Good store (h.acknowledge revision) l :=
  { hg with acknowledged := ⟨revision, hle, rfl⟩ }

/-- The counters of the slice are added without loss. -/
theorem merged (ha : Admissible store result a) (hrefusal : refusal a h.toTally = none) :
    (h.toTally.merge a.slice).total ≤ lua.MAX_EXACT ∧
      (∀ j, count (h.toTally.merge a.slice).latency j ≤ lua.MAX_EXACT) ∧
      (∀ kind, count (h.toTally.merge a.slice).errors kind ≤ lua.MAX_EXACT) ∧
      (h.toTally.merge a.slice).error_kind_count ≤ store.max_error_kinds := by
  obtain ⟨hkinds, htotal, hlatency, herrors⟩ := refusal_eq_none hrefusal
  have hcount : h.error_kind_count = h.errors.keys.length := by rw [hg.tally, tally_kinds]
  have hmerge := merge_errors a.slice.errors h.error_kind_count h.errors hcount
  refine ⟨htotal, fun j => ?_, fun kind => ?_, ?_⟩
  · simp only [Tally.merge, count_bumpAll]
    by_cases hj : j ∈ (indexed a.slice.counts).map (·.1)
    · obtain ⟨c, hc, rfl⟩ := List.mem_map.mp hj
      rw [added_of_mem (by rw [map_fst_indexed]; exact List.nodup_range) hc]
      exact hlatency c hc
    · rw [added_of_notMem hj]
      exact hg.latency_exact j
  · simp only [Tally.merge, hmerge, count_bumpAll]
    by_cases hk : kind ∈ a.slice.errors.map (·.1)
    · obtain ⟨e, he, rfl⟩ := List.mem_map.mp hk
      rw [added_of_mem ha.kinds_nodup he]
      exact herrors e he
    · rw [added_of_notMem hk]
      exact hg.errors_exact kind
  · simp only [Tally.merge, hmerge]
    rw [length_keys_bumpAll _ ha.kinds_nodup, ← hcount, ← ha.max_error_kinds]
    exact hkinds

theorem accept_counted (ha : Admissible store result a)
    (hexpected : lua.tonumber h.expected_slices = a.expected_slices)
    (hbounds : h.histogram_bounds = a.histogram_bounds)
    (hslice : h.slices.lookup a.slice.index = none)
    (hexecution : h.executions.lookup a.slice.execution_key = none)
    (hrefusal : refusal a h.toTally = none) (now : Nat) :
    Counted store (accepted_hash a now h) (l ++ [a.slice]) := by
  obtain ⟨htotal, hlatency, herrors, hkinds⟩ := hg.merged ha hrefusal
  rw [hg.tally, lookup_slices_eq_none] at hslice
  rw [hg.tally, lookup_executions_eq_none] at hexecution
  obtain ⟨htally, hexp, hbnd, -⟩ := accepted_hash_fields a now h
  have hnodup : ∀ {α : Type} {f : Slice → α}, (l.map f).Nodup → f a.slice ∉ l.map f →
      ((l ++ [a.slice]).map f).Nodup := by
    intro α f hl hnew
    rw [List.map_append, List.map_singleton, ← List.concat_eq_append]
    exact List.Nodup.concat hnew hl
  exact
    { tally := by rw [htally, hg.tally, tally_concat]
      fits := by
        rw [hexp, hbnd]
        intro s hs
        rcases List.mem_append.mp hs with hs | hs
        · exact hg.fits s hs
        · rw [List.mem_singleton.mp hs, hexpected, hbounds]
          exact ⟨ha.index_lt, ha.outcome, ha.counts_length, ha.counts_sum⟩
      indexes := hnodup hg.indexes hslice
      keys := hnodup hg.keys hexecution
      expected := by rw [hexp]; exact hg.expected
      bounds := by rw [hbnd]; exact hg.bounds
      total_exact := by rw [htally]; exact htotal
      latency_exact := by rw [htally]; exact hlatency
      errors_exact := by rw [htally]; exact herrors
      kinds := by rw [htally]; exact hkinds }

theorem accept_phased (hexpected : lua.tonumber h.expected_slices = a.expected_slices)
    (hstatus : h.status = .Open ∨ h.isLate) (now : Nat) :
    Phased (accepted_hash a now h) (l.length + 1) := by
  have hnot : h.status ≠ .Complete := by
    rcases hstatus with ho | ho | ho <;> rw [ho] <;> simp
  have hrevision : h.summary_revision ≤ 1 := by
    have hle := hg.revision
    rwa [if_neg hnot] at hle
  have hreceived : (merged_hash a now h).received_slices = l.length + 1 := by
    rw [← hg.received]
    rfl
  obtain ⟨m, hm, hack⟩ := hg.acknowledged
  unfold accepted_hash
  dsimp only
  rw [hreceived]
  split
  · rename_i hlast
    exact
      { status := by simp [RunHash.finalize]
        complete := by simp [RunHash.finalize, merged_hash, hexpected, hlast]
        opened := by simp [RunHash.finalize]
        revision := by simp [RunHash.finalize, merged_hash, hrevision]
        pending := rfl
        acknowledged := ⟨m, Nat.le_succ_of_le hm, hack⟩ }
  · rename_i hlast
    exact
      { status := hg.status
        complete := by simp [merged_hash, hexpected, hlast, hnot]
        opened := hg.opened
        revision := by simpa [merged_hash, hnot] using hrevision
        pending := hg.pending
        acknowledged := ⟨m, hm, hack⟩ }

theorem accept (ha : Admissible store result a)
    (hexpected : lua.tonumber h.expected_slices = a.expected_slices)
    (hbounds : h.histogram_bounds = a.histogram_bounds)
    (hslice : h.slices.lookup a.slice.index = none)
    (hexecution : h.executions.lookup a.slice.execution_key = none)
    (hstatus : h.status = .Open ∨ h.isLate) (hrefusal : refusal a h.toTally = none) (now : Nat) :
    Good store (accepted_hash a now h) (l ++ [a.slice]) := by
  have hphased := hg.accept_phased hexpected hstatus now
  rw [show l.length + 1 = (l ++ [a.slice]).length by simp] at hphased
  exact { hg.accept_counted ha hexpected hbounds hslice hexecution hrefusal now, hphased with }

end Good

/-! ## What the fields of a hash say about each other -/

/-- The fields of a run hash agree with each other. -/
structure Consistent (store : RedisRunAggregationStore) (h : RunHash) : Prop where
  received : h.received_slices = h.slices.keys.length
  bijection : ∀ i key, h.slices.lookup i = some key ↔ h.executions.lookup key = some i
  indexes : ∀ i ∈ h.slices.keys, i < lua.tonumber h.expected_slices
  outcome : h.total = h.success + h.failure
  latency : h.histogram_bounds ≠ [] → h.received_slices ≠ 0 →
    (∀ j, j ∈ h.latency ↔ j < h.histogram_bounds.length) ∧
      ((List.range h.histogram_bounds.length).map (count h.latency)).sum = h.total
  kinds : h.error_kind_count = h.errors.keys.length
  kinds_le : h.error_kind_count ≤ store.max_error_kinds
  total_exact : h.total ≤ lua.MAX_EXACT ∧ h.success ≤ lua.MAX_EXACT ∧ h.failure ≤ lua.MAX_EXACT
  latency_exact : ∀ j, count h.latency j ≤ lua.MAX_EXACT
  errors_exact : ∀ kind, count h.errors kind ≤ lua.MAX_EXACT
  slices_exact : h.received_slices ≤ lua.MAX_EXACT ∧ h.error_kind_count ≤ lua.MAX_EXACT
  complete : h.status = .Complete ↔ h.received_slices = lua.tonumber h.expected_slices
  opened : h.status = .Open ↔ h.summary_revision = 0
  acknowledged : lua.tonumber h.summary_ack_revision ≤ lua.tonumber h.summary_pending_revision
  pending : lua.tonumber h.summary_pending_revision = h.summary_revision

theorem Good.consistent (hg : Good store h l) : Consistent store h := by
  have hreceived := hg.received
  have houtcome : h.success + h.failure = h.total := by
    rw [hg.tally]
    exact tally_outcome hg.fits
  have htotal := hg.total_exact
  exact
    { received := by rw [hreceived, hg.tally, length_keys_slices hg.indexes]
      bijection := by
        intro i key
        rw [hg.tally, lookup_slices hg.indexes, lookup_executions hg.keys]
        simp only [and_comm]
      indexes := by
        intro i hi
        rw [hg.tally, mem_tally_slices] at hi
        obtain ⟨s, hs, rfl⟩ := List.mem_map.mp hi
        exact (hg.fits s hs).index
      outcome := houtcome.symm
      latency := by
        intro hbounds hpos
        have hne : l ≠ [] := by
          rintro rfl
          exact hpos hreceived
        rw [hg.tally]
        exact ⟨mem_tally_latency hg.fits hne, tally_latency_sum hg.fits hbounds⟩
      kinds := by rw [hg.tally, tally_kinds]
      kinds_le := hg.kinds
      total_exact := ⟨htotal, by omega, by omega⟩
      latency_exact := hg.latency_exact
      errors_exact := hg.errors_exact
      slices_exact := by
        obtain ⟨n, hn, -, hle⟩ := hg.expected
        have hlength := length_le_expected hg.fits hg.indexes
        rw [hn, lua.tonumber_decimal] at hlength
        have hsmall : U32_MAX ≤ lua.MAX_EXACT := by decide
        exact ⟨by omega, Nat.le_trans hg.kinds store.error_kinds_limit.2⟩
      complete := by rw [hreceived]; exact hg.complete
      opened := hg.opened
      acknowledged := by rw [hg.pending_eq]; exact hg.acknowledged_le
      pending := hg.pending_eq }

/-! ## Every call keeps the invariant -/

/-- The hash of the run `i`. -/
structure Kept (store : RedisRunAggregationStore) (i : String) (h : RunHash) : Prop where
  run : h.run_id = i
  good : ∃ l, Good store h l ∧ BoundsUnset h l

variable {a : IngestArgs}

theorem IngestArgs.Binds.expected (hbinds : a.Binds h) :
    lua.tonumber h.expected_slices = a.expected_slices := by
  by_contra hne
  exact hbinds.agree (.inr (.inr (.inr (.inl hne))))

variable {result : ScenarioRunResult}

/-- A run without slices accepts every slice, unless it is cancelled. -/
theorem verdict_of_nil (hg : Good store h []) (ha : Admissible store result a)
    (hexpected : lua.tonumber h.expected_slices = a.expected_slices)
    (hstatus : h.status ≠ .Cancelled) : verdict a h = .Accept := by
  have hslices : h.slices.lookup a.slice.index = none := by
    rw [hg.tally, lookup_slices_eq_none]
    simp
  have hexecutions : h.executions.lookup a.slice.execution_key = none := by
    rw [hg.tally, lookup_executions_eq_none]
    simp
  have hpos := hg.expected_pos
  have hcomplete : h.status ≠ .Complete := by
    intro hs
    have hzero := hg.complete.mp hs
    rw [List.length_nil] at hzero
    omega
  have hdecided := verdict_cases a h
  generalize verdict a h = v at hdecided
  cases hdecided with
  | unknown hs => exact absurd hs (hg.status _)
  | duplicate _ hknown => rcases hknown with hk | hk <;> simp_all
  | taken hk => simp_all
  | moved _ hk => simp_all
  | terminal _ _ hs => exact absurd hs (by simp [hcomplete, hstatus])
  | overrun _ hreceived =>
    rw [hg.received, List.length_nil] at hreceived
    omega
  | refused _ _ _ _ hrefusal =>
    rw [hg.tally, tally_nil, refusal_empty ha] at hrefusal
    cases hrefusal
  | accepted => rfl

variable {i : String}

theorem Kept.bind (hk : Kept store i h) (ha : Admissible store result a) (hbinds : a.Binds h)
    (hverdict : verdict a (a.bind h) ≠ .Accept) : Kept store i (a.bind h) := by
  obtain ⟨l, hg, hunset⟩ := hk.good
  have hgood := hg.bind ha hbinds
  refine ⟨hk.run, l, hgood, ?_⟩
  rintro rfl
  by_contra hnot
  exact hverdict (verdict_of_nil hgood ha hbinds.expected fun hs => hnot (.inr hs))

theorem Kept.accept (hk : Kept store i h) (ha : Admissible store result a) (hbinds : a.Binds h)
    (hverdict : verdict a (a.bind h) = .Accept) (now : Nat) :
    Kept store i (accepted_hash a now (a.bind h)) := by
  obtain ⟨l, hg, -⟩ := hk.good
  have hdecided := verdict_cases a (a.bind h)
  rw [hverdict] at hdecided
  cases hdecided with
  | accepted hslice hexecution hstatus _ hrefusal =>
    have hgood := (hg.bind ha hbinds).accept ha hbinds.expected rfl hslice hexecution hstatus
      hrefusal now
    refine ⟨?_, _, hgood, by simp [BoundsUnset]⟩
    rw [(accepted_hash_fields a now (a.bind h)).2.2.2]
    exact hk.run

theorem Change.kept {now : Nat} {op : Op} {found : Option RunHash} {h' : RunHash}
    (hchange : Change store now i op found h') (hfound : ∀ h, found = some h → Kept store i h) :
    Kept store i h' := by
  cases hchange with
  | same => exact hfound _ rfl
  | registered hargs hrun hexpected =>
    exact ⟨hrun, [], Good.registered hargs hexpected, fun _ => .inl rfl⟩
  | first hargs hrun hrefusal =>
    have ha := RedisRunAggregationStore.ingest_args_ok hargs
    have hgood := Good.first ha now
    have hindex := ha.expected_le
    have hsmall : 4096 < lua.FIRST_SCIENTIFIC := by decide
    refine ⟨?_, _, hgood.accept ha (lua.tonumber_tostring (by omega)) rfl rfl rfl (.inl rfl)
      hrefusal now, by simp [BoundsUnset]⟩
    rw [(accepted_hash_fields _ now _).2.2.2]
    exact hrun
  | bound hargs hrun hbinds hverdict =>
    exact (hfound _ rfl).bind (RedisRunAggregationStore.ingest_args_ok hargs) hbinds hverdict
  | accepted hargs hrun hbinds hverdict =>
    exact (hfound _ rfl).accept (RedisRunAggregationStore.ingest_args_ok hargs) hbinds hverdict now
  | timed_out hopen =>
    obtain ⟨hrun, l, hg, hunset⟩ := hfound _ rfl
    refine ⟨hrun, l, hg.finalize hopen (.inl rfl) now, fun hnil => .inl ?_⟩
    exact (hunset hnil).resolve_right (by simp [hopen])
  | finalized hopen hrequested =>
    obtain ⟨hrun, l, hg, hunset⟩ := hfound _ rfl
    refine ⟨hrun, l, hg.finalize hopen (.inr hrequested) now, fun hnil => .inl ?_⟩
    exact (hunset hnil).resolve_right (by simp [hopen])
  | acknowledged hrevision =>
    obtain ⟨hrun, l, hg, hunset⟩ := hfound _ rfl
    exact ⟨hrun, l, hg.acknowledge hrevision, hunset⟩

theorem good_of_find {now : Nat} {e : Entry} (hk : ∀ k, e.key = some k → Kept store i k.value)
    (hfind : e.find now = some h) : ∃ l, Good store h l := by
  obtain ⟨k, hkey, rfl, -⟩ := get_eq_some.mp hfind
  obtain ⟨-, l, hg, -⟩ := hk k hkey
  exact ⟨l, hg⟩

theorem Effect.kept {now : Nat} {op : Op} {e e' : Entry} (heffect : Effect store now i op e e')
    (hk : ∀ k, e.key = some k → Kept store i k.value) :
    ∀ k, e'.key = some k → Kept store i k.value := by
  intro k' hk'
  rcases heffect.change with hsame | ⟨h', x, hkey, hchange⟩
  · exact hk k' (hsame ▸ hk')
  · rw [hkey] at hk'
    cases hk'
    apply hchange.kept
    intro h hfind
    obtain ⟨k, hkey, rfl, -⟩ := get_eq_some.mp hfind
    exact hk k hkey

end good

/-- The hash that a script finds in a reachable state is the hash of its run. -/
theorem reachable_kept {store : RedisRunAggregationStore} {limit : Nat}
    {allowed : World → Op → Prop} {w : World}
    (hw : Reachable (storeSystem store limit allowed) w) {i : String} {h : RunHash}
    (hfind : w.find i = some h) : Kept store i h :=
  hash_invariant (fun _ _ hfound hchange => hchange.kept hfound) hw hfind

end pulse.aggregation
