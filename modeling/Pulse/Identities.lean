-- The generated identities are texts put together without escapes, from names
-- that may hold any separator. Each one is read back from its ends: numbers
-- have no letters, and a name stands between two numbers or at one end.
import Pulse.ExecutionLease
import Pulse.ReplayJobs

open strings
open pulse.contracts pulse.dispatch pulse.planning pulse.replay

namespace pulse.coordination

/-- The key of an execution record. -/
def key_for (key_space : String) (claim : ExecutionClaim) : String :=
  key_space ++ ":" ++ claim.execution_key ++ ":attempt-" ++ toString claim.attempt

def key_for_lease (key_space : String) (lease : ExecutionLease) : String :=
  key_space ++ ":" ++ lease.execution_key ++ ":attempt-" ++ toString lease.attempt

theorem key_for_inj {key_space : String} {claim claim' : ExecutionClaim}
    (h : key_for key_space claim = key_for key_space claim') : claim = claim' := by
  obtain ⟨hkey, hattempt⟩ := cut_right ":attempt-" '-' (by decide)
    (not_mem_toString (by decide) _) (not_mem_toString (by decide) _) h
  rw [ExecutionClaim.mk.injEq]
  exact ⟨(String.append_right_inj _).mp hkey, toString_inj hattempt⟩

end pulse.coordination

namespace pulse.identities

/-! ## Windows, slices and events -/

variable {time total total' index index' : Nat}

theorem render_tostring (h : time < lua.FIRST_SCIENTIFIC) :
    (lua.tostring time).render = toString time := by
  rw [lua.tostring_of_lt h]
  rfl

theorem version_text (version : UInt16) : ':' ∉ ("v" ++ toString version.toNat).toList := by
  rw [String.toList_append, List.mem_append, not_or]
  exact ⟨by decide, not_mem_toString (by decide) _⟩

theorem window_id_inj {version version' : UInt16} {scenario_id scenario_id' : String} {time' : Nat}
    (htime : time < lua.FIRST_SCIENTIFIC) (htime' : time' < lua.FIRST_SCIENTIFIC)
    (h : window_id version scenario_id (lua.tostring time) total =
      window_id version' scenario_id' (lua.tostring time') total') :
    version = version' ∧ scenario_id = scenario_id' ∧ time = time' ∧ total = total' := by
  unfold window_id at h
  rw [render_tostring htime, render_tostring htime'] at h
  obtain ⟨hwindow, htotal⟩ := cut_right ":n" 'n' (by decide) (not_mem_toString (by decide) _)
    (not_mem_toString (by decide) _) h
  obtain ⟨hname, htime⟩ := cut_right ":w" 'w' (by decide) (not_mem_toString (by decide) _)
    (not_mem_toString (by decide) _) hwindow
  have hparts : "v" ++ toString version.toNat ++ ":s" ++
        (toString (len scenario_id) ++ ":" ++ scenario_id) =
      "v" ++ toString version'.toNat ++ ":s" ++
        (toString (len scenario_id') ++ ":" ++ scenario_id') := by
    simpa only [String.append_assoc] using hname
  obtain ⟨hversion, hrest⟩ := cut_left ":s" ':' (by decide) (version_text version)
    (version_text version') hparts
  obtain ⟨-, hscenario⟩ := cut_left ":" ':' (by decide) (not_mem_toString (by decide) _)
    (not_mem_toString (by decide) _) hrest
  have hversions := toString_inj ((String.append_right_inj _).mp hversion)
  exact ⟨UInt16.toNat_inj.mp hversions, hscenario, toString_inj htime, toString_inj htotal⟩

theorem slice_key_inj {window window' : String}
    (h : slice_key window index total = slice_key window' index' total') :
    window = window' ∧ index = index' ∧ total = total' := by
  unfold slice_key at h
  obtain ⟨hslice, htotal⟩ := cut_right "-of-" '-' (by decide) (not_mem_toString (by decide) _)
    (not_mem_toString (by decide) _) h
  obtain ⟨hwindow, hindex⟩ := cut_right ":slice-" '-' (by decide) (not_mem_toString (by decide) _)
    (not_mem_toString (by decide) _) hslice
  exact ⟨hwindow, toString_inj hindex, toString_inj htotal⟩

theorem execution_key_determines {window window' : DispatchWindow} {index index' : UInt32}
    {key : String} (h : window.execution_key index = some key)
    (h' : window'.execution_key index' = some key) :
    window.window_id = window'.window_id ∧ index = index' := by
  unfold DispatchWindow.execution_key at h h'
  split at h
  · split at h'
    · cases h
      obtain ⟨hwindow, hindex, -⟩ := slice_key_inj (Option.some.inj h')
      exact ⟨hwindow.symm, UInt32.toNat_inj.mp hindex.symm⟩
    · cases h'
  · cases h

theorem terminal_event_id_inj {key key' : String} {attempt attempt' : UInt32} {kind kind' : String}
    (hkind : kind = "result" ∨ kind = "dlq") (hkind' : kind' = "result" ∨ kind' = "dlq")
    (h : build_terminal_event_id key attempt kind = build_terminal_event_id key' attempt' kind') :
    key = key' ∧ attempt = attempt' ∧ kind = kind' := by
  have hcolon : ∀ kind : String, kind = "result" ∨ kind = "dlq" → ':' ∉ kind.toList := by
    rintro kind (rfl | rfl) <;> decide
  obtain ⟨hevent, hkinds⟩ := cut_right ":" ':' (by decide) (hcolon kind hkind)
    (hcolon kind' hkind') h
  obtain ⟨hkey, hattempt⟩ := cut_right ":attempt-" '-' (by decide)
    (not_mem_toString (by decide) attempt.toNat)
    (not_mem_toString (by decide) attempt'.toNat) hevent
  exact ⟨hkey, UInt32.toNat_inj.mp (toString_inj hattempt), hkinds⟩

/-! ## Replays -/

theorem toInt_partition_nonneg (source : ReplaySource) : 0 ≤ source.partition.toInt := by
  have hneg := source.partition_nonneg
  rw [Int32.lt_iff_toInt_lt] at hneg
  exact Int.not_lt.mp hneg

theorem toInt_offset_nonneg (source : ReplaySource) : 0 ≤ source.offset.toInt := by
  have hneg := source.offset_nonneg
  rw [Int64.lt_iff_toInt_lt] at hneg
  exact Int.not_lt.mp hneg

/-- The text of a number of Kafka has digits only. -/
theorem not_mem_int {c : Char} (hc : c.isDigit = false) {z : Int} (h : 0 ≤ z) :
    c ∉ (toString z).toList := by
  rw [toString_int h]
  exact not_mem_toString hc _

theorem toString_int_inj {z z' : Int} (h : 0 ≤ z) (h' : 0 ≤ z') (heq : toString z = toString z') :
    z = z' := by
  rw [toString_int h, toString_int h'] at heq
  have hnat := toString_inj heq
  omega

theorem not_mem_encode (bytes : List UInt8) : ':' ∉ (base64.encode bytes).toList := by
  intro hmem
  exact absurd (base64.mem_encode hmem) (by decide)

theorem replay_run_id_inj {source source' : ReplaySource} {hash hash' : Nat}
    (hhash : hash < 2 ^ 128) (hhash' : hash' < 2 ^ 128)
    (h : replay_run_id source hash = replay_run_id source' hash') :
    source = source' ∧ hash = hash' := by
  have hparts : ∀ (s : ReplaySource) (n : Nat), replay_run_id s n =
      "v" ++ toString CURRENT_CONTRACT_VERSION ++ ":replay:t" ++
        (base64.encode s.topic.toUTF8.data.toList ++ ":p" ++ (toString s.partition.toInt ++ ":o" ++
          (toString s.offset.toInt ++ ":e" ++ hex 32 n))) := by
    intro s n
    simp only [replay_run_id, String.append_assoc]
    rfl
  rw [hparts, hparts, String.append_right_inj] at h
  obtain ⟨htopic, hrest⟩ := cut_left ":p" ':' (by decide) (not_mem_encode _) (not_mem_encode _) h
  obtain ⟨hpartition, hrest⟩ := cut_left ":o" ':' (by decide)
    (not_mem_int (by decide) (toInt_partition_nonneg source))
    (not_mem_int (by decide) (toInt_partition_nonneg source')) hrest
  obtain ⟨hoffset, hhashes⟩ := cut_left ":e" ':' (by decide)
    (not_mem_int (by decide) (toInt_offset_nonneg source))
    (not_mem_int (by decide) (toInt_offset_nonneg source')) hrest
  have hbytes := Array.toList_inj.mp (base64.encode_inj htopic)
  have hutf8 : source.topic.toUTF8 = source'.topic.toUTF8 := ByteArray.ext hbytes
  have hpartitions := toString_int_inj (toInt_partition_nonneg source)
    (toInt_partition_nonneg source') hpartition
  have hoffsets := toString_int_inj (toInt_offset_nonneg source)
    (toInt_offset_nonneg source') hoffset
  refine ⟨?_, hex_inj (by norm_num; omega) (by norm_num; omega) hhashes⟩
  rw [ReplaySource.mk.injEq]
  exact ⟨String.toByteArray_inj.mp hutf8, Int32.toInt_inj.mp hpartitions,
    Int64.toInt_inj.mp hoffsets⟩

/-- After the version, a replay goes on with another letter than a window. -/
theorem replay_ne_window (source : ReplaySource) (hash : Nat) (version : UInt16)
    (scenario_id : String) (time : lua.Text) (total : Nat) :
    replay_run_id source hash ≠ window_id version scenario_id time total := by
  intro h
  have hreplay : ∃ rest, replay_run_id source hash =
      "v" ++ toString CURRENT_CONTRACT_VERSION.toNat ++ ":" ++ ("replay:t" ++ rest) := by
    have hsep : ":replay:t" = ":" ++ "replay:t" := by decide
    simp only [replay_run_id, hsep, String.append_assoc]
    exact ⟨_, rfl⟩
  have hwindow : ∃ rest, window_id version scenario_id time total =
      "v" ++ toString version.toNat ++ ":" ++ ("s" ++ rest) := by
    have hsep : ":s" = ":" ++ "s" := by decide
    simp only [window_id, hsep, String.append_assoc]
    exact ⟨_, rfl⟩
  obtain ⟨rest, hreplay⟩ := hreplay
  obtain ⟨rest', hwindow⟩ := hwindow
  rw [hreplay, hwindow] at h
  obtain ⟨-, hletters⟩ := cut_left ":" ':' (by decide) (version_text _) (version_text _) h
  have hlists := congrArg String.toList hletters
  simp at hlists

theorem fnv1a_128_lt (bytes : List UInt8) : fnv1a_128 bytes < 2 ^ 128 := by
  have hfold : ∀ hash < 2 ^ 128,
      bytes.foldl (fun hash byte => (hash ^^^ byte.toNat) * FNV_PRIME % 2 ^ 128) hash <
        2 ^ 128 := by
    induction bytes with
    | nil => exact fun hash hlt => hlt
    | cons byte bytes ih =>
      intro hash _
      exact ih _ (Nat.mod_lt _ (by decide))
  exact hfold FNV_OFFSET (by decide)

/-! ## Runs and their slices -/

/-- A run that is executed: a window of a scenario, or the replay of a failed job. -/
inductive Run
  | scheduled (version : UInt16) (scenario_id : String) (scheduled_at total_slices : Nat)
  | replay (source : ReplaySource) (event_hash : Nat)

namespace Run

def id : Run → String
  | .scheduled version scenario_id scheduled_at total_slices =>
    window_id version scenario_id (lua.tostring scheduled_at) total_slices
  | .replay source event_hash => replay_run_id source event_hash

def total_slices : Run → Nat
  | .scheduled _ _ _ total_slices => total_slices
  | .replay _ _ => 1

def execution_key (run : Run) (slice_index : Nat) : String :=
  slice_key run.id slice_index run.total_slices

/-- The time is one that Lua writes with all its digits, and the hash has 128 bits. -/
def Fits : Run → Prop
  | .scheduled _ _ scheduled_at _ => scheduled_at < lua.FIRST_SCIENTIFIC
  | .replay _ event_hash => event_hash < 2 ^ 128

theorem id_inj {run run' : Run} (hfits : run.Fits) (hfits' : run'.Fits) (h : run.id = run'.id) :
    run = run' := by
  cases run with
  | scheduled version scenario_id scheduled_at total_slices =>
    cases run' with
    | scheduled version' scenario_id' scheduled_at' total_slices' =>
      obtain ⟨rfl, rfl, rfl, rfl⟩ := window_id_inj hfits hfits' h
      rfl
    | replay source' event_hash' => exact absurd h.symm (replay_ne_window _ _ _ _ _ _)
  | replay source event_hash =>
    cases run' with
    | scheduled version' scenario_id' scheduled_at' total_slices' =>
      exact absurd h (replay_ne_window _ _ _ _ _ _)
    | replay source' event_hash' =>
      obtain ⟨rfl, rfl⟩ := replay_run_id_inj hfits hfits' h
      rfl

theorem execution_key_inj {run run' : Run} (hfits : run.Fits) (hfits' : run'.Fits)
    (h : run.execution_key index = run'.execution_key index') : run = run' ∧ index = index' := by
  obtain ⟨hid, hindex, -⟩ := slice_key_inj h
  exact ⟨id_inj hfits hfits' hid, hindex⟩

end Run

/-- The identities of one kind determine what they are made of, the kinds of runs do not meet,
and so two slices or two attempts share neither a record nor an event. -/
theorem identities_determine_their_parts :
    (∀ (version version' : UInt16) (scenario_id scenario_id' : String)
      (time time' total total' : Nat),
      time < lua.FIRST_SCIENTIFIC → time' < lua.FIRST_SCIENTIFIC →
      window_id version scenario_id (lua.tostring time) total =
        window_id version' scenario_id' (lua.tostring time') total' →
      version = version' ∧ scenario_id = scenario_id' ∧ time = time' ∧ total = total') ∧
    (∀ (window window' : DispatchWindow) (index index' : UInt32) (key : String),
      window.execution_key index = some key → window'.execution_key index' = some key →
      window.window_id = window'.window_id ∧ index = index') ∧
    (∀ (key key' : String) (attempt attempt' : UInt32) (kind kind' : String),
      kind = "result" ∨ kind = "dlq" → kind' = "result" ∨ kind' = "dlq" →
      build_terminal_event_id key attempt kind = build_terminal_event_id key' attempt' kind' →
      key = key' ∧ attempt = attempt' ∧ kind = kind') ∧
    (∀ (key_space : String) (claim claim' : coordination.ExecutionClaim),
      coordination.key_for key_space claim = coordination.key_for key_space claim' →
      claim = claim') ∧
    (∀ (source source' : ReplaySource) (hash hash' : Nat), hash < 2 ^ 128 → hash' < 2 ^ 128 →
      replay_run_id source hash = replay_run_id source' hash' → source = source' ∧ hash = hash') ∧
    (∀ (source : ReplaySource) (hash : Nat) (version : UInt16) (scenario_id : String)
      (time : lua.Text) (total : Nat),
      replay_run_id source hash ≠ window_id version scenario_id time total) ∧
    ∀ run run' : Run, run.Fits → run'.Fits →
      (run.id = run'.id → run = run') ∧
      (∀ (key_space : String) (index index' attempt attempt' : Nat),
        coordination.key_for key_space ⟨run.execution_key index, attempt⟩ =
          coordination.key_for key_space ⟨run'.execution_key index', attempt'⟩ →
        run = run' ∧ index = index' ∧ attempt = attempt') ∧
      ∀ (index index' : Nat) (attempt attempt' : UInt32),
        build_terminal_event_id (run.execution_key index) attempt "result" =
          build_terminal_event_id (run'.execution_key index') attempt' "result" →
        run = run' ∧ index = index' ∧ attempt = attempt' := by
  refine ⟨?_, ?_, ?_, ?_, ?_, replay_ne_window, ?_⟩
  · intro version version' scenario_id scenario_id' time time' total total' htime htime' h
    exact window_id_inj htime htime' h
  · intro window window' index index' key h h'
    exact execution_key_determines h h'
  · intro key key' attempt attempt' kind kind' hkind hkind' h
    exact terminal_event_id_inj hkind hkind' h
  · intro key_space claim claim' h
    exact coordination.key_for_inj h
  · intro source source' hash hash' hhash hhash' h
    exact replay_run_id_inj hhash hhash' h
  · intro run run' hfits hfits'
    refine ⟨Run.id_inj hfits hfits', ?_, ?_⟩
    · intro key_space index index' attempt attempt' h
      have hclaim := coordination.key_for_inj h
      rw [coordination.ExecutionClaim.mk.injEq] at hclaim
      obtain ⟨hrun, hindex⟩ := Run.execution_key_inj hfits hfits' hclaim.1
      exact ⟨hrun, hindex, hclaim.2⟩
    · intro index index' attempt attempt' h
      obtain ⟨hkey, hattempt, -⟩ := terminal_event_id_inj (.inl rfl) (.inl rfl) h
      obtain ⟨hrun, hindex⟩ := Run.execution_key_inj hfits hfits' hkey
      exact ⟨hrun, hindex, hattempt⟩

/-- The separators of an identity may stand in the name of a scenario. -/
theorem separators_in_a_name_do_no_harm :
    window_id 2 "a:w5:n2" (lua.tostring 7) 1 ≠ window_id 2 "a" (lua.tostring 5) 2 := by
  intro h
  obtain ⟨-, hname, -, -⟩ := identities_determine_their_parts.1 2 2 "a:w5:n2" "a" 7 5 1 2
    (by decide) (by decide) h
  exact absurd hname (by decide)

end pulse.identities
