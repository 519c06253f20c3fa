-- The text that the fingerprint of a plan hashes. It joins free texts with
-- labels and no escapes, so it is read back only where no text holds the
-- label that follows it.
import Pulse.JsonText
import Pulse.ScenarioSchema

open checks durations Duration strings
open pulse.config pulse.contracts pulse.dispatch pulse.planning

namespace pulse.config

/-! ## The bits of a rate -/

namespace F64

/-- The exponent and the fraction. -/
def magnitude (x : ℚ) : Nat :=
  let last := floats.lastBit x
  let digits := (floats.nearest (|x| / 2 ^ last)).toNat
  if digits < 2 ^ 52 then digits else (last + 1075).toNat * 2 ^ 52 + (digits - 2 ^ 52)

def of_magnitude (bits : Nat) : ℚ :=
  if bits < 2 ^ 52 then bits * 2 ^ (-1074 : ℤ)
  else (2 ^ 52 + bits % 2 ^ 52 : Nat) * 2 ^ ((bits / 2 ^ 52 : Nat) - 1075 : ℤ)

/-- `f64::from_bits`. -/
def from_bits (bits : Nat) : F64 :=
  let rest := bits % 2 ^ 63
  if rest < 2047 * 2 ^ 52 then
    .finite (if 2 ^ 63 ≤ bits then -of_magnitude rest else of_magnitude rest)
  else if rest = 2047 * 2 ^ 52 then .infinite (2 ^ 63 ≤ bits) else .nan

variable {x : ℚ}

/-- A double is a number of its last bits. -/
theorem digits_of_exact (h : floats.round x = x) : ∃ digits : Nat,
    floats.nearest (|x| / 2 ^ floats.lastBit x) = digits ∧ digits < 2 ^ 53 ∧
      |x| = digits * 2 ^ floats.lastBit x := by
  have hpos := floats.two_zpow_pos (floats.lastBit x)
  obtain ⟨z, hz⟩ : ∃ z : ℤ, |x| / 2 ^ floats.lastBit x = z := by
    refine ⟨|floats.nearest (x / 2 ^ floats.lastBit x)|, ?_⟩
    rw [div_eq_iff hpos.ne']
    conv_lhs => rw [← h]
    rw [floats.round, abs_mul, abs_of_pos hpos]
    push_cast
    rfl
  have hnonneg : 0 ≤ z := by
    have hquotient : 0 ≤ |x| / 2 ^ floats.lastBit x := div_nonneg (abs_nonneg x) hpos.le
    rw [hz] at hquotient
    exact_mod_cast hquotient
  obtain ⟨digits, rfl⟩ := Int.eq_ofNat_of_zero_le hnonneg
  refine ⟨digits, by rw [hz, floats.nearest_intCast], ?_, (div_eq_iff hpos.ne').mp hz⟩
  have hlt := floats.abs_div_lastBit_lt x
  rw [abs_div, abs_of_pos hpos, hz] at hlt
  exact_mod_cast hlt

/-- A double with fewer bits has the smallest exponent. -/
theorem lastBit_of_digits_lt {digits : Nat} (hx : |x| = digits * 2 ^ floats.lastBit x)
    (hdigits : digits < 2 ^ 52) (hne : x ≠ 0) : floats.lastBit x = -1074 := by
  by_contra hlast
  have hnormal : floats.lastBit x = Int.log 2 |x| - 52 := by
    unfold floats.lastBit at hlast ⊢
    omega
  have hlow := Int.zpow_log_le_self (b := 2) (by norm_num) (abs_pos.mpr hne)
  have hpow : ((2 : ℕ) : ℚ) ^ Int.log 2 |x| = 2 ^ 52 * 2 ^ floats.lastBit x := by
    rw [hnormal, ← zpow_natCast, ← zpow_add₀ (by norm_num)]
    push_cast
    congr 1
    omega
  rw [hpow, hx] at hlow
  have hle := le_of_mul_le_mul_right hlow (floats.two_zpow_pos _)
  have hnat : 2 ^ 52 ≤ digits := by exact_mod_cast hle
  omega

theorem of_magnitude_magnitude (h : floats.round x = x) : of_magnitude (magnitude x) = |x| := by
  obtain ⟨digits, hdigits, hlt, hx⟩ := digits_of_exact h
  have hlast : -1074 ≤ floats.lastBit x := le_max_right _ _
  unfold magnitude
  dsimp only
  rw [hdigits, Int.toNat_natCast]
  split
  · rename_i hsmall
    rw [of_magnitude, if_pos hsmall]
    by_cases hzero : x = 0
    · rw [hzero, abs_zero] at hx ⊢
      rcases mul_eq_zero.mp hx.symm with hnone | hpow
      · rw [hnone, zero_mul]
      · exact absurd hpow (floats.two_zpow_pos _).ne'
    · rw [hx, lastBit_of_digits_lt hx hsmall hzero]
  · rename_i hlarge
    have hbits : ((floats.lastBit x + 1075).toNat * 2 ^ 52 + (digits - 2 ^ 52)) / 2 ^ 52 =
        (floats.lastBit x + 1075).toNat ∧
      ((floats.lastBit x + 1075).toNat * 2 ^ 52 + (digits - 2 ^ 52)) % 2 ^ 52 =
        digits - 2 ^ 52 := by
      omega
    rw [of_magnitude, if_neg (by omega), hbits.1, hbits.2, hx]
    have hexponent : (((floats.lastBit x + 1075).toNat : ℕ) : ℤ) - 1075 = floats.lastBit x := by
      omega
    have hsum : 2 ^ 52 + (digits - 2 ^ 52) = digits := by omega
    rw [hexponent, hsum]

theorem magnitude_lt (h : floats.round x = x) (hlt : |x| < 2 ^ 1024) :
    magnitude x < 2047 * 2 ^ 52 := by
  obtain ⟨digits, hdigits, hdigits53, hx⟩ := digits_of_exact h
  have hlast : floats.lastBit x ≤ 971 := by
    have hlog : Int.log 2 |x| < 1024 := by
      by_cases hzero : |x| = 0
      · rw [hzero, Int.log_zero_right]
        norm_num
      · rw [← Int.lt_zpow_iff_log_lt (by norm_num) (lt_of_le_of_ne (abs_nonneg x) (Ne.symm hzero))]
        exact_mod_cast hlt
    unfold floats.lastBit
    omega
  unfold magnitude
  dsimp only
  rw [hdigits, Int.toNat_natCast]
  generalize floats.lastBit x = last at hlast
  have hmul : (last + 1075).toNat * 2 ^ 52 ≤ 2046 * 2 ^ 52 :=
    Nat.mul_le_mul_right _ (by omega)
  split <;> omega

theorem to_bits_finite (x : ℚ) :
    (finite x).to_bits = (if x < 0 then 2 ^ 63 else 0) + magnitude x := rfl

theorem to_bits_lt (x : Double) : x.value.to_bits < 16 ^ 16 := by
  obtain ⟨value, hexact⟩ := x
  cases value with
  | finite x =>
    have hlt := magnitude_lt (hexact x rfl).1 (hexact x rfl).2
    rw [to_bits_finite]
    split <;> omega
  | infinite negative =>
    change (infinite negative).to_bits < 16 ^ 16
    cases negative <;> decide
  | nan => exact (by decide : nan.to_bits < 16 ^ 16)

/-- The bits of a double are those of no other one. -/
theorem from_bits_to_bits (x : Double) : from_bits x.value.to_bits = x.value := by
  obtain ⟨value, hexact⟩ := x
  cases value with
  | finite x =>
    have hlt := magnitude_lt (hexact x rfl).1 (hexact x rfl).2
    have habs := of_magnitude_magnitude (hexact x rfl).1
    rw [to_bits_finite, from_bits]
    generalize magnitude x = bits at hlt habs
    dsimp only
    by_cases hneg : x < 0
    · have hrest : (2 ^ 63 + bits) % 2 ^ 63 = bits := by omega
      rw [if_pos hneg, hrest, if_pos hlt, if_pos (by omega), habs, abs_of_neg hneg, neg_neg]
    · have hrest : (0 + bits) % 2 ^ 63 = bits := by omega
      rw [if_neg hneg, hrest, if_pos hlt, if_neg (by omega), habs, abs_of_nonneg (not_lt.mp hneg)]
  | infinite negative =>
    change from_bits (infinite negative).to_bits = .infinite negative
    cases negative <;> decide +kernel
  | nan => exact (by decide +kernel : from_bits nan.to_bits = nan)

theorem to_bits_inj {x y : Double} (h : x.value.to_bits = y.value.to_bits) : x = y := by
  have hvalue : x.value = y.value := by rw [← from_bits_to_bits x, h, from_bits_to_bits]
  cases x
  cases y
  cases hvalue
  rfl

end F64

end pulse.config

namespace pulse.planning

/-! ## The text of a plan -/

/-- The steps of a plan, each behind its label. -/
def steps_material : List Step → String
  | [] => ""
  | step :: rest => "|step=" ++ (step.fingerprint_material ++ steps_material rest)

theorem foldl_steps (material : String) (steps : List Step) :
    steps.foldl (fun material step => material ++ "|step=" ++ step.fingerprint_material) material =
      material ++ steps_material steps := by
  induction steps generalizing material with
  | nil => simp [steps_material]
  | cons step rest ih =>
    rw [List.foldl_cons, ih, steps_material]
    simp only [String.append_assoc]

/-- The text from the left: each field with the label that follows it. -/
theorem scenario_plan_material_eq (scenario : Scenario) (slices : UInt32)
    (global_startup_burst : Nat) (worker_max_retries : UInt32) (semantics : String) :
    scenario_plan_material scenario slices global_startup_burst worker_max_retries semantics =
      "v" ++ toString CURRENT_CONTRACT_VERSION ++ "|endpoint=" ++ (scenario.config.endpoint ++
      "|rate=" ++ (hex 16 scenario.config.scenarios_per_sec.value.to_bits ++
      "|duration_ms=" ++ (toString (as_millis scenario.config.duration) ++
      "|concurrency=" ++ (toString scenario.config.max_concurrency ++
      "|slices=" ++ (toString slices.toNat ++ "|startup_burst=" ++ (toString global_startup_burst ++
      "|max_retries=" ++ (toString worker_max_retries.toNat ++
      "|repeat=" ++ (repeat_material scenario.config.repeat_policy ++
      "|partition=" ++ (partition_material scenario.config.partition_key_strategy ++
      "|execution_semantics=" ++ (semantics ++ steps_material scenario.steps)))))))))) := by
  rw [scenario_plan_material, foldl_steps]
  simp only [String.append_assoc]
  rfl

theorem bar_not_mem_repeat (policy : RepeatPolicy) : '|' ∉ (repeat_material policy).toList := by
  cases policy with
  | Once => decide
  | Every interval =>
    rw [repeat_material, String.toList_append, List.mem_append, not_or]
    exact ⟨by decide, not_mem_toString (by decide) _⟩

theorem bar_not_mem_partition (strategy : PartitionKeyStrategy) :
    '|' ∉ (partition_material strategy).toList := by
  cases strategy <;> decide

/-- What two texts have in common when they are the same. -/
structure SameFields (scenario scenario' : Scenario) (slices slices' : UInt32) (burst burst' : Nat)
    (semantics semantics' : String) : Prop where
  endpoint : scenario.config.endpoint = scenario'.config.endpoint
  rate : scenario.config.scenarios_per_sec = scenario'.config.scenarios_per_sec
  duration : as_millis scenario.config.duration = as_millis scenario'.config.duration
  concurrency : scenario.config.max_concurrency = scenario'.config.max_concurrency
  slices : slices = slices'
  burst : burst = burst'
  repeat_policy : repeat_material scenario.config.repeat_policy =
    repeat_material scenario'.config.repeat_policy
  partition : partition_material scenario.config.partition_key_strategy =
    partition_material scenario'.config.partition_key_strategy
  rest : semantics ++ steps_material scenario.steps = semantics' ++ steps_material scenario'.steps

/-- The fields are read back from the left when no endpoint holds the label that follows it. -/
theorem same_fields {scenario scenario' : Scenario} {slices slices' retries retries' : UInt32}
    {burst burst' : Nat} {semantics semantics' : String}
    (hread : ¬ contains scenario.config.endpoint "|rate=")
    (hread' : ¬ contains scenario'.config.endpoint "|rate=")
    (h : scenario_plan_material scenario slices burst retries semantics =
      scenario_plan_material scenario' slices' burst' retries' semantics') :
    SameFields scenario scenario' slices slices' burst burst' semantics semantics' := by
  rw [scenario_plan_material_eq, scenario_plan_material_eq, String.append_right_inj] at h
  have hnumber : ∀ n : Nat, '|' ∉ (toString n).toList := fun n => not_mem_toString (by decide) n
  obtain ⟨hendpoint, h⟩ := cut_label "|rate=" (by decide) hread hread' h
  obtain ⟨hrate, h⟩ := cut_left "|duration_ms=" '|' (by decide) (not_mem_hex (by decide) _ _)
    (not_mem_hex (by decide) _ _) h
  obtain ⟨hduration, h⟩ := cut_left "|concurrency=" '|' (by decide) (hnumber _) (hnumber _) h
  obtain ⟨hconcurrency, h⟩ := cut_left "|slices=" '|' (by decide) (hnumber _) (hnumber _) h
  obtain ⟨hslices, h⟩ := cut_left "|startup_burst=" '|' (by decide) (hnumber _) (hnumber _) h
  obtain ⟨hburst, h⟩ := cut_left "|max_retries=" '|' (by decide) (hnumber _) (hnumber _) h
  obtain ⟨-, h⟩ := cut_left "|repeat=" '|' (by decide) (hnumber _) (hnumber _) h
  obtain ⟨hrepeat, h⟩ := cut_left "|partition=" '|' (by decide) (bar_not_mem_repeat _)
    (bar_not_mem_repeat _) h
  obtain ⟨hpartition, hrest⟩ := cut_left "|execution_semantics=" '|' (by decide)
    (bar_not_mem_partition _) (bar_not_mem_partition _) h
  exact {
    endpoint := hendpoint
    rate := F64.to_bits_inj (hex_inj (F64.to_bits_lt _) (F64.to_bits_lt _) hrate)
    duration := toString_inj hduration
    concurrency := toString_inj hconcurrency
    slices := UInt32.toNat_inj.mp (toString_inj hslices)
    burst := toString_inj hburst
    repeat_policy := hrepeat
    partition := hpartition
    rest := hrest }

end pulse.planning

namespace pulse.schema

/-! ## The text of a step -/

variable (serde : json.Serde)

/-- The texts of a step do not hold the label that follows them, an override does not read as the
default, and the keys and paths of the extraction have none of its separators. -/
structure ReadableStep (step : DynamicGrpcStep) : Prop where
  not_default : step.endpoint_override ≠ some "<default>"
  endpoint : ¬ contains (step.endpoint_override.getD "<default>") "|service="
  service : ¬ contains step.service "|method="
  method : ¬ contains step.method "|request="
  request : ¬ contains (request_material serde step.request_spec) "|extract="
  entries : ∀ entry ∈ step.extraction.entries,
    '=' ∉ entry.1.toList ∧ ',' ∉ entry.1.toList ∧ ',' ∉ entry.2.toList
  extraction : ¬ contains (extraction_material step.extraction) "|payload_key="
  payload_key : ¬ contains (step.response_payload_context_key.getD "") "|step="

/-- The templates of the requests of two steps have one text only when they are one template. -/
def PrintedApart (step step' : DynamicGrpcStep) : Prop :=
  ∀ value value', step.request_spec = .FieldTemplate value →
    step'.request_spec = .FieldTemplate value' → serde.to_string value = serde.to_string value' →
      value = value'

/-- Two steps that do the same. -/
structure SameStep (step step' : DynamicGrpcStep) : Prop where
  endpoint_override : step.endpoint_override = step'.endpoint_override
  service : step.service = step'.service
  method : step.method = step'.method
  request_spec : step.request_spec = step'.request_spec
  extraction : step.extraction.entries.Perm step'.extraction.entries
  payload_key : step.response_payload_context_key = step'.response_payload_context_key

variable {serde} {step step' : DynamicGrpcStep}

/-- A default is told apart from a value that is not written like it. -/
theorem getD_inj {default : String} {value value' : Option String} (h : value ≠ some default)
    (h' : value' ≠ some default) (heq : value.getD default = value'.getD default) :
    value = value' := by
  cases value with
  | none =>
    cases value' with
    | none => rfl
    | some text' => exact absurd (congrArg some heq.symm) h'
  | some text =>
    cases value' with
    | none => exact absurd (congrArg some heq) h
    | some text' => exact congrArg some heq

theorem request_material_inj {spec spec' : GrpcRequestSpec}
    (hserde : ∀ value value', spec = .FieldTemplate value → spec' = .FieldTemplate value' →
      serde.to_string value = serde.to_string value' → value = value')
    (h : request_material serde spec = request_material serde spec') : spec = spec' := by
  have hhead : ∀ {a b : String}, a = b → a.toList.head? = b.toList.head? := fun h => by rw [h]
  cases spec with
  | Empty =>
    cases spec' with
    | Empty => rfl
    | StaticBase64Template | FieldTemplate =>
      exact absurd (hhead h) (by simp [request_material])
  | StaticBase64Template template =>
    cases spec' with
    | Empty | FieldTemplate => exact absurd (hhead h) (by simp [request_material])
    | StaticBase64Template template' => rw [(String.append_right_inj _).mp h]
  | FieldTemplate value =>
    cases spec' with
    | Empty | StaticBase64Template => exact absurd (hhead h) (by simp [request_material])
    | FieldTemplate value' =>
      rw [hserde value value' rfl rfl ((String.append_right_inj _).mp h)]

/-- Entries are read back from their texts: a key ends at the first `=`. -/
theorem entry_texts_inj {entries entries' : List (String × String)}
    (h : ∀ entry ∈ entries, '=' ∉ entry.1.toList) (h' : ∀ entry ∈ entries', '=' ∉ entry.1.toList)
    (heq : entries.map (fun (key, path) => key ++ "=" ++ path) =
      entries'.map fun (key, path) => key ++ "=" ++ path) : entries = entries' := by
  induction entries generalizing entries' with
  | nil => exact (List.map_eq_nil_iff.mp heq.symm).symm
  | cons entry rest ih =>
    cases entries' with
    | nil => cases heq
    | cons entry' rest' =>
      obtain ⟨htext, hrest⟩ := List.cons.inj heq
      obtain ⟨hkey, hpath⟩ := cut_left "=" '=' (by decide) (h entry List.mem_cons_self)
        (h' entry' List.mem_cons_self) htext
      rw [Prod.ext hkey hpath, ih (fun e he => h e (List.mem_cons_of_mem _ he))
        (fun e he => h' e (List.mem_cons_of_mem _ he)) hrest]

/-- The entries of an extraction are read back in the order of their keys. -/
theorem extraction_material_inj {extraction extraction' : TextMap}
    (hentries : ∀ entry ∈ extraction.entries,
      '=' ∉ entry.1.toList ∧ ',' ∉ entry.1.toList ∧ ',' ∉ entry.2.toList)
    (hentries' : ∀ entry ∈ extraction'.entries,
      '=' ∉ entry.1.toList ∧ ',' ∉ entry.1.toList ∧ ',' ∉ entry.2.toList)
    (h : extraction_material extraction = extraction_material extraction') :
    extraction.entries.Perm extraction'.entries := by
  have hperm := fun entries : List (String × String) =>
    List.perm_insertionSort (fun left right => left.1 ≤ right.1) entries
  have htexts : ∀ entries : List (String × String), (∀ entry ∈ entries,
        '=' ∉ entry.1.toList ∧ ',' ∉ entry.1.toList ∧ ',' ∉ entry.2.toList) →
      ∀ text ∈ (entries.insertionSort fun left right => left.1 ≤ right.1).map
        (fun (key, path) => key ++ "=" ++ path), text ≠ "" ∧ ',' ∉ text.toList := by
    intro entries hentries text hmem
    obtain ⟨entry, hentry, rfl⟩ := List.mem_map.mp hmem
    obtain ⟨-, hkey, hpath⟩ := hentries entry ((hperm entries).mem_iff.mp hentry)
    refine ⟨fun hempty => ?_, ?_⟩
    · have hlists := congrArg String.toList hempty
      simp at hlists
    · simp only [String.toList_append, List.mem_append, not_or]
      exact ⟨⟨hkey, by decide⟩, hpath⟩
  have hlists := join_inj (htexts _ hentries) (htexts _ hentries') h
  have hsame : extraction.entries.insertionSort (fun left right => left.1 ≤ right.1) =
      extraction'.entries.insertionSort fun left right => left.1 ≤ right.1 :=
    entry_texts_inj (fun entry hmem => (hentries entry ((hperm _).mem_iff.mp hmem)).1)
      (fun entry hmem => (hentries' entry ((hperm _).mem_iff.mp hmem)).1) hlists
  exact (hperm _).symm.trans (hsame ▸ hperm _)

/-! ## The texts of the steps -/

/-- The text of a step from the left: each field with the label that follows it. -/
theorem fingerprint_material_append (step : DynamicGrpcStep) (tail : String) :
    step.fingerprint_material serde ++ tail =
      "grpc|endpoint=" ++ (step.endpoint_override.getD "<default>" ++ "|service=" ++
        (step.service ++
        "|method=" ++ (step.method ++ "|request=" ++ (request_material serde step.request_spec ++
        "|extract=" ++ (extraction_material step.extraction ++ "|payload_key=" ++
        (step.response_payload_context_key.getD "" ++ tail)))))) := by
  unfold DynamicGrpcStep.fingerprint_material
  generalize step.endpoint_override.getD "<default>" = endpoint
  generalize step.response_payload_context_key.getD "" = payload_key
  simp only [String.append_assoc]

/-- Two steps with one text, each with the steps behind it. -/
theorem step_material_inj {tail tail' : String} (h : ReadableStep serde step)
    (h' : ReadableStep serde step') (hserde : PrintedApart serde step step')
    (hkey : step.response_payload_context_key ≠ some "")
    (hkey' : step'.response_payload_context_key ≠ some "") (htail : Begins "|step=" tail)
    (htail' : Begins "|step=" tail')
    (heq : step.fingerprint_material serde ++ tail = step'.fingerprint_material serde ++ tail') :
    SameStep step step' ∧ tail = tail' := by
  rw [fingerprint_material_append, fingerprint_material_append, String.append_right_inj] at heq
  obtain ⟨hendpoint, heq⟩ := cut_label "|service=" (by decide) h.endpoint h'.endpoint heq
  obtain ⟨hservice, heq⟩ := cut_label "|method=" (by decide) h.service h'.service heq
  obtain ⟨hmethod, heq⟩ := cut_label "|request=" (by decide) h.method h'.method heq
  obtain ⟨hrequest, heq⟩ := cut_label "|extract=" (by decide) h.request h'.request heq
  obtain ⟨hextraction, heq⟩ := cut_label "|payload_key=" (by decide) h.extraction h'.extraction heq
  obtain ⟨hpayload, htails⟩ := cut_tail "|step=" (by decide) h.payload_key h'.payload_key htail
    htail' heq
  exact ⟨{
    endpoint_override := getD_inj h.not_default h'.not_default hendpoint
    service := hservice
    method := hmethod
    request_spec := request_material_inj hserde hrequest
    extraction := extraction_material_inj h.entries h'.entries hextraction
    payload_key := getD_inj hkey hkey' hpayload }, htails⟩

theorem begins_steps (steps : List Step) : Begins "|step=" (steps_material steps) := by
  cases steps with
  | nil => exact .inl rfl
  | cons step rest => exact .inr ⟨_, rfl⟩

theorem steps_material_inj {steps steps' : List DynamicGrpcStep}
    (h : ∀ step ∈ steps, ReadableStep serde step ∧ step.response_payload_context_key ≠ some "")
    (h' : ∀ step ∈ steps', ReadableStep serde step ∧ step.response_payload_context_key ≠ some "")
    (hserde : ∀ step ∈ steps, ∀ step' ∈ steps', PrintedApart serde step step')
    (heq : steps_material (steps.map (·.step serde)) =
      steps_material (steps'.map (·.step serde))) : List.Forall₂ SameStep steps steps' := by
  -- A list with a step has a text that is not empty.
  have hnot : ∀ (step : DynamicGrpcStep) (rest : List DynamicGrpcStep),
      steps_material ((step :: rest).map (·.step serde)) ≠ "" := by
    intro step rest hempty
    have hlists := congrArg String.toList hempty
    simp [steps_material] at hlists
  induction steps generalizing steps' with
  | nil =>
    cases steps' with
    | nil => exact .nil
    | cons step' rest' => exact absurd heq.symm (hnot step' rest')
  | cons step rest ih =>
    cases steps' with
    | nil => exact absurd heq (hnot step rest)
    | cons step' rest' =>
      obtain ⟨hread, hkey⟩ := h step List.mem_cons_self
      obtain ⟨hread', hkey'⟩ := h' step' List.mem_cons_self
      obtain ⟨hsame, hrest⟩ := step_material_inj hread hread'
        (hserde step List.mem_cons_self step' List.mem_cons_self) hkey hkey'
        (begins_steps _) (begins_steps _) ((String.append_right_inj _).mp heq)
      exact .cons hsame (ih (fun s hs => h s (List.mem_cons_of_mem _ hs))
        (fun s hs => h' s (List.mem_cons_of_mem _ hs))
        (fun s hs s' hs' => hserde s (List.mem_cons_of_mem _ hs) s' (List.mem_cons_of_mem _ hs'))
        hrest)

/-! ## What the schema promises -/

/-- A scenario of a file that passed the checks of the schema. -/
def Loaded (decodes : String → Bool) (default_endpoint : String) (scenario : GrpcScenario) : Prop :=
  ∃ file : ScenarioFile, validate_schema decodes file = [] ∧
    ∃ entry ∈ file.scenarios, scenario_entry_into_domain entry default_endpoint = .ok scenario

theorem errorIf_eq_nil {p : Prop} [Decidable p] {error : String} : errorIf p error = [] ↔ ¬ p := by
  unfold errorIf
  split <;> simp_all

variable {decodes : String → Bool}

theorem entry_errors_of_schema {file : ScenarioFile} {entry : ScenarioEntry}
    (h : validate_schema decodes file = []) (hmem : entry ∈ file.scenarios) :
    ∃ path, entry_errors decodes path entry = [] := by
  have hloop : ∀ (entries : List ScenarioEntry) (seen : List (List Char)) (i : Nat),
      scenarios_errors decodes seen i entries = [] → ∀ entry ∈ entries,
        ∃ path, entry_errors decodes path entry = [] := by
    intro entries
    induction entries with
    | nil => exact fun _ _ _ entry hentry => absurd hentry List.not_mem_nil
    | cons first rest ih =>
      intro seen i hnil entry hentry
      simp only [scenarios_errors, List.append_eq_nil_iff] at hnil
      obtain ⟨⟨-, hfirst⟩, hrest⟩ := hnil
      obtain rfl | hentry := List.mem_cons.mp hentry
      · exact ⟨_, hfirst⟩
      · exact ih _ _ hrest entry hentry
  unfold validate_schema at h
  split at h
  · rename_i hempty
    rw [hempty] at hmem
    cases hmem
  · simp only [List.append_eq_nil_iff] at h
    exact hloop _ _ _ h.2 entry hmem

theorem parse_duration_literal_ok {value : String} {duration : Nat}
    (h : parse_duration_literal value = .ok duration) : ∃ n, duration = from_secs n := by
  have hunit : ∀ {unit num : String} {seconds : Nat},
      parse_duration_unit unit value num seconds = .ok duration →
        ∃ n, duration = from_secs n := by
    intro unit num seconds hok
    simp only [parse_duration_unit, bind_eq_ok] at hok
    obtain ⟨_, -, _, -, total, -, hduration⟩ := hok
    exact ⟨total, (Except.ok.inj hduration).symm⟩
  unfold parse_duration_literal at h
  split at h
  · exact hunit h
  · exact hunit h
  · exact hunit h
  · cases h

theorem as_millis_from_secs_inj {m n : Nat}
    (h : as_millis (from_secs m) = as_millis (from_secs n)) : m = n := by
  unfold as_millis from_secs NANOS_PER_MILLI at h
  omega

/-- What the text of a loaded scenario relies on. -/
structure Sound (scenario : GrpcScenario) : Prop where
  duration : ∃ n, scenario.config.duration = from_secs n
  interval : ∀ interval, scenario.config.repeat_policy = .Every interval →
    ∃ n, interval = from_secs n
  payload_key : ∀ step ∈ scenario.steps, step.response_payload_context_key ≠ some ""

theorem step_payload_key {path : String} {entry : StepEntry} {step : DynamicGrpcStep}
    (h : step_errors decodes path entry = []) (hstep : step_entry_into_domain entry = .ok step) :
    step.response_payload_context_key ≠ some "" := by
  cases entry with
  | Http method url => cases hstep
  | Grpc endpoint service method request_base64 request_fields extract key =>
    cases hstep
    simp only [step_errors, List.append_eq_nil_iff, errorIf_eq_nil] at h
    have hkey := h.2
    rintro (rfl : key = some "")
    exact hkey rfl

theorem sound_of_loaded {default_endpoint : String} {scenario : GrpcScenario}
    (h : Loaded decodes default_endpoint scenario) : Sound scenario := by
  obtain ⟨file, hschema, entry, hmem, hentry⟩ := h
  obtain ⟨path, herrors⟩ := entry_errors_of_schema hschema hmem
  simp only [scenario_entry_into_domain, bind_eq_ok] at hentry
  obtain ⟨steps, hsteps, policy, hpolicy, duration, hduration, hscenario⟩ := hentry
  cases hscenario
  simp only [entry_errors, List.append_eq_nil_iff, errorIf_eq_nil, not_or] at herrors
  obtain ⟨-, hstep_errors⟩ := herrors
  refine ⟨parse_duration_literal_ok hduration, ?_, ?_⟩
  · rintro interval (rfl : policy = .Every interval)
    cases hrepeat : entry.repeat_policy with
    | Once =>
      rw [hrepeat] at hpolicy
      cases hpolicy
    | Every text =>
      rw [hrepeat] at hpolicy
      simp only [repeat_entry_into_domain, bind_eq_ok] at hpolicy
      obtain ⟨parsed, hparsed, hsame⟩ := hpolicy
      cases hsame
      exact parse_duration_literal_ok hparsed
  · intro step hstep
    obtain ⟨source, hsource, hdomain⟩ := mem_of_mapM hsteps hstep
    obtain ⟨j, hj⟩ := List.getElem?_of_mem hsource
    have hindexed : (source, j) ∈ entry.steps.zipIdx := List.mem_zipIdx_iff_getElem?.mpr hj
    exact step_payload_key (List.flatMap_eq_nil_iff.mp hstep_errors (source, j) hindexed) hdomain

/-! ## The law -/

/-- The texts of a plan do not hold the label that follows them. -/
structure ReadablePlan (serde : json.Serde) (scenario : GrpcScenario) (semantics : String) :
    Prop where
  endpoint : ¬ contains scenario.config.endpoint "|rate="
  semantics : ¬ contains semantics "|step="
  steps : ∀ step ∈ scenario.steps, ReadableStep serde step

/-- Two scenarios that execute the same. -/
structure SamePlan (scenario scenario' : GrpcScenario) : Prop where
  endpoint : scenario.config.endpoint = scenario'.config.endpoint
  rate : scenario.config.scenarios_per_sec.value.to_bits =
    scenario'.config.scenarios_per_sec.value.to_bits
  duration : scenario.config.duration = scenario'.config.duration
  concurrency : scenario.config.max_concurrency = scenario'.config.max_concurrency
  repeat_policy : scenario.config.repeat_policy = scenario'.config.repeat_policy
  partition : scenario.config.partition_key_strategy = scenario'.config.partition_key_strategy
  steps : List.Forall₂ SameStep scenario.steps scenario'.steps

theorem repeat_material_inj {policy policy' : RepeatPolicy}
    (h : ∀ interval, policy = .Every interval → ∃ n, interval = from_secs n)
    (h' : ∀ interval, policy' = .Every interval → ∃ n, interval = from_secs n)
    (heq : repeat_material policy = repeat_material policy') : policy = policy' := by
  have hhead : ∀ {a b : String}, a = b → a.toList.head? = b.toList.head? := fun h => by rw [h]
  cases policy with
  | Once =>
    cases policy' with
    | Once => rfl
    | Every interval' => exact absurd (hhead heq) (by simp [repeat_material])
  | Every interval =>
    cases policy' with
    | Once => exact absurd (hhead heq) (by simp [repeat_material])
    | Every interval' =>
      obtain ⟨n, rfl⟩ := h interval rfl
      obtain ⟨n', rfl⟩ := h' interval' rfl
      rw [as_millis_from_secs_inj (toString_inj ((String.append_right_inj _).mp heq))]

theorem partition_material_inj {strategy strategy' : PartitionKeyStrategy}
    (h : partition_material strategy = partition_material strategy') : strategy = strategy' := by
  cases strategy <;> cases strategy' <;> first | rfl | exact absurd h (by decide)

/-- Two loaded scenarios that are readable and have one text are the same plan, whatever the slices,
the burst, the retries and the semantics of each are. -/
theorem readable_plans_with_one_material_are_the_same {serde : json.Serde}
    {decodes : String → Bool} {default_endpoint default_endpoint' : String}
    {scenario scenario' : GrpcScenario} {slices slices' retries retries' : UInt32}
    {burst burst' : Nat} {semantics semantics' : String}
    (hloaded : Loaded decodes default_endpoint scenario)
    (hloaded' : Loaded decodes default_endpoint' scenario')
    (hserde : ∀ step ∈ scenario.steps, ∀ step' ∈ scenario'.steps, PrintedApart serde step step')
    (hreadable : ReadablePlan serde scenario semantics)
    (hreadable' : ReadablePlan serde scenario' semantics')
    (h : scenario_plan_material (scenario.scenario serde) slices burst retries semantics =
      scenario_plan_material (scenario'.scenario serde) slices' burst' retries' semantics') :
    SamePlan scenario scenario' := by
  have hsound := sound_of_loaded hloaded
  have hsound' := sound_of_loaded hloaded'
  have hfields := same_fields hreadable.endpoint hreadable'.endpoint h
  obtain ⟨-, hsteps⟩ := cut_tail "|step=" (by decide) hreadable.semantics hreadable'.semantics
    (begins_steps _) (begins_steps _) hfields.rest
  obtain ⟨n, hn⟩ := hsound.duration
  obtain ⟨n', hn'⟩ := hsound'.duration
  exact {
    endpoint := hfields.endpoint
    rate := congrArg (·.value.to_bits) hfields.rate
    duration := by
      have hmillis := hfields.duration
      rw [show (scenario.scenario serde).config.duration = from_secs n from hn,
        show (scenario'.scenario serde).config.duration = from_secs n' from hn'] at hmillis
      rw [hn, hn', as_millis_from_secs_inj hmillis]
    concurrency := hfields.concurrency
    repeat_policy := repeat_material_inj hsound.interval hsound'.interval hfields.repeat_policy
    partition := partition_material_inj hfields.partition
    steps := steps_material_inj
      (fun step hstep => ⟨hreadable.steps step hstep, hsound.payload_key step hstep⟩)
      (fun step hstep => ⟨hreadable'.steps step hstep, hsound'.payload_key step hstep⟩)
      hserde hsteps }

/-- The template of a request. -/
def sampleFields : json.Value := .Object [("name", .String "ada"), ("tries", json.integer 3)]

/-- One call, whose response fills the given keys. -/
def sampleEntry (extract : TextMap) : ScenarioEntry where
  name := "login"
  endpoint := some "http://edge:50051"
  scenarios_per_sec := .of 1
  max_concurrency := 4
  duration := "10s"
  repeat_policy := .Every "1m"
  partition_key_strategy := none
  steps := [.Grpc (some "http://users:50051") "users.Users" "Login" none (some sampleFields)
    (some extract) (some "user")]

def sampleScenario (extract : TextMap) : GrpcScenario where
  name := "login"
  steps := [DynamicGrpcStep.new (some "http://users:50051") "users.Users" "Login"
    (.FieldTemplate sampleFields) extract (some "user")]
  config :=
    { endpoint := "http://edge:50051"
      scenarios_per_sec := .of 1
      max_concurrency := 4
      duration := from_secs 10
      repeat_policy := .Every (from_secs 60)
      partition_key_strategy := .ExecutionKey }

def sampleSerde : json.Serde := json.serdeOf [sampleFields]

variable {extract : TextMap}

theorem sample_loaded (h : validate_schema (fun _ => true) ⟨1, [sampleEntry extract]⟩ = []) :
    Loaded (fun _ => true) "" (sampleScenario extract) := by
  have hminute : parse_duration_literal "1m" = .ok (from_secs 60) := by decide +kernel
  have hseconds : parse_duration_literal "10s" = .ok (from_secs 10) := by decide +kernel
  refine ⟨⟨1, [sampleEntry extract]⟩, h, sampleEntry extract, List.mem_singleton_self _, ?_⟩
  simp only [scenario_entry_into_domain, sampleEntry, repeat_entry_into_domain, hminute, hseconds]
  rfl

theorem sample_printed_apart (extract extract' : TextMap) :
    ∀ step ∈ (sampleScenario extract).steps, ∀ step' ∈ (sampleScenario extract').steps,
      PrintedApart sampleSerde step step' := by
  intro step hstep step' hstep' value value' hvalue hvalue' _
  obtain rfl := List.mem_singleton.mp hstep
  obtain rfl := List.mem_singleton.mp hstep'
  exact (GrpcRequestSpec.FieldTemplate.inj hvalue).symm.trans
    (GrpcRequestSpec.FieldTemplate.inj hvalue')

/-- Two responses, and one response whose path reads like both. -/
def twoKeys : TextMap := ⟨[("id", "a"), ("token", "b")], by decide⟩

def oneKey : TextMap := ⟨[("id", "a,token=b")], by decide⟩

def twoKeysBackwards : TextMap := ⟨[("token", "b"), ("id", "a")], by decide⟩

/-- The text of the sample holds only the text of its keys. -/
theorem sample_prints_alike {extract' : TextMap}
    (h : extraction_material extract = extraction_material extract') :
    (sampleScenario extract).scenario sampleSerde =
      (sampleScenario extract').scenario sampleSerde := by
  have hstep : ∀ step : DynamicGrpcStep, ({ step with extraction := extract }).step sampleSerde =
      ({ step with extraction := extract' }).step sampleSerde := by
    intro step
    unfold DynamicGrpcStep.step DynamicGrpcStep.fingerprint_material
    rw [h]
  exact congrArg (fun step => Scenario.mk "login" [step] (sampleScenario extract).config)
    (hstep (.new (some "http://users:50051") "users.Users" "Login"
      (.FieldTemplate sampleFields) extract (some "user")))

theorem a_plan_with_other_steps_prints_alike : ∃ scenario scenario' : GrpcScenario,
    Loaded (fun _ => true) "" scenario ∧ Loaded (fun _ => true) "" scenario' ∧
    (∀ step ∈ scenario.steps, ∀ step' ∈ scenario'.steps, PrintedApart sampleSerde step step') ∧
    scenario_plan_material (scenario.scenario sampleSerde) 1 0 3 "" =
      scenario_plan_material (scenario'.scenario sampleSerde) 1 0 3 "" ∧
    ¬ SamePlan scenario scenario' := by
  have hprint : extraction_material twoKeys = extraction_material oneKey := by decide +kernel
  refine ⟨sampleScenario twoKeys, sampleScenario oneKey, sample_loaded (by decide +kernel),
    sample_loaded (by decide +kernel), sample_printed_apart _ _, ?_, ?_⟩
  · rw [sample_prints_alike hprint]
  · intro hsame
    have hstep := List.forall₂_cons.mp hsame.steps
    exact absurd hstep.1.extraction.length_eq (by decide)

theorem sample_readable (hentries : ∀ entry ∈ extract.entries,
      '=' ∉ entry.1.toList ∧ ',' ∉ entry.1.toList ∧ ',' ∉ entry.2.toList)
    (hlabel : ¬ contains (extraction_material extract) "|payload_key=") :
    ReadablePlan sampleSerde (sampleScenario extract) "" where
  endpoint := (by decide +kernel : ¬ contains "http://edge:50051" "|rate=")
  semantics := by decide
  steps := by
    intro step hstep
    obtain rfl := List.mem_singleton.mp hstep
    exact {
      not_default := (by decide : some "http://users:50051" ≠ some "<default>")
      endpoint := (by decide +kernel : ¬ contains "http://users:50051" "|service=")
      service := (by decide +kernel : ¬ contains "users.Users" "|method=")
      method := (by decide +kernel : ¬ contains "Login" "|request=")
      request := (by decide +kernel :
        ¬ contains (request_material sampleSerde (.FieldTemplate sampleFields)) "|extract=")
      entries := hentries
      extraction := hlabel
      payload_key := (by decide +kernel : ¬ contains "user" "|step=") }

theorem a_plan_prints_like_itself_with_its_keys_backwards :
    SamePlan (sampleScenario twoKeys) (sampleScenario twoKeysBackwards) := by
  have hprint : extraction_material twoKeys = extraction_material twoKeysBackwards := by
    decide +kernel
  have hmaterial : scenario_plan_material ((sampleScenario twoKeys).scenario sampleSerde) 1 0 3 "" =
      scenario_plan_material ((sampleScenario twoKeysBackwards).scenario sampleSerde) 1 0 3 "" := by
    rw [sample_prints_alike hprint]
  exact readable_plans_with_one_material_are_the_same (sample_loaded (by decide +kernel))
    (sample_loaded (by decide +kernel)) (sample_printed_apart _ _)
    (sample_readable (by decide +kernel) (by decide +kernel))
    (sample_readable (by decide +kernel) (by decide +kernel)) hmaterial

end pulse.schema
