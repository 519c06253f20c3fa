-- The Redis keys of a node, one for each purpose. The prefixes and the names
-- of the scenarios are free texts, so a schedule key can be any text behind
-- its prefix; the other keys are told apart by what follows their last colon.
import Pulse.Identities
import Pulse.ScheduledJobs

open strings
open pulse.config pulse.contracts pulse.coordination pulse.dispatch pulse.planning pulse.replay

namespace pulse.identities

/-! ## The keys -/

def fence_key (lock_key : String) : String := lock_key ++ ":fence"

/-- The schedule of a scenario. -/
def schedule_key (schedule_space scenario_id : String) : String :=
  schedule_space ++ ":" ++ scenario_id

def key_for_run (key_space run_id : String) : String :=
  key_space ++ ":\x7bruns\x7d:run:" ++ run_id

def deadline_key (key_space : String) : String := key_space ++ ":\x7bruns\x7d:deadlines"

def outbox_key (key_space : String) : String := key_space ++ ":\x7bruns\x7d:summary-outbox"

def active_key (key_space : String) : String := key_space ++ ":\x7bruns\x7d:active"

/-- What a key is for. -/
inductive RedisKey
  | leader
  | fence
  | schedule (scenario_id : String)
  | execution (claim : ExecutionClaim)
  | run (run_id : String)
  | deadlines
  | outbox
  | active
deriving DecidableEq

def RedisKey.text (config : AppConfig) : RedisKey → String
  | .leader => config.redis_leader_key
  | .fence => fence_key config.redis_leader_key
  | .schedule scenario_id => schedule_key config.redis_schedule_prefix scenario_id
  | .execution claim => key_for config.redis_idempotency_prefix claim
  | .run run_id => key_for_run config.redis_aggregation_prefix run_id
  | .deadlines => deadline_key config.redis_aggregation_prefix
  | .outbox => outbox_key config.redis_aggregation_prefix
  | .active => active_key config.redis_aggregation_prefix

/-- A run of the scenarios: a window with their slices, or a replay. -/
def IsRun (scenarios : List Scenario) : Run → Prop
  | .scheduled version scenario_id _ total_slices => version = CURRENT_CONTRACT_VERSION ∧
      ∃ scenario ∈ scenarios, scenario.name = scenario_id ∧ scenario.slices.toNat = total_slices
  | .replay _ event_hash => event_hash < 2 ^ 128

/-- The keys that a node uses for its scenarios. -/
def RedisKey.Used (config : AppConfig) (scenarios : List Scenario) : RedisKey → Prop
  | .schedule scenario_id => ∃ scenario ∈ scenarios, scenario.name = scenario_id
  | .execution claim => ∃ run, IsRun scenarios run ∧ ∃ index < run.total_slices,
      claim.execution_key = run.execution_key index ∧ claim.attempt ≤ config.worker_max_retries
  | .run run_id => ∃ run, IsRun scenarios run ∧ run_id = run.id
  | _ => True

/-- Two keys that are used have one text only if they are one key. -/
def KeysDistinct (config : AppConfig) (scenarios : List Scenario) : Prop :=
  ∀ key key' : RedisKey, key.Used config scenarios → key'.Used config scenarios →
    key.text config = key'.text config → key = key'

/-! ## What follows the last colon -/

/-- A separator that begins with a colon leaves the rest of it to the field. -/
theorem split_colon {sep : String} (stem head rest : String) (h : sep = ":" ++ head) :
    stem ++ sep ++ rest = stem ++ ":" ++ (head ++ rest) := by
  simp only [h, String.append_assoc]

/-- A text that ends in a known tail has the field of the tail. -/
theorem split_tail {tail : String} (start stem field : String) (h : tail = stem ++ ":" ++ field) :
    start ++ tail = start ++ stem ++ ":" ++ field := by
  simp only [h, String.append_assoc]

/-- What follows the last colon of a run: `n` and a number, or `e` and a hash. -/
theorem run_id_field (run : Run) : ∃ stem field, run.id = stem ++ ":" ++ field ∧
    ':' ∉ field.toList ∧ ((field.toList.take 2).head? = some 'n' ∨
      (field.toList.take 2).head? = some 'e') := by
  cases run with
  | scheduled version scenario_id scheduled_at total_slices =>
    refine ⟨_, _, split_colon _ "n" (toString total_slices) (by decide), ?_, .inl ?_⟩
    · rw [String.toList_append, List.mem_append, not_or]
      exact ⟨by decide, not_mem_toString (by decide) _⟩
    · rw [String.toList_append]
      rfl
  | replay source event_hash =>
    refine ⟨_, _, split_colon _ "e" (hex 32 event_hash) (by decide), ?_, .inr ?_⟩
    · rw [String.toList_append, List.mem_append, not_or]
      exact ⟨by decide, not_mem_hex (by decide) _ _⟩
    · rw [String.toList_append]
      rfl

/-- The first two letters after the last colon of a key. The leader key and the schedule keys may
have any. -/
def RedisKey.Lead (letters : List Char) : RedisKey → Prop
  | .leader => False
  | .fence => letters = ['f', 'e']
  | .schedule _ => False
  | .execution _ => letters = ['a', 't']
  | .run _ => letters.head? = some 'n' ∨ letters.head? = some 'e'
  | .deadlines => letters = ['d', 'e']
  | .outbox => letters = ['s', 'u']
  | .active => letters = ['a', 'c']

/-- The leader key and the schedule keys: their last part is free. -/
def RedisKey.IsFree : RedisKey → Bool
  | .leader => true
  | .schedule _ => true
  | _ => false

variable {config : AppConfig} {scenarios : List Scenario} {key key' : RedisKey}

theorem key_field (hused : key.Used config scenarios) (hfree : key.IsFree = false) :
    ∃ stem field, key.text config = stem ++ ":" ++ field ∧ ':' ∉ field.toList ∧
      key.Lead (field.toList.take 2) := by
  cases key with
  | leader => cases hfree
  | schedule scenario_id => cases hfree
  | fence => exact ⟨_, _, split_tail _ "" "fence" (by decide), by decide, rfl⟩
  | execution claim =>
    refine ⟨_, _, split_colon _ "attempt-" (toString claim.attempt) (by decide), ?_, ?_⟩
    · rw [String.toList_append, List.mem_append, not_or]
      exact ⟨by decide, not_mem_toString (by decide) _⟩
    · rw [String.toList_append]
      rfl
  | run run_id =>
    obtain ⟨run, -, rfl⟩ := hused
    obtain ⟨stem, field, hid, hcolon, hlead⟩ := run_id_field run
    refine ⟨config.redis_aggregation_prefix ++ ":\x7bruns\x7d:run:" ++ stem, field, ?_,
      hcolon, hlead⟩
    simp only [RedisKey.text, key_for_run, hid, String.append_assoc]
  | deadlines =>
    exact ⟨_, _, split_tail _ ":\x7bruns\x7d" "deadlines" (by decide), by decide, rfl⟩
  | outbox =>
    exact ⟨_, _, split_tail _ ":\x7bruns\x7d" "summary-outbox" (by decide), by decide, rfl⟩
  | active =>
    exact ⟨_, _, split_tail _ ":\x7bruns\x7d" "active" (by decide), by decide, rfl⟩

/-- The letters tell what a key is for. -/
theorem lead_unique {letters : List Char} (h : key.Lead letters) (h' : key'.Lead letters) :
    (∃ claim claim', key = .execution claim ∧ key' = .execution claim') ∨
      (∃ run_id run_id', key = .run run_id ∧ key' = .run run_id') ∨ key = key' := by
  cases key <;> cases key' <;> simp_all [RedisKey.Lead]

/-- Two keys whose last part is not free differ, whatever the prefixes are. -/
theorem fixed_keys_distinct (hused : key.Used config scenarios)
    (hused' : key'.Used config scenarios) (hfree : key.IsFree = false)
    (hfree' : key'.IsFree = false) (h : key.text config = key'.text config) : key = key' := by
  obtain ⟨stem, field, htext, hcolon, hlead⟩ := key_field hused hfree
  obtain ⟨stem', field', htext', hcolon', hlead'⟩ := key_field hused' hfree'
  have hfields : field = field' := by
    rw [htext, htext'] at h
    exact (cut_right ":" ':' (by decide) hcolon hcolon' h).2
  rw [← hfields] at hlead'
  obtain ⟨claim, claim', rfl, rfl⟩ | ⟨run_id, run_id', rfl, rfl⟩ | hsame := lead_unique hlead hlead'
  · rw [key_for_inj h]
  · rw [(String.append_right_inj _).mp h]
  · exact hsame

/-! ## The free keys -/

/-- What follows the prefix in the key of an execution. -/
def ExecutionName (config : AppConfig) (scenarios : List Scenario) (name : String) : Prop :=
  ∃ run, IsRun scenarios run ∧ ∃ index < run.total_slices, ∃ attempt ≤ config.worker_max_retries,
    name = run.execution_key index ++ ":attempt-" ++ toString attempt

/-- What follows the prefix in a key of the aggregation. -/
def AggregationName (scenarios : List Scenario) (name : String) : Prop :=
  (∃ run, IsRun scenarios run ∧ name = "\x7bruns\x7d:run:" ++ run.id) ∨
    name ∈ ["\x7bruns\x7d:deadlines", "\x7bruns\x7d:summary-outbox", "\x7bruns\x7d:active"]

/-- The leader key does not go on from the prefix `space` with one of its names. Where the schedule
prefix is `space`, no scenario has such a name; where it goes on from `space`, it makes no such name
with a scenario; and where `space` goes on from it, no scenario goes on in the same way to such a
name. -/
structure Clear (config : AppConfig) (scenarios : List Scenario) (space : String)
    (Name : String → Prop) : Prop where
  leader : ∀ name, config.redis_leader_key = space ++ ":" ++ name → ¬ Name name
  same : config.redis_schedule_prefix = space → ∀ scenario ∈ scenarios, ¬ Name scenario.name
  inner : ∀ stem, config.redis_schedule_prefix = space ++ ":" ++ stem →
    ∀ scenario ∈ scenarios, ¬ Name (stem ++ ":" ++ scenario.name)
  outer : ∀ stem, space = config.redis_schedule_prefix ++ ":" ++ stem →
    ∀ scenario ∈ scenarios, ∀ name, scenario.name = stem ++ ":" ++ name → ¬ Name name

/-- The leader key does not go on from the schedule prefix with the name of a scenario, or with
what comes before `:fence` in one, and is not the prefix where a scenario is called `fence`; and
both stay clear of the executions and of the aggregation. -/
structure KeysApart (config : AppConfig) (scenarios : List Scenario) : Prop where
  leader : ∀ name, config.redis_leader_key = config.redis_schedule_prefix ++ ":" ++ name →
    ∀ scenario ∈ scenarios, scenario.name ≠ name ∧ scenario.name ≠ name ++ ":" ++ "fence"
  fence : config.redis_leader_key = config.redis_schedule_prefix →
    ∀ scenario ∈ scenarios, scenario.name ≠ "fence"
  executions : Clear config scenarios config.redis_idempotency_prefix
    (ExecutionName config scenarios)
  aggregation : Clear config scenarios config.redis_aggregation_prefix (AggregationName scenarios)

/-- A text that ends in a colon and a name. -/
theorem split_name {tail name : String} (h : tail = ":" ++ name) (start : String) :
    start ++ tail = start ++ ":" ++ name := by
  rw [h, String.append_assoc]

/-- Where the key of the fence meets a schedule key. -/
theorem fence_eq_schedule_iff {lock_key schedule_space scenario_id : String} :
    fence_key lock_key = schedule_key schedule_space scenario_id ↔
      (lock_key = schedule_space ∧ scenario_id = "fence") ∨
        ∃ name, lock_key = schedule_space ++ ":" ++ name ∧
          scenario_id = name ++ ":" ++ "fence" := by
  rw [fence_key, split_name (by decide : ":fence" = ":" ++ "fence"), schedule_key,
    append_colon_eq_iff]
  constructor
  · rintro (⟨hkey, hname⟩ | hinner | ⟨stem, -, hfence⟩)
    · exact .inl ⟨hkey, hname.symm⟩
    · exact .inr hinner
    · -- There is no colon in `fence`.
      have hmem : ':' ∈ "fence".toList := by
        rw [hfence]
        simp
      exact absurd hmem (by decide)
  · rintro (⟨hkey, hname⟩ | hinner)
    · exact .inl ⟨hkey, hname.symm⟩
    · exact .inr (.inl hinner)

theorem leader_ne_fence (lock_key : String) : lock_key ≠ fence_key lock_key := by
  intro h
  have hlength := congrArg (fun text => text.toList.length) h
  simp [fence_key] at hlength

/-- The prefixes and the names stay clear exactly if no free key is one behind the prefix. -/
theorem clear_iff {space : String} {Name : String → Prop} :
    Clear config scenarios space Name ↔ ∀ key : RedisKey, key.Used config scenarios →
      key.IsFree = true → ∀ name, Name name → key.text config ≠ space ++ ":" ++ name := by
  constructor
  · intro h key hused hfree name hname heq
    cases key with
    | leader => exact h.leader name heq hname
    | schedule scenario_id =>
      obtain ⟨scenario, hmem, rfl⟩ := hused
      obtain ⟨hspace, hsame⟩ | ⟨stem, hstem, hinner⟩ | ⟨stem, hstem, houter⟩ :=
        append_colon_eq_iff.mp heq
      · exact h.same hspace scenario hmem (hsame ▸ hname)
      · exact h.inner stem hstem scenario hmem (hinner ▸ hname)
      · exact h.outer stem hstem scenario hmem name houter hname
    | fence | execution claim | run run_id | deadlines | outbox | active => cases hfree
  · intro h
    have hschedule : ∀ scenario ∈ scenarios, ∀ name, Name name →
        schedule_key config.redis_schedule_prefix scenario.name ≠ space ++ ":" ++ name :=
      fun scenario hmem => h (.schedule scenario.name) ⟨scenario, hmem, rfl⟩ rfl
    refine ⟨fun name heq hname => h .leader trivial rfl name hname heq, ?_, ?_, ?_⟩
    · rintro rfl scenario hmem hname
      exact hschedule scenario hmem _ hname rfl
    · intro stem hstem scenario hmem hname
      exact hschedule scenario hmem _ hname
        (append_colon_eq_iff.mpr (.inr (.inl ⟨stem, hstem, rfl⟩)))
    · intro stem hstem scenario hmem name hsame hname
      exact hschedule scenario hmem _ hname
        (append_colon_eq_iff.mpr (.inr (.inr ⟨stem, hstem, hsame⟩)))

/-! ## The law -/

theorem text_execution (claim : ExecutionClaim) : (RedisKey.execution claim).text config =
    config.redis_idempotency_prefix ++ ":" ++
      (claim.execution_key ++ ":attempt-" ++ toString claim.attempt) := by
  simp only [RedisKey.text, key_for, String.append_assoc]

theorem text_run (run_id : String) : (RedisKey.run run_id).text config =
    config.redis_aggregation_prefix ++ ":" ++ ("\x7bruns\x7d:run:" ++ run_id) :=
  split_colon _ "\x7bruns\x7d:run:" run_id (by decide)

/-- The three keys that the runs of a node share. -/
theorem text_index (config : AppConfig) : RedisKey.deadlines.text config =
      config.redis_aggregation_prefix ++ ":" ++ "\x7bruns\x7d:deadlines" ∧
    RedisKey.outbox.text config =
      config.redis_aggregation_prefix ++ ":" ++ "\x7bruns\x7d:summary-outbox" ∧
    RedisKey.active.text config =
      config.redis_aggregation_prefix ++ ":" ++ "\x7bruns\x7d:active" :=
  ⟨split_name (by decide) _, split_name (by decide) _, split_name (by decide) _⟩

theorem apart_of_distinct (h : KeysDistinct config scenarios) : KeysApart config scenarios where
  leader name heq scenario hmem := by
    have hused : (RedisKey.schedule scenario.name).Used config scenarios := ⟨scenario, hmem, rfl⟩
    constructor
    · rintro rfl
      cases h .leader _ trivial hused heq
    · intro hname
      cases h .fence _ trivial hused (fence_eq_schedule_iff.mpr (.inr ⟨name, heq, hname⟩))
  fence heq scenario hmem hname := by
    cases h .fence (.schedule scenario.name) trivial ⟨scenario, hmem, rfl⟩
      (fence_eq_schedule_iff.mpr (.inl ⟨heq, hname⟩))
  executions := by
    rw [clear_iff]
    rintro key hused hfree name ⟨run, hrun, index, hindex, attempt, hattempt, rfl⟩ heq
    set claim : ExecutionClaim := ⟨run.execution_key index, attempt⟩
    rw [h key (.execution claim) hused ⟨run, hrun, index, hindex, rfl, hattempt⟩
      (heq.trans (text_execution claim).symm)] at hfree
    cases hfree
  aggregation := by
    rw [clear_iff]
    rintro key hused hfree name hname heq
    obtain ⟨hdeadlines, houtbox, hactive⟩ := text_index config
    simp only [AggregationName, List.mem_cons, List.not_mem_nil, or_false] at hname
    obtain ⟨run, hrun, rfl⟩ | rfl | rfl | rfl := hname
    · rw [h key (.run run.id) hused ⟨run, hrun, rfl⟩ (heq.trans (text_run run.id).symm)] at hfree
      cases hfree
    · rw [h key .deadlines hused trivial (heq.trans hdeadlines.symm)] at hfree
      cases hfree
    · rw [h key .outbox hused trivial (heq.trans houtbox.symm)] at hfree
      cases hfree
    · rw [h key .active hused trivial (heq.trans hactive.symm)] at hfree
      cases hfree

/-- A free key and one that is not free. -/
theorem free_ne_fixed (h : KeysApart config scenarios) (hused : key.Used config scenarios)
    (hused' : key'.Used config scenarios) (hfree : key.IsFree = true)
    (hfixed : key'.IsFree = false) : key.text config ≠ key'.text config := by
  have hexecutions := clear_iff.mp h.executions key hused hfree
  have haggregation := clear_iff.mp h.aggregation key hused hfree
  obtain ⟨hdeadlines, houtbox, hactive⟩ := text_index config
  cases key' with
  | leader | schedule scenario_id => cases hfixed
  | fence =>
    cases key with
    | leader => exact leader_ne_fence _
    | schedule scenario_id =>
      obtain ⟨scenario, hscenario, rfl⟩ := hused
      intro heq
      obtain ⟨hsame, hname⟩ | ⟨name, hsame, hname⟩ := fence_eq_schedule_iff.mp heq.symm
      · exact h.fence hsame scenario hscenario hname
      · exact (h.leader name hsame scenario hscenario).2 hname
    | fence | execution claim | run run_id | deadlines | outbox | active => cases hfree
  | execution claim =>
    obtain ⟨run, hrun, index, hindex, hkey, hattempt⟩ := hused'
    rw [text_execution]
    exact hexecutions _ ⟨run, hrun, index, hindex, claim.attempt, hattempt, by rw [hkey]⟩
  | run run_id =>
    obtain ⟨run, hrun, rfl⟩ := hused'
    rw [text_run]
    exact haggregation _ (.inl ⟨run, hrun, rfl⟩)
  | deadlines => exact hdeadlines ▸ haggregation _ (.inr (by simp))
  | outbox => exact houtbox ▸ haggregation _ (.inr (by simp))
  | active => exact hactive ▸ haggregation _ (.inr (by simp))

/-- Two free keys: the leader key, and schedule keys under one prefix. -/
theorem free_keys_distinct (h : KeysApart config scenarios) (hused : key.Used config scenarios)
    (hused' : key'.Used config scenarios) (hfree : key.IsFree = true) (hfree' : key'.IsFree = true)
    (heq : key.text config = key'.text config) : key = key' := by
  cases key with
  | leader =>
    cases key' with
    | leader => rfl
    | schedule scenario_id =>
      obtain ⟨scenario, hscenario, rfl⟩ := hused'
      exact absurd rfl (h.leader _ heq scenario hscenario).1
    | fence | execution claim | run run_id | deadlines | outbox | active => cases hfree'
  | schedule scenario_id =>
    cases key' with
    | leader =>
      obtain ⟨scenario, hscenario, rfl⟩ := hused
      exact absurd rfl (h.leader _ heq.symm scenario hscenario).1
    | schedule scenario_id' => rw [(String.append_right_inj _).mp heq]
    | fence | execution claim | run run_id | deadlines | outbox | active => cases hfree'
  | fence | execution claim | run run_id | deadlines | outbox | active => cases hfree

theorem distinct_of_apart (h : KeysApart config scenarios) : KeysDistinct config scenarios := by
  intro key key' hused hused' heq
  cases hfree : key.IsFree with
  | true =>
    cases hfree' : key'.IsFree with
    | true => exact free_keys_distinct h hused hused' hfree hfree' heq
    | false => exact absurd heq (free_ne_fixed h hused hused' hfree hfree')
  | false =>
    cases hfree' : key'.IsFree with
    | true => exact absurd heq.symm (free_ne_fixed h hused' hused hfree' hfree)
    | false => exact fixed_keys_distinct hused hused' hfree hfree' heq

/-- The keys of a node are distinct exactly if its leader key, its schedule prefix and the names of
its scenarios stay clear of each other and of the other prefixes. -/
theorem redis_keys_are_distinct_iff_apart (config : AppConfig) (scenarios : List Scenario) :
    KeysDistinct config scenarios ↔ KeysApart config scenarios :=
  ⟨apart_of_distinct, distinct_of_apart⟩

/-- The defaults with one text as leader key and schedule prefix. -/
def sharedTag : AppConfig :=
  { AppConfig.defaults "node-1" with
    redis_leader_key := "\x7bpulse\x7d"
    redis_schedule_prefix := "\x7bpulse\x7d" }

/-- The schedule of a scenario called `fence` is kept under the key of the fences. -/
theorem a_schedule_takes_the_fence :
    sharedTag.validate AppConfig.defaultParsers = .ok () ∧
      validate_scenario_limits AppConfig.defaultParsers sampleFormats sharedTag
        [{ sampleScenario 30000000000 with name := "fence" }] = .ok () ∧
      (RedisKey.schedule "fence").text sharedTag = RedisKey.fence.text sharedTag ∧
      ¬ KeysDistinct sharedTag [{ sampleScenario 30000000000 with name := "fence" }] := by
  refine ⟨by decide +kernel, by decide +kernel, by decide, fun h => ?_⟩
  have hkeys := h (.schedule "fence") .fence ⟨_, List.mem_cons_self, rfl⟩ trivial (by decide)
  cases hkeys

end pulse.identities
