-- The scenarios of the YAML file: the entries, the checks of their schema and
-- the scenario that an entry becomes. The text layers of other crates (YAML,
-- JSON and base64) are parameters.
import Pulse.Json
import Pulse.SlicePlan
import Mathlib.Data.List.Sort

open checks durations strings
open pulse.config pulse.contracts pulse.dispatch pulse.planning

namespace pulse.schema

/-! ## The file -/

inductive RepeatEntry
  | Once
  | Every (interval : String)
deriving DecidableEq

/-- A map of texts, with its entries in the order in which it gives them. -/
structure TextMap where
  entries : List (String × String)
  nodup : (entries.map Prod.fst).Nodup

inductive StepEntry
  | Grpc (endpoint : Option String) (service method : String) (request_base64 : Option String)
      (request_fields : Option json.Value) (extract : Option TextMap)
      (response_payload_context_key : Option String)
  | Http (method url : String)

structure ScenarioEntry where
  name : String
  endpoint : Option String
  scenarios_per_sec : Double
  max_concurrency : Nat
  duration : String
  repeat_policy : RepeatEntry
  partition_key_strategy : Option PartitionKeyStrategy
  steps : List StepEntry

structure ScenarioFile where
  version : UInt16
  scenarios : List ScenarioEntry

/-! ## Durations -/

def parse_u64 (value : String) : Option Nat :=
  (parse_integer false 0 (2 ^ 64 - 1) value).map Int.toNat

/-- `u64::checked_mul`. -/
def checked_mul_u64 (a b : Nat) : Option Nat := if a * b < 2 ^ 64 then some (a * b) else none

/-- A number of some unit, which has `seconds` seconds. -/
def parse_duration_unit (unit value num : String) (seconds : Nat) : Except String Nat := do
  let count ← okOr (parse_u64 num) ("invalid " ++ unit ++ " duration: " ++ value)
  rejectIf (count = 0) ("duration must be > 0: " ++ value)
  let total ← okOr (checked_mul_u64 count seconds)
    (unit ++ " duration exceeds u64 seconds: " ++ value)
  return Duration.from_secs total

def parse_duration_literal (value : String) : Except String Nat :=
  match strip_suffix value 's', strip_suffix value 'm', strip_suffix value 'h' with
  | some num, _, _ => parse_duration_unit "seconds" value num 1
  | none, some num, _ => parse_duration_unit "minutes" value num 60
  | none, none, some num => parse_duration_unit "hours" value num 3600
  | none, none, none => .error ("unsupported duration format: " ++ value ++ " (use Ns/Nm/Nh)")

/-! ## The schema -/

/-- One line of the report when a check fails. -/
def errorIf (p : Prop) [Decidable p] (error : String) : List String := if p then [error] else []

def is_object : json.Value → Bool
  | .Object _ => true
  | _ => false

/-- `option.is_some_and(|value| value.trim().is_empty())`. -/
def is_some_blank (value : Option String) : Bool := value.any is_blank

variable (decodes : String → Bool)

/-- `request_base64`: a template is not decoded before it is rendered. -/
def request_base64_errors (step_path raw : String) : List String :=
  if is_blank raw then [step_path ++ ".request_base64 must not be empty when provided"]
  else errorIf (¬ contains raw "$\x7b" ∧ decodes raw = false)
    (step_path ++ ".request_base64 must be valid base64 payload")

def extract_errors (step_path : String) (extract_map : TextMap) : List String :=
  extract_map.entries.flatMap fun (ctx_key, response_path) =>
    errorIf (is_blank ctx_key) (step_path ++ ".extract contains empty context key") ++
      errorIf (is_blank response_path)
        (step_path ++ ".extract path for '" ++ ctx_key ++ "' must not be empty")

def step_errors (step_path : String) : StepEntry → List String
  | .Grpc endpoint service method request_base64 request_fields extract
      response_payload_context_key =>
    errorIf (is_some_blank endpoint) (step_path ++ ".endpoint must not be empty when provided") ++
    errorIf (is_blank service) (step_path ++ ".service must not be empty") ++
    errorIf (is_blank method) (step_path ++ ".method must not be empty") ++
    request_base64.elim [] (request_base64_errors decodes step_path) ++
    errorIf (request_base64.isSome ∧ request_fields.isSome)
      (step_path ++ " must define only one of request_base64 or request_fields") ++
    errorIf (request_fields.any (!is_object ·))
      (step_path ++ ".request_fields must be a JSON object") ++
    extract.elim [] (extract_errors step_path) ++
    errorIf (is_some_blank response_payload_context_key)
      (step_path ++ ".response_payload_context_key must not be empty when provided")
  | .Http method url =>
    errorIf (is_blank method) (step_path ++ ".method must not be empty") ++
      errorIf (is_blank url) (step_path ++ ".url must not be empty")

/-- The line about a name, and the trimmed names that were seen then. -/
def name_errors (entry_path name : String) (seen : List (List Char)) :
    List String × List (List Char) :=
  if is_blank name then ([entry_path ++ ".name must not be empty"], seen)
  else if MAX_CONFIGURED_SCENARIO_NAME_BYTES < len name then
    ([entry_path ++ ".name exceeds " ++ toString MAX_CONFIGURED_SCENARIO_NAME_BYTES ++ " bytes"],
      seen)
  else if trim name.toList ∈ seen then
    ([entry_path ++ ".name '" ++ name ++ "' is duplicated"], seen)
  else ([], trim name.toList :: seen)

def duration_errors (field value : String) : List String :=
  errorIf ((parse_duration_literal value).isOk = false)
    (field ++ " '" ++ value ++ "' must use Ns/Nm/Nh format")

def repeat_errors (entry_path : String) : RepeatEntry → List String
  | .Once => []
  | .Every interval => duration_errors (entry_path ++ ".repeat.interval") interval

def steps_errors (entry_path : String) (steps : List StepEntry) : List String :=
  if steps = [] then [entry_path ++ ".steps must contain at least one step"]
  else errorIf (steps.length > MAX_CONFIGURED_STEPS_PER_SCENARIO)
    (entry_path ++ ".steps contains " ++ toString steps.length ++ " items; maximum is " ++
      toString MAX_CONFIGURED_STEPS_PER_SCENARIO)

/-- The lines about an entry, but for its name. -/
def entry_errors (entry_path : String) (entry : ScenarioEntry) : List String :=
  errorIf (is_some_blank entry.endpoint)
    (entry_path ++ ".endpoint must not be empty when provided") ++
  errorIf (entry.scenarios_per_sec.value.is_finite = false ∨
      entry.scenarios_per_sec.value.le (.finite 0) = true)
    (entry_path ++ ".scenarios_per_sec must be > 0") ++
  errorIf (entry.max_concurrency = 0) (entry_path ++ ".max_concurrency must be > 0") ++
  duration_errors (entry_path ++ ".duration") entry.duration ++
  repeat_errors entry_path entry.repeat_policy ++ steps_errors entry_path entry.steps ++
  (entry.steps.zipIdx.flatMap fun (step, j) =>
    step_errors decodes (entry_path ++ ".steps[" ++ toString j ++ "]") step)

/-- The loop over the entries, from index `i`. -/
def scenarios_errors (seen : List (List Char)) : Nat → List ScenarioEntry → List String
  | _, [] => []
  | i, entry :: rest =>
    let entry_path := "scenarios[" ++ toString i ++ "]"
    let (errors, seen') := name_errors entry_path entry.name seen
    errors ++ entry_errors decodes entry_path entry ++ scenarios_errors seen' (i + 1) rest

def validate_schema (file : ScenarioFile) : List String :=
  let errors := errorIf (file.version ≠ 1) ("unsupported scenarios file version '" ++
    toString file.version ++ "' (expected 1)")
  if file.scenarios = [] then errors ++ ["scenarios must contain at least one item"]
  else
    errors ++ errorIf (MAX_CONFIGURED_SCENARIOS < file.scenarios.length)
      ("scenarios contains " ++ toString file.scenarios.length ++ " items; maximum is " ++
        toString MAX_CONFIGURED_SCENARIOS) ++
      scenarios_errors decodes [] 0 file.scenarios

/-! ## The scenario of an entry -/

inductive GrpcRequestSpec
  | Empty
  | StaticBase64Template (template : String)
  | FieldTemplate (value : json.Value)

structure DynamicGrpcStep where
  name : String
  endpoint_override : Option String
  service : String
  method : String
  request_spec : GrpcRequestSpec
  extraction : TextMap
  response_payload_context_key : Option String

def DynamicGrpcStep.new (endpoint_override : Option String) (service method : String)
    (request_spec : GrpcRequestSpec) (extraction : TextMap)
    (response_payload_context_key : Option String) : DynamicGrpcStep where
  name := "grpc:" ++ service ++ "/" ++ method
  endpoint_override
  service
  method
  request_spec
  extraction
  response_payload_context_key

def step_entry_into_domain : StepEntry → Except String DynamicGrpcStep
  | .Grpc endpoint service method request_base64 request_fields extract
      response_payload_context_key =>
    let request_spec :=
      match request_base64, request_fields with
      | some raw, _ => GrpcRequestSpec.StaticBase64Template raw
      | none, some fields => .FieldTemplate fields
      | none, none => .Empty
    .ok (.new endpoint service method request_spec
      (extract.getD ⟨[], List.nodup_nil⟩) response_payload_context_key)
  | .Http _ _ =>
    .error "http step declared in yaml, but HTTP adapter is not implemented yet (step 5)"

/-- A scenario with its steps, before the plan forgets what they send. -/
structure GrpcScenario where
  name : String
  steps : List DynamicGrpcStep
  config : ScenarioConfig

def repeat_entry_into_domain : RepeatEntry → Except String RepeatPolicy
  | .Once => .ok .Once
  | .Every interval => do return .Every (← parse_duration_literal interval)

def scenario_entry_into_domain (entry : ScenarioEntry) (default_endpoint : String) :
    Except String GrpcScenario := do
  let steps ← entry.steps.mapM step_entry_into_domain
  let repeat_policy ← repeat_entry_into_domain entry.repeat_policy
  let duration ← parse_duration_literal entry.duration
  return {
    name := entry.name
    steps
    config :=
      { endpoint := entry.endpoint.getD default_endpoint
        scenarios_per_sec := entry.scenarios_per_sec
        max_concurrency := entry.max_concurrency
        duration
        repeat_policy
        partition_key_strategy := entry.partition_key_strategy.getD .ExecutionKey } }

/-! ## The material of a step -/

variable (serde : json.Serde)

def request_material : GrpcRequestSpec → String
  | .Empty => "empty"
  | .StaticBase64Template template => "base64:" ++ template
  | .FieldTemplate value => "fields:" ++ serde.to_string value

def extraction_material (extraction : TextMap) : String :=
  join "," ((extraction.entries.insertionSort fun left right => left.1 ≤ right.1).map
    fun (key, path) => key ++ "=" ++ path)

def DynamicGrpcStep.fingerprint_material (step : DynamicGrpcStep) : String :=
  "grpc|endpoint=" ++ step.endpoint_override.getD "<default>" ++ "|service=" ++ step.service ++
    "|method=" ++ step.method ++ "|request=" ++ request_material serde step.request_spec ++
    "|extract=" ++ extraction_material step.extraction ++ "|payload_key=" ++
    step.response_payload_context_key.getD ""

/-- The step as the plan has it. -/
def DynamicGrpcStep.step (step : DynamicGrpcStep) : Step :=
  ⟨step.name, step.fingerprint_material serde, step.endpoint_override⟩

def GrpcScenario.scenario (scenario : GrpcScenario) : Scenario :=
  ⟨scenario.name, scenario.steps.map (·.step serde), scenario.config⟩

end pulse.schema
