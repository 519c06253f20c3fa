-- Templates of requests (application/template.rs, application/steps.rs): the
-- expressions of a text are evaluated once, from left to right, and the values
-- of the context are put in as they are.
import Pulse.Checks
import Pulse.Json
import Pulse.ScenarioSchema
import Pulse.Strings
import Pulse.Tables
import Pulse.TextSearch
import Pulse.WireFormat

open checks strings tables
open json (Value)

namespace pulse.template

open pulse.grpc (PulseError Bytes)

/-! ## The model -/

/-- The `variables` of a scenario. -/
structure ScenarioContext where
  vars : Table String String

def ScenarioContext.set (ctx : ScenarioContext) (key value : String) : ScenarioContext :=
  ⟨ctx.vars.insert key value⟩

def ScenarioContext.get (ctx : ScenarioContext) (key : String) : Option String :=
  ctx.vars.lookup key

/-- A source of random values: texts of UUIDs, and integers of a range with both its ends. -/
structure Random (ρ : Type) where
  uuid : ρ → String × ρ
  range : Int → Int → ρ → Int × ρ

/-- A rendering draws random values, and fails or gives a result. -/
abbrev Rendering (ρ : Type) := StateT ρ (Except PulseError)

/-- `str::parse::<i64>`. -/
def parse_i64 (value : String) : Option Int := parse_integer true (-2 ^ 63) (2 ^ 63 - 1) value

section model

variable {ρ : Type} (random : Random ρ) (ctx : ScenarioContext)

def generate_phone : Rendering ρ String := do
  let n1 ← modifyGet (random.range 200 998)
  let n2 ← modifyGet (random.range 100 998)
  let n3 ← modifyGet (random.range 1000 9998)
  return "+1" ++ toString n1 ++ toString n2 ++ toString n3

/-- `gen.int:` with the parts of its arguments. -/
def generate_int (expr : String) : List String → Rendering ρ String
  | [] => throw (.Client ("invalid generator expression: " ++ expr))
  | min :: parts => do
    let min ← okOr (parse_i64 min) (PulseError.Client ("invalid int min in expression: " ++ expr))
    match parts with
    | [] => throw (.Client ("invalid generator expression: " ++ expr))
    | max :: parts =>
      let max ← okOr (parse_i64 max) (PulseError.Client ("invalid int max in expression: " ++ expr))
      if parts ≠ [] then throw (.Client ("invalid generator expression: " ++ expr))
      else if max < min then
        throw (.Client ("invalid generator bounds in '" ++ expr ++ "': min > max"))
      else
        let value ← modifyGet (random.range min max)
        return toString value

def evaluate_template_expr (expr : String) : Rendering ρ String :=
  match strip_start "ctx." expr with
  | some key => okOr (ctx.get key) (PulseError.MissingContextVar key)
  | none =>
    if expr = "gen.uuid" then modifyGet random.uuid
    else if expr = "gen.phone" then generate_phone random
    else
      match strip_start "gen.int:" expr with
      | some args => generate_int random expr ((args.toList.splitOn ':').map String.ofList)
      | none => throw (.Client ("unsupported template expression: " ++ expr))

/-- What begins an expression, and what ends it. -/
def opening : List Char := ['$', '\x7b']
def closing : List Char := ['\x7d']

/-- The loop of `render_string_template` from `cursor` on. -/
def render_from (input : List Char) (cursor : Nat) (out : List Char) : Rendering ρ (List Char) :=
  match _hstart : find opening (input.drop cursor) with
  | none => return out ++ input.drop cursor
  | some start_rel =>
    let out := out ++ (input.drop cursor).take start_rel
    let expr_start := cursor + start_rel + 2
    match find closing (input.drop expr_start) with
    | none =>
      throw (.Client ("unterminated template expression in '" ++ String.ofList input ++ "'"))
    | some end_rel => do
      let expr := trim ((input.drop expr_start).take end_rel)
      let resolved ← evaluate_template_expr random ctx (String.ofList expr)
      render_from input (expr_start + end_rel + 1) (out ++ resolved.toList)
termination_by input.length - cursor
decreasing_by
  have hle := find_le _hstart
  rw [List.length_drop] at hle
  simp only [opening, List.length_cons, List.length_nil] at hle
  omega

def render_string_template (input : String) : Rendering ρ String := do
  let out ← render_from random ctx input.toList 0 []
  return String.ofList out

mutual
def render_json_templates : Value → Rendering ρ Value
  | .Object members => do return .Object (← render_members members)
  | .Array items => do return .Array (← render_items items)
  | .String s => do return .String (← render_string_template random ctx s)
  | .Number n => return .Number n
  | .Bool b => return .Bool b
  | .Null => return .Null

/-- The keys are distinct and come in the order of the map, which the new map keeps. -/
def render_members : List (String × Value) → Rendering ρ (List (String × Value))
  | [] => return []
  | (k, v) :: members => do
    let v ← render_json_templates v
    let rest ← render_members members
    return (k, v) :: rest

def render_items : List Value → Rendering ρ (List Value)
  | [] => return []
  | item :: items => do
    let item ← render_json_templates item
    let rest ← render_items items
    return item :: rest
end

end model

/-! ## A step -/

/-- The gateway of an endpoint. -/
structure Gateway where
  encode_request_fields : String → String → Value → Except PulseError Bytes
  unary : String → String → Bytes → Except PulseError Bytes
  decode_response_fields : String → String → Bytes → Except PulseError Value

structure StepPorts where
  default_endpoint : String
  dynamic_grpc_gateways : String → Option Gateway

/-- The engine `base64::STANDARD` and the texts of JSON values. -/
structure Texts where
  encode : Bytes → String
  decode : String → Except String Bytes
  to_string : Value → String

def extract_path (value : Value) (path : String) : Option Value :=
  if is_blank path then some value
  else
    ((path.toList.splitOn '.').map String.ofList).foldlM (fun current segment =>
      match current with
      | .Object members => members.lookup segment
      | _ => none) value

def value_to_context_string (texts : Texts) (value : Value) : Except PulseError String :=
  match value with
  | .String s => .ok s
  | .Null => .error (.Client "cannot store null response value in context")
  | _ => .ok (texts.to_string value)

section execute

open pulse.schema (DynamicGrpcStep)

variable {ρ : Type} (random : Random ρ) (texts : Texts) (ports : StepPorts) (step : DynamicGrpcStep)
  (ctx : ScenarioContext)

def DynamicGrpcStep.payload (gateway : Gateway) : Rendering ρ Bytes :=
  match step.request_spec with
  | .Empty => return []
  | .StaticBase64Template template => do
    let rendered ← render_string_template random ctx template
    (texts.decode rendered).mapError fun e => PulseError.Client
      ("invalid rendered request_base64 for " ++ step.service ++ "/" ++ step.method ++ ": " ++ e)
  | .FieldTemplate template => do
    let rendered ← render_json_templates random ctx template
    gateway.encode_request_fields step.service step.method rendered

/-- One entry of the extraction. -/
def DynamicGrpcStep.extract (decoded : Value) (ctx : ScenarioContext) (entry : String × String) :
    Except PulseError ScenarioContext := do
  let value ← okOr (extract_path decoded entry.2) (.Client
    ("extraction path '" ++ entry.2 ++ "' not found in response for " ++ step.service ++ "/" ++
      step.method))
  let serialized ← value_to_context_string texts value
  return ctx.set entry.1 serialized

def DynamicGrpcStep.execute : Rendering ρ ScenarioContext := do
  let endpoint := step.endpoint_override.getD ports.default_endpoint
  let gateway ← okOr (ports.dynamic_grpc_gateways endpoint) (PulseError.Client
    ("dynamic gRPC gateway is not configured for endpoint '" ++ endpoint ++ "' in step '" ++
      step.name ++ "'"))
  let payload ← DynamicGrpcStep.payload random texts step ctx gateway
  let response ← gateway.unary step.service step.method payload
  let ctx := (step.response_payload_context_key.map fun key =>
    ctx.set key (texts.encode response)).getD ctx
  if step.extraction.entries = [] then return ctx
  else
    let decoded ← gateway.decode_response_fields step.service step.method response
    (step.extraction.entries.foldlM (DynamicGrpcStep.extract texts step decoded) ctx :
      Except PulseError ScenarioContext)

end execute

/-! ## Texts of literals and expressions -/

/-- A literal, then expressions, each one with the literal after it. -/
def text (literal : List Char) : List (List Char × List Char) → List Char
  | [] => literal
  | (expr, next) :: rest => literal ++ (opening ++ (expr ++ (closing ++ text next rest)))

/-- The same text with a value in the place of each expression. -/
def filled (literal : List Char) : List (List Char × List Char) → List String → List Char
  | (_, next) :: rest, value :: values => literal ++ (value.toList ++ filled next rest values)
  | _, _ => literal

/-- No literal begins an expression, and no expression ends one. -/
structure Written (literal : List Char) (segments : List (List Char × List Char)) : Prop where
  first : ¬ opening <:+: literal
  literals : ∀ segment ∈ segments, ¬ opening <:+: segment.2
  exprs : ∀ segment ∈ segments, ¬ closing <:+: segment.1

section rendering

variable {ρ : Type} (random : Random ρ) (ctx : ScenarioContext)

/-- The values of the expressions, from left to right. -/
def evaluate_all (segments : List (List Char × List Char)) : Rendering ρ (List String) :=
  segments.mapM fun segment =>
    evaluate_template_expr random ctx (String.ofList (trim segment.1))

variable {segments : List (List Char × List Char)}

/-- From a place between two segments, the loop evaluates the expressions that follow and puts
their values in. What was read before does not matter. -/
theorem render_from_text {literal : List Char} (h : Written literal segments)
    (before out : List Char) :
    render_from random ctx (before ++ text literal segments) before.length out = do
      let values ← evaluate_all random ctx segments
      return out ++ filled literal segments values := by
  induction segments generalizing literal before out with
  | nil =>
    rw [render_from, List.drop_left]
    have hnone : find opening (text literal []) = none := find_eq_none h.first
    split
    · simp [evaluate_all, text, filled]
    · rename_i hsome
      rw [hnone] at hsome
      cases hsome
  | cons segment segments ih =>
    obtain ⟨expr, next⟩ := segment
    have hnext : Written next segments :=
      { first := h.literals _ List.mem_cons_self
        literals := fun s hs => h.literals s (List.mem_cons_of_mem _ hs)
        exprs := fun s hs => h.exprs s (List.mem_cons_of_mem _ hs) }
    have hopening : find opening (text literal ((expr, next) :: segments)) = some literal.length :=
      find_append (by decide) h.first
    have hclosing : find closing (expr ++ (closing ++ text next segments)) = some expr.length :=
      find_append (by simp) (h.exprs _ List.mem_cons_self)
    -- the place after the opening, and the place after the closing
    have hexpr : (before ++ text literal ((expr, next) :: segments)).drop
        (before.length + literal.length + 2) = expr ++ (closing ++ text next segments) := by
      rw [Nat.add_assoc, ← List.drop_drop, List.drop_left, text, ← List.append_assoc,
        List.drop_left']
      simp [opening]
    have hafter : before ++ text literal ((expr, next) :: segments) =
        (before ++ literal ++ opening ++ expr ++ closing) ++ text next segments := by
      simp [text]
    have hcursor : before.length + literal.length + 2 + expr.length + 1 =
        (before ++ literal ++ opening ++ expr ++ closing).length := by
      simp only [opening, closing, List.length_append, List.length_cons, List.length_nil]
    have htake : (text literal ((expr, next) :: segments)).take literal.length = literal := by
      rw [text, List.take_left]
    rw [render_from]
    split
    · rename_i hnone
      rw [List.drop_left, hopening] at hnone
      cases hnone
    · rename_i start_rel hsome
      rw [List.drop_left, hopening] at hsome
      cases hsome
      dsimp only
      rw [hexpr, hclosing]
      dsimp only
      rw [List.take_left, List.drop_left, htake, hcursor, hafter]
      unfold evaluate_all
      rw [List.mapM_cons]
      simp only [bind_assoc, pure_bind]
      apply bind_congr
      intro value
      rw [ih hnext]
      unfold evaluate_all
      simp [filled]

theorem render_string_template_text {literal : List Char} (h : Written literal segments) :
    render_string_template random ctx (String.ofList (text literal segments)) = do
      let values ← evaluate_all random ctx segments
      return String.ofList (filled literal segments values) := by
  have hrender := render_from_text random ctx h [] []
  simp only [List.nil_append, List.length_nil] at hrender
  unfold render_string_template
  rw [String.toList_ofList, hrender]
  simp only [bind_assoc, pure_bind]

/-! ## Which expressions have a value -/

variable {random ctx}

/-- A rendering that fails, or succeeds, whatever it draws. -/
def Settled {α : Type} (rendering : Rendering ρ α) : Prop :=
  (∃ error, ∀ state, rendering.run state = .error error) ∨
    ∀ state, ∃ value state', rendering.run state = .ok (value, state')

theorem settled_throw {α : Type} (error : PulseError) : Settled (throw error : Rendering ρ α) :=
  .inl ⟨error, fun _ => rfl⟩

theorem settled_okOr {α β : Type} (o : Option α) (error : PulseError) {f : α → Rendering ρ β}
    (hf : ∀ a, Settled (f a)) : Settled (do f (← okOr o error)) := by
  cases o with
  | none => exact .inl ⟨error, fun _ => rfl⟩
  | some a => exact hf a

theorem settled_generate_int (expr : String) (parts : List String) :
    Settled (generate_int random expr parts) := by
  unfold generate_int
  split
  · exact settled_throw _
  · apply settled_okOr
    intro min
    split
    · exact settled_throw _
    · apply settled_okOr
      intro max
      split
      · exact settled_throw _
      · split
        · exact settled_throw _
        · exact .inr fun state => ⟨_, _, rfl⟩

theorem settled_evaluate (expr : String) : Settled (evaluate_template_expr random ctx expr) := by
  unfold evaluate_template_expr
  split
  · rename_i key _
    cases ctx.get key with
    | none => exact .inl ⟨_, fun _ => rfl⟩
    | some value => exact .inr fun state => ⟨value, state, rfl⟩
  · split
    · exact .inr fun state => ⟨_, _, rfl⟩
    · split
      · exact .inr fun state => ⟨_, _, rfl⟩
      · split
        · exact settled_generate_int expr _
        · exact settled_throw _

/-- What succeeds from one state of the random source succeeds from every one. -/
theorem Settled.ok {α : Type} {rendering : Rendering ρ α} (h : Settled rendering) {state : ρ}
    (hok : ∃ value state', rendering.run state = .ok (value, state')) (state₂ : ρ) :
    ∃ value state', rendering.run state₂ = .ok (value, state') := by
  rcases h with ⟨error, herror⟩ | hall
  · obtain ⟨value, state', hvalue⟩ := hok
    rw [herror] at hvalue
    cases hvalue
  · exact hall state₂

/-- All expressions have their values when each one has a value. -/
theorem evaluate_all_ok_iff {state : ρ} :
    (∃ values state', (evaluate_all random ctx segments).run state = .ok (values, state')) ↔
      ∀ segment ∈ segments, ∃ value state',
        (evaluate_template_expr random ctx (String.ofList (trim segment.1))).run state =
          .ok (value, state') := by
  induction segments generalizing state with
  | nil => exact ⟨fun _ _ hmem => absurd hmem List.not_mem_nil, fun _ => ⟨[], state, rfl⟩⟩
  | cons segment segments ih =>
    have hrun : (evaluate_all random ctx (segment :: segments)).run state =
        (evaluate_template_expr random ctx (String.ofList (trim segment.1))).run state >>=
          fun first => (evaluate_all random ctx segments).run first.2 >>=
            fun rest => .ok (first.1 :: rest.1, rest.2) := by
      simp only [evaluate_all, List.mapM_cons, StateT.run_bind, StateT.run_pure]
      rfl
    rw [hrun]
    constructor
    · rintro ⟨values, state', hvalues⟩
      obtain ⟨⟨value, state₁⟩, hvalue, hvalues⟩ := bind_eq_ok.mp hvalues
      obtain ⟨⟨rest, state₂⟩, hrest, -⟩ := bind_eq_ok.mp hvalues
      intro s hs
      rcases List.mem_cons.mp hs with rfl | hs
      · exact ⟨value, state₁, hvalue⟩
      · exact (settled_evaluate _).ok (ih.mp ⟨rest, state₂, hrest⟩ s hs) state
    · intro hall
      obtain ⟨value, state₁, hvalue⟩ := hall segment List.mem_cons_self
      obtain ⟨rest, state₂, hrest⟩ := ih.mpr fun s hs =>
        (settled_evaluate _).ok (hall s (List.mem_cons_of_mem _ hs)) state₁
      refine ⟨value :: rest, state₂, ?_⟩
      rw [hvalue]
      change (evaluate_all random ctx segments).run state₁ >>= _ = _
      rw [hrest]
      rfl

end rendering

/-! ## The shape of a value -/

mutual
/-- A value without its texts: its arrays, its objects with their keys, and its other leaves. -/
def shape : Value → Value
  | .Object members => .Object (shape_members members)
  | .Array items => .Array (shape_items items)
  | .String _ => .String ""
  | .Number n => .Number n
  | .Bool b => .Bool b
  | .Null => .Null

def shape_members : List (String × Value) → List (String × Value)
  | [] => []
  | (k, v) :: members => (k, shape v) :: shape_members members

def shape_items : List Value → List Value
  | [] => []
  | item :: items => shape item :: shape_items items
end

mutual
/-- The texts of a value, in their order. -/
def leaves : Value → List String
  | .Object members => leaves_members members
  | .Array items => leaves_items items
  | .String s => [s]
  | .Number _ | .Bool _ | .Null => []

def leaves_members : List (String × Value) → List String
  | [] => []
  | (_, v) :: members => leaves v ++ leaves_members members

def leaves_items : List Value → List String
  | [] => []
  | item :: items => leaves item ++ leaves_items items
end

section shapes

variable {ρ : Type} {random : Random ρ} {ctx : ScenarioContext}

theorem bind_run_eq_ok {α β : Type} {x : Rendering ρ α} {f : α → Rendering ρ β} {state state' : ρ}
    {b : β} (h : (x >>= f).run state = .ok (b, state')) :
    ∃ a state₁, x.run state = .ok (a, state₁) ∧ (f a).run state₁ = .ok (b, state') := by
  rw [StateT.run_bind, bind_eq_ok] at h
  obtain ⟨⟨a, state₁⟩, hx, hf⟩ := h
  exact ⟨a, state₁, hx, hf⟩

/-- The texts are rendered one by one, each once. -/
def RendersLeaves (random : Random ρ) (ctx : ScenarioContext) (texts rendered : List String)
    (state state' : ρ) : Prop :=
  (texts.mapM (render_string_template random ctx)).run state = .ok (rendered, state')

theorem RendersLeaves.append {first first' rest rest' : List String} {state state₁ state' : ρ}
    (hfirst : RendersLeaves random ctx first first' state state₁)
    (hrest : RendersLeaves random ctx rest rest' state₁ state') :
    RendersLeaves random ctx (first ++ rest) (first' ++ rest') state state' := by
  unfold RendersLeaves at *
  rw [List.mapM_append, StateT.run_bind, hfirst, ok_bind, StateT.run_bind, hrest]
  rfl

mutual
theorem render_leaves (value : Value) {rendered : Value} {state state' : ρ}
    (h : (render_json_templates random ctx value).run state = .ok (rendered, state')) :
    shape rendered = shape value ∧
      RendersLeaves random ctx (leaves value) (leaves rendered) state state' := by
  match value with
  | .Object members =>
    rw [render_json_templates] at h
    obtain ⟨members', state₁, hmembers, hrendered⟩ := bind_run_eq_ok h
    cases hrendered
    obtain ⟨hshape, hleaves⟩ := render_leaves_members members hmembers
    exact ⟨by rw [shape, shape, hshape], by rwa [leaves, leaves]⟩
  | .Array items =>
    rw [render_json_templates] at h
    obtain ⟨items', state₁, hitems, hrendered⟩ := bind_run_eq_ok h
    cases hrendered
    obtain ⟨hshape, hleaves⟩ := render_leaves_items items hitems
    exact ⟨by rw [shape, shape, hshape], by rwa [leaves, leaves]⟩
  | .String s =>
    rw [render_json_templates] at h
    obtain ⟨s', state₁, hs, hrendered⟩ := bind_run_eq_ok h
    cases hrendered
    refine ⟨by rw [shape, shape], ?_⟩
    rw [leaves, leaves, RendersLeaves, List.mapM_cons, StateT.run_bind, hs]
    rfl
  | .Number n | .Bool b | .Null =>
    rw [render_json_templates] at h
    cases h
    exact ⟨rfl, by rw [leaves]; rfl⟩

theorem render_leaves_members (members : List (String × Value)) {rendered : List (String × Value)}
    {state state' : ρ}
    (h : (render_members random ctx members).run state = .ok (rendered, state')) :
    shape_members rendered = shape_members members ∧
      RendersLeaves random ctx (leaves_members members) (leaves_members rendered) state state' := by
  match members with
  | [] =>
    rw [render_members] at h
    cases h
    exact ⟨rfl, by rw [leaves_members]; rfl⟩
  | (k, v) :: rest =>
    rw [render_members] at h
    obtain ⟨v', state₁, hv, h⟩ := bind_run_eq_ok h
    obtain ⟨rest', state₂, hrest, hrendered⟩ := bind_run_eq_ok h
    cases hrendered
    obtain ⟨hshape, hleaves⟩ := render_leaves v hv
    obtain ⟨hshapes, hrestleaves⟩ := render_leaves_members rest hrest
    rw [shape_members, shape_members, hshape, hshapes, leaves_members, leaves_members]
    exact ⟨rfl, hleaves.append hrestleaves⟩

theorem render_leaves_items (items : List Value) {rendered : List Value} {state state' : ρ}
    (h : (render_items random ctx items).run state = .ok (rendered, state')) :
    shape_items rendered = shape_items items ∧
      RendersLeaves random ctx (leaves_items items) (leaves_items rendered) state state' := by
  match items with
  | [] =>
    rw [render_items] at h
    cases h
    exact ⟨rfl, by rw [leaves_items]; rfl⟩
  | item :: rest =>
    rw [render_items] at h
    obtain ⟨item', state₁, hitem, h⟩ := bind_run_eq_ok h
    obtain ⟨rest', state₂, hrest, hrendered⟩ := bind_run_eq_ok h
    cases hrendered
    obtain ⟨hshape, hleaves⟩ := render_leaves item hitem
    obtain ⟨hshapes, hrestleaves⟩ := render_leaves_items rest hrest
    rw [shape_items, shape_items, hshape, hshapes, leaves_items, leaves_items]
    exact ⟨rfl, hleaves.append hrestleaves⟩
end

theorem render_string_template_ok_iff {literal : List Char}
    {segments : List (List Char × List Char)} (h : Written literal segments) {state : ρ} :
    (∃ out state', (render_string_template random ctx
        (String.ofList (text literal segments))).run state = .ok (out, state')) ↔
      ∀ segment ∈ segments, ∃ value state',
        (evaluate_template_expr random ctx (String.ofList (trim segment.1))).run state =
          .ok (value, state') := by
  rw [← evaluate_all_ok_iff, render_string_template_text random ctx h]
  constructor
  · rintro ⟨out, state', hout⟩
    obtain ⟨values, state₁, hvalues, -⟩ := bind_run_eq_ok hout
    exact ⟨values, state₁, hvalues⟩
  · rintro ⟨values, state', hvalues⟩
    refine ⟨String.ofList (filled literal segments values), state', ?_⟩
    rw [StateT.run_bind, hvalues]
    rfl

end shapes

/-- Whatever the context holds, a text of literals and expressions is rendered in one pass: it has a
value when every expression has one, and then the values stand between the literals as they are. A
rendered value has the shape of its template and the texts of it, each rendered once, and so has the
value that a step encodes. -/
theorem values_are_never_read_as_expressions {ρ : Type} (random : Random ρ)
    (ctx : ScenarioContext) :
    (∀ literal segments, Written literal segments →
      render_string_template random ctx (String.ofList (text literal segments)) = (do
          let values ← evaluate_all random ctx segments
          return String.ofList (filled literal segments values)) ∧
        ∀ state, (∃ out state', (render_string_template random ctx
            (String.ofList (text literal segments))).run state = .ok (out, state')) ↔
          ∀ segment ∈ segments, ∃ value state',
            (evaluate_template_expr random ctx (String.ofList (trim segment.1))).run state =
              .ok (value, state')) ∧
      (∀ template rendered state state',
        (render_json_templates random ctx template).run state = .ok (rendered, state') →
          shape rendered = shape template ∧
            RendersLeaves random ctx (leaves template) (leaves rendered) state state') ∧
      ∀ texts (step : schema.DynamicGrpcStep) gateway template payload state state',
        step.request_spec = .FieldTemplate template →
        (DynamicGrpcStep.payload random texts step ctx gateway).run state = .ok (payload, state') →
          ∃ rendered, shape rendered = shape template ∧
            RendersLeaves random ctx (leaves template) (leaves rendered) state state' ∧
            gateway.encode_request_fields step.service step.method rendered = .ok payload := by
  refine ⟨?_, ?_, ?_⟩
  · intro literal segments hwritten
    exact ⟨render_string_template_text random ctx hwritten, fun state =>
      render_string_template_ok_iff hwritten⟩
  · intro template rendered state state' h
    exact render_leaves template h
  · intro texts step gateway template payload state state' hspec h
    unfold DynamicGrpcStep.payload at h
    rw [hspec] at h
    obtain ⟨rendered, state₁, hrendered, hencode⟩ := bind_run_eq_ok h
    cases hpayload : gateway.encode_request_fields step.service step.method rendered with
    | error e =>
      rw [hpayload] at hencode
      cases hencode
    | ok bytes =>
      rw [hpayload] at hencode
      cases hencode
      obtain ⟨hshape, hleaves⟩ := render_leaves template hrendered
      exact ⟨rendered, hshape, hleaves, hpayload⟩

/-! ## A value that looks like an expression -/

def sampleRandom : Random Unit := ⟨fun _ => ("", ()), fun low _ _ => (low, ())⟩

/-- A target answered with the text of an expression. -/
def sampleContext : ScenarioContext := (⟨∅⟩ : ScenarioContext).set "id" "$\x7bctx.token\x7d"

theorem an_expression_from_a_target_stays_a_text :
    (render_string_template sampleRandom sampleContext "id=$\x7b ctx.id \x7d$").run () =
      .ok ("id=$\x7bctx.token\x7d$", ()) := by
  have hwritten : Written "id=".toList [(" ctx.id ".toList, "$".toList)] :=
    ⟨by decide, by decide, by decide⟩
  have hrender := ((values_are_never_read_as_expressions sampleRandom
    sampleContext).1 _ _ hwritten).1
  have htext : String.ofList (text "id=".toList [(" ctx.id ".toList, "$".toList)]) =
      "id=$\x7b ctx.id \x7d$" := by decide
  rw [htext] at hrender
  rw [hrender]
  rfl

end pulse.template
