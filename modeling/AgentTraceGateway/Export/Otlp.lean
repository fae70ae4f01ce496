import AgentTraceGateway.Model

/-! # The OTLP Payload

  A batch of turns is exported as one OTLP/HTTP JSON document, one span for
  each turn. Production writes it from structures, field by field; the
  pinned reference builds a `serde_json::Value` tree and prints that. The
  two texts are the same bytes: objects of the tree print their keys sorted,
  and the structures declare their fields in that order.

  Trace and span ids are drawn from a byte source in a state of its own
  (`random_bytes`), in the order the code draws them. -/

namespace AgentTraceGateway

/-! ### Shared pieces -/

/-- The tag a record was stamped with, or the default. -/
def record_trace_tag (r : TurnRecord) : String :=
  if r.trace_tag.isEmpty then LANGFUSE_TRACE_TAG else r.trace_tag

/-- Decimal digits, padded with zeros to a width. -/
def padded (width n : Nat) : String :=
  let digits := (toString n).toList
  String.ofList (List.replicate (width - digits.length) '0' ++ digits)

/-- Unix nanoseconds as an ISO 8601 UTC time, by the civil calendar from a
    day count. -/
def iso8601_z (ns : UInt64) : String :=
  let secs := ns.toNat / 1000000000
  let nanos := ns.toNat % 1000000000
  let days := secs / 86400
  let secs_of_day := secs % 86400
  let z := days + 719468
  let era := z / 146097
  let doe := z % 146097
  let yoe := (doe - doe / 1460 + doe / 36524 - doe / 146096) / 365
  let y := yoe + era * 400
  let doy := doe - (365 * yoe + yoe / 4 - yoe / 100)
  let mp := (5 * doy + 2) / 153
  let d := doy - (153 * mp + 2) / 5 + 1
  let m := if mp < 10 then mp + 3 else mp - 9
  let y := if m ≤ 2 then y + 1 else y
  padded 4 y ++ "-" ++ padded 2 m ++ "-" ++ padded 2 d ++ "T"
    ++ padded 2 (secs_of_day / 3600) ++ ":" ++ padded 2 (secs_of_day % 3600 / 60) ++ ":"
    ++ padded 2 (secs_of_day % 60) ++ "." ++ padded 9 nanos ++ "Z"

example : iso8601_z 1788923579123456789 = "2026-09-09T03:12:59.123456789Z" := by decide

/-- `serde_json::to_string(&r.tool_calls)`. -/
def tool_calls_json (calls : List ToolCall) : String :=
  seq_text (calls.map fun c =>
    struct_text [("name", Value.quote c.name), ("arguments", Value.quote c.arguments)])

/-- An optional entry of a list: pushed when the condition holds. -/
def push_if {α : Type} (cond : Bool) (a : α) : List α := if cond then [a] else []

theorem map_push_if {α β : Type} (f : α → β) (cond : Bool) (a : α) :
    (push_if cond a).map f = push_if cond (f a) := by
  cases cond <;> rfl

/-! ### The production writer -/

/-- The two attribute value shapes this exporter writes. -/
inductive AttrValue where
  | str (s : String)
  | array (values : List String)
  deriving DecidableEq, Repr

/-- One OTLP attribute. -/
structure Attr where
  key : String
  value : AttrValue
  deriving DecidableEq, Repr

def attr (key value : String) : Attr := ⟨key, .str value⟩

def attr_array (key : String) (values : List String) : Attr := ⟨key, .array values⟩

structure StatusJson where
  code : Nat
  message : String
  deriving DecidableEq, Repr

/-- One turn as an OTLP span. -/
structure SpanJson where
  attributes : List Attr
  end_time_unix_nano : String
  kind : Nat
  name : String
  span_id : String
  start_time_unix_nano : String
  status : Option StatusJson
  trace_id : String
  deriving DecidableEq, Repr

/-- The string shape, an externally tagged variant. -/
def string_value_text (s : String) : String := struct_text [("stringValue", Value.quote s)]

def AttrValue.text : AttrValue → String
  | .str s => string_value_text s
  | .array values =>
    struct_text [("arrayValue", struct_text [("values", seq_text (values.map string_value_text))])]

def Attr.text (a : Attr) : String :=
  struct_text [("key", Value.quote a.key), ("value", a.value.text)]

def StatusJson.text (s : StatusJson) : String :=
  struct_text [("code", toString s.code), ("message", Value.quote s.message)]

/-- Fields in declaration order; `status` is skipped when there is none. -/
def SpanJson.text (s : SpanJson) : String :=
  struct_text
    ([("attributes", seq_text (s.attributes.map Attr.text)),
      ("endTimeUnixNano", Value.quote s.end_time_unix_nano),
      ("kind", toString s.kind),
      ("name", Value.quote s.name),
      ("spanId", Value.quote s.span_id),
      ("startTimeUnixNano", Value.quote s.start_time_unix_nano)]
    ++ s.status.toList.map (fun st => ("status", st.text))
    ++ [("traceId", Value.quote s.trace_id)])

/-- Trace-level attributes, appended behind the fixed block. -/
def trace_extra (r : TurnRecord) : List Attr :=
  push_if (!r.harness.isEmpty) (attr "langfuse.trace.metadata.harness" r.harness)
  ++ push_if (!r.dialect.isEmpty) (attr "langfuse.trace.metadata.dialect" r.dialect)
  ++ push_if (!r.client_ua.isEmpty) (attr "langfuse.trace.metadata.client_ua" r.client_ua)
  ++ r.hdr_evidence.map (fun h => attr ("langfuse.trace.metadata.hdr." ++ h.1) h.2)
  ++ push_if r.cancelled (attr "langfuse.trace.metadata.cancelled" "true")
  ++ push_if (!r.api_key_fp.isEmpty) (attr "langfuse.trace.metadata.client_key_fp" r.api_key_fp)
  ++ push_if r.harness_anomaly (attr "langfuse.trace.metadata.harness_protocol_anomaly" "true")
  ++ push_if r.session_synthetic (attr "langfuse.trace.metadata.session_synthetic" "true")
  ++ push_if (!r.session_source.isEmpty)
      (attr "langfuse.trace.metadata.session_source" r.session_source)
  ++ push_if (decide (1 < r.harness_candidates.length))
      (attr "langfuse.trace.metadata.harness_candidates" (Text.join "," r.harness_candidates))
  ++ r.harness_enrich.map (fun e => attr ("langfuse.trace.metadata." ++ e.1) e.2)
  ++ [attr "langfuse.trace.metadata.entry_protocol" r.protocol]
  ++ push_if (!r.model_name.isEmpty) (attr "langfuse.trace.metadata.client_model" r.model_name)

/-- The tags of a turn. -/
def tags (r : TurnRecord) : List String :=
  if r.harness.isEmpty then [record_trace_tag r]
  else [record_trace_tag r, "harness:" ++ r.harness]

/-- The usage attribute's value, unless every dimension is zero or
    unreported. -/
def usage_details (r : TurnRecord) : Option String :=
  (r.usage.map usage_details_json).filter (· != "\x7b\x7d")

/-- Every attribute of a turn's span. Empty fields are left out. -/
def span_attributes (r : TurnRecord) : List Attr :=
  push_if (!r.session_id.isEmpty) (attr "langfuse.session.id" r.session_id)
  ++ [attr "protocol" r.protocol,
      attr "langfuse.trace.name" LANGFUSE_TRACE_NAME,
      attr_array "langfuse.trace.tags" (tags r),
      attr ATTR_OBSERVATION_TYPE OBSERVATION_TYPE_GENERATION,
      attr "user_input" r.user_input,
      attr "final_output" r.final_output,
      attr "raw_request" r.raw_request,
      attr "raw_response" r.raw_response,
      attr "breakpoint" (if r.breakpoint then "true" else "false")]
  ++ push_if (!r.user_input.isEmpty) (attr ATTR_OBSERVATION_INPUT r.user_input)
  ++ push_if (!r.user_id.isEmpty) (attr ATTR_USER_ID r.user_id)
  ++ push_if (!r.final_output.isEmpty) (attr ATTR_OBSERVATION_OUTPUT r.final_output)
  ++ push_if (!r.model_name.isEmpty) (attr ATTR_MODEL_NAME r.model_name)
  ++ r.completion_start_ns.toList.map (fun ns => attr ATTR_COMPLETION_START_TIME (iso8601_z ns))
  ++ (usage_details r).toList.map (fun details => attr ATTR_USAGE_DETAILS details)
  ++ push_if (!r.tool_calls.isEmpty) (attr "tool_calls" (tool_calls_json r.tool_calls))
  ++ trace_extra r

section payload

-- A source of random bytes: how many, and the source's state.
variable {σ : Type} (random_bytes : Nat → σ → Bytes × σ)

def random_trace_id (s : σ) : String × σ :=
  let drawn := random_bytes 16 s
  (hex_encode drawn.1, drawn.2)

def random_span_id (s : σ) : String × σ :=
  let drawn := random_bytes 8 s
  (hex_encode drawn.1, drawn.2)

/-- One turn as one generation span. -/
def span_json (r : TurnRecord) (s : σ) : SpanJson × σ :=
  let trace_id := random_trace_id random_bytes s
  let span_id := random_span_id random_bytes trace_id.2
  ({ attributes := span_attributes r
     end_time_unix_nano := toString r.end_ns.toNat
     kind := 3
     name := GENERATION_SPAN_NAME
     span_id := span_id.1
     start_time_unix_nano := toString r.start_ns.toNat
     status := r.error.map fun err => ⟨2, err⟩
     trace_id := trace_id.1 }, span_id.2)

/-- The spans of a batch, in order. -/
def span_jsons : List TurnRecord → σ → List SpanJson
  | [], _ => []
  | r :: batch, s =>
    let span := span_json random_bytes r s
    span.1 :: span_jsons batch span.2

/-- The payload production sends. -/
def build_otlp_body (batch : List TurnRecord) (s : σ) : Bytes :=
  let spans := span_jsons random_bytes batch s
  let resource := struct_text
    [("attributes", seq_text [(attr "service.name" "agent-trace-gateway").text])]
  let scope_spans := struct_text
    [("scope", struct_text [("name", Value.quote "agent-trace-gateway")]),
     ("spans", seq_text (spans.map SpanJson.text))]
  let resource_spans := struct_text
    [("resource", resource), ("scopeSpans", seq_text [scope_spans])]
  utf8_bytes (struct_text [("resourceSpans", seq_text [resource_spans])])

end payload

/-! ### The pinned value tree -/

/-- `json!({"key": key, "value": {"stringValue": value}})`. -/
def kv (key value : String) : Value :=
  Value.of_entries
    [("key", .string key), ("value", Value.of_entries [("stringValue", .string value)])]

def kv_array (key : String) (values : List String) : Value :=
  let items := values.map fun v => Value.of_entries [("stringValue", .string v)]
  Value.of_entries
    [("key", .string key),
     ("value", Value.of_entries
       [("arrayValue", Value.of_entries [("values", .array items)])])]

def trace_extra_tree (r : TurnRecord) : List Value :=
  push_if (!r.harness.isEmpty) (kv "langfuse.trace.metadata.harness" r.harness)
  ++ push_if (!r.dialect.isEmpty) (kv "langfuse.trace.metadata.dialect" r.dialect)
  ++ push_if (!r.client_ua.isEmpty) (kv "langfuse.trace.metadata.client_ua" r.client_ua)
  ++ r.hdr_evidence.map (fun h => kv ("langfuse.trace.metadata.hdr." ++ h.1) h.2)
  ++ push_if r.cancelled (kv "langfuse.trace.metadata.cancelled" "true")
  ++ push_if (!r.api_key_fp.isEmpty) (kv "langfuse.trace.metadata.client_key_fp" r.api_key_fp)
  ++ push_if r.harness_anomaly (kv "langfuse.trace.metadata.harness_protocol_anomaly" "true")
  ++ push_if r.session_synthetic (kv "langfuse.trace.metadata.session_synthetic" "true")
  ++ push_if (!r.session_source.isEmpty)
      (kv "langfuse.trace.metadata.session_source" r.session_source)
  ++ push_if (decide (1 < r.harness_candidates.length))
      (kv "langfuse.trace.metadata.harness_candidates" (Text.join "," r.harness_candidates))
  ++ r.harness_enrich.map (fun e => kv ("langfuse.trace.metadata." ++ e.1) e.2)
  ++ [kv "langfuse.trace.metadata.entry_protocol" r.protocol]
  ++ push_if (!r.model_name.isEmpty) (kv "langfuse.trace.metadata.client_model" r.model_name)

def tags_tree (r : TurnRecord) : List String :=
  match if r.harness.isEmpty then none else some ("harness:" ++ r.harness) with
  | some t => [record_trace_tag r, t]
  | none => [record_trace_tag r]

def attributes_tree (r : TurnRecord) : List Value :=
  push_if (!r.session_id.isEmpty) (kv "langfuse.session.id" r.session_id)
  ++ [kv "protocol" r.protocol,
      kv "langfuse.trace.name" LANGFUSE_TRACE_NAME,
      kv_array "langfuse.trace.tags" (tags_tree r),
      kv ATTR_OBSERVATION_TYPE OBSERVATION_TYPE_GENERATION,
      kv "user_input" r.user_input,
      kv "final_output" r.final_output,
      kv "raw_request" r.raw_request,
      kv "raw_response" r.raw_response,
      kv "breakpoint" (if r.breakpoint then "true" else "false")]
  ++ push_if (!r.user_input.isEmpty) (kv ATTR_OBSERVATION_INPUT r.user_input)
  ++ push_if (!r.user_id.isEmpty) (kv ATTR_USER_ID r.user_id)
  ++ push_if (!r.final_output.isEmpty) (kv ATTR_OBSERVATION_OUTPUT r.final_output)
  ++ push_if (!r.model_name.isEmpty) (kv ATTR_MODEL_NAME r.model_name)
  ++ r.completion_start_ns.toList.map (fun ns => kv ATTR_COMPLETION_START_TIME (iso8601_z ns))
  ++ (usage_details r).toList.map (fun details => kv ATTR_USAGE_DETAILS details)
  ++ push_if (!r.tool_calls.isEmpty) (kv "tool_calls" (tool_calls_json r.tool_calls))
  ++ trace_extra_tree r

section tree

variable {σ : Type} (random_bytes : Nat → σ → Bytes × σ)

/-- One span of the tree. The status is set on the finished object. -/
def span_tree (r : TurnRecord) (s : σ) : Value × σ :=
  let trace_id := random_trace_id random_bytes s
  let span_id := random_span_id random_bytes trace_id.2
  let entries := [("traceId", Value.string trace_id.1), ("spanId", .string span_id.1),
    ("name", .string GENERATION_SPAN_NAME), ("kind", .number (.pos_int 3)),
    ("startTimeUnixNano", .string (toString r.start_ns.toNat)),
    ("endTimeUnixNano", .string (toString r.end_ns.toNat)),
    ("attributes", .array (attributes_tree r))]
  let span := entries.foldl (fun acc e => Value.insert acc e.1 e.2) []
  let span :=
    match r.error with
    | some err => Value.insert span "status"
        (Value.of_entries [("code", .number (.pos_int 2)), ("message", .string err)])
    | none => span
  (.object span, span_id.2)

def span_trees : List TurnRecord → σ → List Value
  | [], _ => []
  | r :: batch, s =>
    let span := span_tree random_bytes r s
    span.1 :: span_trees batch span.2

/-- The pinned reference payload. -/
def build_otlp_json_value_tree (batch : List TurnRecord) (s : σ) : String :=
  let spans := span_trees random_bytes batch s
  (Value.of_entries [("resourceSpans", .array [Value.of_entries
    [("resource", Value.of_entries
        [("attributes", .array [kv "service.name" "agent-trace-gateway"])]),
     ("scopeSpans", .array [Value.of_entries
        [("scope", Value.of_entries [("name", .string "agent-trace-gateway")]),
         ("spans", .array spans)]])]])]).to_string

end tree

/-! ### The two payloads agree -/

/-- An attribute as the tree holds it. -/
def Attr.tree (a : Attr) : Value :=
  match a.value with
  | .str s => kv a.key s
  | .array values => kv_array a.key values

theorem tags_tree_eq (r : TurnRecord) : tags_tree r = tags r := by
  unfold tags_tree tags
  by_cases h : r.harness.isEmpty = true
  · rw [if_pos h, if_pos h]
  · rw [if_neg h, if_neg h]

theorem trace_extra_tree_eq (r : TurnRecord) :
    trace_extra_tree r = (trace_extra r).map Attr.tree := by
  unfold trace_extra_tree trace_extra
  simp only [List.map_append, map_push_if, List.map_map, List.map_cons, List.map_nil]
  rfl

/-- Both constructions push the same attributes under the same
    conditions. -/
theorem attributes_tree_eq (r : TurnRecord) :
    attributes_tree r = (span_attributes r).map Attr.tree := by
  unfold attributes_tree span_attributes
  rw [trace_extra_tree_eq, tags_tree_eq]
  simp only [List.map_append, map_push_if, List.map_map, List.map_cons, List.map_nil]
  rfl

theorem string_value_tree_text (s : String) :
    (Value.of_entries [("stringValue", .string s)]).to_string = string_value_text s := by
  rw [Value.of_entries_single, object_to_string]
  rfl

/-- An object of one field prints as the structure of that field. -/
theorem single_tree_text (key : String) (v : Value) :
    (Value.of_entries [(key, v)]).to_string = struct_text [(key, v.to_string)] := by
  rw [Value.of_entries_single, object_to_string]
  rfl

/-- An object of two fields given in key order prints as the structure that
    declares them so. -/
theorem pair_tree_text {k₁ k₂ : String} (hlt : ¬ k₂ < k₁) (hne : k₂ ≠ k₁) (v₁ v₂ : Value) :
    (Value.of_entries [(k₁, v₁), (k₂, v₂)]).to_string
      = struct_text [(k₁, v₁.to_string), (k₂, v₂.to_string)] := by
  rw [Value.of_entries_pair hlt hne, object_to_string]
  rfl

/-- `"key"` sorts before `"value"`. -/
theorem key_value_tree_text (key : String) (v : Value) :
    (Value.of_entries [("key", .string key), ("value", v)]).to_string
      = struct_text [("key", Value.quote key), ("value", v.to_string)] := by
  rw [pair_tree_text (by decide) (by decide), Value.to_string]

theorem attr_tree_text (a : Attr) : a.tree.to_string = a.text := by
  obtain ⟨key, value⟩ := a
  cases value with
  | str s =>
    show (kv key s).to_string = _
    rw [kv, key_value_tree_text, string_value_tree_text]
    rfl
  | array values =>
    show (kv_array key values).to_string = _
    have hitems : (values.map fun v => Value.of_entries [("stringValue", .string v)]).map
        Value.to_string = values.map string_value_text := by
      rw [List.map_map]
      exact List.map_congr_left fun v _ => string_value_tree_text v
    unfold kv_array
    -- the nested one-field objects, outermost first
    rw [key_value_tree_text, single_tree_text, single_tree_text, array_to_string, hitems]
    rfl

section agree

variable {σ : Type} (random_bytes : Nat → σ → Bytes × σ)

/-- The keys of a span object, sorted. -/
theorem span_entries_sorted (trace_id span_id name kind start stop attributes : Value) :
    [("traceId", trace_id), ("spanId", span_id), ("name", name), ("kind", kind),
      ("startTimeUnixNano", start), ("endTimeUnixNano", stop),
      ("attributes", attributes)].foldl (fun acc e => Value.insert acc e.1 e.2) []
    = [("attributes", attributes), ("endTimeUnixNano", stop), ("kind", kind), ("name", name),
        ("spanId", span_id), ("startTimeUnixNano", start), ("traceId", trace_id)] := by
  -- the keys are literals, so every comparison of the insertions is decided
  simp only [List.foldl_cons, List.foldl_nil, Value.insert, String.reduceLT, String.reduceEq,
    ↓reduceIte]

/-- The status goes between the start time and the trace id. -/
theorem span_entries_status (trace_id span_id name kind start stop attributes status : Value) :
    Value.insert [("attributes", attributes), ("endTimeUnixNano", stop), ("kind", kind),
        ("name", name), ("spanId", span_id), ("startTimeUnixNano", start),
        ("traceId", trace_id)] "status" status
    = [("attributes", attributes), ("endTimeUnixNano", stop), ("kind", kind), ("name", name),
        ("spanId", span_id), ("startTimeUnixNano", start), ("status", status),
        ("traceId", trace_id)] := by
  simp only [Value.insert, String.reduceLT, String.reduceEq, ↓reduceIte]

theorem status_tree_text (err : String) :
    (Value.of_entries [("code", .number (.pos_int 2)), ("message", .string err)]).to_string
      = StatusJson.text ⟨2, err⟩ := by
  rw [pair_tree_text (by decide) (by decide), Value.to_string, Value.to_string]
  rfl

/-- A span object prints as the span structure, and both draw the same
    ids. -/
theorem span_tree_text (r : TurnRecord) (s : σ) :
    (span_tree random_bytes r s).1.to_string = (span_json random_bytes r s).1.text ∧
      (span_tree random_bytes r s).2 = (span_json random_bytes r s).2 := by
  refine ⟨?_, rfl⟩
  have hattributes : (Value.array (attributes_tree r)).to_string
      = seq_text ((span_attributes r).map Attr.text) := by
    rw [array_to_string, attributes_tree_eq, List.map_map]
    congr 1
    exact List.map_congr_left fun a _ => attr_tree_text a
  have hkind : (Value.number (.pos_int 3)).to_string = toString 3 := rfl
  have hstring : ∀ t : String, (Value.string t).to_string = Value.quote t := fun t => by
    rw [Value.to_string]
  unfold span_tree span_json SpanJson.text
  dsimp only
  rw [span_entries_sorted]
  cases herror : r.error with
  | none =>
    dsimp only
    rw [object_to_string]
    simp only [List.map_cons, List.map_nil, hattributes, hkind, hstring, Option.map_none,
      Option.toList_none, List.append_nil, List.cons_append, List.nil_append]
  | some err =>
    dsimp only
    rw [span_entries_status, object_to_string]
    simp only [List.map_cons, List.map_nil, hattributes, hkind, hstring, status_tree_text,
      Option.map_some, Option.toList_some, List.cons_append, List.nil_append]

theorem span_trees_text : ∀ (batch : List TurnRecord) (s : σ),
    (span_trees random_bytes batch s).map Value.to_string
      = (span_jsons random_bytes batch s).map SpanJson.text := by
  intro batch
  induction batch with
  | nil => intro s; rfl
  | cons r batch ih =>
    intro s
    obtain ⟨htext, hstate⟩ := span_tree_text random_bytes r s
    simp only [span_trees, span_jsons, List.map_cons]
    rw [htext, hstate, ih]

/-- For every batch and every id stream, production sends the bytes of the
    pinned value tree. -/
theorem body_eq_value_tree (batch : List TurnRecord) (s : σ) :
    build_otlp_body random_bytes batch s
      = utf8_bytes (build_otlp_json_value_tree random_bytes batch s) := by
  have hservice : (kv "service.name" "agent-trace-gateway").to_string
      = (attr "service.name" "agent-trace-gateway").text :=
    attr_tree_text (attr "service.name" "agent-trace-gateway")
  unfold build_otlp_body build_otlp_json_value_tree
  dsimp only
  rw [single_tree_text, array_to_string, List.map_cons, List.map_nil,
    pair_tree_text (by decide) (by decide), single_tree_text, array_to_string,
    List.map_cons, List.map_nil, hservice, array_to_string, List.map_cons, List.map_nil,
    pair_tree_text (by decide) (by decide), single_tree_text, array_to_string, span_trees_text,
    Value.to_string]

end agree

end AgentTraceGateway
