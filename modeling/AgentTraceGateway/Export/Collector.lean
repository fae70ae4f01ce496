import AgentTraceGateway.Export.SpanKeys
import AgentTraceGateway.Export.Timestamp
import AgentTraceGateway.JsonRead

/-! # What a Collector Reads

  The exporter posts a batch as one JSON document. A collector parses it and
  takes the spans out of it, wherever they stand; then it looks up what it
  knows of a turn in the attributes of its span, the first one with a key.

  Both directions are followed through to the end: the document is read back
  as exactly the spans that were written, and the spans as exactly the turns,
  but for the few fields that an export does not carry. -/

namespace AgentTraceGateway

open JsonText

/-! ### The document as a tree -/

def string_value_json (s : String) : Tree := fields [("stringValue", str s)]

def AttrValue.json : AttrValue → Tree
  | .str s => string_value_json s
  | .array values =>
    fields [("arrayValue", fields [("values", .array (values.map string_value_json))])]

def Attr.json (a : Attr) : Tree := fields [("key", str a.key), ("value", a.value.json)]

def StatusJson.json (s : StatusJson) : Tree :=
  fields [("code", nat s.code), ("message", str s.message)]

def SpanJson.json (s : SpanJson) : Tree :=
  fields
    ([("attributes", .array (s.attributes.map Attr.json)),
      ("endTimeUnixNano", str s.end_time_unix_nano),
      ("kind", nat s.kind),
      ("name", str s.name),
      ("spanId", str s.span_id),
      ("startTimeUnixNano", str s.start_time_unix_nano)]
    ++ s.status.toList.map (fun st => ("status", st.json))
    ++ [("traceId", str s.trace_id)])

def payload_json (spans : List SpanJson) : Tree :=
  fields [("resourceSpans", .array [fields
    [("resource", fields
        [("attributes", .array [(attr "service.name" "agent-trace-gateway").json])]),
     ("scopeSpans", .array [fields
        [("scope", fields [("name", str "agent-trace-gateway")]),
         ("spans", .array (spans.map SpanJson.json))]])]])]

theorem string_value_text_eq (s : String) : string_value_text s = json_text (string_value_json s) := by
  rw [string_value_text, quote_eq, single_field_eq]
  rfl

theorem attr_value_text_eq (v : AttrValue) : v.text = json_text v.json := by
  cases v with
  | str s => exact string_value_text_eq s
  | array values =>
    rw [AttrValue.text, seq_text_map values string_value_text_eq, single_field_eq, single_field_eq]
    rfl

theorem attr_text_eq (a : Attr) : a.text = json_text a.json := by
  rw [Attr.text, quote_eq, attr_value_text_eq, two_fields_eq]
  rfl

theorem status_text_eq (s : StatusJson) : s.text = json_text s.json := by
  rw [StatusJson.text, quote_eq, nat_text_eq, two_fields_eq]
  rfl

theorem span_text_eq (s : SpanJson) : s.text = json_text s.json := by
  have hstatus : s.status.toList.map (fun st => ("status", st.text))
      = (s.status.toList.map fun st => ("status", st.json)).map fun e => (e.1, json_text e.2) := by
    rw [List.map_map]
    exact List.map_congr_left fun st _ => by rw [Function.comp_apply, status_text_eq]
  rw [SpanJson.json, ← struct_text_eq, SpanJson.text, hstatus]
  simp only [seq_text_map s.attributes attr_text_eq, quote_eq, nat_text_eq, List.map_append,
    List.map_cons, List.map_nil]

section payload

variable {σ : Type} (random_bytes : Nat → σ → Bytes × σ)

/-- The posted document is the tree, printed. -/
theorem build_otlp_body_eq (batch : List TurnRecord) (s : σ) :
    build_otlp_body random_bytes batch s
      = utf8_bytes (json_text (payload_json (span_jsons random_bytes batch s))) := by
  unfold build_otlp_body
  dsimp only
  rw [attr_text_eq, quote_eq, seq_text_map _ span_text_eq]
  simp only [single_item_eq, single_field_eq, two_fields_eq]
  rfl

end payload

/-! ### Reading the document -/

/-- A string under a key of an object. -/
def read_string (t : Tree) (key : String) : Option String := (t.get key).bind Tree.as_str

def read_string_value (t : Tree) : Option String := read_string t "stringValue"

/-- An attribute's value is a string, or an array of strings. -/
def read_attr_value (t : Tree) : Option AttrValue :=
  ((read_string_value t).map AttrValue.str).or
    ((((t.get "arrayValue").bind fun v => v.get "values").bind fun v =>
      v.as_list read_string_value).map AttrValue.array)

def read_attr (t : Tree) : Option Attr := do
  let key ← read_string t "key"
  let value ← (t.get "value").bind read_attr_value
  some ⟨key, value⟩

def read_status (t : Tree) : Option StatusJson := do
  let code ← (t.get "code").bind Tree.as_nat
  let message ← read_string t "message"
  some ⟨code, message⟩

/-- A span, with a status or without one. -/
def read_span (t : Tree) : Option SpanJson := do
  let attributes ← (t.get "attributes").bind fun v => v.as_list read_attr
  let end_time_unix_nano ← read_string t "endTimeUnixNano"
  let kind ← (t.get "kind").bind Tree.as_nat
  let name ← read_string t "name"
  let span_id ← read_string t "spanId"
  let start_time_unix_nano ← read_string t "startTimeUnixNano"
  let status ← Tree.optional read_status (t.get "status")
  let trace_id ← read_string t "traceId"
  some ⟨attributes, end_time_unix_nano, kind, name, span_id, start_time_unix_nano, status, trace_id⟩

/-- The spans of every scope of every resource, in order. -/
def read_payload (body : Bytes) : Option (List SpanJson) := do
  let document ← read_json body
  let resources ← (document.get "resourceSpans").bind fun v => v.as_list fun resource =>
    (resource.get "scopeSpans").bind fun v => v.as_list fun scope =>
      (scope.get "spans").bind fun v => v.as_list read_span
  some resources.flatten.flatten

@[simp] theorem read_string_fields (entries : List (String × Tree)) (key : String) :
    read_string (fields entries) key = (entries.lookup key).bind Tree.as_str := by
  rw [read_string, get_fields]

theorem read_string_value_json (s : String) : read_string_value (string_value_json s) = some s := by
  simp [read_string_value, string_value_json]

theorem read_attr_value_json (v : AttrValue) : read_attr_value v.json = some v := by
  cases v with
  | str s =>
    rw [read_attr_value, AttrValue.json, read_string_value_json]
    rfl
  | array values =>
    have hnone : read_string_value (AttrValue.array values).json = none := by
      simp [read_string_value, AttrValue.json, List.lookup_cons]
    have hvalues := as_list_array (l := values) fun s _ => read_string_value_json s
    rw [read_attr_value, hnone]
    simp [AttrValue.json, hvalues]

theorem read_attr_json (a : Attr) : read_attr a.json = some a := by
  simp [read_attr, Attr.json, read_attr_value_json, List.lookup_cons]

theorem read_status_json (s : StatusJson) : read_status s.json = some s := by
  simp [read_status, StatusJson.json, List.lookup_cons]

/-- The fields of a span, looked up. -/
theorem span_json_get (s : SpanJson) :
    s.json.get "attributes" = some (.array (s.attributes.map Attr.json)) ∧
    s.json.get "endTimeUnixNano" = some (str s.end_time_unix_nano) ∧
    s.json.get "kind" = some (nat s.kind) ∧
    s.json.get "name" = some (str s.name) ∧
    s.json.get "spanId" = some (str s.span_id) ∧
    s.json.get "startTimeUnixNano" = some (str s.start_time_unix_nano) ∧
    s.json.get "status" = s.status.map StatusJson.json ∧
    s.json.get "traceId" = some (str s.trace_id) := by
  have hget : ∀ key, s.json.get key = _ := fun key => get_fields _ key
  simp only [hget]
  cases hstatus : s.status with
  | none => simp [List.lookup_cons]
  | some st => simp [List.lookup_cons]

theorem read_span_json (s : SpanJson) : read_span s.json = some s := by
  obtain ⟨hattributes, hend, hkind, hname, hspan, hstart, hstatus, htrace⟩ := span_json_get s
  have hlist := as_list_array (l := s.attributes) fun a _ => read_attr_json a
  have hoptional := optional_map read_status_json s.status
  unfold read_span read_string
  rw [hattributes, hend, hkind, hname, hspan, hstart, hstatus, htrace]
  simp only [Option.bind_eq_bind, Option.bind_some, hlist, hoptional, as_str_str, as_nat_nat]

/-! ### The document is well formed -/

theorem string_value_json_valid (s : String) : (string_value_json s).Valid := by
  simp [string_value_json]

theorem attr_json_valid (a : Attr) : a.json.Valid := by
  have hvalue : a.value.json.Valid := by
    cases a.value with
    | str s => exact string_value_json_valid s
    | array values => simp [AttrValue.json, string_value_json_valid]
  simp [Attr.json, hvalue]

theorem span_json_valid (s : SpanJson) : s.json.Valid := by
  have hstatus : ∀ st : StatusJson, st.json.Valid := fun st => by simp [StatusJson.json]
  cases hnone : s.status with
  | none => simp [SpanJson.json, hnone, attr_json_valid]
  | some st => simp [SpanJson.json, hnone, attr_json_valid, hstatus]

theorem payload_json_valid (spans : List SpanJson) : (payload_json spans).Valid := by
  simp [payload_json, attr_json_valid, span_json_valid]

/-- The document of some spans is read as these spans. -/
theorem read_payload_json (spans : List SpanJson) :
    read_payload (utf8_bytes (json_text (payload_json spans))) = some spans := by
  have hspans := as_list_array (l := spans) fun s _ => read_span_json s
  rw [read_payload, read_json_text (payload_json_valid spans)]
  simp [payload_json, List.lookup_cons, as_list_single, hspans]

section posted

variable {σ : Type} (random_bytes : Nat → σ → Bytes × σ)

/-- A posted document is well-formed JSON in UTF-8, and a collector reads from
    it the spans of the batch: every one, in order, with its ids, times,
    status and attributes as they were written. -/
theorem posted_spans_read (batch : List TurnRecord) (s : σ) :
    read_payload (build_otlp_body random_bytes batch s)
      = some (span_jsons random_bytes batch s) := by
  rw [build_otlp_body_eq, read_payload_json]

end posted

/-! ### Looking attributes up -/

/-- The value of the first attribute with a key. -/
def lookup_attr (attrs : List Attr) (key : String) : Option AttrValue :=
  (attrs.find? fun a => a.key == key).map Attr.value

@[simp] theorem lookup_attr_append (a b : List Attr) (key : String) :
    lookup_attr (a ++ b) key = (lookup_attr a key).or (lookup_attr b key) := by
  unfold lookup_attr
  rw [List.find?_append]
  cases a.find? fun a => a.key == key <;> rfl

@[simp] theorem lookup_attr_nil (key : String) : lookup_attr [] key = none := rfl

@[simp] theorem lookup_attr_cons (a : Attr) (attrs : List Attr) (key : String) :
    lookup_attr (a :: attrs) key = if a.key = key then some a.value else lookup_attr attrs key := by
  unfold lookup_attr
  rw [List.find?_cons]
  by_cases h : a.key = key
  · rw [if_pos h, beq_iff_eq.mpr h]
    rfl
  · rw [if_neg h, beq_eq_false_iff_ne.mpr h]

@[simp] theorem lookup_attr_push_if (cond : Bool) (a : Attr) (key : String) :
    lookup_attr (push_if cond a) key = if cond = true ∧ a.key = key then some a.value else none := by
  cases cond with
  | false => simp [push_if]
  | true => simp [push_if]

/-- What no attribute has is not found. -/
theorem lookup_attr_none {attrs : List Attr} {key : String} (h : ∀ a ∈ attrs, a.key ≠ key) :
    lookup_attr attrs key = none := by
  unfold lookup_attr
  rw [List.find?_eq_none.mpr fun a ha => by simpa using h a ha]
  rfl

def AttrValue.as_string : AttrValue → Option String
  | .str s => some s
  | .array _ => none

/-- A text attribute; a field that is left out was empty. -/
def SpanJson.text_of (s : SpanJson) (key : String) : String :=
  ((lookup_attr s.attributes key).bind AttrValue.as_string).getD ""

/-- A mark, written only where it is set. -/
def SpanJson.flag (s : SpanJson) (key : String) : Bool :=
  lookup_attr s.attributes key == some (.str "true")

/-- The tag of the line, the first of the tags. -/
def SpanJson.line_tag (s : SpanJson) : String :=
  match lookup_attr s.attributes "langfuse.trace.tags" with
  | some (.array (tag :: _)) => tag
  | _ => ""

/-- What is written under the name of a header. -/
def Attr.header (a : Attr) : Option (String × String) :=
  (Text.strip_prefix_chars a.key.toList "langfuse.trace.metadata.hdr.".toList).bind fun name =>
    a.value.as_string.map fun v => (String.ofList name, v)

/-- An enrichment, if the span has it. -/
def SpanJson.enrichment (s : SpanJson) (key : String) : Option (String × String) :=
  ((lookup_attr s.attributes ("langfuse.trace.metadata." ++ key)).bind AttrValue.as_string).map
    fun v => (key, v)

/-- An unsigned 64-bit number under a key of an object. -/
def read_u64 (t : Tree) (key : String) : Option UInt64 :=
  ((t.get key).bind Tree.as_nat).map UInt64.ofNat

def read_usage (text : String) : Option TurnUsage :=
  (JsonText.read text.toList).map fun t =>
    { input_tokens := read_u64 t "input"
      output_tokens := read_u64 t "output"
      cache_read_tokens := read_u64 t "cache_read_input_tokens"
      cache_creation_tokens := read_u64 t "cache_creation_input_tokens"
      total_tokens := read_u64 t "total" }

def read_tool_call (t : Tree) : Option ToolCall := do
  let name ← read_string t "name"
  let arguments ← read_string t "arguments"
  some ⟨name, arguments⟩

def read_tool_calls (text : String) : Option (List ToolCall) :=
  (JsonText.read text.toList).bind fun t => t.as_list read_tool_call

/-- The instant of a timestamp, in nanoseconds since the epoch. -/
def read_instant (text : String) : Option UInt64 :=
  (read_timestamp text).map fun t => UInt64.ofNat t.unix_ns.toNat

/-- The number a decimal text stands for. -/
def read_decimal (text : String) : UInt64 := UInt64.ofNat (Nat.ofDigitChars 10 text.toList 0)

/-- The turn that a span tells of. -/
def SpanJson.turn (s : SpanJson) : TurnRecord where
  protocol := s.text_of "protocol"
  session_id := s.text_of "langfuse.session.id"
  user_input := s.text_of "user_input"
  final_output := s.text_of "final_output"
  raw_request := s.text_of "raw_request"
  raw_response := s.text_of "raw_response"
  tool_calls := (read_tool_calls (s.text_of "tool_calls")).getD []
  breakpoint := s.flag "breakpoint"
  start_ns := read_decimal s.start_time_unix_nano
  end_ns := read_decimal s.end_time_unix_nano
  usage := read_usage (s.text_of ATTR_USAGE_DETAILS)
  model_name := s.text_of ATTR_MODEL_NAME
  user_id := s.text_of ATTR_USER_ID
  error := s.status.map StatusJson.message
  harness := s.text_of "langfuse.trace.metadata.harness"
  dialect := s.text_of "langfuse.trace.metadata.dialect"
  client_ua := s.text_of "langfuse.trace.metadata.client_ua"
  hdr_evidence := s.attributes.filterMap Attr.header
  session_source := s.text_of "langfuse.trace.metadata.session_source"
  cancelled := s.flag "langfuse.trace.metadata.cancelled"
  api_key_fp := s.text_of "langfuse.trace.metadata.client_key_fp"
  harness_anomaly := s.flag "langfuse.trace.metadata.harness_protocol_anomaly"
  harness_enrich := enrich_keys.filterMap s.enrichment
  session_synthetic := s.flag "langfuse.trace.metadata.session_synthetic"
  completion_start_ns := read_instant (s.text_of ATTR_COMPLETION_START_TIME)
  trace_tag := s.line_tag

/-! ### What an export carries -/

/-- Usage without the dimensions that are zero. -/
def TurnUsage.nonzero (u : TurnUsage) : TurnUsage where
  input_tokens := u.input_tokens.filter (0 < ·)
  output_tokens := u.output_tokens.filter (0 < ·)
  cache_read_tokens := u.cache_read_tokens.filter (0 < ·)
  cache_creation_tokens := u.cache_creation_tokens.filter (0 < ·)
  total_tokens := u.total_tokens.filter (0 < ·)

/-- Usage that is zero throughout is not told from none. -/
def TurnUsage.exported (u : TurnUsage) : Option TurnUsage :=
  if u.nonzero = {} then none else some u.nonzero

/-- A record as its export carries it: without the mark of a drain that timed
    out and the list of candidates, under the tag it was stamped with. -/
def TurnRecord.exported (r : TurnRecord) : TurnRecord :=
  { r with
    usage := r.usage.bind TurnUsage.exported
    drain_timed_out := false
    harness_candidates := []
    trace_tag := record_trace_tag r }

/-! ### Usage and tool calls -/

theorem put_usage_lookup (detail : List (String × Value)) (key k : String) (val : Option UInt64) :
    (put_usage detail key val).lookup k
      = if k = key then ((val.filter (0 < ·)).map fun v => Value.number (.pos_int v)).or
          (detail.lookup k)
        else detail.lookup k := by
  unfold put_usage
  cases val.filter (0 < ·) with
  | none => simp
  | some v => simp [Value.lookup_insert]

/-- Every dimension written is a number. -/
theorem put_usage_valid {detail : List (String × Value)} (h : ∀ e ∈ detail, e.2.tree.Valid)
    (key : String) (val : Option UInt64) : ∀ e ∈ put_usage detail key val, e.2.tree.Valid := by
  unfold put_usage
  cases val.filter (0 < ·) with
  | none => exact h
  | some v =>
    intro e he
    rcases Value.mem_insert he with rfl | hmem
    · rw [Value.pos_int_tree]
      exact nat_valid _
    · exact h e hmem

/-- The usage details are read as the dimensions that are not zero. -/
theorem read_usage_details (u : TurnUsage) : read_usage (usage_details_json u) = some u.nonzero := by
  have hnone : ∀ e ∈ ([] : List (String × Value)), e.2.tree.Valid := by simp
  have hvalid := put_usage_valid (put_usage_valid (put_usage_valid (put_usage_valid
    (put_usage_valid hnone "input" u.input_tokens) "output" u.output_tokens)
    "cache_read_input_tokens" u.cache_read_tokens)
    "cache_creation_input_tokens" u.cache_creation_tokens) "total" u.total_tokens
  -- a number that was put is read as itself
  have hnumber : ∀ val : Option UInt64,
      ((((val.filter (0 < ·)).map fun v => Value.number (.pos_int v)).map Value.tree).bind
        Tree.as_nat).map UInt64.ofNat = val.filter (0 < ·) := by
    intro val
    cases val.filter (0 < ·) with
    | none => rfl
    | some v => simp [Value.pos_int_tree]
  rw [read_usage, usage_details_json, Value.to_string_eq, Value.tree_object, read_json_string
    ((fields_valid_iff _).mpr (List.forall_mem_map.mpr hvalid))]
  simp only [Option.map_some, read_u64, get_fields, Value.lookup_map_tree, put_usage_lookup,
    String.reduceEq, ↓reduceIte, List.lookup_nil, Option.or_none, hnumber]
  rfl

theorem usage_details_zero {u : TurnUsage} (h : u.nonzero = {}) :
    usage_details_json u = "\x7b\x7d" := by
  obtain ⟨hinput, houtput, hread, hcreation, htotal⟩ := TurnUsage.mk.inj h
  unfold usage_details_json put_usage
  rw [hinput, houtput, hread, hcreation, htotal]
  rfl

/-- Usage is exported, or left out where it is zero throughout. -/
theorem read_usage_attribute (r : TurnRecord) :
    read_usage ((usage_details r).getD "") = r.usage.bind TurnUsage.exported := by
  unfold usage_details
  cases r.usage with
  | none => rfl
  | some u =>
    rw [Option.map_some, Option.bind_some, TurnUsage.exported]
    by_cases hzero : u.nonzero = {}
    · rw [usage_details_zero hzero, if_pos hzero]
      rfl
    · have hread := read_usage_details u
      have hdetails : usage_details_json u ≠ "\x7b\x7d" := by
        intro hempty
        rw [hempty] at hread
        exact hzero (Option.some.inj hread).symm
      rw [Option.filter_some_pos (by simpa using hdetails), Option.getD_some, hread, if_neg hzero]

theorem read_tool_calls_json (calls : List ToolCall) :
    read_tool_calls (tool_calls_json calls) = some calls := by
  have hcall : ∀ c : ToolCall, struct_text
      [("name", Value.quote c.name), ("arguments", Value.quote c.arguments)]
        = json_text (fields [("name", str c.name), ("arguments", str c.arguments)]) := fun c => by
    rw [quote_eq, quote_eq, two_fields_eq]
  have hread : ∀ c ∈ calls, read_tool_call
      (fields [("name", str c.name), ("arguments", str c.arguments)]) = some c := fun c _ => by
    simp [read_tool_call, List.lookup_cons]
  rw [read_tool_calls, tool_calls_json, seq_text_map calls hcall, read_json_string (by simp),
    Option.bind_some, as_list_array hread]

/-! ### Where an attribute is found -/

theorem front_key {r : TurnRecord} {a : Attr} (h : a ∈ attributes_in_front r) :
    a.key ∈ keys_in_front := (keys_in_front_sublist r).subset (List.mem_map_of_mem h)

theorem behind_key {r : TurnRecord} (henriched : Enriched r) {a : Attr}
    (h : a ∈ attributes_behind r) : a.key ∈ keys_behind :=
  (keys_behind_sublist henriched).subset (List.mem_map_of_mem h)

/-- Evidence is under the keys of headers only. -/
theorem evidence_key {r : TurnRecord} {a : Attr} (h : a ∈ evidence_attributes r) :
    a.key ∉ keys_in_front ++ keys_behind := by
  obtain ⟨e, -, rfl⟩ := List.mem_map.mp h
  exact hdr_key_not_fixed e.1

/-- What has a key in front is found in front. -/
theorem lookup_in_front {r : TurnRecord} (h : Enriched r) {key : String}
    (hkey : key ∈ keys_in_front) :
    lookup_attr (span_attributes r) key = lookup_attr (attributes_in_front r) key := by
  have hevidence : lookup_attr (evidence_attributes r) key = none :=
    lookup_attr_none fun a ha heq =>
      evidence_key ha (heq ▸ List.mem_append_left _ hkey)
  have hbehind : lookup_attr (attributes_behind r) key = none :=
    lookup_attr_none fun a ha heq =>
      (List.nodup_append.mp fixed_keys_distinct.1).2.2 key hkey _ (behind_key h ha) heq.symm
  rw [span_attributes_eq, lookup_attr_append, lookup_attr_append, hevidence, hbehind,
    Option.or_none, Option.or_none]

theorem lookup_behind {r : TurnRecord} {key : String} (hkey : key ∈ keys_behind) :
    lookup_attr (span_attributes r) key = lookup_attr (attributes_behind r) key := by
  have hfront : lookup_attr (attributes_in_front r) key = none :=
    lookup_attr_none fun a ha heq =>
      (List.nodup_append.mp fixed_keys_distinct.1).2.2 _ (front_key ha) key hkey heq
  have hevidence : lookup_attr (evidence_attributes r) key = none :=
    lookup_attr_none fun a ha heq =>
      evidence_key ha (heq ▸ List.mem_append_right _ hkey)
  rw [span_attributes_eq, lookup_attr_append, lookup_attr_append, hfront, hevidence,
    Option.none_or, Option.none_or]

/-- The attribute of a field that is left out when it is empty. -/
def field_value (s : String) : Option AttrValue := if s = "" then none else some (.str s)

theorem field_value_text (s : String) :
    ((field_value s).bind AttrValue.as_string).getD "" = s := by
  unfold field_value
  split_ifs with h
  · exact h.symm
  · rfl

@[simp] theorem attr_key (key value : String) : (attr key value).key = key := rfl

@[simp] theorem attr_value (key value : String) : (attr key value).value = .str value := rfl

@[simp] theorem lookup_attr_some (o : Option String) (key k : String) :
    lookup_attr (o.toList.map (attr key)) k = if key = k then o.map .str else none := by
  cases o with
  | none => simp
  | some v => exact lookup_attr_cons (attr key v) [] k

@[simp] theorem lookup_attr_option {α : Type} (o : Option α) (key k : String) (value : α → String) :
    lookup_attr (o.toList.map fun v => attr key (value v)) k
      = if key = k then o.map fun v => .str (value v) else none := by
  cases o with
  | none => simp
  | some v => exact lookup_attr_cons (attr key (value v)) [] k

/-- The values in front. -/
theorem front_values (r : TurnRecord) :
    lookup_attr (attributes_in_front r) "langfuse.session.id" = field_value r.session_id ∧
    lookup_attr (attributes_in_front r) "protocol" = some (.str r.protocol) ∧
    lookup_attr (attributes_in_front r) "langfuse.trace.tags" = some (.array (tags r)) ∧
    lookup_attr (attributes_in_front r) "user_input" = some (.str r.user_input) ∧
    lookup_attr (attributes_in_front r) "final_output" = some (.str r.final_output) ∧
    lookup_attr (attributes_in_front r) "raw_request" = some (.str r.raw_request) ∧
    lookup_attr (attributes_in_front r) "raw_response" = some (.str r.raw_response) ∧
    lookup_attr (attributes_in_front r) "breakpoint"
      = some (.str (if r.breakpoint then "true" else "false")) ∧
    lookup_attr (attributes_in_front r) ATTR_USER_ID = field_value r.user_id ∧
    lookup_attr (attributes_in_front r) ATTR_MODEL_NAME = field_value r.model_name ∧
    lookup_attr (attributes_in_front r) ATTR_COMPLETION_START_TIME
      = r.completion_start_ns.map (fun ns => .str (iso8601_z ns)) ∧
    lookup_attr (attributes_in_front r) ATTR_USAGE_DETAILS
      = (usage_details r).map (fun details => .str details) ∧
    lookup_attr (attributes_in_front r) "tool_calls"
      = (if r.tool_calls = [] then none else some (.str (tool_calls_json r.tool_calls))) ∧
    lookup_attr (attributes_in_front r) "langfuse.trace.metadata.harness"
      = field_value r.harness ∧
    lookup_attr (attributes_in_front r) "langfuse.trace.metadata.dialect"
      = field_value r.dialect ∧
    lookup_attr (attributes_in_front r) "langfuse.trace.metadata.client_ua"
      = field_value r.client_ua := by
  refine ⟨?_, ?_, ?_, ?_, ?_, ?_, ?_, ?_, ?_, ?_, ?_, ?_, ?_, ?_, ?_, ?_⟩
  all_goals
    simp [attributes_in_front, attr_array, field_value, ATTR_OBSERVATION_TYPE,
      ATTR_OBSERVATION_INPUT, ATTR_USER_ID, ATTR_OBSERVATION_OUTPUT, ATTR_MODEL_NAME,
      ATTR_COMPLETION_START_TIME, ATTR_USAGE_DETAILS]

/-- The mark of a flag. -/
def flag_value (b : Bool) : Option AttrValue := if b then some (.str "true") else none

/-- The values behind, the enrichments aside. -/
theorem behind_values {r : TurnRecord} (h : Enriched r) :
    lookup_attr (attributes_behind r) "langfuse.trace.metadata.cancelled"
      = flag_value r.cancelled ∧
    lookup_attr (attributes_behind r) "langfuse.trace.metadata.client_key_fp"
      = field_value r.api_key_fp ∧
    lookup_attr (attributes_behind r) "langfuse.trace.metadata.harness_protocol_anomaly"
      = flag_value r.harness_anomaly ∧
    lookup_attr (attributes_behind r) "langfuse.trace.metadata.session_synthetic"
      = flag_value r.session_synthetic ∧
    lookup_attr (attributes_behind r) "langfuse.trace.metadata.session_source"
      = field_value r.session_source := by
  have henrich : ∀ key, key ∉ enrich_keys.map (fun key => "langfuse.trace.metadata." ++ key) →
      lookup_attr (r.harness_enrich.map fun e => attr ("langfuse.trace.metadata." ++ e.1) e.2) key
        = none :=
    fun key hkey => lookup_attr_none fun a ha heq =>
      hkey (heq ▸ (enrich_keys_sublist h).subset (List.mem_map_of_mem ha))
  refine ⟨?_, ?_, ?_, ?_, ?_⟩
  · simp [attributes_behind, flag_value,
      henrich "langfuse.trace.metadata.cancelled" (by decide +kernel)]
  · simp [attributes_behind, field_value,
      henrich "langfuse.trace.metadata.client_key_fp" (by decide +kernel)]
  · simp [attributes_behind, flag_value,
      henrich "langfuse.trace.metadata.harness_protocol_anomaly" (by decide +kernel)]
  · simp [attributes_behind, flag_value,
      henrich "langfuse.trace.metadata.session_synthetic" (by decide +kernel)]
  · simp [attributes_behind, field_value,
      henrich "langfuse.trace.metadata.session_source" (by decide +kernel)]

/-- An enrichment is found under its own key. -/
theorem lookup_enrichment (enrich : List (String × String)) (key : String) :
    lookup_attr (enrich.map fun e => attr ("langfuse.trace.metadata." ++ e.1) e.2)
        ("langfuse.trace.metadata." ++ key)
      = (enrich.lookup key).map .str := by
  induction enrich with
  | nil => rfl
  | cons e enrich ih =>
    obtain ⟨k, v⟩ := e
    rw [List.map_cons, lookup_attr_cons, ih, List.lookup_cons, attr_key, attr_value]
    by_cases hk : key = k
    · rw [if_pos (by rw [hk]), beq_iff_eq.mpr hk]
      rfl
    · have hne : "langfuse.trace.metadata." ++ k ≠ "langfuse.trace.metadata." ++ key :=
        fun heq => hk ((String.append_right_inj _).mp heq).symm
      rw [if_neg hne, beq_eq_false_iff_ne.mpr hk]

theorem behind_enrichment (r : TurnRecord) {key : String} (hkey : key ∈ enrich_keys) :
    lookup_attr (attributes_behind r) ("langfuse.trace.metadata." ++ key)
      = (r.harness_enrich.lookup key).map .str := by
  have hfound := lookup_enrichment r.harness_enrich key
  have hcases : key = "cc_account" ∨ key = "codex_installation" := by
    simpa [enrich_keys] using hkey
  rcases hcases with rfl | rfl
  · simp only [String.reduceAppend] at hfound
    simp [attributes_behind, hfound]
  · simp only [String.reduceAppend] at hfound
    simp [attributes_behind, hfound]

/-- A table whose keys come in the order of a list is taken out key by key. -/
theorem lookups_of_sublist {α : Type} {table : List (String × α)} {keys : List String}
    (hkeys : keys.Nodup) (h : (table.map (·.1)).Sublist keys) :
    keys.filterMap (fun key => (table.lookup key).map fun v => (key, v)) = table := by
  induction keys generalizing table with
  | nil =>
    rw [List.map_eq_nil_iff.mp (List.sublist_nil.mp h)]
    rfl
  | cons k keys ih =>
    obtain ⟨hk, hnodup⟩ := List.nodup_cons.mp hkeys
    rcases List.sublist_cons_iff.mp h with hskip | ⟨rest, hrest, htail⟩
    · -- the table goes without this key
      have hnone : table.lookup k = none :=
        List.lookup_eq_none_iff.mpr fun e he =>
          bne_iff_ne.mpr fun heq => hk (heq ▸ hskip.subset (List.mem_map_of_mem he))
      rw [List.filterMap_cons, hnone]
      exact ih hnodup hskip
    · obtain ⟨e, table, rfl, rfl, rfl⟩ := List.map_eq_cons_iff.mp hrest
      have hbehind : ∀ key ∈ keys, ((e :: table).lookup key).map (fun v => (key, v))
          = (table.lookup key).map fun v => (key, v) := fun key hmem => by
        have hne : key ≠ e.1 := fun heq => hk (heq ▸ hmem)
        rw [List.lookup_cons, beq_eq_false_iff_ne.mpr hne]
      rw [List.filterMap_cons, List.lookup_cons_self, List.filterMap_congr hbehind]
      exact congrArg (e :: ·) (ih hnodup htail)

/-! ### From the span back to the turn -/

/-- Only the key of a header names one. -/
theorem header_none {a : Attr} (h : a.key ∈ keys_in_front ++ keys_behind) : a.header = none := by
  unfold Attr.header
  cases hstrip : Text.strip_prefix_chars a.key.toList "langfuse.trace.metadata.hdr.".toList with
  | none => rfl
  | some name =>
    exact absurd ⟨name, (Text.strip_prefix_chars_eq hstrip).symm⟩ (fixed_keys_distinct.2 _ h)

theorem header_evidence (e : String × String) :
    (attr ("langfuse.trace.metadata.hdr." ++ e.1) e.2).header = some e := by
  have hstrip : Text.strip_prefix_chars ("langfuse.trace.metadata.hdr." ++ e.1).toList
      "langfuse.trace.metadata.hdr.".toList = some e.1.toList := by
    rw [String.toList_append]
    exact List.dropPrefix?_eq_some_iff.mpr ⟨_, rfl, beq_self_eq_true _⟩
  rw [Attr.header, attr_key, hstrip]
  simp [AttrValue.as_string]

/-- The evidence is what stands under the names of headers. -/
theorem span_evidence {r : TurnRecord} (h : Enriched r) :
    (span_attributes r).filterMap Attr.header = r.hdr_evidence := by
  have hfront : (attributes_in_front r).filterMap Attr.header = [] :=
    List.filterMap_eq_nil_iff.mpr fun a ha =>
      header_none (List.mem_append_left _ (front_key ha))
  have hbehind : (attributes_behind r).filterMap Attr.header = [] :=
    List.filterMap_eq_nil_iff.mpr fun a ha =>
      header_none (List.mem_append_right _ (behind_key h ha))
  have hevidence : (evidence_attributes r).filterMap Attr.header = r.hdr_evidence := by
    have hsome : Attr.header ∘ (fun e : String × String =>
        attr ("langfuse.trace.metadata.hdr." ++ e.1) e.2) = some := funext header_evidence
    rw [evidence_attributes, List.filterMap_map, hsome, List.filterMap_some]
  rw [span_attributes_eq, List.filterMap_append, List.filterMap_append, hfront, hbehind, hevidence,
    List.nil_append, List.append_nil]

theorem read_decimal_number (n : UInt64) : read_decimal (toString n.toNat) = n := by
  rw [read_decimal, Nat.toString_eq_repr, Nat.toList_repr]
  simp

theorem read_instant_iso8601_z (ns : UInt64) : read_instant (iso8601_z ns) = some ns := by
  rw [read_instant, read_iso8601_z, Option.map_some, civil_time_unix_ns]
  simp

section turn

variable {r : TurnRecord} {s : SpanJson} (h : Enriched r) (hs : s.attributes = span_attributes r)

include hs

theorem text_of_behind {key v : String} (hkey : key ∈ keys_behind)
    (hvalue : lookup_attr (attributes_behind r) key = field_value v) : s.text_of key = v := by
  rw [SpanJson.text_of, hs, lookup_behind hkey, hvalue, field_value_text]

theorem flag_behind {key : String} {b : Bool} (hkey : key ∈ keys_behind)
    (hvalue : lookup_attr (attributes_behind r) key = flag_value b) : s.flag key = b := by
  rw [SpanJson.flag, hs, lookup_behind hkey, hvalue]
  cases b <;> rfl

include h

theorem text_of_in_front {key v : String} (hkey : key ∈ keys_in_front)
    (hvalue : lookup_attr (attributes_in_front r) key = field_value v) : s.text_of key = v := by
  rw [SpanJson.text_of, hs, lookup_in_front h hkey, hvalue, field_value_text]

theorem text_of_always {key v : String} (hkey : key ∈ keys_in_front)
    (hvalue : lookup_attr (attributes_in_front r) key = some (.str v)) : s.text_of key = v := by
  rw [SpanJson.text_of, hs, lookup_in_front h hkey, hvalue]
  rfl

/-- The enrichments, taken out in their order. -/
theorem span_enrichments : enrich_keys.filterMap s.enrichment = r.harness_enrich := by
  have hlookup : ∀ key ∈ enrich_keys, s.enrichment key
      = (r.harness_enrich.lookup key).map fun v => (key, v) := by
    intro key hkey
    have hbehind : "langfuse.trace.metadata." ++ key ∈ keys_behind := by
      have hcases : key = "cc_account" ∨ key = "codex_installation" := by
        simpa [enrich_keys] using hkey
      rcases hcases with rfl | rfl
      · decide +kernel
      · decide +kernel
    rw [SpanJson.enrichment, hs, lookup_behind hbehind, behind_enrichment r hkey, Option.bind_map]
    cases r.harness_enrich.lookup key <;> rfl
  rw [List.filterMap_congr hlookup, lookups_of_sublist (by decide) h]

/-- The span of a record tells what the export carries of it. -/
theorem span_turn (hspan : s.end_time_unix_nano = toString r.end_ns.toNat)
    (hstart : s.start_time_unix_nano = toString r.start_ns.toNat)
    (hstatus : s.status = r.error.map fun err => ⟨2, err⟩) : s.turn = r.exported := by
  obtain ⟨hsession, hprotocol, htags, hinput, houtput, hrequest, hresponse, hbreakpoint, huser,
    hmodel, hcompletion, husage, hcalls, hharness, hdialect, hua⟩ := front_values r
  obtain ⟨hcancelled, hkey, hanomaly, hsynthetic, hsource⟩ := behind_values h
  have herror : s.status.map StatusJson.message = r.error := by
    rw [hstatus, Option.map_map]
    exact congrFun Option.map_id r.error
  have hmark : s.flag "breakpoint" = r.breakpoint := by
    rw [SpanJson.flag, hs, lookup_in_front h (by decide +kernel), hbreakpoint]
    cases r.breakpoint <;> decide
  -- the fields that are not written as they stand
  have htag : s.line_tag = record_trace_tag r := by
    rw [SpanJson.line_tag, hs, lookup_in_front h (by decide +kernel), htags]
    unfold tags
    split_ifs <;> rfl
  have htools : (read_tool_calls (s.text_of "tool_calls")).getD [] = r.tool_calls := by
    rw [SpanJson.text_of, hs, lookup_in_front h (by decide +kernel), hcalls]
    by_cases hempty : r.tool_calls = []
    · rw [if_pos hempty, hempty]
      rfl
    · rw [if_neg hempty]
      show (read_tool_calls (tool_calls_json r.tool_calls)).getD [] = r.tool_calls
      rw [read_tool_calls_json, Option.getD_some]
  have hdetails : read_usage (s.text_of ATTR_USAGE_DETAILS) = r.usage.bind TurnUsage.exported := by
    rw [SpanJson.text_of, hs, lookup_in_front h (by decide +kernel), husage, Option.bind_map]
    rw [← read_usage_attribute]
    cases usage_details r <;> rfl
  have hinstant : read_instant (s.text_of ATTR_COMPLETION_START_TIME) = r.completion_start_ns := by
    rw [SpanJson.text_of, hs, lookup_in_front h (by decide +kernel), hcompletion]
    cases r.completion_start_ns with
    | none => rfl
    | some ns => exact read_instant_iso8601_z ns
  rw [SpanJson.turn, TurnRecord.exported, hspan, hstart, read_decimal_number, read_decimal_number,
    herror, hmark, htag, htools, hdetails, hinstant, span_enrichments h hs, hs, span_evidence h,
    text_of_in_front h hs (by decide +kernel) hsession,
    text_of_always h hs (by decide +kernel) hprotocol,
    text_of_always h hs (by decide +kernel) hinput,
    text_of_always h hs (by decide +kernel) houtput,
    text_of_always h hs (by decide +kernel) hrequest,
    text_of_always h hs (by decide +kernel) hresponse,
    text_of_in_front h hs (by decide +kernel) huser,
    text_of_in_front h hs (by decide +kernel) hmodel,
    text_of_in_front h hs (by decide +kernel) hharness,
    text_of_in_front h hs (by decide +kernel) hdialect,
    text_of_in_front h hs (by decide +kernel) hua,
    flag_behind hs (by decide +kernel) hcancelled,
    text_of_behind hs (by decide +kernel) hkey,
    flag_behind hs (by decide +kernel) hanomaly,
    flag_behind hs (by decide +kernel) hsynthetic,
    text_of_behind hs (by decide +kernel) hsource]

end turn

section collected

variable {σ : Type} (random_bytes : Nat → σ → Bytes × σ)

theorem span_jsons_turns {batch : List TurnRecord} (h : ∀ r ∈ batch, Enriched r) (s : σ) :
    (span_jsons random_bytes batch s).map SpanJson.turn = batch.map TurnRecord.exported := by
  induction batch generalizing s with
  | nil => rfl
  | cons r batch ih =>
    have hturn : (span_json random_bytes r s).1.turn = r.exported :=
      span_turn (h r (List.mem_cons_self ..)) rfl rfl rfl rfl
    rw [span_jsons, List.map_cons, List.map_cons, hturn,
      ih (fun r' hr' => h r' (List.mem_cons_of_mem _ hr'))]

variable (sha256 : Bytes → Digest) (from_str : String → Option Value)

/-- Of any batch of records that the gateway builds, the collector learns the
    turns: in order, each with all its texts, tool calls, times, evidence and
    marks, whatever bytes clients and upstreams put into them. -/
theorem posted_turns_read {batch : List TurnRecord}
    (h : ∀ r ∈ batch, ∃ headers, Built sha256 from_str headers r) (s : σ) :
    (read_payload (build_otlp_body random_bytes batch s)).map (fun spans => spans.map SpanJson.turn)
      = some (batch.map TurnRecord.exported) := by
  have henriched : ∀ r ∈ batch, Enriched r := fun r hr =>
    let ⟨_, hbuilt⟩ := h r hr
    (hbuilt.evidence sha256 from_str).1
  rw [posted_spans_read, Option.map_some, span_jsons_turns random_bytes henriched]

end collected

/-! ### A turn with a tool call, and one that failed -/

/-- A request of an installation of codex. -/
def codex_text : String :=
  "\x7b\"input\":\"hi\",\"client_metadata\":\x7b\"x-codex-installation-id\":\"i\"\x7d\x7d"

def codex_request : Value := .of_entries [
  ("input", .string "hi"),
  ("client_metadata", .of_entries [("x-codex-installation-id", .string "i")])]

/-- An answer that calls a tool. -/
def call_text : String :=
  "\x7b\"output\":[\x7b\"type\":\"function_call\",\"name\":\"ls\",\"arguments\":\"\"\x7d],"
    ++ "\"usage\":\x7b\"input_tokens\":3,\"output_tokens\":2\x7d\x7d"

def call_response : Value := .of_entries [
  ("output", .array [.of_entries [
    ("type", .string "function_call"), ("name", .string "ls"), ("arguments", .string "")]]),
  ("usage", .of_entries [
    ("input_tokens", .number (.pos_int 3)), ("output_tokens", .number (.pos_int 2))])]

/-- The parser on the texts of these turns. -/
def codex_from_str (s : String) : Option Value :=
  if s = codex_text then some codex_request
  else if s = call_text then some call_response
  else if s = "\x7b\x7d" then some (.object [])
  else none

/-- The turn, with an answer. -/
def codex_turn (status : UInt16) (answer : String) : Turn where
  path := "/v1/responses"
  headers := [("x-one", [0x31])]
  error := none
  ctx := {
    snap := ⟨"salt", "tag", false, 30, half_minute_pos⟩
    req_buf := utf8_bytes codex_text
    resp_buf := utf8_bytes answer
    resp_content_type := "application/json"
    resp_status := status
    response_complete := true }
  now_ns := 1
  instant := 1
  order := Lru.IterOrder.stored

def codex_record (t : Turn) : TurnRecord :=
  (logged_record Sha256.digest codex_from_str idle_gateway Responses.DESCRIPTOR t).getD {}

theorem responses_path : detect_path "/v1/responses" = some ⟨Responses.DESCRIPTOR, false⟩ := rfl

theorem codex_record_built {status : UInt16} {answer : String}
    (h : (from_slice codex_from_str (utf8_bytes answer)).isSome = true) :
    Built Sha256.digest codex_from_str [("x-one", [0x31])]
      (codex_record (codex_turn status answer)) := by
  have hsome : (logged_record Sha256.digest codex_from_str idle_gateway Responses.DESCRIPTOR
      (codex_turn status answer)).isSome = true :=
    (logged_record_isSome_iff Sha256.digest codex_from_str responses_path).mpr
      (Or.inr (Or.inr (Or.inl ⟨⟨codex_request, rfl, rfl⟩, h⟩)))
  obtain ⟨record, hrecord⟩ := Option.isSome_iff_exists.mp hsome
  have hpushed := (pushed_iff_logged Sha256.digest codex_from_str idle_gateway
    (codex_turn status answer) record).mpr ⟨_, exact_matched responses_path, hrecord⟩
  rw [codex_record, hrecord]
  exact .turn idle_gateway (codex_turn status answer) record hpushed

theorem posted_turns_read_twice :
    let called := codex_record (codex_turn 200 call_text)
    let failed := codex_record (codex_turn 500 "\x7b\x7d")
    called.usage.isSome = true ∧ called.tool_calls = [⟨"ls", ""⟩] ∧
      called.harness_enrich = [("codex_installation", "i")] ∧
      failed.error = some "http_status: 500" ∧
      (read_payload (build_otlp_body zero_bytes [called, failed] ())).map
          (fun spans => spans.map SpanJson.turn)
        = some [called.exported, failed.exported] :=
  ⟨by decide +kernel, by decide +kernel, by decide +kernel, by decide +kernel,
    posted_turns_read zero_bytes Sha256.digest codex_from_str
      (List.forall_mem_cons.mpr ⟨⟨_, codex_record_built (by decide +kernel)⟩,
        List.forall_mem_singleton.mpr ⟨_, codex_record_built (by decide +kernel)⟩⟩) ()⟩

end AgentTraceGateway
