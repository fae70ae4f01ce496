import AgentTraceGateway.Json

/-! # The Turn Data Model

  One completed agent turn as the trace layer stores and exports it, the
  token usage buckets, and their merge and rendering. -/

namespace AgentTraceGateway

/-! ### Langfuse vocabulary -/

def LANGFUSE_TRACE_NAME : String := "agent.turn"

/-- `line:<source>`: the tag of a record no configuration stamped. -/
def LANGFUSE_TRACE_TAG : String := "line:atg"

def ATTR_OBSERVATION_TYPE : String := "langfuse.observation.type"
def OBSERVATION_TYPE_GENERATION : String := "generation"
def GENERATION_SPAN_NAME : String := "agent.turn.generation"
def ATTR_OBSERVATION_INPUT : String := "langfuse.observation.input"
def ATTR_OBSERVATION_OUTPUT : String := "langfuse.observation.output"
def ATTR_USER_ID : String := "langfuse.user.id"
def ATTR_MODEL_NAME : String := "langfuse.observation.model.name"
def ATTR_COMPLETION_START_TIME : String := "langfuse.observation.completion_start_time"
def ATTR_USAGE_DETAILS : String := "langfuse.observation.usage_details"

/-! ### Turns -/

/-- Token usage in mutually exclusive buckets; `none` is "not reported". -/
structure TurnUsage where
  input_tokens : Option UInt64 := none
  output_tokens : Option UInt64 := none
  cache_read_tokens : Option UInt64 := none
  cache_creation_tokens : Option UInt64 := none
  total_tokens : Option UInt64 := none
  deriving DecidableEq, Repr

/-- `merge_usage`: reported fields win, the others keep the earlier value. -/
def merge_usage (acc : Option TurnUsage) (next : TurnUsage) : Option TurnUsage :=
  match acc with
  | some cur => some {
      input_tokens := next.input_tokens.or cur.input_tokens
      output_tokens := next.output_tokens.or cur.output_tokens
      cache_read_tokens := next.cache_read_tokens.or cur.cache_read_tokens
      cache_creation_tokens := next.cache_creation_tokens.or cur.cache_creation_tokens
      total_tokens := next.total_tokens.or cur.total_tokens }
  | none => some next

/-- One dimension of the usage details: written when reported and non-zero. -/
def put_usage (detail : List (String × Value)) (key : String) (val : Option UInt64) :
    List (String × Value) :=
  match val.filter (0 < ·) with
  | some v => Value.insert detail key (.number (.pos_int v))
  | none => detail

/-- `usage_details_json`: the usage dimensions as one JSON object. -/
def usage_details_json (u : TurnUsage) : String :=
  let detail := put_usage [] "input" u.input_tokens
  let detail := put_usage detail "output" u.output_tokens
  let detail := put_usage detail "cache_read_input_tokens" u.cache_read_tokens
  let detail := put_usage detail "cache_creation_input_tokens" u.cache_creation_tokens
  let detail := put_usage detail "total" u.total_tokens
  (Value.object detail).to_string

/-- One tool invocation observed in a turn. -/
structure ToolCall where
  name : String
  arguments : String
  deriving DecidableEq, Repr

/-- One completed turn. -/
structure TurnRecord where
  protocol : String := ""
  session_id : String := ""
  user_input : String := ""
  final_output : String := ""
  raw_request : String := ""
  raw_response : String := ""
  tool_calls : List ToolCall := []
  breakpoint : Bool := false
  start_ns : UInt64 := 0
  end_ns : UInt64 := 0
  usage : Option TurnUsage := none
  model_name : String := ""
  user_id : String := ""
  error : Option String := none
  harness : String := ""
  dialect : String := ""
  client_ua : String := ""
  hdr_evidence : List (String × String) := []
  session_source : String := ""
  cancelled : Bool := false
  drain_timed_out : Bool := false
  api_key_fp : String := ""
  harness_candidates : List String := []
  harness_anomaly : Bool := false
  harness_enrich : List (String × String) := []
  session_synthetic : Bool := false
  completion_start_ns : Option UInt64 := none
  trace_tag : String := ""
  deriving DecidableEq, Repr

example : usage_details_json ⟨some 5, some 0, none, none, some 5⟩
    = "\x7b\"input\":5,\"total\":5\x7d" := by decide

end AgentTraceGateway
