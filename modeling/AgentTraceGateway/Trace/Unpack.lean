import AgentTraceGateway.Engine
import AgentTraceGateway.Harness

/-! # Unpacking

  From request and response bytes to the facts of a turn: one descriptor
  lookup and one pass over the parsed request body. -/

namespace AgentTraceGateway

/-- A response is an SSE stream, by its content type. -/
def looks_like_sse (content_type : String) : Bool :=
  Text.contains content_type "text/event-stream"

/-- The replayable messages array, when it is not empty. -/
def extract_messages (req : Value) : Option (List Value) :=
  (req.index "messages").as_array.filter fun messages => !messages.isEmpty

/-- Request-side facts of a turn. -/
structure TurnFacts where
  session_id : Option String
  session_source : String
  user_input : String
  model_name : String
  user_id : String
  messages : Option (List Value)
  stitch_eligible : Bool

section parsing

-- The JSON parser, `serde_json::from_str`.
variable (from_str : String → Option Value)

/-- Text, usage, tool calls and the error marker of a captured stream. -/
def reassemble_sse (protocol : String) (response_body : Bytes) : SseOutcome :=
  match detect_by_name protocol with
  | none => { text := "", usage := none, tools := [], frame_errors := 0, error := none }
  | some d => stream_response from_str d response_body

/-- The record of a non-streaming exchange; none without a parsed request, a
    parsed response or a user text. -/
def unpack_nonstreaming (protocol : String) (request : Option Value) (response_body : Bytes) :
    Option TurnRecord :=
  (detect_by_name protocol).bind fun d =>
    request.bind fun req =>
      (from_slice from_str response_body).bind fun resp => nonstreaming d req resp

def parse_body (request_body : Bytes) : Option Value := from_slice from_str request_body

/-- The session of a request and where it came from: protocol body mounts,
    dialect body shapes, protocol header mounts, harness header mounts. -/
def session_with_source (d : ProtocolDescriptor) (req : Value)
    (header_get : String → Option String) (facts : HarnessFacts) : Option String × String :=
  match d.session_from_body_with_source req with
  | some (sid, path) => (some sid, "body:" ++ Text.join "." path)
  | none =>
    match harness_session_from_body from_str facts req with
    | some sid => (some sid, "body:harness")
    | none =>
      match d.session_from_headers_with_source header_get with
      | some (sid, name) => (some sid, "header:" ++ name)
      | none =>
        match harness_session_from_headers_with_source facts header_get with
        | some (sid, name) => (some sid, "harness-header:" ++ name)
        | none => (none, "")

/-- The single entry to the request side. -/
def turn_facts (protocol : String) (req : Value) (header_get : String → Option String)
    (facts : HarnessFacts) : Option TurnFacts :=
  (detect_by_name protocol).map fun d =>
    let (session_id, session_source) := session_with_source from_str d req header_get facts
    { session_id := session_id
      session_source := session_source
      user_input := (d.user_input req).getD ""
      model_name := ((req.index "model").as_str).getD ""
      user_id := (d.end_user req).getD ""
      messages := extract_messages req
      stitch_eligible := d.stitch_eligible }

end parsing

end AgentTraceGateway
