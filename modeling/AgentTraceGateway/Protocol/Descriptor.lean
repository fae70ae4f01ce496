import AgentTraceGateway.Lib.Text
import AgentTraceGateway.Model

/-! # Protocol Descriptors

  The shape of a protocol table and the evaluators that read it. A
  descriptor is data: where the session, the end user, the user's input and
  the answer live in a body, which stream events carry them, and how token
  usage is spelled. The evaluators never branch on a protocol.

  Columns no evaluator reads (`messages_path`, `chain_sources`) are left
  out. -/

namespace AgentTraceGateway

/-- Where the user-turn text is found. -/
inductive InputShape where
  | messages
  | responses
  deriving DecidableEq, Repr

/-- How streaming tool calls arrive. -/
inductive ToolCallStrategy where
  | done_items
  | delta_assembly
  | chunked_tool_calls
  deriving DecidableEq, Repr

/-- One streaming extraction target. -/
inductive SseAction where
  | text (path : List String)
  | tool_open
  | tool_arg
  | tool_close
  | tool_done
  | tool_chunk
  deriving DecidableEq, Repr

/-- One streaming rule: `on` gates on the frame's `type` (`"*"` is any),
    the other gates on the data type and the inner delta type. -/
structure SseRule where
  on : String
  data_type : Option String := none
  delta_type : Option String := none
  action : SseAction
  deriving DecidableEq, Repr

/-- One usage location: event gate and path within the frame. -/
structure UsageFrame where
  on_event : Option String
  obj_path : List String
  deriving DecidableEq, Repr

/-- Field spellings of a usage object, as alternative full paths. -/
structure UsageShape where
  input : List (List String)
  output : List (List String)
  cache_read : List (List String)
  cache_write : List (List String)
  deriving DecidableEq, Repr

/-- Whether the reported input count already contains the cache counts. -/
inductive TokenInclusion where
  | inclusive
  | exclusive
  deriving DecidableEq, Repr

/-- WebSocket turn boundary events. -/
structure TurnMarkers where
  start : String
  stop : String
  deriving DecidableEq, Repr

/-- A body session source; `transform` turns a composite value into an id. -/
structure BodySource where
  path : List String
  two_form : Bool := false
  transform : Option (String → Option String) := none

/-- One protocol's table. -/
structure ProtocolDescriptor where
  name : String
  path_prefixes : List String
  loose_endpoints : List String
  input_shape : InputShape
  user_input_fn : Option (Value → Option String) := none
  final_output_fn : Option (Value → Option String) := none
  body_sources : List BodySource
  header_sources : List String
  user_sources : List String
  sse_rules : List SseRule
  tool_calls : ToolCallStrategy
  usage_frames : List UsageFrame
  usage_shape : UsageShape
  usage_inclusion : TokenInclusion
  final_output_path : List String
  stitch_eligible : Bool
  turn_markers : Option TurnMarkers := none
  nonstreaming_tools : Option (Value → List ToolCall) := none

/-! ### Path readers -/

/-- `"0"`/`"1"`... index into arrays (`key.parse::<usize>()`). -/
def parse_usize (key : String) : Option Nat := Text.parse_uint (2 ^ 64) key

def resolve_path (v : Value) (path : List String) : Value :=
  path.foldl (fun cur key =>
    match cur with
    | .array items => (((parse_usize key).bind fun i => items[i]?)).getD .null
    | _ => (cur.get key).getD .null) v

/-- A path is read one key at a time. -/
theorem resolve_path_cons (v : Value) (key : String) (path : List String) :
    resolve_path v (key :: path) = resolve_path (resolve_path v [key]) path := rfl

/-- A key that is no number names an entry of an object. -/
theorem resolve_name {key : String} (hkey : parse_usize key = none) (v : Value) :
    resolve_path v [key] = v.index key := by
  cases v with
  | array items =>
    simp only [resolve_path, List.foldl_cons, List.foldl_nil, hkey, Option.bind_none,
      Option.getD_none]
    rfl
  | _ => rfl

def read_path (body : Value) (path : List String) : Option String :=
  (path.foldl (fun cur key => cur.bind (·.get key)) (some body)).bind (·.as_str)

/-- The text blocks of a content array. -/
def block_texts (blocks : List Value) : List String :=
  blocks.filterMap fun b => (b.index "text").as_str

/-- Plain string or block array; a string that is empty, and blocks without
    any text, are no text at all. -/
def content_text (content : Value) : Option String :=
  match content.as_str with
  | some s => if s.isEmpty then none else some s
  | none =>
    match content.as_array with
    | some blocks =>
      let out := block_texts blocks
      if out.isEmpty then none else some (Text.join "\n" out)
    | none => none

/-- A trimmed, non-empty string. -/
def trimmed (s : String) : Option String :=
  if Text.is_blank s then none else some (Text.trim s)

/-- Two-form reader: a plain id string, or an `{id}` object where the source
    allows it; then the transform. -/
def read_source (body : Value) (src : BodySource) : Option String :=
  let v := resolve_path body src.path
  let raw := if src.two_form then v.as_str.or ((v.index "id").as_str) else v.as_str
  (raw.bind trimmed).bind fun raw =>
    match src.transform with
    | some f => f raw
    | none => some raw

namespace ProtocolDescriptor

variable (d : ProtocolDescriptor)

/-- Session id from the body sources in order, with the winning path. -/
def session_from_body_with_source (body : Value) : Option (String × List String) :=
  d.body_sources.findSome? fun src => (read_source body src).map fun sid => (sid, src.path)

def session_from_body (body : Value) : Option String :=
  (d.session_from_body_with_source body).map (·.1)

/-- Session id from the header sources in order, with the winning name. -/
def session_from_headers_with_source (get : String → Option String) :
    Option (String × String) :=
  d.header_sources.findSome? fun name =>
    ((get name).bind trimmed).map fun v => (v, name)

def session_from_headers (get : String → Option String) : Option String :=
  (d.session_from_headers_with_source get).map (·.1)

/-- End-user identity: the first source that is a non-blank string. -/
def end_user (body : Value) : Option String :=
  d.user_sources.findSome? fun name => (read_path body [name]).bind trimmed

/-- User-input text of a request: the last user message. -/
def user_input (req : Value) : Option String :=
  match d.input_shape with
  | .messages =>
    (req.index "messages").as_array.bind fun items =>
      (items.reverse.find? fun m => (m.index "role").is_str "user").bind fun item =>
        content_text (item.index "content")
  | .responses => d.user_input_fn.bind fun f => f (req.index "input")

/-- Final output text of a non-streaming response. -/
def final_output (resp : Value) : Option String :=
  match d.final_output_fn with
  | some f => f resp
  | none => content_text (resolve_path resp d.final_output_path)

end ProtocolDescriptor

end AgentTraceGateway
