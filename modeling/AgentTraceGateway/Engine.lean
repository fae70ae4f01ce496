import AgentTraceGateway.Protocol.Tables
import AgentTraceGateway.Protocol.Usage
import Mathlib.Data.List.Sort

/-! # The Protocol Interpretation Engine

  Splits a server-sent-event body into data frames, runs a descriptor's
  rules over each frame and accumulates text, usage, tool calls and errors.
  A body can be parsed whole (`stream_response`) or chunk by chunk while it
  drains (`drain_feed`, `drain_finish`); `nonstreaming` reads a complete
  JSON answer instead. -/

namespace AgentTraceGateway

/-! ### Frame splitting -/

/-- The splitter's state: the finished frames, and the data lines of the
    frame in progress. -/
structure FrameAcc where
  out : List (List Char) := []
  data : Option (List Char) := none
  deriving DecidableEq, Repr

/-- `data.take()` into the output: end of a frame. -/
def FrameAcc.flush (st : FrameAcc) : FrameAcc :=
  { out := st.out ++ st.data.toList, data := none }

/-- One line of the body. A blank line ends a frame; a `data:` line opens or
    extends one; any other line is skipped. -/
def frame_line (st : FrameAcc) (raw : List Char) : FrameAcc :=
  let line := (Text.strip_suffix_chars raw ['\r']).getD raw
  if line.isEmpty then st.flush
  else
    match Text.strip_prefix_chars line "data:".toList with
    | none => st
    | some rest =>
      let rest := (Text.strip_prefix_chars rest [' ']).getD rest
      match st.data with
      | some d => { st with data := some (d ++ '\n' :: rest) }
      | none => { st with data := some rest }

/-- The data frames of a text, the last one with or without its blank line. -/
def collect_frames (text : List Char) : List (List Char) :=
  ((text.splitOn '\n').foldl frame_line {}).flush.out

/-- The data frames of a body: valid UTF-8 is read as is, anything else
    through lossy replacement. -/
def sse_data_frames (body : Bytes) : List (List Char) :=
  match utf8_strict body with
  | some text => collect_frames text
  | none => collect_frames (utf8_lossy body)

/-! ### Accumulator -/

/-- Streaming accumulator. -/
structure SseAccum where
  text : String := ""
  usage : Option TurnUsage := none
  frame_errors : UInt32 := 0
  error : Option String := none
  tools : List ToolCall := []
  pending : Option (UInt64 × ToolCall) := none
  chat_tools : List (UInt64 × ToolCall) := []
  deriving DecidableEq, Repr

/-- Result of one streaming pass. -/
structure SseOutcome where
  text : String
  usage : Option TurnUsage
  tools : List ToolCall
  frame_errors : UInt32
  error : Option String
  deriving DecidableEq, Repr

def matches_rule (rule : SseRule) (event : Option String) (v : Value) : Bool :=
  (rule.on == "*" || event == some rule.on) &&
  (match rule.data_type with
    | some dt => (v.index "type").is_str dt
    | none => true) &&
  (match rule.delta_type with
    | some dt => ((v.index "delta").index "type").is_str dt
    | none => true)

/-- Close the pending tool block, if any. -/
def SseAccum.take_pending (acc : SseAccum) : SseAccum :=
  match acc.pending with
  | some (_, call) => { acc with tools := acc.tools ++ [call], pending := none }
  | none => acc

/-- The `index` of a frame, 0 when missing. -/
def frame_index (v : Value) : UInt64 := ((v.index "index").as_u64).getD 0

/-- One fragment of a chunked tool call: the first name wins, arguments are
    appended. -/
def extend_call (tc : Value) (call : ToolCall) : ToolCall :=
  let function := tc.index "function"
  let name :=
    match (function.index "name").as_str with
    | some n => if call.name.isEmpty then n else call.name
    | none => call.name
  { name := name
    arguments := call.arguments ++ ((function.index "arguments").as_str).getD "" }

/-- The call at an index is extended in place, or opened at the end. -/
def upsert_call (idx : UInt64) (tc : Value) :
    List (UInt64 × ToolCall) → List (UInt64 × ToolCall)
  | [] => [(idx, extend_call tc { name := "", arguments := "" })]
  | (i, call) :: rest =>
    if i = idx then (i, extend_call tc call) :: rest
    else (i, call) :: upsert_call idx tc rest

def apply_action (acc : SseAccum) (action : SseAction) (v : Value) : SseAccum :=
  match action with
  | .text path =>
    match (resolve_path v path).as_str with
    | some t => { acc with text := acc.text ++ t }
    | none => acc
  | .tool_open =>
    let block := v.index "content_block"
    if (block.index "type").is_str "tool_use" then
      { acc.take_pending with
        pending := some (frame_index v,
          { name := ((block.index "name").as_str).getD "", arguments := "" }) }
    else acc
  | .tool_arg =>
    match acc.pending with
    | some (pi, call) =>
      if pi = frame_index v then
        match ((v.index "delta").index "partial_json").as_str with
        | some s => { acc with pending := some (pi, { call with arguments := call.arguments ++ s }) }
        | none => acc
      else acc
    | none => acc
  | .tool_close =>
    match acc.pending with
    | some (pi, _) => if pi = frame_index v then acc.take_pending else acc
    | none => acc
  | .tool_done =>
    let item := v.index "item"
    let item_type := ((item.index "type").as_str).getD ""
    if item_type = "function_call" ∨ item_type = "custom_tool_call" then
      let arguments := ((item.index "arguments").as_str.or (item.index "input").as_str).getD ""
      let call : ToolCall := { name := ((item.index "name").as_str).getD "", arguments := arguments }
      { acc with tools := acc.tools ++ [call] }
    else acc
  | .tool_chunk =>
    match ((((v.index "choices").item 0).index "delta").index "tool_calls").as_array with
    | some calls =>
      let chunk := fun ts tc => upsert_call (frame_index tc) tc ts
      { acc with chat_tools := calls.foldl chunk acc.chat_tools }
    | none => acc

/-- Run the descriptor's rules over one parsed frame; every rule whose
    trigger matches gets its chance. -/
def apply_sse_rule (acc : SseAccum) (d : ProtocolDescriptor) (event : Option String)
    (v : Value) : SseAccum :=
  d.sse_rules.foldl (fun acc rule =>
    if matches_rule rule event v then apply_action acc rule.action v else acc) acc

/-- The protocol error text of a terminal or exception frame. -/
def error_marker (protocol : String) (v : Value) : Option String :=
  if protocol = "openai.responses" ∨ protocol = "openai.live" then
    if (v.index "type").is_str "response.failed" ∨
        (v.index "type").is_str "response.incomplete" then
      some ((v.index "response").index "error").to_string
    else none
  else if protocol = "anthropic.messages" then
    if (v.index "type").is_str "error" then some (v.index "error").to_string else none
  else none

section parsing

-- The JSON parser, `serde_json::from_str`.
variable (from_str : String → Option Value)

/-- One data frame: parse, error marker, rules, usage. Empty frames and the
    `[DONE]` sentinel are stream furniture, not errors. -/
def feed_frame (d : ProtocolDescriptor) (acc : SseAccum) (data : List Char) : SseAccum :=
  let trimmed := Text.trim_chars data
  if trimmed.isEmpty || trimmed == "[DONE]".toList then acc
  else
    match from_str (String.ofList data) with
    | none => { acc with frame_errors := acc.frame_errors + 1 }
    | some v =>
      let acc := { acc with error := (error_marker d.name v).or acc.error }
      let acc := apply_sse_rule acc d (v.index "type").as_str v
      match usage_from_sse_frame d v with
      | some u => { acc with usage := merge_usage acc.usage u }
      | none => acc

def feed_frames (d : ProtocolDescriptor) (acc : SseAccum) (frames : List (List Char)) :
    SseAccum :=
  frames.foldl (feed_frame from_str d) acc

/-- Finish an accumulator: an unclosed tool block counts, and chunked calls
    come in index order. -/
def finish_accum (acc : SseAccum) (d : ProtocolDescriptor) : SseOutcome :=
  let tools := acc.tools ++ (acc.pending.map (·.2)).toList
  let tools :=
    if d.tool_calls = .chunked_tool_calls then
      tools ++ ((acc.chat_tools.insertionSort fun a b => a.1 ≤ b.1).map (·.2))
    else tools
  { text := acc.text
    usage := acc.usage
    tools := tools
    frame_errors := acc.frame_errors
    error := acc.error }

/-- One pass over a whole captured body. -/
def stream_response (d : ProtocolDescriptor) (body : Bytes) : SseOutcome :=
  finish_accum (feed_frames from_str d {} (sse_data_frames body)) d

/-! ### Incremental parsing -/

/-- Offset of the last occurrence of a pattern
    (`body.windows(pat.len()).rposition(|w| w == pat)`). -/
def rposition (pat : Bytes) : Bytes → Option Nat
  | [] => none
  | b :: bs =>
    match rposition pat bs with
    | some p => some (p + 1)
    | none => if pat.isPrefixOf (b :: bs) then some 0 else none

/-- End offset of the last occurrence of a pattern. -/
def end_of (pat body : Bytes) : Option Nat :=
  (rposition pat body).map (· + pat.length)

/-- End offset of the last complete frame boundary: a blank line, `"\n\r\n"`
    or `"\n\n"`. -/
def last_frame_boundary (body : Bytes) : Option Nat :=
  match end_of [0x0A, 0x0D, 0x0A] body, end_of [0x0A, 0x0A] body with
  | some a, some b => some (max a b)
  | found_a, found_b => found_a.or found_b

/-- Append one chunk and parse every complete frame; the incomplete tail is
    kept as raw bytes. Returns the accumulator and the buffer. -/
def drain_feed (d : ProtocolDescriptor) (st : SseAccum × Bytes) (chunk : Bytes) :
    SseAccum × Bytes :=
  let buf := st.2 ++ chunk
  match last_frame_boundary buf with
  | none => (st.1, buf)
  | some cut =>
    let complete := utf8_lossy (buf.take cut)
    (feed_frames from_str d st.1 (collect_frames complete), buf.drop cut)

/-- Flush the retained tail and finish. -/
def drain_finish (d : ProtocolDescriptor) (st : SseAccum × Bytes) : SseOutcome :=
  finish_accum (feed_frames from_str d st.1 (collect_frames (utf8_lossy st.2))) d

end parsing

/-! ### Non-streaming -/

/-- One pass over the parsed request and response bodies. -/
def nonstreaming (d : ProtocolDescriptor) (req resp : Value) : Option TurnRecord :=
  (d.user_input req).map fun user_input =>
    { protocol := d.name
      user_input := user_input
      final_output := (d.final_output resp).getD ""
      usage := usage_from_nonstreaming d resp
      model_name := ((req.index "model").as_str).getD ""
      user_id := (d.end_user req).getD ""
      tool_calls := (d.nonstreaming_tools.map fun f => f resp).getD [] }

end AgentTraceGateway
