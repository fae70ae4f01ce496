import AgentTraceGateway.Protocol.Tables
import AgentTraceGateway.Protocol.Usage
import Mathlib.Data.List.DropRight

/-! # Turns of a Live Session

  `WsTurnState` assembles the turns of an upgraded connection from the text
  payloads of both directions. A `response.create` of the client opens a
  turn, a `response.done` of the server closes it and yields its record.

  The state is compared with the history of the connection: what it holds is
  a function of the frames since the last record, and of the frames since the
  later of that record and the last opening. -/

namespace AgentTraceGateway

/-! ### The turn state -/

/-- One in-progress WS turn. -/
structure WsTurnState where
  input : Option String := none
  session_id : String := ""
  usage : Option TurnUsage := none
  output : String := ""
  tool_calls : List ToolCall := []
  raw_request : String := ""
  raw_response : String := ""
  model_name : String := ""
  user_id : String := ""
  deriving DecidableEq, Repr

/-- The event of the table's text rule. -/
def text_event : Option String :=
  Live.DESCRIPTOR.sse_rules.findSome? fun r =>
    match r.action with
    | .text _ => some r.on
    | _ => none

/-- The event of the table's tool rule. -/
def tool_event : Option String :=
  Live.DESCRIPTOR.sse_rules.findSome? fun r => if r.action = .tool_done then some r.on else none

/-- The table has both rules, so neither lookup comes to its `expect`. -/
theorem live_events :
    text_event = some "response.audio_transcript.delta" ∧
      tool_event = some "response.output_item.done" :=
  ⟨rfl, rfl⟩

def start_marker : String := (Live.DESCRIPTOR.turn_markers.map (·.start)).getD ""

def end_marker : Option String := Live.DESCRIPTOR.turn_markers.map (·.stop)

/-- `String::from_utf8_lossy`. -/
def lossy_text (payload : Bytes) : String := String.ofList (utf8_lossy payload)

/-- The session id a `response.create` carries. -/
def live_session_id (v : Value) : String :=
  (((v.index "client_metadata").index "session_id").as_str).getD ""

/-- A completed function call item. -/
def live_call (v : Value) : ToolCall where
  name := (((v.index "item").index "name").as_str).getD ""
  arguments := (((v.index "item").index "arguments").as_str).getD ""

namespace WsTurnState

/-- The record of the turn so far; the state is left empty. -/
def take_record (s : WsTurnState) : TurnRecord × WsTurnState :=
  ({ protocol := Live.DESCRIPTOR.name
     session_id := s.session_id
     session_source :=
       if s.session_id.isEmpty then "" else "body:client_metadata.session_id"
     user_input := s.input.getD ""
     final_output := s.output
     raw_request := s.raw_request
     raw_response := s.raw_response
     tool_calls := s.tool_calls
     usage := s.usage
     model_name := s.model_name
     user_id := s.user_id }, {})

section frames

-- The JSON parser, `serde_json::from_str`.
variable (from_str : String → Option Value)

/-- A client frame: the start marker opens a new turn. -/
def apply_client_frame (s : WsTurnState) (payload : Bytes) : WsTurnState :=
  match from_slice from_str payload with
  | none => s
  | some v =>
    if (v.index "type").is_str start_marker then
      let text := lossy_text payload
      { s with
        input := some text
        raw_request := text
        raw_response := ""
        session_id := live_session_id v
        model_name := ((v.index "model").as_str).getD ""
        user_id := (Live.DESCRIPTOR.end_user v).getD ""
        output := ""
        tool_calls := [] }
    else s

/-- A server frame: accumulate; the end marker closes the turn. -/
def apply_server_frame (s : WsTurnState) (payload : Bytes) : WsTurnState × Option TurnRecord :=
  let s := { s with raw_response := s.raw_response ++ lossy_text payload ++ "\n" }
  match from_slice from_str payload with
  | none => (s, none)
  | some v =>
    let event := (v.index "type").as_str
    if event = tool_event ∧ ((v.index "item").index "type").is_str "function_call" then
      ({ s with tool_calls := s.tool_calls ++ [live_call v] }, none)
    else if event = text_event then
      match (v.index "delta").as_str with
      | some d => ({ s with output := s.output ++ d }, none)
      | none => (s, none)
    else if event = end_marker then
      let usage := resolve_path v ((Live.DESCRIPTOR.usage_frames.map (·.obj_path)).headD [])
      let s := if usage.is_null then s
        else { s with usage := some (usage_from_obj Live.DESCRIPTOR usage) }
      let (record, s) := s.take_record
      (s, some record)
    else (s, none)

end frames

end WsTurnState

/-- A text payload of an upgraded connection. -/
inductive LiveFrame where
  | client (payload : Bytes)
  | server (payload : Bytes)
  deriving DecidableEq, Repr

section sessions

variable (from_str : String → Option Value)

/-- One frame, in either direction. -/
def live_step (s : WsTurnState) : LiveFrame → WsTurnState × Option TurnRecord
  | .client payload => (s.apply_client_frame from_str payload, none)
  | .server payload => s.apply_server_frame from_str payload

/-- The state of a connection after its frames. -/
def live_run (hist : List LiveFrame) : WsTurnState :=
  hist.foldl (fun s f => (live_step from_str s f).1) {}

/-! ### The history -/

/-- A `response.create` of the client, with its payload. -/
def LiveFrame.opening : LiveFrame → Option (Bytes × Value)
  | .client payload =>
    ((from_slice from_str payload).filter fun v => (v.index "type").is_str "response.create").map
      fun v => (payload, v)
  | .server _ => none

/-- A `response.done` of the server. -/
def LiveFrame.closing : LiveFrame → Option Value
  | .client _ => none
  | .server payload =>
    (from_slice from_str payload).filter fun v => (v.index "type").is_str "response.done"

/-- The frames since the last record. -/
def since_record (hist : List LiveFrame) : List LiveFrame :=
  hist.rtakeWhile fun f => (f.closing from_str).isNone

/-- The last opening since the last record. -/
def last_opening (hist : List LiveFrame) : Option (Bytes × Value) :=
  ((since_record from_str hist).filterMap (·.opening from_str)).getLast?

/-- The frames since the later of the last record and the last opening. -/
def turn_window (hist : List LiveFrame) : List LiveFrame :=
  hist.rtakeWhile fun f => (f.closing from_str).isNone && (f.opening from_str).isNone

/-- What a server frame adds to the raw response. -/
def LiveFrame.raw_line : LiveFrame → String
  | .client _ => ""
  | .server payload => lossy_text payload ++ "\n"

/-- The parsed server frame, if it is of this type. -/
def LiveFrame.server_event (event : String) : LiveFrame → Option Value
  | .client _ => none
  | .server payload =>
    (from_slice from_str payload).filter fun v => (v.index "type").is_str event

/-- The text delta of a frame. -/
def LiveFrame.text_delta (f : LiveFrame) : String :=
  (((f.server_event from_str "response.audio_transcript.delta").bind
    fun v => (v.index "delta").as_str)).getD ""

/-- The function call a frame completes. -/
def LiveFrame.function_call (f : LiveFrame) : Option ToolCall :=
  ((f.server_event from_str "response.output_item.done").filter
    fun v => ((v.index "item").index "type").is_str "function_call").map live_call

/-- The usage of a closing frame. -/
def closing_usage (v : Value) : Option TurnUsage :=
  let usage := (v.index "response").index "usage"
  if usage.is_null then none else some (usage_from_obj Live.DESCRIPTOR usage)

/-- The state a history leaves: what the last opening said, what the window
    brought, and no usage. -/
def history_state (hist : List LiveFrame) : WsTurnState where
  input := (last_opening from_str hist).map fun o => lossy_text o.1
  session_id := ((last_opening from_str hist).map fun o => live_session_id o.2).getD ""
  usage := none
  output := String.join ((turn_window from_str hist).map (·.text_delta from_str))
  tool_calls := (turn_window from_str hist).filterMap (·.function_call from_str)
  raw_request := ((last_opening from_str hist).map fun o => lossy_text o.1).getD ""
  raw_response := String.join ((turn_window from_str hist).map LiveFrame.raw_line)
  model_name := ((last_opening from_str hist).map fun o => ((o.2.index "model").as_str).getD "").getD ""
  user_id := ((last_opening from_str hist).map fun o => (Live.DESCRIPTOR.end_user o.2).getD "").getD ""

/-- The record that a closing frame yields after a history. -/
def history_record (hist : List LiveFrame) (f : LiveFrame) (v : Value) : TurnRecord :=
  let opened := last_opening from_str hist
  let window := turn_window from_str hist
  let session_id := (opened.map fun o => live_session_id o.2).getD ""
  { protocol := "openai.live"
    session_id := session_id
    session_source := if session_id.isEmpty then "" else "body:client_metadata.session_id"
    user_input := (opened.map fun o => lossy_text o.1).getD ""
    raw_request := (opened.map fun o => lossy_text o.1).getD ""
    model_name := (opened.map fun o => ((o.2.index "model").as_str).getD "").getD ""
    user_id := (opened.map fun o => (Live.DESCRIPTOR.end_user o.2).getD "").getD ""
    raw_response := String.join ((window ++ [f]).map LiveFrame.raw_line)
    final_output := String.join (window.map (·.text_delta from_str))
    tool_calls := window.filterMap (·.function_call from_str)
    usage := closing_usage v }

/-! ### One frame more -/

theorem join_concat (texts : List String) (t : String) :
    String.join (texts ++ [t]) = String.join texts ++ t := by
  rw [String.join_append, String.join_cons, String.join_nil, String.append_empty]

/-- A frame that opens and closes nothing joins the window. -/
theorem window_grows (hist : List LiveFrame) {f : LiveFrame} (hopen : f.opening from_str = none)
    (hclose : f.closing from_str = none) :
    since_record from_str (hist ++ [f]) = since_record from_str hist ++ [f] ∧
      last_opening from_str (hist ++ [f]) = last_opening from_str hist ∧
      turn_window from_str (hist ++ [f]) = turn_window from_str hist ++ [f] := by
  have hsince : since_record from_str (hist ++ [f]) = since_record from_str hist ++ [f] := by
    unfold since_record
    rw [List.rtakeWhile_concat, hclose]
    rfl
  refine ⟨hsince, ?_, ?_⟩
  · unfold last_opening
    rw [hsince, List.filterMap_append, List.filterMap_cons_none hopen, List.filterMap_nil,
      List.append_nil]
  · unfold turn_window
    rw [List.rtakeWhile_concat, hclose, hopen]
    rfl

/-- An opening frame starts the window anew. -/
theorem window_opens (hist : List LiveFrame) {f : LiveFrame} {o : Bytes × Value}
    (hopen : f.opening from_str = some o) (hclose : f.closing from_str = none) :
    last_opening from_str (hist ++ [f]) = some o ∧ turn_window from_str (hist ++ [f]) = [] := by
  constructor
  · unfold last_opening since_record
    rw [List.rtakeWhile_concat, hclose, Option.isNone_none, if_pos rfl, List.filterMap_append,
      List.filterMap_cons_some hopen, List.filterMap_nil, List.getLast?_concat]
  · unfold turn_window
    rw [List.rtakeWhile_concat, hclose, hopen]
    rfl

/-- A closing frame ends everything. -/
theorem window_closes (hist : List LiveFrame) {f : LiveFrame} {v : Value}
    (hclose : f.closing from_str = some v) :
    last_opening from_str (hist ++ [f]) = none ∧ turn_window from_str (hist ++ [f]) = [] := by
  constructor
  · unfold last_opening since_record
    rw [List.rtakeWhile_concat, hclose]
    rfl
  · unfold turn_window
    rw [List.rtakeWhile_concat, hclose]
    rfl

/-- A frame that opens and closes nothing is added to the turn. -/
theorem history_grows {hist : List LiveFrame} {f : LiveFrame} (hopen : f.opening from_str = none)
    (hclose : f.closing from_str = none) :
    history_state from_str (hist ++ [f])
      = { history_state from_str hist with
          raw_response := (history_state from_str hist).raw_response ++ f.raw_line
          output := (history_state from_str hist).output ++ f.text_delta from_str
          tool_calls := (history_state from_str hist).tool_calls
            ++ (f.function_call from_str).toList } := by
  obtain ⟨-, hlast, hwindow⟩ := window_grows from_str hist hopen hclose
  have hcalls : [f].filterMap (·.function_call from_str) = (f.function_call from_str).toList := by
    cases hcall : f.function_call from_str with
    | none => rw [List.filterMap_cons_none hcall]; rfl
    | some call => rw [List.filterMap_cons_some hcall]; rfl
  unfold history_state
  rw [hlast, hwindow]
  simp only [List.map_append, List.map_cons, List.map_nil, join_concat, List.filterMap_append,
    hcalls]

/-- A client frame moves the state to that of the longer history. -/
theorem client_step (hist : List LiveFrame) (payload : Bytes) :
    (history_state from_str hist).apply_client_frame from_str payload
      = history_state from_str (hist ++ [.client payload]) := by
  -- a client frame adds nothing to the window
  have hsame : (LiveFrame.client payload).opening from_str = none →
      history_state from_str hist = history_state from_str (hist ++ [.client payload]) := by
    intro hopen
    rw [history_grows from_str hopen rfl]
    simp only [LiveFrame.raw_line, LiveFrame.text_delta, LiveFrame.function_call,
      LiveFrame.server_event, Option.bind_none, Option.getD_none, Option.filter_none,
      Option.map_none, Option.toList_none, String.append_empty, List.append_nil]
  unfold WsTurnState.apply_client_frame
  cases hparse : from_slice from_str payload with
  | none => exact hsame (by simp only [LiveFrame.opening, hparse, Option.filter_none, Option.map_none])
  | some v =>
    dsimp only
    by_cases hstart : (v.index "type").is_str "response.create" = true
    · have hopen : (LiveFrame.client payload).opening from_str = some (payload, v) := by
        simp only [LiveFrame.opening, hparse, Option.filter_some, hstart, if_true, Option.map_some]
      obtain ⟨hlast, hwindow⟩ := window_opens from_str hist hopen rfl
      rw [if_pos (show (v.index "type").is_str start_marker = true from hstart)]
      unfold history_state
      rw [hlast, hwindow]
      rfl
    · rw [if_neg (show ¬ (v.index "type").is_str start_marker = true from hstart)]
      apply hsame
      simp only [LiveFrame.opening, hparse, Option.filter_some, hstart]
      rfl

/-- Where the usage of a closing frame is. -/
theorem resolve_usage (v : Value) :
    resolve_path v ["response", "usage"] = (v.index "response").index "usage" := by
  rw [resolve_path_cons, resolve_name (by decide), resolve_name (by decide)]

/-- The event of a parsed server frame, read off its type. -/
theorem server_event_some {payload : Bytes} {v : Value}
    (hparse : from_slice from_str payload = some v) (event : String) :
    (LiveFrame.server payload).server_event from_str event
      = if (v.index "type").as_str = some event then some v else none := by
  simp only [LiveFrame.server_event, hparse, Option.filter_some, Value.is_str, beq_iff_eq]

/-- A closing frame yields the history's record and leaves nothing behind. -/
theorem closing_step (hist : List LiveFrame) {payload : Bytes} {v : Value}
    (hparse : from_slice from_str payload = some v)
    (hdone : (v.index "type").as_str = some "response.done") :
    (history_state from_str hist).apply_server_frame from_str payload
      = (history_state from_str (hist ++ [.server payload]),
          ((LiveFrame.server payload).closing from_str).map
            (history_record from_str hist (.server payload))) := by
  have hclose : (LiveFrame.server payload).closing from_str = some v :=
    (server_event_some from_str hparse "response.done").trans (if_pos hdone)
  obtain ⟨hlast, hwindow⟩ := window_closes from_str hist hclose
  have hempty : history_state from_str (hist ++ [.server payload]) = {} := by
    unfold history_state
    rw [hlast, hwindow]
    rfl
  -- The frame's own line is in the record, though the window ends before it.
  have hraw : (history_state from_str hist).raw_response ++ lossy_text payload ++ "\n"
      = String.join ((turn_window from_str hist ++ [LiveFrame.server payload]).map
          LiveFrame.raw_line) := by
    rw [List.map_append, List.map_cons, List.map_nil, join_concat, String.append_assoc]
    rfl
  -- The events that add to a turn are other events.
  have hother : ∀ event, event ≠ "response.done" → (v.index "type").as_str ≠ some event := by
    intro event hne hevent
    rw [hdone] at hevent
    exact hne (Option.some.inj hevent).symm
  obtain ⟨htext, htool⟩ := live_events
  unfold WsTurnState.apply_server_frame
  dsimp only
  rw [hparse, htext, htool, show end_marker = some "response.done" from rfl]
  dsimp only
  rw [hclose, Option.map_some, hempty, if_neg (fun h => hother _ (by decide) h.1),
    if_neg (hother _ (by decide)), if_pos hdone, hraw,
    show (Live.DESCRIPTOR.usage_frames.map (·.obj_path)).headD [] = ["response", "usage"] from rfl,
    resolve_usage]
  unfold history_record closing_usage
  dsimp only
  by_cases hnull : ((v.index "response").index "usage").is_null = true
  · simp only [hnull, if_true]
    rfl
  · simp only [hnull]
    rfl

/-- Any other server frame adds what it says to the turn. -/
theorem open_step (hist : List LiveFrame) {payload : Bytes} {v : Value}
    (hparse : from_slice from_str payload = some v)
    (hdone : (v.index "type").as_str ≠ some "response.done") :
    (history_state from_str hist).apply_server_frame from_str payload
      = (history_state from_str (hist ++ [.server payload]), none) := by
  have hclose : (LiveFrame.server payload).closing from_str = none :=
    (server_event_some from_str hparse "response.done").trans (if_neg hdone)
  have hdelta := server_event_some from_str hparse "response.audio_transcript.delta"
  have hitem := server_event_some from_str hparse "response.output_item.done"
  obtain ⟨htext, htool⟩ := live_events
  unfold WsTurnState.apply_server_frame
  dsimp only
  rw [hparse, htext, htool, show end_marker = some "response.done" from rfl]
  dsimp only
  rw [history_grows from_str rfl hclose]
  simp only [LiveFrame.raw_line, LiveFrame.text_delta, LiveFrame.function_call, hdelta, hitem,
    String.append_assoc]
  by_cases hitem' : (v.index "type").as_str = some "response.output_item.done"
  · -- an item is done: a function call counts, any other item is passed over
    have htext' : (v.index "type").as_str ≠ some "response.audio_transcript.delta" := by
      rw [hitem']
      decide
    by_cases hcall : ((v.index "item").index "type").is_str "function_call" = true
    · rw [if_pos ⟨hitem', hcall⟩]
      simp only [if_pos hitem', if_neg htext', Option.bind_none, Option.getD_none,
        Option.filter_some, hcall, if_true, Option.map_some, Option.toList_some,
        String.append_empty]
    · rw [if_neg (fun h => hcall h.2), if_neg htext', if_neg hdone]
      simp only [if_pos hitem', if_neg htext', Option.bind_none, Option.getD_none,
        Option.filter_some, hcall, Bool.false_eq_true, if_false, Option.map_none,
        Option.toList_none, String.append_empty, List.append_nil]
  · rw [if_neg (fun h => hitem' h.1)]
    simp only [if_neg hitem', Option.filter_none, Option.map_none, Option.toList_none,
      List.append_nil]
    by_cases htext' : (v.index "type").as_str = some "response.audio_transcript.delta"
    · -- a delta may still lack its text, and then adds nothing
      rw [if_pos htext']
      simp only [if_pos htext', Option.bind_some]
      cases (v.index "delta").as_str with
      | none => simp only [Option.getD_none, String.append_empty]
      | some d => simp only [Option.getD_some]
    · rw [if_neg htext', if_neg hdone]
      simp only [if_neg htext', Option.bind_none, Option.getD_none, String.append_empty]

/-- A server frame that is no JSON only leaves its line. -/
theorem unparsed_step (hist : List LiveFrame) {payload : Bytes}
    (hparse : from_slice from_str payload = none) :
    (history_state from_str hist).apply_server_frame from_str payload
      = (history_state from_str (hist ++ [.server payload]), none) := by
  have hclose : (LiveFrame.server payload).closing from_str = none := by
    simp only [LiveFrame.closing, hparse, Option.filter_none]
  unfold WsTurnState.apply_server_frame
  dsimp only
  rw [hparse, history_grows from_str rfl hclose]
  simp only [LiveFrame.raw_line, LiveFrame.text_delta, LiveFrame.function_call,
    LiveFrame.server_event, hparse, Option.filter_none, Option.bind_none, Option.getD_none,
    Option.map_none, Option.toList_none, String.append_empty, List.append_nil,
    String.append_assoc]

/-- A server frame moves the state to that of the longer history, and yields
    the history's record if it closes the turn. -/
theorem server_step (hist : List LiveFrame) (payload : Bytes) :
    (history_state from_str hist).apply_server_frame from_str payload
      = (history_state from_str (hist ++ [.server payload]),
          ((LiveFrame.server payload).closing from_str).map
            (history_record from_str hist (.server payload))) := by
  cases hparse : from_slice from_str payload with
  | none =>
    have hclose : (LiveFrame.server payload).closing from_str = none := by
      simp only [LiveFrame.closing, hparse, Option.filter_none]
    rw [unparsed_step from_str hist hparse, hclose, Option.map_none]
  | some v =>
    by_cases hdone : (v.index "type").as_str = some "response.done"
    · exact closing_step from_str hist hparse hdone
    · have hclose : (LiveFrame.server payload).closing from_str = none :=
        (server_event_some from_str hparse "response.done").trans (if_neg hdone)
      rw [open_step from_str hist hparse hdone, hclose, Option.map_none]

/-- The state after one frame more is a step of the state before, and the
    record is the history's. -/
theorem history_step (hist : List LiveFrame) (f : LiveFrame) :
    live_step from_str (history_state from_str hist) f
      = (history_state from_str (hist ++ [f]),
          (f.closing from_str).map (history_record from_str hist f)) := by
  cases f with
  | client payload => exact congrArg (·, none) (client_step from_str hist payload)
  | server payload => exact server_step from_str hist payload

/-- The state of a connection is that of its history. -/
theorem live_run_eq (hist : List LiveFrame) :
    live_run from_str hist = history_state from_str hist := by
  induction hist using List.reverseRecOn with
  | nil => rfl
  | append_singleton hist f ih =>
    unfold live_run at ih ⊢
    rw [List.foldl_append, ih]
    exact congrArg Prod.fst (history_step from_str hist f)

/-- Behind a closing frame a connection is as good as new. -/
theorem live_run_closed (past recent : List LiveFrame) {c : LiveFrame}
    (hclose : (c.closing from_str).isSome = true) :
    live_run from_str (past ++ c :: recent) = live_run from_str recent := by
  obtain ⟨v, hv⟩ := Option.isSome_iff_exists.mp hclose
  obtain ⟨hlast, hwindow⟩ := window_closes from_str past hv
  have hempty : live_run from_str (past ++ [c]) = {} := by
    rw [live_run_eq]
    unfold history_state
    rw [hlast, hwindow]
    rfl
  unfold live_run at hempty ⊢
  rw [List.append_cons past c recent, List.foldl_append, hempty]

/-- A record comes exactly at a closing frame, the history alone says what is
    in it, and nothing from before the last record is. -/
theorem live_record_of_history (hist : List LiveFrame) (f : LiveFrame) :
    (live_step from_str (live_run from_str hist) f).2
        = (f.closing from_str).map (history_record from_str hist f) ∧
      ∀ past c recent, hist = past ++ c :: recent → (c.closing from_str).isSome = true →
        (live_step from_str (live_run from_str hist) f).2
          = (live_step from_str (live_run from_str recent) f).2 := by
  refine ⟨by rw [live_run_eq, history_step], ?_⟩
  rintro past c recent rfl hclose
  rw [live_run_closed from_str past recent hclose]

end sessions

end AgentTraceGateway
