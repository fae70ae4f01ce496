import AgentTraceGateway.Feed
import AgentTraceGateway.Protocol.LiveTurn

/-! # Live Turns and the Engine

  The live accumulator reads server frames by hand; the descriptor table says
  the same things to the generic engine. Over the frames of one turn both give
  the same text and the same usage, and the same tool calls as far as the
  table's wider notion of a tool call is not used. The session is the
  accumulator's own: it mounts `client_metadata.session_id` alone. -/

namespace AgentTraceGateway

/-! ### One frame in the engine -/

/-- The text the engine takes from a live frame. -/
def engine_delta (v : Value) : String :=
  if (v.index "type").as_str = some "response.audio_transcript.delta" then
    ((v.index "delta").as_str).getD ""
  else ""

/-- The item types the engine takes for tool calls. -/
def tool_item (v : Value) : Bool :=
  ((v.index "item").index "type").is_str "function_call"
    || ((v.index "item").index "type").is_str "custom_tool_call"

/-- The tool call the engine takes from a live frame. -/
def engine_call (v : Value) : Option ToolCall :=
  if (v.index "type").as_str = some "response.output_item.done" ∧ tool_item v = true then
    some
      { name := (((v.index "item").index "name").as_str).getD ""
        arguments := (((v.index "item").index "arguments").as_str.or
          ((v.index "item").index "input").as_str).getD "" }
  else none

/-- The usage the engine takes from a live frame. -/
def engine_usage (v : Value) : Option TurnUsage :=
  if (v.index "type").as_str = some "response.done" then closing_usage v else none

theorem tool_item_iff (v : Value) :
    (((v.index "item").index "type").as_str.getD "" = "function_call" ∨
      ((v.index "item").index "type").as_str.getD "" = "custom_tool_call") ↔ tool_item v = true := by
  unfold tool_item Value.is_str
  cases ((v.index "item").index "type").as_str with
  | none => simp
  | some t => simp

theorem live_usage_frame (v : Value) : usage_from_sse_frame Live.DESCRIPTOR v = engine_usage v := by
  have hframes : Live.DESCRIPTOR.usage_frames = [⟨some "response.done", ["response", "usage"]⟩] :=
    rfl
  have hsingle : ∀ (f : UsageFrame → Option TurnUsage) (uf : UsageFrame),
      [uf].findSome? f = f uf := by
    intro f uf
    rw [List.findSome?_cons]
    cases f uf <;> rfl
  unfold usage_from_sse_frame engine_usage
  dsimp only
  rw [hframes, hsingle]
  by_cases hdone : (v.index "type").as_str = some "response.done"
  · rw [hdone, if_pos rfl]
    unfold closing_usage
    rw [← resolve_usage]
    rfl
  · have hmiss : usage_frame_matches ⟨some "response.done", ["response", "usage"]⟩
        (v.index "type").as_str = false := by
      cases hevent : (v.index "type").as_str with
      | none => rfl
      | some e =>
        apply beq_false_of_ne
        rintro rfl
        exact hdone hevent
    rw [hmiss, if_neg Bool.false_ne_true, if_neg hdone]

theorem text_action (acc : SseAccum) (v : Value) :
    apply_action acc (.text ["delta"]) v
      = { acc with text := acc.text ++ ((v.index "delta").as_str).getD "" } := by
  unfold apply_action
  dsimp only
  rw [resolve_name (by decide)]
  cases (v.index "delta").as_str with
  | none => simp only [Option.getD_none, String.append_empty]
  | some d => rfl

theorem done_action (acc : SseAccum) (v : Value)
    (hdone : (v.index "type").as_str = some "response.output_item.done") :
    apply_action acc .tool_done v = { acc with tools := acc.tools ++ (engine_call v).toList } := by
  unfold apply_action engine_call
  dsimp only
  by_cases hitem : tool_item v = true
  · rw [if_pos ((tool_item_iff v).mpr hitem), if_pos ⟨hdone, hitem⟩, Option.toList_some]
  · rw [if_neg (fun h => hitem ((tool_item_iff v).mp h)), if_neg (fun h => hitem h.2),
      Option.toList_none, List.append_nil]

/-- The two rules of the live table add the delta and the finished call. -/
theorem apply_live_rules (acc : SseAccum) (v : Value) :
    apply_sse_rule acc Live.DESCRIPTOR (v.index "type").as_str v
      = { acc with
          text := acc.text ++ engine_delta v
          tools := acc.tools ++ (engine_call v).toList } := by
  have htext : matches_rule
      ⟨"response.audio_transcript.delta", none, none, .text ["delta"]⟩ (v.index "type").as_str v
        = ((v.index "type").as_str == some "response.audio_transcript.delta") := by
    simp [matches_rule]
  have htool : matches_rule
      ⟨"response.output_item.done", none, none, .tool_done⟩ (v.index "type").as_str v
        = ((v.index "type").as_str == some "response.output_item.done") := by
    simp [matches_rule]
  unfold apply_sse_rule
  rw [show Live.DESCRIPTOR.sse_rules = [
    ⟨"response.audio_transcript.delta", none, none, .text ["delta"]⟩,
    ⟨"response.output_item.done", none, none, .tool_done⟩] from rfl]
  simp only [List.foldl_cons, List.foldl_nil, htext, htool, beq_iff_eq]
  by_cases hdelta : (v.index "type").as_str = some "response.audio_transcript.delta"
  · -- One frame has one type, so at most one rule fires.
    have hitem : (v.index "type").as_str ≠ some "response.output_item.done" := by
      rw [hdelta]
      decide
    rw [if_neg hitem, if_pos hdelta, text_action]
    unfold engine_delta engine_call
    rw [if_pos hdelta, if_neg (fun h => hitem h.1), Option.toList_none, List.append_nil]
  · rw [if_neg hdelta]
    unfold engine_delta
    rw [if_neg hdelta]
    by_cases hitem : (v.index "type").as_str = some "response.output_item.done"
    · rw [if_pos hitem, done_action acc v hitem, String.append_empty]
    · rw [if_neg hitem, String.append_empty]
      unfold engine_call
      rw [if_neg (fun h => hitem h.1), Option.toList_none, List.append_nil]

/-- One live frame in the engine. -/
theorem feed_live (acc : SseAccum) (v : Value) :
    feed_value Live.DESCRIPTOR acc v
      = { acc with
          text := acc.text ++ engine_delta v
          tools := acc.tools ++ (engine_call v).toList
          error := (error_marker "openai.live" v).or acc.error
          usage := (engine_usage v).elim acc.usage (merge_usage acc.usage) } := by
  unfold feed_value
  dsimp only
  rw [live_usage_frame, apply_live_rules]
  cases engine_usage v <;> rfl

/-! ### A turn in the engine -/

/-- What the engine makes of frames that close nothing. -/
theorem feed_live_values : ∀ (values : List Value) (acc : SseAccum),
    (∀ v ∈ values, engine_usage v = none) →
      (feed_values Live.DESCRIPTOR acc values).text
          = acc.text ++ String.join (values.map engine_delta) ∧
        (feed_values Live.DESCRIPTOR acc values).tools
          = acc.tools ++ values.filterMap engine_call ∧
        (feed_values Live.DESCRIPTOR acc values).usage = acc.usage ∧
        (feed_values Live.DESCRIPTOR acc values).pending = acc.pending := by
  intro values
  induction values with
  | nil =>
    intro acc _
    exact ⟨String.append_empty.symm, (List.append_nil _).symm, rfl, rfl⟩
  | cons v values ih =>
    intro acc hquiet
    have hv := hquiet v List.mem_cons_self
    obtain ⟨htext, htools, husage, hpending⟩ :=
      ih (feed_value Live.DESCRIPTOR acc v) (fun w hw => hquiet w (List.mem_cons_of_mem _ hw))
    rw [feed_live, hv] at htext htools husage hpending
    have hstep : feed_values Live.DESCRIPTOR acc (v :: values)
        = feed_values Live.DESCRIPTOR (feed_value Live.DESCRIPTOR acc v) values := rfl
    rw [hstep, feed_live, hv]
    refine ⟨?_, ?_, husage, hpending⟩
    · rw [htext, List.map_cons, String.join_cons, String.append_assoc]
    · rw [htools]
      cases hcall : engine_call v with
      | none =>
        rw [List.filterMap_cons_none hcall, Option.toList_none, List.append_nil]
      | some call =>
        rw [List.filterMap_cons_some hcall, Option.toList_some, List.append_assoc,
          List.singleton_append]

section turns

-- The JSON parser, `serde_json::from_str`.
variable (from_str : String → Option Value)

/-- What the engine, run with the live table, computes from server payloads. -/
def live_outcome (payloads : List Bytes) : SseOutcome :=
  finish_accum (feed_values Live.DESCRIPTOR {} (payloads.filterMap (from_slice from_str)))
    Live.DESCRIPTOR

/-- What the engine takes for a tool call is a function call with its
    arguments where function calls have them. -/
def PlainCall (v : Value) : Prop :=
  (v.index "type").as_str = some "response.output_item.done" → tool_item v = true →
    ((v.index "item").index "type").is_str "function_call" = true ∧
      (((v.index "item").index "arguments").as_str.isSome = true ∨
        ((v.index "item").index "input").as_str = none)

/-- The accumulator's text of a frame is the engine's. -/
theorem text_delta_eq (payload : Bytes) :
    (LiveFrame.server payload).text_delta from_str
      = ((from_slice from_str payload).map engine_delta).getD "" := by
  unfold LiveFrame.text_delta
  cases hparse : from_slice from_str payload with
  | none =>
    simp only [LiveFrame.server_event, hparse, Option.filter_none, Option.bind_none,
      Option.getD_none, Option.map_none]
  | some v =>
    rw [server_event_some from_str hparse, Option.map_some, Option.getD_some]
    unfold engine_delta
    split
    · rw [Option.bind_some]
    · rw [Option.bind_none, Option.getD_none]

/-- The accumulator's tool call of a plain frame is the engine's. -/
theorem function_call_eq {payload : Bytes}
    (hplain : ∀ v, from_slice from_str payload = some v → PlainCall v) :
    (LiveFrame.server payload).function_call from_str
      = (from_slice from_str payload).bind engine_call := by
  unfold LiveFrame.function_call
  cases hparse : from_slice from_str payload with
  | none =>
    simp only [LiveFrame.server_event, hparse, Option.filter_none, Option.map_none,
      Option.bind_none]
  | some v =>
    rw [server_event_some from_str hparse, Option.bind_some]
    unfold engine_call
    by_cases hitem : (v.index "type").as_str = some "response.output_item.done"
    · rw [if_pos hitem, Option.filter_some]
      by_cases htool : tool_item v = true
      · obtain ⟨hcall, hargs⟩ := hplain v hparse hitem htool
        rw [if_pos hcall, if_pos ⟨hitem, htool⟩, Option.map_some]
        congr 1
        unfold live_call
        -- the fallback field is not reached
        rcases hargs with hsome | hnone
        · obtain ⟨s, hs⟩ := Option.isSome_iff_exists.mp hsome
          rw [hs]
          rfl
        · rw [hnone, Option.or_none]
      · have hcall : ¬ ((v.index "item").index "type").is_str "function_call" = true := by
          intro hcall
          apply htool
          unfold tool_item
          rw [hcall, Bool.true_or]
        rw [if_neg hcall, if_neg (fun h => htool h.2), Option.map_none]
    · rw [if_neg hitem, if_neg (fun h => hitem h.1), Option.filter_none, Option.map_none]

theorem join_deltas (payloads : List Bytes) :
    String.join (payloads.map fun q => (LiveFrame.server q).text_delta from_str)
      = String.join ((payloads.filterMap (from_slice from_str)).map engine_delta) := by
  induction payloads with
  | nil => rfl
  | cons q payloads ih =>
    rw [List.map_cons, String.join_cons, ih, text_delta_eq]
    cases hparse : from_slice from_str q with
    | none => rw [List.filterMap_cons_none hparse]; exact String.empty_append
    | some v => rw [List.filterMap_cons_some hparse, List.map_cons, String.join_cons]; rfl

theorem filter_calls {payloads : List Bytes}
    (hplain : ∀ q ∈ payloads, ∀ v, from_slice from_str q = some v → PlainCall v) :
    payloads.filterMap (fun q => (LiveFrame.server q).function_call from_str)
      = (payloads.filterMap (from_slice from_str)).filterMap engine_call := by
  rw [List.filterMap_filterMap]
  apply List.filterMap_congr
  intro q hq
  exact function_call_eq from_str (hplain q hq)

/-- A frame that closes nothing brings no usage. -/
theorem quiet_usage {payload : Bytes} {v : Value}
    (hquiet : (LiveFrame.server payload).closing from_str = none)
    (hparse : from_slice from_str payload = some v) : engine_usage v = none := by
  have hevent : (v.index "type").as_str ≠ some "response.done" := by
    intro hdone
    have hclosing := server_event_some from_str hparse "response.done"
    rw [if_pos hdone] at hclosing
    rw [show (LiveFrame.server payload).closing from_str = some v from hclosing] at hquiet
    cases hquiet
  unfold engine_usage
  rw [if_neg hevent]

/-- The outcome of a turn's frames in the engine, field by field. -/
theorem live_outcome_turn {payloads : List Bytes} {last : Bytes} {w : Value}
    (hquiet : ∀ q ∈ payloads, (LiveFrame.server q).closing from_str = none)
    (hdone : (LiveFrame.server last).closing from_str = some w) :
    (live_outcome from_str (payloads ++ [last])).text
        = String.join (payloads.map fun q => (LiveFrame.server q).text_delta from_str) ∧
      (live_outcome from_str (payloads ++ [last])).tools
        = (payloads.filterMap (from_slice from_str)).filterMap engine_call ∧
      (live_outcome from_str (payloads ++ [last])).usage = closing_usage w := by
  obtain ⟨hlast, hevent⟩ := Option.filter_eq_some_iff.mp hdone
  have hdone' : (w.index "type").as_str = some "response.done" := beq_iff_eq.mp hevent
  have hvalues : (payloads ++ [last]).filterMap (from_slice from_str)
      = payloads.filterMap (from_slice from_str) ++ [w] := by
    rw [List.filterMap_append, List.filterMap_cons_some hlast, List.filterMap_nil]
  have hquiet' : ∀ v ∈ payloads.filterMap (from_slice from_str), engine_usage v = none := by
    intro v hv
    obtain ⟨q, hq, hparse⟩ := List.mem_filterMap.mp hv
    exact quiet_usage from_str (hquiet q hq) hparse
  obtain ⟨htext, htools, husage, hpending⟩ := feed_live_values
    (payloads.filterMap (from_slice from_str)) {} hquiet'
  -- the closing frame brings its usage and nothing else
  have hdelta : engine_delta w = "" := by
    unfold engine_delta
    rw [if_neg (by rw [hdone']; decide)]
  have hcall : engine_call w = none := by
    unfold engine_call
    rw [if_neg (by rw [hdone']; exact fun h => absurd h.1 (by decide))]
  have hclose : engine_usage w = closing_usage w := by
    unfold engine_usage
    rw [if_pos hdone']
  unfold live_outcome
  rw [hvalues, feed_values_concat]
  generalize feed_values Live.DESCRIPTOR {} (payloads.filterMap (from_slice from_str)) = acc
    at htext htools husage hpending
  rw [feed_live, hdelta, hcall, hclose]
  refine ⟨?_, ?_, ?_⟩
  · show acc.text ++ "" = _
    rw [htext, String.append_empty, join_deltas]
    exact String.empty_append
  · show acc.tools ++ [] ++ (acc.pending.map (·.2)).toList = _
    rw [htools, hpending]
    simp
  · show (closing_usage w).elim acc.usage (merge_usage acc.usage) = _
    rw [husage]
    cases closing_usage w <;> rfl

/-- What the connection's history says of a turn: its opening, and its frames
    so far as the window. -/
theorem turn_history (before : List LiveFrame) {create : Bytes} {v : Value}
    {payloads : List Bytes}
    (hopen : (LiveFrame.client create).opening from_str = some (create, v))
    (hquiet : ∀ q ∈ payloads, (LiveFrame.server q).closing from_str = none) :
    last_opening from_str (before ++ .client create :: payloads.map .server) = some (create, v) ∧
      turn_window from_str (before ++ .client create :: payloads.map .server)
        = payloads.map .server := by
  induction payloads using List.reverseRecOn with
  | nil => exact window_opens from_str before hopen rfl
  | append_singleton payloads q ih =>
    obtain ⟨hlast, hwindow⟩ := ih (fun p hp => hquiet p (List.mem_append_left _ hp))
    obtain ⟨-, hlast', hwindow'⟩ := window_grows from_str
      (before ++ .client create :: payloads.map .server) (f := .server q) rfl
      (hquiet q (List.mem_append_right _ List.mem_cons_self))
    have hlonger : before ++ .client create :: (payloads ++ [q]).map LiveFrame.server
        = (before ++ .client create :: payloads.map .server) ++ [.server q] := by
      rw [List.map_append, List.append_assoc, List.cons_append]
      rfl
    rw [hlonger, hlast', hwindow', hlast, hwindow, List.map_append]
    exact ⟨rfl, rfl⟩

/-- The record of a live turn and the engine's outcome over the same server
    frames: the same text and usage always, the same tool calls when all are
    plain, the same error when no frame is an error frame. The session is the
    one under `client_metadata`. -/
theorem live_turn_agrees {before : List LiveFrame} {create : Bytes} {v : Value}
    {payloads : List Bytes} {last : Bytes} {w : Value}
    (hopen : (LiveFrame.client create).opening from_str = some (create, v))
    (hquiet : ∀ q ∈ payloads, (LiveFrame.server q).closing from_str = none)
    (hdone : (LiveFrame.server last).closing from_str = some w) :
    ∃ record, (live_step from_str
        (live_run from_str (before ++ .client create :: payloads.map .server)) (.server last)).2
          = some record ∧
      record.session_id = live_session_id v ∧
      record.final_output = (live_outcome from_str (payloads ++ [last])).text ∧
      record.usage = (live_outcome from_str (payloads ++ [last])).usage ∧
      ((∀ x ∈ payloads.filterMap (from_slice from_str), PlainCall x) →
        record.tool_calls = (live_outcome from_str (payloads ++ [last])).tools) ∧
      ((∀ x ∈ payloads.filterMap (from_slice from_str), error_marker "openai.live" x = none) →
        record.error = (live_outcome from_str (payloads ++ [last])).error) := by
  obtain ⟨htext, htools, husage⟩ := live_outcome_turn from_str hquiet hdone
  obtain ⟨hopened, hwindow⟩ := turn_history from_str before hopen hquiet
  have hrecord := (live_record_of_history from_str
    (before ++ .client create :: payloads.map .server) (.server last)).1
  rw [hdone, Option.map_some] at hrecord
  refine ⟨_, hrecord, ?_, ?_, ?_, ?_, ?_⟩
  · show ((last_opening from_str _).map fun o => live_session_id o.2).getD "" = live_session_id v
    rw [hopened]
    rfl
  · show String.join ((turn_window from_str _).map (·.text_delta from_str)) = _
    rw [hwindow, htext, List.map_map]
    rfl
  · exact husage.symm
  · intro hplain
    show (turn_window from_str _).filterMap (·.function_call from_str) = _
    rw [hwindow, htools, List.filterMap_map]
    apply filter_calls from_str
    intro q hq x hparse
    exact hplain x (List.mem_filterMap.mpr ⟨q, hq, hparse⟩)
  · intro hclean
    -- no frame is marked, and the record's error is always absent
    have hmark : (live_outcome from_str (payloads ++ [last])).error.isSome = false := by
      have hisSome := feed_values_error_isSome Live.DESCRIPTOR
        ((payloads ++ [last]).filterMap (from_slice from_str)) {}
      refine Eq.trans hisSome ?_
      obtain ⟨hlast, hevent⟩ := Option.filter_eq_some_iff.mp hdone
      have hclosing : error_marker "openai.live" w = none := by
        have hdone' : (w.index "type").as_str = some "response.done" := beq_iff_eq.mp hevent
        unfold error_marker Value.is_str
        rw [hdone']
        rfl
      show (false || _) = false
      rw [Bool.false_or, List.filterMap_append, List.filterMap_cons_some hlast,
        List.filterMap_nil, List.any_append, List.any_cons, List.any_nil]
      rw [show (error_marker Live.DESCRIPTOR.name w).isSome = false from by
        rw [show Live.DESCRIPTOR.name = "openai.live" from rfl, hclosing]; rfl]
      rw [Bool.or_false, Bool.or_false, List.any_eq_false]
      intro x hx
      rw [show error_marker Live.DESCRIPTOR.name x = none from hclean x hx]
      exact Bool.false_ne_true
    exact (Option.isSome_eq_false_iff.mp hmark |> Option.isNone_iff_eq_none.mp).symm

end turns

/-! ### A turn with its session in `metadata` -/

/-- A `response.create` whose session id is under the given key. -/
def create_text (mount : String) : String :=
  "\x7b\"type\":\"response.create\",\"" ++ mount ++ "\":\x7b\"session_id\":\"s\"\x7d\x7d"

def create_value (mount : String) : Value :=
  .of_entries [("type", .string "response.create"),
    (mount, .object [("session_id", .string "s")])]

def delta_text : String :=
  "\x7b\"type\":\"response.audio_transcript.delta\",\"delta\":\"hi\"\x7d"

def delta_value : Value :=
  .object [("delta", .string "hi"), ("type", .string "response.audio_transcript.delta")]

def done_text : String := "\x7b\"type\":\"response.done\"\x7d"

def done_value : Value := .object [("type", .string "response.done")]

/-- A completed item of some type with its text under `input`. -/
def item_text (kind : String) : String :=
  "\x7b\"type\":\"response.output_item.done\",\"item\":\x7b\"type\":\"" ++ kind
    ++ "\",\"name\":\"grep\",\"input\":\"x\"\x7d\x7d"

def item_value (kind : String) : Value :=
  .of_entries [("type", .string "response.output_item.done"),
    ("item", .of_entries [("type", .string kind), ("name", .string "grep"), ("input", .string "x")])]

def failed_text : String := "\x7b\"type\":\"response.failed\"\x7d"

def failed_value : Value := .object [("type", .string "response.failed")]

/-- The parser on these texts. -/
def live_from_str (s : String) : Option Value :=
  if s = create_text "client_metadata" then some (create_value "client_metadata")
  else if s = create_text "metadata" then some (create_value "metadata")
  else if s = delta_text then some delta_value
  else if s = done_text then some done_value
  else if s = item_text "custom_tool_call" then some (item_value "custom_tool_call")
  else if s = item_text "function_call" then some (item_value "function_call")
  else if s = failed_text then some failed_value
  else none

theorem live_turn_agrees_delta :
    ∃ record, (live_step live_from_str
        (live_run live_from_str
          [.client (utf8_bytes (create_text "client_metadata")), .server (utf8_bytes delta_text)])
        (.server (utf8_bytes done_text))).2 = some record ∧
      record.session_id = "s" ∧ record.final_output = "hi" := by
  have hquiet : ∀ q ∈ [utf8_bytes delta_text],
      (LiveFrame.server q).closing live_from_str = none := by
    intro q hq
    rw [List.mem_singleton.mp hq]
    rfl
  obtain ⟨record, hrecord, hsession, htext, -⟩ := @live_turn_agrees live_from_str []
    (utf8_bytes (create_text "client_metadata")) (create_value "client_metadata")
    [utf8_bytes delta_text] (utf8_bytes done_text) done_value rfl hquiet rfl
  exact ⟨record, hrecord, hsession, htext⟩

/-- The table reads the session under `metadata`, the accumulator does not. -/
theorem live_session_unread :
    ∃ record, (live_step live_from_str
        (live_run live_from_str [.client (utf8_bytes (create_text "metadata"))])
        (.server (utf8_bytes done_text))).2 = some record ∧
      record.session_id = "" ∧
      Live.DESCRIPTOR.session_from_body (create_value "metadata") = some "s" :=
  ⟨_, rfl, rfl, rfl⟩

/-! Why the calls agree only where all are plain, and the errors only where no
    frame is an error frame. -/

/-- The record of a turn with one frame before its end. -/
def record_of_frame (text : String) : Option TurnRecord :=
  (live_step live_from_str
    (live_run live_from_str
      [.client (utf8_bytes (create_text "metadata")), .server (utf8_bytes text)])
    (.server (utf8_bytes done_text))).2

def outcome_of_frame (text : String) : SseOutcome :=
  live_outcome live_from_str [utf8_bytes text, utf8_bytes done_text]

set_option maxRecDepth 2000 in
/-- The engine takes a custom tool call; the accumulator passes it over. -/
theorem custom_call_unread :
    (record_of_frame (item_text "custom_tool_call")).map (·.tool_calls) = some [] ∧
      (outcome_of_frame (item_text "custom_tool_call")).tools = [⟨"grep", "x"⟩] :=
  ⟨rfl, rfl⟩

set_option maxRecDepth 2000 in
/-- The engine falls back to `input` for the arguments of a call. -/
theorem call_input_unread :
    (record_of_frame (item_text "function_call")).map (·.tool_calls) = some [⟨"grep", ""⟩] ∧
      (outcome_of_frame (item_text "function_call")).tools = [⟨"grep", "x"⟩] :=
  ⟨rfl, rfl⟩

/-- The engine marks a failed response; the record of a live turn never has an
    error. -/
theorem failed_response_unmarked :
    (record_of_frame failed_text).map (·.error) = some none ∧
      (outcome_of_frame failed_text).error.isSome = true :=
  ⟨rfl, rfl⟩

end AgentTraceGateway
