import AgentTraceGateway.Protocol.OneAnswer

/-! # Interleaved Chat Calls

  A chat stream sends its calls in fragments, those of one call under the
  call's index and in its own order, those of different calls in any order.
  The frames in between may carry text, usage or nothing the rules read. -/

namespace AgentTraceGateway

namespace Chat

/-- Whatever else the frames carry, their chunks are all that reaches the
    calls. -/
theorem feed_calls : ∀ (values : List Value) (acc : SseAccum),
    (feed_values DESCRIPTOR acc values).spoken
      = { acc.spoken with
          text := acc.spoken.text ++ String.join (values.map fun v => (frame_text v).getD "")
          chat_tools := (chunks values).foldl (fun ts tc => upsert_call (frame_index tc) tc ts)
            acc.spoken.chat_tools } := by
  intro values
  induction values with
  | nil =>
    intro acc
    simp [feed_values, chunks]
  | cons v values ih =>
    intro acc
    rw [feed_values, List.foldl_cons, ← feed_values, ih, feed_frame, chunks_cons v values,
      List.map_cons, String.join_cons, List.foldl_append, String.append_assoc]

/-- **Chat calls**: from a stream whose fragments deliver some calls, however
    they are cut and interleaved, exactly these calls are read, each with
    its name and its arguments, sorted by index. -/
theorem interleaved_calls_read (from_str : String → Option Value) {body : Bytes}
    {calls : List (UInt64 × ToolCall)}
    (h : Interleaved calls (chunks (stream_values from_str body))) :
    (stream_response from_str DESCRIPTOR body).tools
      = (calls.insertionSort fun a b => a.1 ≤ b.1).map (·.2) := by
  obtain ⟨-, htools⟩ := stream_response_spoken from_str DESCRIPTOR body
  rw [htools, feed_calls]
  exact congrArg (List.map (·.2)) h.assembled

/-! ### A sample -/

/-- Two calls, each in two fragments; the first name is sent twice. -/
def open_f : Value := call_fragment 4 [("arguments", .string "\x7b"), ("name", .string "f")]

def close_f : Value := call_fragment 4 [("arguments", .string "\x7d"), ("name", .string "f")]

def name_g : Value := call_fragment 1 [("name", .string "g")]

def input_g : Value := call_fragment 1 [("arguments", .string "[]")]

/-- Their fragments interleaved, two of them in one frame, with a text in
    between. -/
def interleaved_frames : List (String × Value) := [
  ("\x7b\"choices\":[\x7b\"delta\":\x7b\"tool_calls\":[\x7b\"index\":4,\"function\":\x7b\"name\":\"f\",\"arguments\":\"\x7b\"\x7d\x7d,\x7b\"index\":1,\"function\":\x7b\"name\":\"g\"\x7d\x7d]\x7d\x7d]\x7d",
    choice_frame (.object [("tool_calls", .array [open_f, name_g])])),
  ("\x7b\"choices\":[\x7b\"delta\":\x7b\"content\":\"ok\"\x7d\x7d]\x7d",
    choice_frame (content_delta "ok")),
  ("\x7b\"choices\":[\x7b\"delta\":\x7b\"tool_calls\":[\x7b\"index\":4,\"function\":\x7b\"name\":\"f\",\"arguments\":\"\x7d\"\x7d\x7d]\x7d\x7d]\x7d",
    choice_frame (call_delta close_f)),
  ("\x7b\"choices\":[\x7b\"delta\":\x7b\"tool_calls\":[\x7b\"index\":1,\"function\":\x7b\"arguments\":\"[]\"\x7d\x7d]\x7d\x7d]\x7d",
    choice_frame (call_delta input_g))]

set_option maxRecDepth 2000 in
theorem interleaved_values :
    stream_values (parse_sample interleaved_frames) (spelled interleaved_frames)
      = interleaved_frames.map (·.2) := by
  have hlines : ((interleaved_frames.map (·.1)).map String.toList).all object_line = true := by
    simp only [interleaved_frames, List.map_cons, List.map_nil]
    repeat rw [String.toList_ofList]
    decide +kernel
  rw [spelled, stream_values_sse_text _ hlines]
  simp [parse_sample, interleaved_frames, List.lookup_cons]

/-- Two fragments deliver a call when both name it or one does not name any. -/
theorem call_sent_pair {call : ToolCall} {a b : Value} (ha : chunk_name a = some call.name)
    (hb : chunk_name b = some call.name ∨ chunk_name b = none)
    (harguments : String.join ([a, b].filterMap chunk_arguments) = call.arguments) :
    CallSent call [a, b] := by
  refine ⟨⟨a, List.mem_cons_self, ha⟩, ?_, harguments⟩
  intro tc htc n hname
  simp only [List.mem_cons, List.not_mem_nil, or_false] at htc
  rcases htc with rfl | rfl
  · exact Or.inl (Option.some.inj (hname.symm.trans ha))
  · rcases hb with hb | hb
    · exact Or.inl (Option.some.inj (hname.symm.trans hb))
    · rw [hb] at hname
      cases hname

theorem interleaved_calls_read_sample :
    (stream_response (parse_sample interleaved_frames) DESCRIPTOR (spelled interleaved_frames)).tools
      = [⟨"g", "[]"⟩, ⟨"f", "\x7b\x7d"⟩] := by
  have h : Interleaved [(4, ⟨"f", "\x7b\x7d"⟩), (1, ⟨"g", "[]"⟩)]
      (chunks (stream_values (parse_sample interleaved_frames) (spelled interleaved_frames))) := by
    rw [interleaved_values]
    show Interleaved _ [open_f, name_g, close_f, input_g]
    refine ⟨by decide, by decide, ?_⟩
    intro c hc
    simp only [List.mem_cons, List.not_mem_nil, or_false] at hc
    rcases hc with rfl | rfl
    · exact call_sent_pair rfl (Or.inl rfl) (by decide)
    · exact call_sent_pair rfl (Or.inr rfl) (by decide)
  exact interleaved_calls_read (parse_sample interleaved_frames) h

end Chat

end AgentTraceGateway
