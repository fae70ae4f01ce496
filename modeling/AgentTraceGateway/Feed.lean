import AgentTraceGateway.Engine

/-! # What a Stream Says

  A data frame that parses is a value, and one value changes the accumulator
  in one way. A stream is then the list of its values: feeding its frames is
  folding the values, up to the count of frames that did not parse. The error
  a stream reports is the last error marker among its values. -/

namespace AgentTraceGateway

/-- One parsed frame: error marker, rules, usage. -/
def feed_value (d : ProtocolDescriptor) (acc : SseAccum) (v : Value) : SseAccum :=
  let acc := { acc with error := (error_marker d.name v).or acc.error }
  let acc := apply_sse_rule acc d (v.index "type").as_str v
  match usage_from_sse_frame d v with
  | some u => { acc with usage := merge_usage acc.usage u }
  | none => acc

def feed_values (d : ProtocolDescriptor) (acc : SseAccum) (values : List Value) : SseAccum :=
  values.foldl (feed_value d) acc

theorem feed_values_concat (d : ProtocolDescriptor) (acc : SseAccum) (values : List Value)
    (v : Value) :
    feed_values d acc (values ++ [v]) = feed_value d (feed_values d acc values) v := by
  unfold feed_values
  rw [List.foldl_append, List.foldl_cons, List.foldl_nil]

/-! ### Frames that do not parse -/

/-- The accumulator with its count of failed frames set. -/
def SseAccum.with_errors (acc : SseAccum) (n : UInt32) : SseAccum := { acc with frame_errors := n }

theorem take_pending_errors (acc : SseAccum) (n : UInt32) :
    (acc.with_errors n).take_pending = acc.take_pending.with_errors n := by
  cases hpending : acc.pending with
  | none => simp only [SseAccum.take_pending, SseAccum.with_errors, hpending]
  | some p => simp only [SseAccum.take_pending, SseAccum.with_errors, hpending]

/-- No action reads the count. -/
theorem apply_action_errors (acc : SseAccum) (n : UInt32) (action : SseAction) (v : Value) :
    apply_action (acc.with_errors n) action v = (apply_action acc action v).with_errors n := by
  cases action with
  | text path =>
    simp only [apply_action]
    split <;> rfl
  | tool_open =>
    simp only [apply_action, take_pending_errors]
    split <;> rfl
  | tool_arg =>
    obtain ⟨_, _, _, _, _, pending, _⟩ := acc
    cases pending with
    | none => rfl
    | some p =>
      simp only [apply_action, SseAccum.with_errors]
      split
      · split <;> rfl
      · rfl
  | tool_close =>
    obtain ⟨_, _, _, _, _, pending, _⟩ := acc
    cases pending with
    | none => rfl
    | some p =>
      simp only [apply_action, SseAccum.with_errors, SseAccum.take_pending]
      split <;> rfl
  | tool_done =>
    simp only [apply_action]
    split <;> rfl
  | tool_chunk =>
    simp only [apply_action]
    split <;> rfl

theorem apply_sse_rule_errors (acc : SseAccum) (n : UInt32) (d : ProtocolDescriptor)
    (event : Option String) (v : Value) :
    apply_sse_rule (acc.with_errors n) d event v = (apply_sse_rule acc d event v).with_errors n := by
  unfold apply_sse_rule
  generalize d.sse_rules = rules
  induction rules generalizing acc with
  | nil => rfl
  | cons rule rules ih =>
    simp only [List.foldl_cons]
    by_cases hmatch : matches_rule rule event v = true
    · rw [if_pos hmatch, if_pos hmatch, apply_action_errors, ih]
    · rw [if_neg hmatch, if_neg hmatch, ih]

theorem feed_value_errors (d : ProtocolDescriptor) (acc : SseAccum) (n : UInt32) (v : Value) :
    feed_value d (acc.with_errors n) v = (feed_value d acc v).with_errors n := by
  have hmark : ({ acc.with_errors n with
        error := (error_marker d.name v).or (acc.with_errors n).error } : SseAccum)
      = ({ acc with error := (error_marker d.name v).or acc.error } : SseAccum).with_errors n := rfl
  unfold feed_value
  simp only [hmark, apply_sse_rule_errors]
  split <;> rfl

theorem feed_values_errors (d : ProtocolDescriptor) (acc : SseAccum) (n : UInt32)
    (values : List Value) :
    feed_values d (acc.with_errors n) values = (feed_values d acc values).with_errors n := by
  induction values generalizing acc with
  | nil => rfl
  | cons v values ih =>
    simp only [feed_values, List.foldl_cons, feed_value_errors] at ih ⊢
    exact ih (feed_value d acc v)

section parsing

-- The JSON parser, `serde_json::from_str`.
variable (from_str : String → Option Value)

/-- What a data frame says: nothing if it is empty, the `[DONE]` sentinel or
    no JSON. -/
def frame_value (data : List Char) : Option Value :=
  let trimmed := Text.trim_chars data
  if trimmed.isEmpty || trimmed == "[DONE]".toList then none
  else from_str (String.ofList data)

def frame_values (frames : List (List Char)) : List Value :=
  frames.filterMap (frame_value from_str)

/-- What a captured stream says. -/
def stream_values (body : Bytes) : List Value := frame_values from_str (sse_data_frames body)

/-- A frame that says something is fed as its value; any other moves the
    count of failed frames at most. -/
theorem feed_frame_value (d : ProtocolDescriptor) (acc : SseAccum) (data : List Char) :
    ∃ n, feed_frame from_str d acc data
      = ((frame_value from_str data).elim acc (feed_value d acc)).with_errors n := by
  unfold feed_frame frame_value
  dsimp only
  split
  · exact ⟨acc.frame_errors, rfl⟩
  · cases from_str (String.ofList data) with
    | none => exact ⟨acc.frame_errors + 1, rfl⟩
    | some v => exact ⟨(feed_value d acc v).frame_errors, rfl⟩

/-- Feeding frames is folding what they say. -/
theorem feed_frames_values (d : ProtocolDescriptor) : ∀ (frames : List (List Char)) (acc : SseAccum),
    ∃ n, feed_frames from_str d acc frames
      = (feed_values d acc (frame_values from_str frames)).with_errors n := by
  intro frames
  induction frames with
  | nil => intro acc; exact ⟨acc.frame_errors, rfl⟩
  | cons data frames ih =>
    intro acc
    obtain ⟨m, hframe⟩ := feed_frame_value from_str d acc data
    obtain ⟨n, hrest⟩ := ih (feed_frame from_str d acc data)
    refine ⟨n, ?_⟩
    show feed_frames from_str d (feed_frame from_str d acc data) frames = _
    rw [hrest, hframe, feed_values_errors]
    cases hvalue : frame_value from_str data with
    | none =>
      rw [show frame_values from_str (data :: frames) = frame_values from_str frames from
        List.filterMap_cons_none hvalue]
      rfl
    | some v =>
      rw [show frame_values from_str (data :: frames) = v :: frame_values from_str frames from
        List.filterMap_cons_some hvalue]
      rfl

/-- The outcome of a stream, up to the count of failed frames, is that of
    what it says. -/
theorem stream_response_values (d : ProtocolDescriptor) (body : Bytes) :
    ∃ n, stream_response from_str d body
      = finish_accum ((feed_values d {} (stream_values from_str body)).with_errors n) d := by
  obtain ⟨n, hfeed⟩ := feed_frames_values from_str d (sse_data_frames body) {}
  exact ⟨n, by rw [stream_response, hfeed]; rfl⟩

end parsing

/-! ### The error of a stream -/

/-- What comes from a frame itself and not from a rule. -/
def SseAccum.unruled (acc : SseAccum) : Option String × Option TurnUsage := (acc.error, acc.usage)

theorem take_pending_unruled (acc : SseAccum) : acc.take_pending.unruled = acc.unruled := by
  unfold SseAccum.take_pending
  split <;> rfl

/-- No rule touches the error or the usage. -/
theorem apply_action_unruled (acc : SseAccum) (action : SseAction) (v : Value) :
    (apply_action acc action v).unruled = acc.unruled := by
  cases action with
  | text path =>
    simp only [apply_action]
    split <;> rfl
  | tool_open =>
    simp only [apply_action]
    split
    · exact take_pending_unruled acc
    · rfl
  | tool_arg =>
    simp only [apply_action]
    split
    · split
      · split <;> rfl
      · rfl
    · rfl
  | tool_close =>
    simp only [apply_action]
    split
    · split
      · exact take_pending_unruled acc
      · rfl
    · rfl
  | tool_done =>
    simp only [apply_action]
    split <;> rfl
  | tool_chunk =>
    simp only [apply_action]
    split <;> rfl

theorem apply_sse_rule_unruled (acc : SseAccum) (d : ProtocolDescriptor) (event : Option String)
    (v : Value) : (apply_sse_rule acc d event v).unruled = acc.unruled := by
  unfold apply_sse_rule
  generalize d.sse_rules = rules
  induction rules generalizing acc with
  | nil => rfl
  | cons rule rules ih =>
    rw [List.foldl_cons, ih]
    by_cases hmatch : matches_rule rule event v = true
    · rw [if_pos hmatch, apply_action_unruled]
    · rw [if_neg hmatch]

/-- The last marker wins. -/
theorem feed_value_error (d : ProtocolDescriptor) (acc : SseAccum) (v : Value) :
    (feed_value d acc v).error = (error_marker d.name v).or acc.error := by
  unfold feed_value
  dsimp only
  split
  · exact congrArg Prod.fst (apply_sse_rule_unruled _ d _ v)
  · exact congrArg Prod.fst (apply_sse_rule_unruled _ d _ v)

/-- Values leave an error behind exactly when one of them is marked, or there
    was one before. -/
theorem feed_values_error_isSome (d : ProtocolDescriptor) : ∀ (values : List Value) (acc : SseAccum),
    (feed_values d acc values).error.isSome
      = (acc.error.isSome || values.any fun v => (error_marker d.name v).isSome) := by
  intro values
  induction values with
  | nil => intro acc; exact (Bool.or_false _).symm
  | cons v values ih =>
    intro acc
    show (feed_values d (feed_value d acc v) values).error.isSome = _
    rw [ih, feed_value_error, List.any_cons]
    cases error_marker d.name v <;> cases acc.error <;> simp

/-- A stream reports an error exactly when one of its values is marked. -/
theorem stream_response_error_isSome (from_str : String → Option Value) (d : ProtocolDescriptor)
    (body : Bytes) :
    (stream_response from_str d body).error.isSome
      = (stream_values from_str body).any fun v => (error_marker d.name v).isSome := by
  obtain ⟨n, hvalues⟩ := stream_response_values from_str d body
  have herror := feed_values_error_isSome d (stream_values from_str body) {}
  rw [hvalues]
  exact herror

/-! ### The answer of a stream -/

/-- What an accumulator holds of the answer itself: text and tool calls. -/
structure Spoken where
  text : String := ""
  tools : List ToolCall := []
  pending : Option (UInt64 × ToolCall) := none
  chat_tools : List (UInt64 × ToolCall) := []
  deriving DecidableEq, Repr

def SseAccum.spoken (acc : SseAccum) : Spoken :=
  { text := acc.text, tools := acc.tools, pending := acc.pending, chat_tools := acc.chat_tools }

/-- The calls at the end of a stream, as `finish_accum` counts them. -/
def Spoken.calls (sp : Spoken) (strategy : ToolCallStrategy) : List ToolCall :=
  let tools := sp.tools ++ (sp.pending.map (·.2)).toList
  if strategy = .chunked_tool_calls then
    tools ++ ((sp.chat_tools.insertionSort fun a b => a.1 ≤ b.1).map (·.2))
  else tools

/-- Only the rules whose trigger matches act. -/
theorem apply_sse_rule_matching (acc : SseAccum) (d : ProtocolDescriptor) (event : Option String)
    (v : Value) :
    apply_sse_rule acc d event v
      = (d.sse_rules.filter fun rule => matches_rule rule event v).foldl
          (fun acc rule => apply_action acc rule.action v) acc := by
  rw [List.foldl_filter]
  rfl

/-- What a frame adds to the answer does not hang on usage, errors or the
    count of failed frames. -/
theorem apply_action_spoken {acc acc' : SseAccum} (h : acc.spoken = acc'.spoken)
    (action : SseAction) (v : Value) :
    (apply_action acc action v).spoken = (apply_action acc' action v).spoken := by
  obtain ⟨text, usage, errors, error, tools, pending, chat_tools⟩ := acc
  obtain ⟨text', usage', errors', error', tools', pending', chat_tools'⟩ := acc'
  simp only [SseAccum.spoken, Spoken.mk.injEq] at h
  obtain ⟨rfl, rfl, rfl, rfl⟩ := h
  cases action with
  | text path =>
    simp only [apply_action]
    split <;> rfl
  | tool_open =>
    simp only [apply_action]
    split
    · cases pending <;> rfl
    · rfl
  | tool_arg =>
    cases pending with
    | none => rfl
    | some p =>
      simp only [apply_action]
      split
      · split <;> rfl
      · rfl
  | tool_close =>
    cases pending with
    | none => rfl
    | some p =>
      simp only [apply_action]
      split <;> rfl
  | tool_done =>
    simp only [apply_action]
    split <;> rfl
  | tool_chunk =>
    simp only [apply_action]
    split <;> rfl

theorem apply_sse_rule_spoken {acc acc' : SseAccum} (h : acc.spoken = acc'.spoken)
    (d : ProtocolDescriptor) (event : Option String) (v : Value) :
    (apply_sse_rule acc d event v).spoken = (apply_sse_rule acc' d event v).spoken := by
  unfold apply_sse_rule
  generalize d.sse_rules = rules
  induction rules generalizing acc acc' with
  | nil => exact h
  | cons rule rules ih =>
    simp only [List.foldl_cons]
    by_cases hmatch : matches_rule rule event v = true
    · rw [if_pos hmatch, if_pos hmatch]
      exact ih (apply_action_spoken h rule.action v)
    · rw [if_neg hmatch, if_neg hmatch]
      exact ih h

/-- A frame's part in the answer is what its rules make of it. -/
theorem feed_value_spoken (d : ProtocolDescriptor) (acc : SseAccum) (v : Value) :
    (feed_value d acc v).spoken = (apply_sse_rule acc d (v.index "type").as_str v).spoken := by
  have hmark : ({ acc with error := (error_marker d.name v).or acc.error } : SseAccum).spoken
      = acc.spoken := rfl
  have hrules := apply_sse_rule_spoken hmark d (v.index "type").as_str v
  unfold feed_value
  dsimp only
  split
  · exact hrules
  · exact hrules

theorem feed_values_spoken_congr (d : ProtocolDescriptor) : ∀ (values : List Value)
    {acc acc' : SseAccum}, acc.spoken = acc'.spoken →
    (feed_values d acc values).spoken = (feed_values d acc' values).spoken := by
  intro values
  induction values with
  | nil => exact fun h => h
  | cons v values ih =>
    intro acc acc' h
    show (feed_values d (feed_value d acc v) values).spoken
      = (feed_values d (feed_value d acc' v) values).spoken
    apply ih
    rw [feed_value_spoken, feed_value_spoken]
    exact apply_sse_rule_spoken h d _ v

/-- Frames that leave the answer alone can be left out. -/
theorem feed_values_spoken_filter {d : ProtocolDescriptor} {carries : Value → Bool}
    (hquiet : ∀ v, carries v = false → ∀ acc, (feed_value d acc v).spoken = acc.spoken) :
    ∀ (values : List Value) (acc : SseAccum),
    (feed_values d acc values).spoken = (feed_values d acc (values.filter carries)).spoken := by
  intro values
  induction values with
  | nil => exact fun _ => rfl
  | cons v values ih =>
    intro acc
    show (feed_values d (feed_value d acc v) values).spoken = _
    rw [ih]
    by_cases hv : carries v = true
    · rw [List.filter_cons_of_pos hv]
      rfl
    · rw [List.filter_cons_of_neg hv]
      exact feed_values_spoken_congr d _ (hquiet v (Bool.eq_false_iff.mpr hv) acc)

/-- Text and calls of a stream's outcome. -/
theorem stream_response_spoken (from_str : String → Option Value) (d : ProtocolDescriptor)
    (body : Bytes) :
    let sp := (feed_values d {} (stream_values from_str body)).spoken
    (stream_response from_str d body).text = sp.text ∧
      (stream_response from_str d body).tools = sp.calls d.tool_calls := by
  obtain ⟨n, hvalues⟩ := stream_response_values from_str d body
  rw [hvalues]
  exact ⟨rfl, rfl⟩

end AgentTraceGateway
