import AgentTraceGateway.Feed
import AgentTraceGateway.Lib.Assembly

/-! # Two Views of One Answer

  An answer reaches the gateway as an event stream or as one JSON body, and
  each protocol has an extractor for either. This module says what it means
  that a stream delivers an answer and that a body carries it, and settles
  when the two extractors read the same answer out of them. -/

namespace AgentTraceGateway

section views

-- The JSON parser, `serde_json::from_str`.
variable (from_str : String → Option Value)

/-- One call in two views: the same name, and arguments that are one text or
    read as one JSON value. -/
def SameCall (a b : ToolCall) : Prop :=
  a.name = b.name ∧
    (a.arguments = b.arguments ∨
      ∃ v, from_str a.arguments = some v ∧ from_str b.arguments = some v)

/-- The streamed and the complete view of an answer to one request agree. -/
def ViewsAgree (d : ProtocolDescriptor) (req : Value) (body : Bytes) (resp : Value) : Prop :=
  ∃ record, nonstreaming d req resp = some record ∧
    (stream_response from_str d body).text = record.final_output ∧
    List.Forall₂ (SameCall from_str) (stream_response from_str d body).tools record.tool_calls

/-- Agreement, for a request the protocol finds its input in. -/
theorem views_agree_of_asked {d : ProtocolDescriptor} {req : Value}
    (hasked : (d.user_input req).isSome = true) (body : Bytes) (resp : Value) :
    ViewsAgree from_str d req body resp ↔
      (stream_response from_str d body).text = (d.final_output resp).getD "" ∧
        List.Forall₂ (SameCall from_str) (stream_response from_str d body).tools
          ((d.nonstreaming_tools.map fun f => f resp).getD []) := by
  obtain ⟨user_input, hinput⟩ := Option.isSome_iff_exists.mp hasked
  unfold ViewsAgree nonstreaming
  rw [hinput]
  constructor
  · rintro ⟨record, hrecord, htext, htools⟩
    rw [Option.map_some, Option.some.injEq] at hrecord
    subst hrecord
    exact ⟨htext, htools⟩
  · rintro ⟨htext, htools⟩
    exact ⟨_, rfl, htext, htools⟩

end views

/-- A block array reads as its texts, a line each. -/
theorem content_text_blocks (blocks : List Value) :
    (content_text (.array blocks)).getD "" = Text.join "\n" (block_texts blocks) := by
  show (if (block_texts blocks).isEmpty then none
    else some (Text.join "\n" (block_texts blocks))).getD "" = _
  by_cases hnone : (block_texts blocks).isEmpty = true
  · rw [if_pos hnone, List.isEmpty_iff.mp hnone]
    rfl
  · rw [if_neg hnone]
    rfl

theorem block_texts_cons (b : Value) (blocks : List Value) :
    block_texts (b :: blocks) = ((b.index "text").as_str).toList ++ block_texts blocks := by
  unfold block_texts
  cases htext : (b.index "text").as_str with
  | none => simp [htext]
  | some t => simp [htext]

/-- A frame no rule is triggered by leaves the answer alone. -/
theorem feed_value_untriggered {d : ProtocolDescriptor} {v : Value}
    (h : ∀ rule ∈ d.sse_rules, matches_rule rule (v.index "type").as_str v = false)
    (acc : SseAccum) : (feed_value d acc v).spoken = acc.spoken := by
  rw [feed_value_spoken, apply_sse_rule_matching, List.filter_eq_nil_iff.mpr]
  · rfl
  · intro rule hmem
    rw [h rule hmem]
    exact Bool.false_ne_true

/-! ### anthropic.messages -/

namespace Anthropic

/-- One content block of an answer, with the fragments its text or its
    arguments are streamed in. -/
inductive Part where
  | text (fragments : List String)
  | tool_use (name : String) (input : Value) (fragments : List String)

/-- The text parts of an answer. -/
def texts (parts : List Part) : List String :=
  parts.filterMap fun part =>
    match part with
    | .text fragments => some (String.join fragments)
    | .tool_use _ _ _ => none

/-- `content_block_start` of a block of one type. -/
def StartFrame (i : UInt64) (ty : String) (v : Value) : Prop :=
  (v.index "type").as_str = some "content_block_start" ∧ frame_index v = i ∧
    ((v.index "content_block").index "type").as_str = some ty

/-- `content_block_delta` of one type, with the fragment in one field. -/
def DeltaFrame (i : UInt64) (ty field fragment : String) (v : Value) : Prop :=
  (v.index "type").as_str = some "content_block_delta" ∧ frame_index v = i ∧
    ((v.index "delta").index "type").as_str = some ty ∧
    ((v.index "delta").index field).as_str = some fragment

/-- `content_block_stop`. -/
def StopFrame (i : UInt64) (v : Value) : Prop :=
  (v.index "type").as_str = some "content_block_stop" ∧ frame_index v = i

/-- The block frames that deliver an answer: block after block, each opened,
    streamed in fragments and closed under its own index. -/
inductive Sends : List Part → List Value → Prop where
  | done : Sends [] []
  | text {i : UInt64} {start stop : Value} {deltas : List Value} {fragments : List String}
      {parts : List Part} {rest : List Value}
      (hstart : StartFrame i "text" start)
      (hdeltas : List.Forall₂ (DeltaFrame i "text_delta" "text") fragments deltas)
      (hstop : StopFrame i stop) (hrest : Sends parts rest) :
      Sends (.text fragments :: parts) (start :: (deltas ++ stop :: rest))
  | tool_use {i : UInt64} {start stop : Value} {deltas : List Value} {name : String}
      {input : Value} {fragments : List String} {parts : List Part} {rest : List Value}
      (hstart : StartFrame i "tool_use" start)
      (hname : ((start.index "content_block").index "name").as_str = some name)
      (hdeltas : List.Forall₂ (DeltaFrame i "input_json_delta" "partial_json") fragments deltas)
      (hstop : StopFrame i stop) (hrest : Sends parts rest) :
      Sends (.tool_use name input fragments :: parts) (start :: (deltas ++ stop :: rest))

/-- Frames that carry blocks; pings, message frames and deltas of other kinds
    may stand anywhere between them. -/
def carries (v : Value) : Bool :=
  let delta_type := (v.index "delta").index "type"
  (v.index "type").is_str "content_block_start" || (v.index "type").is_str "content_block_stop"
    || ((v.index "type").is_str "content_block_delta"
        && (delta_type.is_str "text_delta" || delta_type.is_str "input_json_delta"))

/-- The fragments of a call's arguments are the JSON text of its input; an
    empty object may also be sent as no text at all. -/
def InputSent (from_str : String → Option Value) (input : Value) (fragments : List String) :
    Prop :=
  from_str (String.join fragments) = some input ∨
    (String.join fragments = "" ∧ input = .object [])

/-- A block of the complete body. -/
def BlockOf : Part → Value → Prop
  | .text fragments, b =>
    (b.index "type").as_str = some "text" ∧
      (b.index "text").as_str = some (String.join fragments)
  | .tool_use name input _, b =>
    (b.index "type").as_str = some "tool_use" ∧ (b.index "name").as_str = some name ∧
      b.index "input" = input ∧ b.index "text" = .null

/-- One answer to one request, streamed and complete. -/
structure Exchange (from_str : String → Option Value) where
  parts : List Part
  req : Value
  body : Bytes
  resp : Value
  asked : (DESCRIPTOR.user_input req).isSome = true
  sent : Sends parts ((stream_values from_str body).filter carries)
  inputs : ∀ name input fragments, .tool_use name input fragments ∈ parts →
    InputSent from_str input fragments
  complete : ∃ blocks, resp.index "content" = .array blocks ∧ List.Forall₂ BlockOf parts blocks

/-! #### The streamed view -/

/-- The calls of an answer, with their arguments as they were sent. -/
def sent_calls (parts : List Part) : List ToolCall :=
  parts.filterMap fun part =>
    match part with
    | .text _ => none
    | .tool_use name _ fragments => some { name := name, arguments := String.join fragments }

theorem feed_quiet {v : Value} (h : carries v = false) (acc : SseAccum) :
    (feed_value DESCRIPTOR acc v).spoken = acc.spoken := by
  apply feed_value_untriggered
  simp only [carries, Value.is_str, Bool.or_eq_false_iff, Bool.and_eq_false_iff] at h
  obtain ⟨⟨hstart, hstop⟩, hdelta⟩ := h
  intro rule hmem
  simp only [DESCRIPTOR, List.mem_cons, List.not_mem_nil, or_false] at hmem
  rcases hmem with rfl | rfl | rfl | rfl
  all_goals simp only [matches_rule, Value.is_str, Bool.and_true]
  · rcases hdelta with h | ⟨h, -⟩ <;> simp [h]
  · simp [hstart]
  · rcases hdelta with h | ⟨-, h⟩ <;> simp [h]
  · simp [hstop]

/-- A start frame triggers the one rule for it. -/
theorem feed_start {v : Value} (h : (v.index "type").as_str = some "content_block_start")
    (acc : SseAccum) :
    (feed_value DESCRIPTOR acc v).spoken = (apply_action acc .tool_open v).spoken := by
  rw [feed_value_spoken, apply_sse_rule_matching]
  simp [DESCRIPTOR, matches_rule, h]

theorem feed_stop {v : Value} (h : (v.index "type").as_str = some "content_block_stop")
    (acc : SseAccum) :
    (feed_value DESCRIPTOR acc v).spoken = (apply_action acc .tool_close v).spoken := by
  rw [feed_value_spoken, apply_sse_rule_matching]
  simp [DESCRIPTOR, matches_rule, h]

/-- Of a text block nothing is opened. -/
theorem feed_text_start {i : UInt64} {v : Value} (h : StartFrame i "text" v) (acc : SseAccum) :
    (feed_value DESCRIPTOR acc v).spoken = acc.spoken := by
  obtain ⟨hevent, -, hblock⟩ := h
  rw [feed_start hevent]
  simp [apply_action, Value.is_str, hblock]

theorem feed_text_delta {i : UInt64} {fragment : String} {v : Value}
    (h : DeltaFrame i "text_delta" "text" fragment v) (acc : SseAccum) :
    (feed_value DESCRIPTOR acc v).spoken
      = { acc.spoken with text := acc.spoken.text ++ fragment } := by
  obtain ⟨hevent, -, hdelta, hfragment⟩ := h
  have hpath : (resolve_path v ["delta", "text"]).as_str = some fragment := by
    rw [resolve_path_cons, resolve_name (by decide), resolve_name (by decide)]
    exact hfragment
  rw [feed_value_spoken, apply_sse_rule_matching]
  simp [DESCRIPTOR, matches_rule, Value.is_str, hevent, hdelta, apply_action, hpath,
    SseAccum.spoken]

/-- A call is opened with its name and no arguments. -/
theorem feed_call_start {i : UInt64} {name : String} {v : Value} (h : StartFrame i "tool_use" v)
    (hname : ((v.index "content_block").index "name").as_str = some name) {acc : SseAccum}
    (hidle : acc.spoken.pending = none) :
    (feed_value DESCRIPTOR acc v).spoken
      = { acc.spoken with pending := some (i, { name := name, arguments := "" }) } := by
  obtain ⟨hevent, hindex, hblock⟩ := h
  have hpending : acc.pending = none := hidle
  rw [feed_start hevent]
  simp [apply_action, Value.is_str, hblock, hname, hindex, SseAccum.take_pending, hpending,
    SseAccum.spoken]

/-- Its fragments are appended. -/
theorem feed_call_delta {i : UInt64} {fragment : String} {v : Value}
    (h : DeltaFrame i "input_json_delta" "partial_json" fragment v) {acc : SseAccum}
    {call : ToolCall} (hopen : acc.spoken.pending = some (i, call)) :
    (feed_value DESCRIPTOR acc v).spoken
      = { acc.spoken with
          pending := some (i, { call with arguments := call.arguments ++ fragment }) } := by
  obtain ⟨hevent, hindex, hdelta, hfragment⟩ := h
  have hpending : acc.pending = some (i, call) := hopen
  rw [feed_value_spoken, apply_sse_rule_matching]
  simp [DESCRIPTOR, matches_rule, Value.is_str, hevent, hdelta, apply_action, hpending, hindex,
    hfragment, SseAccum.spoken]

/-- With nothing open a stop frame closes nothing. -/
theorem feed_stop_idle {i : UInt64} {v : Value} (h : StopFrame i v) {acc : SseAccum}
    (hidle : acc.spoken.pending = none) :
    (feed_value DESCRIPTOR acc v).spoken = acc.spoken := by
  have hpending : acc.pending = none := hidle
  rw [feed_stop h.1]
  simp [apply_action, hpending]

theorem feed_stop_open {i : UInt64} {v : Value} (h : StopFrame i v) {acc : SseAccum}
    {call : ToolCall} (hopen : acc.spoken.pending = some (i, call)) :
    (feed_value DESCRIPTOR acc v).spoken
      = { acc.spoken with tools := acc.spoken.tools ++ [call], pending := none } := by
  have hpending : acc.pending = some (i, call) := hopen
  rw [feed_stop h.1]
  simp [apply_action, hpending, h.2, SseAccum.take_pending, SseAccum.spoken]

/-- However a text is cut, its fragments make it again. -/
theorem feed_text_deltas {i : UInt64} {fragments : List String} {deltas : List Value}
    (h : List.Forall₂ (DeltaFrame i "text_delta" "text") fragments deltas) :
    ∀ acc : SseAccum, (feed_values DESCRIPTOR acc deltas).spoken
      = { acc.spoken with text := acc.spoken.text ++ String.join fragments } := by
  induction h with
  | nil => intro acc; simp [feed_values]
  | cons hdelta _ ih =>
    intro acc
    rw [feed_values, List.foldl_cons, ← feed_values, ih, feed_text_delta hdelta,
      String.join_cons, String.append_assoc]

theorem feed_call_deltas {i : UInt64} {fragments : List String} {deltas : List Value}
    (h : List.Forall₂ (DeltaFrame i "input_json_delta" "partial_json") fragments deltas) :
    ∀ (acc : SseAccum) (call : ToolCall), acc.spoken.pending = some (i, call) →
    (feed_values DESCRIPTOR acc deltas).spoken
      = { acc.spoken with
          pending := some (i, { call with
            arguments := call.arguments ++ String.join fragments }) } := by
  induction h with
  | nil =>
    intro acc call hopen
    simp [feed_values, ← hopen]
  | cons hdelta _ ih =>
    intro acc call hopen
    have hstep := feed_call_delta hdelta hopen
    rw [feed_values, List.foldl_cons, ← feed_values, ih _ _ (congrArg Spoken.pending hstep),
      hstep, String.join_cons, String.append_assoc]

/-- Block after block: the texts are appended to the text, and each call is
    closed with all its arguments. -/
theorem feed_sends {parts : List Part} {values : List Value} (h : Sends parts values) :
    ∀ acc : SseAccum, acc.spoken.pending = none →
    (feed_values DESCRIPTOR acc values).spoken
      = { acc.spoken with
          text := acc.spoken.text ++ String.join (texts parts)
          tools := acc.spoken.tools ++ sent_calls parts } := by
  induction h with
  | done =>
    intro acc _
    simp [feed_values, texts, sent_calls]
  | @text i start stop deltas fragments parts rest hstart hdeltas hstop _ ih =>
    intro acc hidle
    have hopened := feed_text_start hstart acc
    have hstreamed := feed_text_deltas hdeltas (feed_value DESCRIPTOR acc start)
    rw [hopened] at hstreamed
    have hclosed := feed_stop_idle hstop
      ((congrArg Spoken.pending hstreamed).trans hidle)
    rw [hstreamed] at hclosed
    have hrest := ih _ ((congrArg Spoken.pending hclosed).trans hidle)
    rw [hclosed] at hrest
    rw [feed_values, List.foldl_cons, List.foldl_append, List.foldl_cons]
    refine hrest.trans ?_
    simp [texts, sent_calls, String.append_assoc]
  | @tool_use i start stop deltas name input fragments parts rest hstart hname hdeltas hstop _ ih =>
    intro acc hidle
    have hopened := feed_call_start hstart hname hidle
    have hstreamed := feed_call_deltas hdeltas _ _ (congrArg Spoken.pending hopened)
    rw [hopened] at hstreamed
    have hclosed := feed_stop_open hstop (congrArg Spoken.pending hstreamed)
    rw [hstreamed] at hclosed
    have hrest := ih _ (congrArg Spoken.pending hclosed)
    rw [hclosed] at hrest
    rw [feed_values, List.foldl_cons, List.foldl_append, List.foldl_cons]
    refine hrest.trans ?_
    simp [texts, sent_calls, hidle]

/-- What a stream that delivers an answer yields. -/
theorem Exchange.streamed {from_str : String → Option Value} (x : Exchange from_str) :
    (stream_response from_str DESCRIPTOR x.body).text = String.join (texts x.parts) ∧
      (stream_response from_str DESCRIPTOR x.body).tools = sent_calls x.parts := by
  obtain ⟨htext, htools⟩ := stream_response_spoken from_str DESCRIPTOR x.body
  have hfeed := (feed_values_spoken_filter (fun _ => feed_quiet) (stream_values from_str x.body)
    {}).trans (feed_sends x.sent {} rfl)
  rw [hfeed] at htext htools
  refine ⟨htext.trans ?_, htools.trans ?_⟩
  · simp [SseAccum.spoken]
  · simp [SseAccum.spoken, Spoken.calls, DESCRIPTOR]

/-! #### The complete view -/

/-- The arguments a complete call is recorded with. -/
def printed_input (input : Value) : String :=
  match input with
  | .string s => s
  | v => v.to_string

theorem printed_input_of_not_string {input : Value} (h : input.as_str = none) :
    printed_input input = input.to_string := by
  unfold printed_input
  split
  · cases h
  · rfl

/-- The calls of an answer, with their arguments as they are printed. -/
def printed_calls (parts : List Part) : List ToolCall :=
  parts.filterMap fun part =>
    match part with
    | .text _ => none
    | .tool_use name input _ => some { name := name, arguments := printed_input input }

theorem block_texts_of_parts {parts : List Part} {blocks : List Value}
    (h : List.Forall₂ BlockOf parts blocks) : block_texts blocks = texts parts := by
  induction h with
  | nil => rfl
  | @cons part b parts blocks hblock _ ih =>
    cases part with
    | text fragments =>
      obtain ⟨-, htext⟩ := hblock
      rw [block_texts_cons, htext, ih]
      rfl
    | tool_use name input fragments =>
      obtain ⟨-, -, -, htext⟩ := hblock
      rw [block_texts_cons, htext, ih]
      rfl

theorem nonstreaming_tools_of_parts {parts : List Part} {blocks : List Value} {resp : Value}
    (hcontent : resp.index "content" = .array blocks) (h : List.Forall₂ BlockOf parts blocks) :
    nonstreaming_tools resp = printed_calls parts := by
  rw [nonstreaming_tools, hcontent]
  show (blocks.filter _).map _ = _
  clear hcontent
  induction h with
  | nil => rfl
  | @cons part b parts blocks hblock _ ih =>
    cases part with
    | text fragments =>
      obtain ⟨htype, -⟩ := hblock
      rw [List.filter_cons_of_neg (by simp [Value.is_str, htype]), ih]
      rfl
    | tool_use name input fragments =>
      obtain ⟨htype, hname, hinput, -⟩ := hblock
      rw [List.filter_cons_of_pos (by simp [Value.is_str, htype]), List.map_cons, ih, hname, hinput]
      rfl

/-! #### Agreement -/

variable {from_str : String → Option Value}

/-- Calls agree one by one. -/
theorem calls_agree_iff (parts : List Part) :
    List.Forall₂ (SameCall from_str) (sent_calls parts) (printed_calls parts) ↔
      ∀ name input fragments, .tool_use name input fragments ∈ parts →
        SameCall from_str ⟨name, String.join fragments⟩ ⟨name, printed_input input⟩ := by
  induction parts with
  | nil => simp [sent_calls, printed_calls]
  | cons part parts ih =>
    cases part with
    | text fragments => simpa [sent_calls, printed_calls] using ih
    | tool_use name input fragments =>
      have hcons : List.Forall₂ (SameCall from_str)
            (sent_calls (.tool_use name input fragments :: parts))
            (printed_calls (.tool_use name input fragments :: parts)) ↔
          SameCall from_str ⟨name, String.join fragments⟩ ⟨name, printed_input input⟩ ∧
            List.Forall₂ (SameCall from_str) (sent_calls parts) (printed_calls parts) :=
        List.forall₂_cons
      rw [hcons, ih]
      constructor
      · rintro ⟨hfirst, hrest⟩ n i f hmem
        rcases List.mem_cons.mp hmem with heq | hmem
        · cases heq
          exact hfirst
        · exact hrest n i f hmem
      · intro hall
        exact ⟨hall name input fragments List.mem_cons_self,
          fun n i f hmem => hall n i f (List.mem_cons_of_mem _ hmem)⟩

/-- The arguments of a call survive in both views: they were sent as a text,
    the input is no string, and its print reads back as itself. -/
def InputKept (from_str : String → Option Value) (input : Value) (fragments : List String) :
    Prop :=
  String.join fragments ≠ "" ∧ input.as_str = none ∧ from_str input.to_string = some input

theorem same_call_iff (hempty : from_str "" = none)
    (hquoted : ∀ s, from_str s ≠ some (.string s)) {input : Value} {fragments : List String}
    (hsent : InputSent from_str input fragments) (name : String) :
    SameCall from_str ⟨name, String.join fragments⟩ ⟨name, printed_input input⟩ ↔
      InputKept from_str input fragments := by
  rcases hsent with hread | ⟨hnothing, hobject⟩
  · constructor
    · rintro ⟨-, hargs⟩
      -- Either way the recorded print reads as the input.
      have hprint : from_str (printed_input input) = some input := by
        rcases hargs with hargs | ⟨v, hsent, hprinted⟩
        · have hargs : String.join fragments = printed_input input := hargs
          rw [← hargs]
          exact hread
        · have hv : some v = some input := hsent.symm.trans hread
          exact hprinted.trans hv
      have hstr : input.as_str = none := by
        cases hinput : input with
        | string s =>
          rw [hinput] at hprint
          exact absurd hprint (hquoted s)
        | _ => rfl
      refine ⟨?_, hstr, ?_⟩
      · intro hnothing
        rw [hnothing, hempty] at hread
        cases hread
      · rw [← printed_input_of_not_string hstr]
        exact hprint
    · rintro ⟨-, hstr, hprint⟩
      refine ⟨rfl, Or.inr ⟨input, hread, ?_⟩⟩
      rw [← printed_input_of_not_string hstr] at hprint
      exact hprint
  · -- An empty object sent as nothing is recorded as nothing, and as braces.
    subst hobject
    constructor
    · rintro ⟨-, hargs | ⟨v, hread, -⟩⟩
      · have hargs : String.join fragments = "\x7b\x7d" := hargs
        rw [hnothing] at hargs
        exact absurd hargs (by decide)
      · have hread : from_str (String.join fragments) = some v := hread
        rw [hnothing, hempty] at hread
        cases hread
    · rintro ⟨hsome, -, -⟩
      exact absurd hnothing hsome

theorem Exchange.agree_iff (hempty : from_str "" = none)
    (hquoted : ∀ s, from_str s ≠ some (.string s)) (x : Exchange from_str) :
    ViewsAgree from_str DESCRIPTOR x.req x.body x.resp ↔
      (texts x.parts).length ≤ 1 ∧
        ∀ name input fragments, .tool_use name input fragments ∈ x.parts →
          InputKept from_str input fragments := by
  obtain ⟨blocks, hcontent, hblocks⟩ := x.complete
  obtain ⟨htext, htools⟩ := x.streamed
  have hfinal : (DESCRIPTOR.final_output x.resp).getD "" = Text.join "\n" (texts x.parts) := by
    show (content_text (resolve_path x.resp ["content"])).getD "" = _
    rw [resolve_name (by decide), hcontent, content_text_blocks, block_texts_of_parts hblocks]
  have hcalls : (DESCRIPTOR.nonstreaming_tools.map fun f => f x.resp).getD []
      = printed_calls x.parts := nonstreaming_tools_of_parts hcontent hblocks
  rw [views_agree_of_asked from_str x.asked, htext, htools, hfinal, hcalls,
    Text.join_eq_string_join_iff (by decide), calls_agree_iff]
  apply and_congr_right
  intro _
  constructor
  · intro hall name input fragments hmem
    exact (same_call_iff hempty hquoted (x.inputs name input fragments hmem) name).mp
      (hall name input fragments hmem)
  · intro hall name input fragments hmem
    exact (same_call_iff hempty hquoted (x.inputs name input fragments hmem) name).mpr
      (hall name input fragments hmem)

end Anthropic

end AgentTraceGateway
