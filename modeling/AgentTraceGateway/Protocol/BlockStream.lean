import AgentTraceGateway.Protocol.OneAnswer

/-! # Streams of Content Blocks

  An anthropic answer is streamed block after block. One slot holds the call
  whose arguments are still arriving: a `tool_use` block fills it, its
  `content_block_stop` empties it, and so does the next `tool_use` block or
  the end of the stream. So the calls are read in full and in order even
  where stop frames are missing. -/

namespace AgentTraceGateway

namespace Anthropic

/-! ### What is streamed -/

/-- One delta of a block. -/
inductive Delta where
  | text (fragment : String)
  | partial_json (fragment : String)

/-- A content block: text, or the call of a tool. -/
structure Block where
  index : UInt64
  call : Option String
  deltas : List Delta

def text_fragments (deltas : List Delta) : List String :=
  deltas.filterMap fun
    | .text fragment => some fragment
    | .partial_json _ => none

def json_fragments (deltas : List Delta) : List String :=
  deltas.filterMap fun
    | .text _ => none
    | .partial_json fragment => some fragment

/-- The entry of a `tool_use` block. -/
def Block.calls (b : Block) : List ToolCall :=
  (b.call.map fun name =>
    { name := name, arguments := String.join (json_fragments b.deltas) }).toList

/-- The frame that opens a block. -/
def Block.Opens (b : Block) (v : Value) : Prop :=
  match b.call with
  | none => StartFrame b.index "text" v
  | some name => StartFrame b.index "tool_use" v ∧
      ((v.index "content_block").index "name").as_str = some name

/-- The frame of a delta, under the index of its block. -/
def Delta.Frame (i : UInt64) (delta : Delta) (v : Value) : Prop :=
  match delta with
  | .text fragment => DeltaFrame i "text_delta" "text" fragment v
  | .partial_json fragment => DeltaFrame i "input_json_delta" "partial_json" fragment v

/-- The block frames of a stream: each block is opened, has its deltas and is
    closed, or its stop frame is missing. -/
inductive Streams : List Block → List Value → Prop where
  | nil : Streams [] []
  | closed {b : Block} {start stop : Value} {deltas : List Value} {blocks : List Block}
      {rest : List Value} (hstart : b.Opens start)
      (hdeltas : List.Forall₂ (Delta.Frame b.index) b.deltas deltas)
      (hstop : StopFrame b.index stop) (hrest : Streams blocks rest) :
      Streams (b :: blocks) (start :: (deltas ++ stop :: rest))
  | unclosed {b : Block} {start : Value} {deltas : List Value} {blocks : List Block}
      {rest : List Value} (hstart : b.Opens start)
      (hdeltas : List.Forall₂ (Delta.Frame b.index) b.deltas deltas)
      (hrest : Streams blocks rest) :
      Streams (b :: blocks) (start :: (deltas ++ rest))

/-! ### One block -/

/-- The calls so far, the pending one included. -/
def so_far (sp : Spoken) : List ToolCall := sp.tools ++ (sp.pending.map (·.2)).toList

/-- A `tool_use` block flushes the call before it. -/
theorem feed_reopen {i : UInt64} {name : String} {v : Value} (h : StartFrame i "tool_use" v)
    (hname : ((v.index "content_block").index "name").as_str = some name) (acc : SseAccum) :
    (feed_value DESCRIPTOR acc v).spoken
      = { acc.spoken with
          tools := so_far acc.spoken
          pending := some (i, { name := name, arguments := "" }) } := by
  obtain ⟨hevent, hindex, hblock⟩ := h
  rw [feed_start hevent]
  cases hpending : acc.pending with
  | none => simp [apply_action, Value.is_str, hblock, hname, hindex, SseAccum.take_pending,
      hpending, SseAccum.spoken, so_far]
  | some p => simp [apply_action, Value.is_str, hblock, hname, hindex, SseAccum.take_pending,
      hpending, SseAccum.spoken, so_far]

/-- A stop frame with another index than the pending call's closes nothing. -/
theorem feed_stop_other {i : UInt64} {v : Value} (h : StopFrame i v) {acc : SseAccum}
    (hother : ∀ p, acc.spoken.pending = some p → p.1 ≠ i) :
    (feed_value DESCRIPTOR acc v).spoken = acc.spoken := by
  rw [feed_stop h.1]
  cases hpending : acc.pending with
  | none => simp [apply_action, hpending]
  | some p =>
    have hne := hother p hpending
    simp [apply_action, hpending, h.2, hne]

/-- A fragment of arguments that belongs to no pending call is lost. -/
theorem feed_json_other {i : UInt64} {fragment : String} {v : Value}
    (h : DeltaFrame i "input_json_delta" "partial_json" fragment v) {acc : SseAccum}
    (hother : ∀ p, acc.spoken.pending = some p → p.1 ≠ i) :
    (feed_value DESCRIPTOR acc v).spoken = acc.spoken := by
  obtain ⟨hevent, hindex, hdelta, -⟩ := h
  rw [feed_value_spoken, apply_sse_rule_matching]
  cases hpending : acc.pending with
  | none =>
    simp [DESCRIPTOR, matches_rule, Value.is_str, hevent, hdelta, apply_action, hpending]
  | some p =>
    have hne := hother p hpending
    simp [DESCRIPTOR, matches_rule, Value.is_str, hevent, hdelta, apply_action, hpending, hindex,
      hne]

/-- The deltas of a block whose call is pending. -/
theorem feed_deltas_open {i : UInt64} {deltas : List Delta} {values : List Value}
    (h : List.Forall₂ (Delta.Frame i) deltas values) :
    ∀ (acc : SseAccum) (call : ToolCall), acc.spoken.pending = some (i, call) →
      (feed_values DESCRIPTOR acc values).spoken
        = { acc.spoken with
            text := acc.spoken.text ++ String.join (text_fragments deltas)
            pending := some (i, { call with
              arguments := call.arguments ++ String.join (json_fragments deltas) }) } := by
  -- each delta leaves the call open, with one more fragment
  induction h with
  | nil =>
    intro acc call hopen
    simp [feed_values, text_fragments, json_fragments, ← hopen]
  | @cons delta v deltas values hdelta _ ih =>
    intro acc call hopen
    rw [feed_values, List.foldl_cons, ← feed_values]
    cases delta with
    | text fragment =>
      have hstep := feed_text_delta hdelta acc
      rw [ih _ call ((congrArg Spoken.pending hstep).trans hopen), hstep]
      simp [text_fragments, json_fragments, String.append_assoc]
    | partial_json fragment =>
      have hstep := feed_call_delta hdelta hopen
      rw [ih _ _ (congrArg Spoken.pending hstep), hstep]
      simp [text_fragments, json_fragments, String.append_assoc]

/-- The deltas of a text block. -/
theorem feed_deltas_other {i : UInt64} {deltas : List Delta} {values : List Value}
    (h : List.Forall₂ (Delta.Frame i) deltas values) :
    ∀ acc : SseAccum, (∀ p, acc.spoken.pending = some p → p.1 ≠ i) →
      (feed_values DESCRIPTOR acc values).spoken
        = { acc.spoken with
            text := acc.spoken.text ++ String.join (text_fragments deltas) } := by
  induction h with
  | nil =>
    intro acc _
    simp [feed_values, text_fragments]
  | @cons delta v deltas values hdelta _ ih =>
    intro acc hother
    rw [feed_values, List.foldl_cons, ← feed_values]
    cases delta with
    | text fragment =>
      have hstep := feed_text_delta hdelta acc
      rw [ih _ fun p hp => hother p ((congrArg Spoken.pending hstep).symm.trans hp), hstep]
      simp [text_fragments, String.append_assoc]
    | partial_json fragment =>
      have hstep := feed_json_other hdelta hother
      rw [ih _ fun p hp => hother p ((congrArg Spoken.pending hstep).symm.trans hp), hstep]
      simp [text_fragments]

/-- What one more block adds, and whose call is pending after it. -/
structure BlockRead (b : Block) (sp sp' : Spoken) : Prop where
  text : sp'.text = sp.text ++ String.join (text_fragments b.deltas)
  calls : so_far sp' = so_far sp ++ b.calls
  pending : ∀ p, sp'.pending = some p → sp.pending = some p ∨ p.1 = b.index

/-- A block up to its last delta. -/
theorem feed_block {b : Block} {start : Value} {deltas : List Value} (hstart : b.Opens start)
    (hdeltas : List.Forall₂ (Delta.Frame b.index) b.deltas deltas) {acc : SseAccum}
    (hother : ∀ p, acc.spoken.pending = some p → p.1 ≠ b.index) :
    BlockRead b acc.spoken (feed_values DESCRIPTOR acc (start :: deltas)).spoken := by
  rw [feed_values, List.foldl_cons, ← feed_values]
  cases hcall : b.call with
  | none =>
    rw [Block.Opens, hcall] at hstart
    have hopened := feed_text_start hstart acc
    rw [feed_deltas_other hdeltas _ fun p hp => hother p (hopened ▸ hp), hopened]
    refine ⟨rfl, ?_, fun p hp => Or.inl hp⟩
    simp [so_far, Block.calls, hcall]
  | some name =>
    rw [Block.Opens, hcall] at hstart
    have hopened := feed_reopen hstart.1 hstart.2 acc
    rw [feed_deltas_open hdeltas _ _ (congrArg Spoken.pending hopened), hopened]
    refine ⟨rfl, ?_, ?_⟩
    · simp [so_far, Block.calls, hcall]
    · rintro p hp
      cases hp
      exact Or.inr rfl

/-- Closing the block changes nothing of what is read. -/
theorem BlockRead.stop {b : Block} {sp : Spoken} {acc : SseAccum} {v : Value}
    (h : BlockRead b sp acc.spoken) (hstop : StopFrame b.index v) :
    BlockRead b sp (feed_value DESCRIPTOR acc v).spoken := by
  by_cases hown : ∃ call, acc.spoken.pending = some (b.index, call)
  · obtain ⟨call, hopen⟩ := hown
    rw [feed_stop_open hstop hopen]
    refine ⟨h.text, ?_, fun p hp => by cases hp⟩
    rw [← h.calls]
    simp [so_far, hopen]
  · -- a text block, under whose stop frame another call may be pending
    have hother : ∀ p, acc.spoken.pending = some p → p.1 ≠ b.index := by
      rintro ⟨i, call⟩ hp rfl
      exact hown ⟨call, hp⟩
    rw [feed_stop_other hstop hother]
    exact h

/-! ### The whole stream -/

/-- Everything pending has a smaller index than the blocks to come. -/
def Precedes (sp : Spoken) (blocks : List Block) : Prop :=
  ∀ p, sp.pending = some p → ∀ b ∈ blocks, p.1 < b.index

theorem BlockRead.precedes {b : Block} {sp sp' : Spoken} {blocks : List Block}
    (h : BlockRead b sp sp') (hbefore : Precedes sp (b :: blocks))
    (hincreasing : ∀ b' ∈ blocks, b.index < b'.index) : Precedes sp' blocks := by
  intro p hp b' hb'
  rcases h.pending p hp with hold | hown
  · exact hbefore p hold b' (List.mem_cons_of_mem b hb')
  · rw [hown]
    exact hincreasing b' hb'

/-- One block, and then the rest of the stream. -/
theorem BlockRead.followed {b : Block} {blocks : List Block} {sp sp₁ sp₂ : Spoken}
    (h : BlockRead b sp sp₁)
    (hrest : sp₂.text = sp₁.text ++ String.join (blocks.flatMap fun b => text_fragments b.deltas) ∧
      so_far sp₂ = so_far sp₁ ++ blocks.flatMap Block.calls) :
    sp₂.text = sp.text ++ String.join ((b :: blocks).flatMap fun b => text_fragments b.deltas) ∧
      so_far sp₂ = so_far sp ++ (b :: blocks).flatMap Block.calls := by
  obtain ⟨htext, hcalls⟩ := hrest
  constructor
  · rw [htext, h.text]
    simp [String.append_assoc]
  · rw [hcalls, h.calls]
    simp

theorem feed_streams {blocks : List Block} {values : List Value} (h : Streams blocks values) :
    ∀ acc : SseAccum, Precedes acc.spoken blocks → blocks.Pairwise (·.index < ·.index) →
      let sp := (feed_values DESCRIPTOR acc values).spoken
      sp.text = acc.spoken.text
          ++ String.join (blocks.flatMap fun b => text_fragments b.deltas) ∧
        so_far sp = so_far acc.spoken ++ blocks.flatMap Block.calls := by
  have hother : ∀ {b : Block} {blocks : List Block} {acc : SseAccum},
      Precedes acc.spoken (b :: blocks) → ∀ p, acc.spoken.pending = some p → p.1 ≠ b.index := by
    intro b blocks acc hbefore p hp
    exact UInt64.ne_of_lt (hbefore p hp b List.mem_cons_self)
  induction h with
  | nil =>
    intro acc _ _
    simp [feed_values]
  | @closed b start stop deltas blocks rest hstart hdeltas hstop _ ih =>
    intro acc hbefore hincreasing
    obtain ⟨hnext, hincreasing⟩ := List.pairwise_cons.mp hincreasing
    have hread := (feed_block hstart hdeltas (hother hbefore)).stop hstop
    have hrest := ih _ (hread.precedes hbefore hnext) hincreasing
    have hfeed : feed_values DESCRIPTOR acc (start :: (deltas ++ stop :: rest))
        = feed_values DESCRIPTOR (feed_value DESCRIPTOR
            (feed_values DESCRIPTOR acc (start :: deltas)) stop) rest := by
      simp [feed_values]
    rw [hfeed]
    exact hread.followed hrest
  | @unclosed b start deltas blocks rest hstart hdeltas _ ih =>
    intro acc hbefore hincreasing
    obtain ⟨hnext, hincreasing⟩ := List.pairwise_cons.mp hincreasing
    -- the block is left open; the next one, or the end, will close it
    have hread := feed_block hstart hdeltas (hother hbefore)
    have hrest := ih _ (hread.precedes hbefore hnext) hincreasing
    have hfeed : feed_values DESCRIPTOR acc (start :: (deltas ++ rest))
        = feed_values DESCRIPTOR (feed_values DESCRIPTOR acc (start :: deltas)) rest := by
      simp [feed_values]
    rw [hfeed]
    exact hread.followed hrest

/-- Blocks under increasing indices are read in full, whatever stands between
    their frames, and whichever stop frames are missing: all text deltas in
    one text, and one call for each `tool_use` block. -/
theorem block_stream_read (from_str : String → Option Value) {blocks : List Block} {body : Bytes}
    (hsent : Streams blocks ((stream_values from_str body).filter carries))
    (hincreasing : blocks.Pairwise (·.index < ·.index)) :
    (stream_response from_str DESCRIPTOR body).text
        = String.join (blocks.flatMap fun b => text_fragments b.deltas) ∧
      (stream_response from_str DESCRIPTOR body).tools = blocks.flatMap Block.calls := by
  obtain ⟨htext, htools⟩ := stream_response_spoken from_str DESCRIPTOR body
  have hfilter := feed_values_spoken_filter (fun _ => feed_quiet) (stream_values from_str body) {}
  obtain ⟨htext', hcalls⟩ := feed_streams hsent {} (fun p hp => by cases hp) hincreasing
  rw [← hfilter] at htext' hcalls
  refine ⟨htext.trans (htext'.trans ?_), htools.trans (hcalls.trans ?_)⟩
  · simp [SseAccum.spoken]
  · simp [SseAccum.spoken, so_far]

/-- A text between two calls, with a ping in the first call and the second
    one cut off. -/
def cut_frames : List (String × Value) := [
  ("\x7b\"type\":\"content_block_start\",\"index\":0,\"content_block\":\x7b\"type\":\"tool_use\",\"name\":\"f\",\"input\":\x7b\x7d\x7d\x7d",
    call_start 0 "f"),
  ("\x7b\"type\":\"content_block_delta\",\"index\":0,\"delta\":\x7b\"type\":\"input_json_delta\",\"partial_json\":\"\x7b\"\x7d\x7d",
    call_delta 0 "\x7b"),
  ("\x7b\"type\":\"ping\"\x7d", .object [("type", .string "ping")]),
  ("\x7b\"type\":\"content_block_delta\",\"index\":0,\"delta\":\x7b\"type\":\"input_json_delta\",\"partial_json\":\"\x7d\"\x7d\x7d",
    call_delta 0 "\x7d"),
  ("\x7b\"type\":\"content_block_stop\",\"index\":0\x7d", block_stop 0),
  ("\x7b\"type\":\"content_block_start\",\"index\":1,\"content_block\":\x7b\"type\":\"text\",\"text\":\"\"\x7d\x7d",
    text_start 1),
  ("\x7b\"type\":\"content_block_delta\",\"index\":1,\"delta\":\x7b\"type\":\"text_delta\",\"text\":\"ok\"\x7d\x7d",
    text_delta 1 "ok"),
  ("\x7b\"type\":\"content_block_stop\",\"index\":1\x7d", block_stop 1),
  ("\x7b\"type\":\"content_block_start\",\"index\":2,\"content_block\":\x7b\"type\":\"tool_use\",\"name\":\"g\",\"input\":\x7b\x7d\x7d\x7d",
    call_start 2 "g"),
  ("\x7b\"type\":\"content_block_delta\",\"index\":2,\"delta\":\x7b\"type\":\"input_json_delta\",\"partial_json\":\"[\"\x7d\x7d",
    call_delta 2 "[")]

theorem cut_values :
    stream_values (parse_sample cut_frames) (spelled cut_frames) = cut_frames.map (·.2) := by
  have hlines : ((cut_frames.map (·.1)).map String.toList).all object_line = true := by
    simp only [cut_frames, List.map_cons, List.map_nil]
    repeat rw [String.toList_ofList]
    decide +kernel
  rw [spelled, stream_values_sse_text _ hlines]
  simp [parse_sample, cut_frames, List.lookup_cons]

theorem block_stream_read_cut :
    (stream_response (parse_sample cut_frames) DESCRIPTOR (spelled cut_frames)).text = "ok" ∧
      (stream_response (parse_sample cut_frames) DESCRIPTOR (spelled cut_frames)).tools
        = [⟨"f", "\x7b\x7d"⟩, ⟨"g", "["⟩] := by
  have h : Streams [⟨0, some "f", [.partial_json "\x7b", .partial_json "\x7d"]⟩,
      ⟨1, none, [.text "ok"]⟩, ⟨2, some "g", [.partial_json "["]⟩]
      ((stream_values (parse_sample cut_frames) (spelled cut_frames)).filter carries) := by
    rw [cut_values]
    show Streams _ (call_start 0 "f" :: ([call_delta 0 "\x7b", call_delta 0 "\x7d"] ++
      block_stop 0 :: (text_start 1 :: ([text_delta 1 "ok"] ++
      block_stop 1 :: (call_start 2 "g" :: ([call_delta 2 "["] ++ []))))))
    refine .closed ⟨⟨rfl, rfl, rfl⟩, rfl⟩ ?_ ⟨rfl, rfl⟩ (.closed ⟨rfl, rfl, rfl⟩ ?_ ⟨rfl, rfl⟩
      (.unclosed ⟨⟨rfl, rfl, rfl⟩, rfl⟩ ?_ .nil))
    · exact .cons ⟨rfl, rfl, rfl, rfl⟩ (.cons ⟨rfl, rfl, rfl, rfl⟩ .nil)
    · exact .cons ⟨rfl, rfl, rfl, rfl⟩ .nil
    · exact .cons ⟨rfl, rfl, rfl, rfl⟩ .nil
  exact block_stream_read (parse_sample cut_frames) h (by decide)

end Anthropic

end AgentTraceGateway
