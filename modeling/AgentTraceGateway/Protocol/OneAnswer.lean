import AgentTraceGateway.Protocol.OpenaiViews
import AgentTraceGateway.SseEncoding

/-! # Streamed and Complete Answers Compared

  The main result over the three protocols, and answers on which the two
  views differ: one in two text parts, and one with a call whose arguments
  are empty. The sample streams are spelled frame by frame. -/

namespace AgentTraceGateway

/-! ### Streams spelled frame by frame -/

/-- An event stream with one data line a frame. -/
def sse_text (frames : List (List Char)) : List Char :=
  frames.flatMap fun frame => "data: ".toList ++ frame ++ ['\n', '\n']

/-- A JSON object on one line: ASCII, and no line end. -/
def object_line (frame : List Char) : Bool :=
  frame.head? == some '\x7b' && frame.all fun c => c.toNat < 0x80 && c != '\n' && c != '\r'

theorem object_line_iff (frame : List Char) :
    object_line frame = true ↔ frame.head? = some '\x7b' ∧
      ∀ c ∈ frame, c.toNat < 0x80 ∧ c ≠ '\n' ∧ c ≠ '\r' := by
  simp [object_line, and_assoc]

/-- The splitter finds the frames a stream is spelled from. -/
theorem collect_frames_sse_text {frames : List (List Char)}
    (h : ∀ f ∈ frames, object_line f = true) : collect_frames (sse_text frames) = frames := by
  obtain ⟨lines, hlines, htext⟩ : ∃ lines, StreamLines frames lines ∧
      Written lines (sse_text frames) := by
    induction frames with
    | nil => exact ⟨[], .trailing .done, .done⟩
    | cons frame frames ih =>
      obtain ⟨-, hchars⟩ := (object_line_iff frame).mp (h frame List.mem_cons_self)
      obtain ⟨lines, hlines, htext⟩ := ih fun f hf => h f (List.mem_cons_of_mem _ hf)
      have hsplit : frame.splitOn '\n' = [frame] :=
        List.splitOn_eq_singleton fun hmem => (hchars _ hmem).2.1 rfl
      have hframe : FrameLines (frame.splitOn '\n') ["data: ".toList ++ frame] := by
        rw [hsplit]
        exact .data .spaced .done
      have hcut : sse_text (frame :: frames)
          = ("data: ".toList ++ frame) ++ '\n' :: ([] ++ '\n' :: sse_text frames) := by
        simp [sse_text]
      refine ⟨_, .frame hframe hlines, ?_⟩
      rw [hcut]
      exact .lf (.lf htext)
  refine collect_frames_written ?_ hlines htext
  intro frame hframe hmem
  exact (((object_line_iff frame).mp (h frame hframe)).2 _ hmem).2.2 rfl

/-- An object is no furniture of the stream. -/
theorem frame_value_object (from_str : String → Option Value) {frame : List Char}
    (h : frame.head? = some '\x7b') :
    frame_value from_str frame = from_str (String.ofList frame) := by
  obtain ⟨rest, rfl⟩ := List.head?_eq_some_iff.mp h
  have hfront : ('\x7b' :: rest).dropWhile Text.is_whitespace = '\x7b' :: rest :=
    List.dropWhile_cons_of_neg (by decide)
  have htrim : Text.trim_chars ('\x7b' :: rest) = ('\x7b' :: rest).rdropWhile Text.is_whitespace := by
    rw [Text.trim_chars, hfront]
    rfl
  have hempty : (Text.trim_chars ('\x7b' :: rest)).isEmpty = false := by
    apply Bool.eq_false_iff.mpr
    intro hnil
    rw [htrim, List.isEmpty_iff, List.rdropWhile_eq_nil_iff] at hnil
    exact absurd (hnil _ List.mem_cons_self) (by decide)
  have hdone : (Text.trim_chars ('\x7b' :: rest) == "[DONE]".toList) = false := by
    apply beq_eq_false_iff_ne.mpr
    intro hsame
    have hpre := List.rdropWhile_prefix Text.is_whitespace (l := '\x7b' :: rest)
    rw [← htrim, hsame] at hpre
    exact absurd (List.cons_prefix_cons.mp hpre).1 (by decide)
  rw [frame_value, hempty, hdone]
  rfl

/-- What a spelled stream says is what its frames parse as. -/
theorem stream_values_sse_text (from_str : String → Option Value) {texts : List String}
    (h : (texts.map String.toList).all object_line = true) :
    stream_values from_str (ascii_bytes (sse_text (texts.map String.toList)))
      = texts.filterMap from_str := by
  have hlines := List.all_eq_true.mp h
  have hlead : ("data: ".toList.all fun c => c.toNat < 0x80) = true := by decide
  have hend : (['\n', '\n'].all fun c => c.toNat < 0x80) = true := by decide
  have hascii : ∀ c ∈ sse_text (texts.map String.toList), c.toNat < 0x80 := by
    intro c hc
    obtain ⟨f, hf, hmem⟩ := List.mem_flatMap.mp hc
    rcases List.mem_append.mp hmem with hmem | hmem
    · rcases List.mem_append.mp hmem with hmem | hmem
      · exact of_decide_eq_true (List.all_eq_true.mp hlead c hmem)
      · exact (((object_line_iff f).mp (hlines f hf)).2 c hmem).1
    · exact of_decide_eq_true (List.all_eq_true.mp hend c hmem)
  rw [stream_values, sse_data_frames_eq, utf8_lossy_ascii hascii, collect_frames_sse_text hlines,
    frame_values, List.filterMap_map]
  apply List.filterMap_congr
  intro text htext
  have hobject := ((object_line_iff _).mp (hlines text.toList (List.mem_map_of_mem htext))).1
  exact (frame_value_object from_str hobject).trans (congrArg from_str String.ofList_toList)

/-! ### Sample answers -/

/-- A parser that knows the texts of one sample. -/
def parse_sample (table : List (String × Value)) (text : String) : Option Value :=
  table.lookup text

theorem parse_sample_quoted {table : List (String × Value)} (h : ∀ e ∈ table, e.2.as_str = none)
    (s : String) : parse_sample table s ≠ some (.string s) := by
  intro hread
  induction table with
  | nil => cases hread
  | cons e table ih =>
    rw [parse_sample, List.lookup_cons] at hread
    split at hread
    · have hstr := h e List.mem_cons_self
      rw [Option.some.inj hread] at hstr
      cases hstr
    · exact ih (fun d hd => h d (List.mem_cons_of_mem e hd)) hread

/-- The stream a sample's frames are spelled as. -/
def spelled (frames : List (String × Value)) : Bytes :=
  ascii_bytes (sse_text ((frames.map (·.1)).map String.toList))

/-- A request with one user message. -/
def greeting : Value :=
  .object [("messages", .array [.object [("content", .string "hi"), ("role", .string "user")]])]

namespace Anthropic

/-- `content_block_start` of a text block. -/
def text_start (i : UInt64) : Value :=
  .object [("content_block", .object [("text", .string ""), ("type", .string "text")]),
    ("index", .number (.pos_int i)), ("type", .string "content_block_start")]

def text_delta (i : UInt64) (fragment : String) : Value :=
  .object [("delta", .object [("text", .string fragment), ("type", .string "text_delta")]),
    ("index", .number (.pos_int i)), ("type", .string "content_block_delta")]

/-- `content_block_start` of a call. -/
def call_start (i : UInt64) (name : String) : Value :=
  .object [("content_block", .object [("input", .object []), ("name", .string name),
      ("type", .string "tool_use")]),
    ("index", .number (.pos_int i)), ("type", .string "content_block_start")]

def call_delta (i : UInt64) (fragment : String) : Value :=
  .object [("delta", .object [("partial_json", .string fragment),
      ("type", .string "input_json_delta")]),
    ("index", .number (.pos_int i)), ("type", .string "content_block_delta")]

def block_stop (i : UInt64) : Value :=
  .object [("index", .number (.pos_int i)), ("type", .string "content_block_stop")]

/-- The frames of a stream with two text parts. -/
def two_texts_frames : List (String × Value) := [
  ("\x7b\"type\":\"content_block_start\",\"index\":0,\"content_block\":\x7b\"type\":\"text\",\"text\":\"\"\x7d\x7d",
    text_start 0),
  ("\x7b\"type\":\"content_block_delta\",\"index\":0,\"delta\":\x7b\"type\":\"text_delta\",\"text\":\"a\"\x7d\x7d",
    text_delta 0 "a"),
  ("\x7b\"type\":\"content_block_stop\",\"index\":0\x7d", block_stop 0),
  ("\x7b\"type\":\"content_block_start\",\"index\":1,\"content_block\":\x7b\"type\":\"text\",\"text\":\"\"\x7d\x7d",
    text_start 1),
  ("\x7b\"type\":\"content_block_delta\",\"index\":1,\"delta\":\x7b\"type\":\"text_delta\",\"text\":\"b\"\x7d\x7d",
    text_delta 1 "b"),
  ("\x7b\"type\":\"content_block_stop\",\"index\":1\x7d", block_stop 1)]

theorem two_texts_values :
    stream_values (parse_sample two_texts_frames) (spelled two_texts_frames)
      = two_texts_frames.map (·.2) := by
  have hlines : ((two_texts_frames.map (·.1)).map String.toList).all object_line = true := by
    simp only [two_texts_frames, List.map_cons, List.map_nil]
    repeat rw [String.toList_ofList]
    decide +kernel
  rw [spelled, stream_values_sse_text _ hlines]
  simp [parse_sample, two_texts_frames, List.lookup_cons]

/-- An answer in two text parts. -/
def two_texts : Exchange (parse_sample two_texts_frames) where
  parts := [.text ["a"], .text ["b"]]
  req := greeting
  body := spelled two_texts_frames
  resp := .object [("content", .array [
    .object [("text", .string "a"), ("type", .string "text")],
    .object [("text", .string "b"), ("type", .string "text")]])]
  asked := by decide
  sent := by
    rw [two_texts_values]
    show Sends _ (text_start 0 :: ([text_delta 0 "a"] ++ block_stop 0 ::
      (text_start 1 :: ([text_delta 1 "b"] ++ block_stop 1 :: []))))
    exact .text ⟨rfl, rfl, rfl⟩ (.cons ⟨rfl, rfl, rfl, rfl⟩ .nil) ⟨rfl, rfl⟩
      (.text ⟨rfl, rfl, rfl⟩ (.cons ⟨rfl, rfl, rfl, rfl⟩ .nil) ⟨rfl, rfl⟩ .done)
  inputs := by
    intro name input fragments hmem
    simp at hmem
  complete := ⟨_, rfl, .cons ⟨rfl, rfl⟩ (.cons ⟨rfl, rfl⟩ .nil)⟩

/-- The frames of a stream with one call, whose empty input is sent as no
    text. -/
def empty_call_frames : List (String × Value) := [
  ("\x7b\"type\":\"content_block_start\",\"index\":0,\"content_block\":\x7b\"type\":\"tool_use\",\"name\":\"now\",\"input\":\x7b\x7d\x7d\x7d",
    call_start 0 "now"),
  ("\x7b\"type\":\"content_block_delta\",\"index\":0,\"delta\":\x7b\"type\":\"input_json_delta\",\"partial_json\":\"\"\x7d\x7d",
    call_delta 0 ""),
  ("\x7b\"type\":\"content_block_stop\",\"index\":0\x7d", block_stop 0)]

/-- The texts that sample parses: its frames, and empty braces. -/
def empty_call_texts : List (String × Value) :=
  empty_call_frames ++ [("\x7b\x7d", .object [])]

theorem empty_call_values :
    stream_values (parse_sample empty_call_texts) (spelled empty_call_frames)
      = empty_call_frames.map (·.2) := by
  have hlines : ((empty_call_frames.map (·.1)).map String.toList).all object_line = true := by
    simp only [empty_call_frames, List.map_cons, List.map_nil]
    repeat rw [String.toList_ofList]
    decide +kernel
  rw [spelled, stream_values_sse_text _ hlines]
  simp [parse_sample, empty_call_texts, empty_call_frames, List.lookup_cons]

/-- An answer that is one call without arguments. -/
def empty_call : Exchange (parse_sample empty_call_texts) where
  parts := [.tool_use "now" (.object []) [""]]
  req := greeting
  body := spelled empty_call_frames
  resp := .object [("content", .array [
    .object [("input", .object []), ("name", .string "now"), ("type", .string "tool_use")]])]
  asked := by decide
  sent := by
    rw [empty_call_values]
    show Sends _ (call_start 0 "now" :: ([call_delta 0 ""] ++ block_stop 0 :: []))
    exact .tool_use ⟨rfl, rfl, rfl⟩ rfl (.cons ⟨rfl, rfl, rfl, rfl⟩ .nil) ⟨rfl, rfl⟩ .done
  inputs := by
    intro name input fragments hmem
    cases List.mem_singleton.mp hmem
    exact Or.inr ⟨by decide, rfl⟩
  complete := ⟨_, rfl, .cons ⟨rfl, rfl, rfl, rfl⟩ .nil⟩

end Anthropic

namespace Anthropic

/-- The input of the sample call. -/
def one_input : Value := .object [("a", .number (.pos_int 1))]

/-- The frames of a stream with one text part and one call. -/
def kept_frames : List (String × Value) := [
  ("\x7b\"type\":\"content_block_start\",\"index\":0,\"content_block\":\x7b\"type\":\"text\",\"text\":\"\"\x7d\x7d",
    text_start 0),
  ("\x7b\"type\":\"content_block_delta\",\"index\":0,\"delta\":\x7b\"type\":\"text_delta\",\"text\":\"ok\"\x7d\x7d",
    text_delta 0 "ok"),
  ("\x7b\"type\":\"content_block_stop\",\"index\":0\x7d", block_stop 0),
  ("\x7b\"type\":\"content_block_start\",\"index\":1,\"content_block\":\x7b\"type\":\"tool_use\",\"name\":\"f\",\"input\":\x7b\x7d\x7d\x7d",
    call_start 1 "f"),
  ("\x7b\"type\":\"content_block_delta\",\"index\":1,\"delta\":\x7b\"type\":\"input_json_delta\",\"partial_json\":\"\x7b\\\"a\\\"\"\x7d\x7d",
    call_delta 1 "\x7b\"a\""),
  ("\x7b\"type\":\"content_block_delta\",\"index\":1,\"delta\":\x7b\"type\":\"input_json_delta\",\"partial_json\":\":1\x7d\"\x7d\x7d",
    call_delta 1 ":1\x7d"),
  ("\x7b\"type\":\"content_block_stop\",\"index\":1\x7d", block_stop 1)]

def kept_texts : List (String × Value) := kept_frames ++ [("\x7b\"a\":1\x7d", one_input)]

theorem kept_values :
    stream_values (parse_sample kept_texts) (spelled kept_frames) = kept_frames.map (·.2) := by
  have hlines : ((kept_frames.map (·.1)).map String.toList).all object_line = true := by
    simp only [kept_frames, List.map_cons, List.map_nil]
    repeat rw [String.toList_ofList]
    decide +kernel
  rw [spelled, stream_values_sse_text _ hlines]
  simp [parse_sample, kept_texts, kept_frames, List.lookup_cons]

theorem parse_one_input : parse_sample kept_texts "\x7b\"a\":1\x7d" = some one_input := by
  simp [parse_sample, kept_texts, kept_frames, List.lookup_cons]

/-- One text part, and one call whose arguments are cut in two. -/
def kept : Exchange (parse_sample kept_texts) where
  parts := [.text ["ok"], .tool_use "f" one_input ["\x7b\"a\"", ":1\x7d"]]
  req := greeting
  body := spelled kept_frames
  resp := .object [("content", .array [
    .object [("text", .string "ok"), ("type", .string "text")],
    .object [("input", one_input), ("name", .string "f"), ("type", .string "tool_use")]])]
  asked := by decide
  sent := by
    rw [kept_values]
    show Sends _ (text_start 0 :: ([text_delta 0 "ok"] ++ block_stop 0 ::
      (call_start 1 "f" :: ([call_delta 1 "\x7b\"a\"", call_delta 1 ":1\x7d"] ++ block_stop 1 :: []))))
    exact .text ⟨rfl, rfl, rfl⟩ (.cons ⟨rfl, rfl, rfl, rfl⟩ .nil) ⟨rfl, rfl⟩
      (.tool_use ⟨rfl, rfl, rfl⟩ rfl
        (.cons ⟨rfl, rfl, rfl, rfl⟩ (.cons ⟨rfl, rfl, rfl, rfl⟩ .nil)) ⟨rfl, rfl⟩ .done)
  inputs := by
    intro name input fragments hmem
    rcases List.mem_cons.mp hmem with hmem | hmem
    · cases hmem
    · cases List.mem_singleton.mp hmem
      exact Or.inl parse_one_input
  complete := ⟨_, rfl, .cons ⟨rfl, rfl⟩ (.cons ⟨rfl, rfl, rfl, rfl⟩ .nil)⟩

end Anthropic

namespace Responses

/-- A done message with one text part. -/
def message_item (text : String) : Value :=
  .object [("content", .array [.object [("text", .string text), ("type", .string "output_text")]]),
    ("type", .string "message")]

def call_item (name arguments : String) : Value :=
  .object [("arguments", .string arguments), ("name", .string name),
    ("type", .string "function_call")]

def done_frame (item : Value) : Value :=
  .object [("item", item), ("type", .string "response.output_item.done")]

def delta_frame (fragment : String) : Value :=
  .object [("delta", .string fragment), ("type", .string "response.output_text.delta")]

/-- The frames of a stream with a message, cut in two, and a call. -/
def kept_frames : List (String × Value) := [
  ("\x7b\"type\":\"response.output_text.delta\",\"delta\":\"o\"\x7d", delta_frame "o"),
  ("\x7b\"type\":\"response.output_text.delta\",\"delta\":\"k\"\x7d", delta_frame "k"),
  ("\x7b\"type\":\"response.output_item.done\",\"item\":\x7b\"type\":\"message\",\"content\":[\x7b\"type\":\"output_text\",\"text\":\"ok\"\x7d]\x7d\x7d",
    done_frame (message_item "ok")),
  ("\x7b\"type\":\"response.output_item.done\",\"item\":\x7b\"type\":\"function_call\",\"name\":\"f\",\"arguments\":\"\x7b\x7d\"\x7d\x7d",
    done_frame (call_item "f" "\x7b\x7d"))]

theorem kept_values :
    stream_values (parse_sample kept_frames) (spelled kept_frames)
      = kept_frames.map (·.2) := by
  have hlines : ((kept_frames.map (·.1)).map String.toList).all object_line = true := by
    simp only [kept_frames, List.map_cons, List.map_nil]
    repeat rw [String.toList_ofList]
    decide +kernel
  rw [spelled, stream_values_sse_text _ hlines]
  simp [parse_sample, kept_frames, List.lookup_cons]

def kept : Exchange (parse_sample kept_frames) where
  items := [.message ["ok"], .function_call "f" "\x7b\x7d"]
  req := .object [("input", .string "hi")]
  body := spelled kept_frames
  resp := .object [("output", .array [message_item "ok", call_item "f" "\x7b\x7d"])]
  asked := by decide
  text_sent := by
    rw [kept_values]
    decide
  items_sent := by
    rw [kept_values]
    exact .cons ⟨rfl, _, rfl, .cons ⟨rfl, rfl⟩ .nil⟩ (.cons ⟨rfl, rfl, rfl, rfl⟩ .nil)
  complete := ⟨_, rfl, .cons ⟨rfl, _, rfl, .cons ⟨rfl, rfl⟩ .nil⟩ (.cons ⟨rfl, rfl, rfl, rfl⟩ .nil)⟩

end Responses

namespace Chat

/-- A frame whose first choice has this delta. -/
def choice_frame (delta : Value) : Value :=
  .object [("choices", .array [.object [("delta", delta)]])]

def content_delta (fragment : String) : Value := .object [("content", .string fragment)]

/-- A fragment of the call at an index. -/
def call_fragment (i : UInt64) (function : List (String × Value)) : Value :=
  .object [("function", .object function), ("index", .number (.pos_int i))]

def call_delta (fragment : Value) : Value := .object [("tool_calls", .array [fragment])]

/-- The sample call in two fragments; the first one names it. -/
def first_fragment : Value :=
  call_fragment 0 [("arguments", .string "\x7b"), ("name", .string "f")]

def second_fragment : Value := call_fragment 0 [("arguments", .string "\x7d")]

/-- The frames of a stream with a text and a call. -/
def kept_frames : List (String × Value) := [
  ("\x7b\"choices\":[\x7b\"delta\":\x7b\"content\":\"ok\"\x7d\x7d]\x7d",
    choice_frame (content_delta "ok")),
  ("\x7b\"choices\":[\x7b\"delta\":\x7b\"tool_calls\":[\x7b\"index\":0,\"function\":\x7b\"name\":\"f\",\"arguments\":\"\x7b\"\x7d\x7d]\x7d\x7d]\x7d",
    choice_frame (call_delta first_fragment)),
  ("\x7b\"choices\":[\x7b\"delta\":\x7b\"tool_calls\":[\x7b\"index\":0,\"function\":\x7b\"arguments\":\"\x7d\"\x7d\x7d]\x7d\x7d]\x7d",
    choice_frame (call_delta second_fragment))]

theorem kept_values :
    stream_values (parse_sample kept_frames) (spelled kept_frames)
      = kept_frames.map (·.2) := by
  have hlines : ((kept_frames.map (·.1)).map String.toList).all object_line = true := by
    simp only [kept_frames, List.map_cons, List.map_nil]
    repeat rw [String.toList_ofList]
    decide +kernel
  rw [spelled, stream_values_sse_text _ hlines]
  simp [parse_sample, kept_frames, List.lookup_cons]

/-- The same answer at rest. -/
def kept_choice : Value :=
  .object [("message", .object [("content", .string "ok"),
    ("tool_calls", .array [.object [("function", .object [
      ("arguments", .string "\x7b\x7d"), ("name", .string "f")])]])])]

def kept : Exchange (parse_sample kept_frames) where
  texts := ["ok"]
  calls := [{ name := "f", arguments := "\x7b\x7d" }]
  req := greeting
  body := spelled kept_frames
  resp := .object [("choices", .array [kept_choice])]
  choice := kept_choice
  others := []
  asked := by decide
  framed := by
    rw [kept_values]
    intro v hv
    simp only [kept_frames, List.map_cons, List.map_nil, List.mem_cons, List.not_mem_nil,
      or_false] at hv
    rcases hv with rfl | rfl | rfl <;> rfl
  text_sent := by
    rw [kept_values]
    decide
  indexed := by
    rw [kept_values]
    intro tc htc
    have htc : tc ∈ [first_fragment, second_fragment] := htc
    simp only [List.mem_cons, List.not_mem_nil, or_false] at htc
    rcases htc with rfl | rfl
    · decide
    · decide
  calls_sent := by
    rw [kept_values]
    intro k call hcall
    match k, hcall with
    | 0, hcall =>
      cases hcall
      show CallSent _ [first_fragment, second_fragment]
      refine ⟨⟨first_fragment, List.mem_cons_self, rfl⟩, ?_, by decide⟩
      intro tc htc n hname
      simp only [List.mem_cons, List.not_mem_nil, or_false] at htc
      rcases htc with rfl | rfl
      · exact Or.inl (Option.some.inj hname).symm
      · cases hname
  chosen := rfl
  content := .plain ["ok"]
  complete := Or.inr ⟨_, rfl, .cons ⟨rfl, rfl⟩ .nil⟩

end Chat

/-! ### The two views -/

/-- For each protocol the two views of an answer agree exactly when the text
    is not in several parts, and for anthropic.messages when also the
    arguments of every call are kept. -/
theorem views_agree_iff (from_str : String → Option Value) (hempty : from_str "" = none)
    (hquoted : ∀ s, from_str s ≠ some (.string s)) :
    (∀ x : Anthropic.Exchange from_str,
      ViewsAgree from_str Anthropic.DESCRIPTOR x.req x.body x.resp ↔
        (Anthropic.texts x.parts).length ≤ 1 ∧
          ∀ name input fragments, .tool_use name input fragments ∈ x.parts →
            Anthropic.InputKept from_str input fragments) ∧
    (∀ x : Responses.Exchange from_str,
      ViewsAgree from_str Responses.DESCRIPTOR x.req x.body x.resp ↔
        (Responses.texts x.items).length ≤ 1) ∧
    (∀ x : Chat.Exchange from_str,
      ViewsAgree from_str Chat.DESCRIPTOR x.req x.body x.resp ↔
        ((x.choice.index "message").index "content").as_array = none ∨ x.texts.length ≤ 1) :=
  ⟨fun x => x.agree_iff hempty hquoted, fun x => x.agree_iff, fun x => x.agree_iff⟩

/-- One answer of each protocol, text and call, read the same in both
    views. -/
theorem views_agree_iff_kept :
    ViewsAgree (parse_sample Anthropic.kept_texts) Anthropic.DESCRIPTOR
        Anthropic.kept.req Anthropic.kept.body Anthropic.kept.resp ∧
      ViewsAgree (parse_sample Responses.kept_frames) Responses.DESCRIPTOR
        Responses.kept.req Responses.kept.body Responses.kept.resp ∧
      ViewsAgree (parse_sample Chat.kept_frames) Chat.DESCRIPTOR
        Chat.kept.req Chat.kept.body Chat.kept.resp := by
  refine ⟨?_, ?_, ?_⟩
  · apply ((views_agree_iff _ (by decide) (parse_sample_quoted (by decide))).1
      Anthropic.kept).mpr
    refine ⟨by decide, ?_⟩
    intro name input fragments hmem
    rcases List.mem_cons.mp hmem with hmem | hmem
    · cases hmem
    · cases List.mem_singleton.mp hmem
      exact ⟨by decide, rfl, Anthropic.parse_one_input⟩
  · apply ((views_agree_iff _ (by decide) (parse_sample_quoted (by decide))).2.1
      Responses.kept).mpr
    decide
  · apply ((views_agree_iff _ (by decide) (parse_sample_quoted (by decide))).2.2
      Chat.kept).mpr
    exact Or.inl rfl

/-- Two answers whose views differ: the text parts `a` and `b` are `ab` in one
    view and two lines in the other, and a call without arguments has no
    arguments in one and braces in the other. -/
theorem views_of_one_answer_differ :
    (¬ ViewsAgree (parse_sample Anthropic.two_texts_frames) Anthropic.DESCRIPTOR
      Anthropic.two_texts.req Anthropic.two_texts.body Anthropic.two_texts.resp) ∧
    ¬ ViewsAgree (parse_sample Anthropic.empty_call_texts) Anthropic.DESCRIPTOR
      Anthropic.empty_call.req Anthropic.empty_call.body Anthropic.empty_call.resp := by
  constructor
  · rw [Anthropic.two_texts.agree_iff (by decide) (parse_sample_quoted (by decide))]
    rintro ⟨hone, -⟩
    exact absurd hone (by decide)
  · rw [Anthropic.empty_call.agree_iff (by decide) (parse_sample_quoted (by decide))]
    rintro ⟨-, hkept⟩
    exact (hkept "now" (.object []) [""] List.mem_cons_self).1 (by decide)

end AgentTraceGateway
