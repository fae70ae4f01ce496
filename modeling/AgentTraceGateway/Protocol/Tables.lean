import AgentTraceGateway.Protocol.Descriptor

/-! # The Registered Protocols

  The four descriptor tables with the extractors they name, and path
  detection over them. -/

namespace AgentTraceGateway

/-! ### Shared mount points -/

def HDR_SESSION_ID : String := "session-id"
def HDR_SESSION_ID_ALT : String := "session_id"
def HDR_CC_SESSION : String := "x-claude-code-session-id"
def HDR_GROK_CONV : String := "x-grok-conv-id"
def HDR_SESSION : String := "x-session-id"
def HDR_SESSION_AFFINITY : String := "x-session-affinity"
def HDR_OPENCODE_SESSION : String := "x-opencode-session"
def HDR_CONVERSATION_ID : String := "x-conversation-id"

/-- The borrowed `prompt_cache_key` affinity, namespaced. -/
def pck_namespace (v : String) : Option String := some ("pck:" ++ v)

/-! ### anthropic.messages -/

namespace Anthropic

/-- `tool_use` blocks of a response at rest; a non-string input is printed. -/
def nonstreaming_tools (resp : Value) : List ToolCall :=
  match (resp.index "content").as_array with
  | none => []
  | some blocks =>
    (blocks.filter fun b => (b.index "type").is_str "tool_use").map fun b =>
      { name := ((b.index "name").as_str).getD ""
        arguments :=
          match b.index "input" with
          | .string s => s
          | v => v.to_string }

def DESCRIPTOR : ProtocolDescriptor where
  name := "anthropic.messages"
  path_prefixes := ["/v1/messages"]
  loose_endpoints := ["messages"]
  input_shape := .messages
  body_sources := [{ path := ["session_id"] }, { path := ["metadata", "session_id"] }]
  header_sources := [HDR_CC_SESSION, HDR_SESSION_ID, HDR_SESSION_ID_ALT]
  user_sources := ["metadata", "user_id"]
  sse_rules := [
    { on := "content_block_delta", delta_type := some "text_delta",
      action := .text ["delta", "text"] },
    { on := "content_block_start", action := .tool_open },
    { on := "content_block_delta", delta_type := some "input_json_delta",
      action := .tool_arg },
    { on := "content_block_stop", action := .tool_close }]
  tool_calls := .delta_assembly
  usage_frames := [
    { on_event := some "message_start", obj_path := ["message", "usage"] },
    { on_event := some "message_delta", obj_path := ["usage"] }]
  usage_shape := {
    input := [["input_tokens"]]
    output := [["output_tokens"]]
    cache_read := [["cache_read_input_tokens"]]
    cache_write := [["cache_creation_input_tokens"]] }
  usage_inclusion := .exclusive
  final_output_path := ["content"]
  stitch_eligible := true
  nonstreaming_tools := some nonstreaming_tools

end Anthropic

/-! ### openai.responses -/

namespace Responses

/-- Whether an input item is a user message (bare items count as messages). -/
def is_user_item (i : Value) : Bool :=
  (match (i.index "type").as_str with
    | none => true
    | some t => t == "message") && (i.index "role").is_str "user"

/-- The texts of the blocks of one type. -/
def typed_texts (ty : String) (blocks : List Value) : List String :=
  blocks.filterMap fun b =>
    if (b.index "type").is_str ty then (b.index "text").as_str else none

def responses_user_input (input : Value) : Option String :=
  match input.as_str with
  | some s => if s.isEmpty then none else some s
  | none =>
    input.as_array.bind fun items =>
      (items.reverse.find? is_user_item).bind fun user_item =>
        match (user_item.index "content").as_str with
        | some s => if s.isEmpty then none else some s
        | none =>
          (user_item.index "content").as_array.bind fun blocks =>
            let out := typed_texts "input_text" blocks
            if out.isEmpty then none else some (Text.join "\n" out)

def responses_final_output (resp : Value) : Option String :=
  (resp.index "output").as_array.bind fun items =>
    let out := items.flatMap fun item =>
      typed_texts "output_text" (((item.index "content").as_array).getD [])
    if out.isEmpty then none else some (Text.join "\n" out)

/-- Complete tool items: `arguments`, falling back to `input`. -/
def nonstreaming_tools (resp : Value) : List ToolCall :=
  match (resp.index "output").as_array with
  | none => []
  | some items =>
    (items.filter fun i =>
      (i.index "type").is_str "function_call"
        || (i.index "type").is_str "custom_tool_call").map fun i =>
      { name := ((i.index "name").as_str).getD ""
        arguments := ((i.index "arguments").as_str.or (i.index "input").as_str).getD "" }

def DESCRIPTOR : ProtocolDescriptor where
  name := "openai.responses"
  path_prefixes := ["/v1/responses", "/compatible-mode/v1/responses"]
  loose_endpoints := ["responses"]
  input_shape := .responses
  user_input_fn := some responses_user_input
  final_output_fn := some responses_final_output
  body_sources := [
    { path := ["session_id"] },
    { path := ["conversation"], two_form := true },
    { path := ["metadata", "session_id"] },
    { path := ["client_metadata", "session_id"] },
    { path := ["prompt_cache_key"], transform := some pck_namespace }]
  header_sources := [HDR_SESSION_ID, HDR_SESSION_ID_ALT, HDR_CC_SESSION, HDR_GROK_CONV]
  user_sources := ["safety_identifier", "user"]
  sse_rules := [
    { on := "response.output_text.delta", action := .text ["delta"] },
    { on := "response.output_item.done", action := .tool_done }]
  tool_calls := .done_items
  usage_frames := [
    { on_event := some "response.completed", obj_path := ["response", "usage"] }]
  usage_shape := {
    input := [["input_tokens"]]
    output := [["output_tokens"]]
    cache_read := [["input_tokens_details", "cached_tokens"]]
    cache_write := [["input_tokens_details", "cache_write_tokens"]] }
  usage_inclusion := .inclusive
  final_output_path := ["output"]
  stitch_eligible := true
  nonstreaming_tools := some nonstreaming_tools

end Responses

/-! ### openai.chat_completions -/

namespace Chat

/-- `message.tool_calls` of the first choice, with complete arguments. -/
def nonstreaming_tools (resp : Value) : List ToolCall :=
  let calls := ((((resp.get "choices").map (·.item 0)).bind (·.get "message")).bind
    (·.get "tool_calls")).bind (·.as_array)
  match calls with
  | none => []
  | some calls =>
    calls.map fun c =>
      let function := c.get "function"
      { name := ((function.bind (·.get "name")).bind (·.as_str)).getD ""
        arguments := ((function.bind (·.get "arguments")).bind (·.as_str)).getD "" }

def DESCRIPTOR : ProtocolDescriptor where
  name := "openai.chat_completions"
  path_prefixes := ["/v1/chat", "/compatible-mode/v1/chat"]
  loose_endpoints := ["chat/completions"]
  input_shape := .messages
  body_sources := [
    { path := ["session_id"] },
    { path := ["metadata", "session_id"] },
    { path := ["prompt_cache_key"], transform := some pck_namespace }]
  header_sources := [HDR_SESSION_ID, HDR_SESSION_ID_ALT, HDR_CC_SESSION]
  user_sources := ["safety_identifier", "user"]
  sse_rules := [
    { on := "*", action := .text ["choices", "0", "delta", "content"] },
    { on := "*", action := .tool_chunk }]
  tool_calls := .chunked_tool_calls
  usage_frames := [{ on_event := none, obj_path := ["usage"] }]
  usage_shape := {
    input := [["prompt_tokens"]]
    output := [["completion_tokens"]]
    cache_read := [["prompt_tokens_details", "cached_tokens"]]
    cache_write := [["prompt_tokens_details", "cache_write_tokens"]] }
  usage_inclusion := .inclusive
  final_output_path := ["choices", "0", "message", "content"]
  stitch_eligible := false
  nonstreaming_tools := some nonstreaming_tools

end Chat

/-! ### openai.live -/

namespace Live

def DESCRIPTOR : ProtocolDescriptor where
  name := "openai.live"
  path_prefixes := []
  loose_endpoints := []
  input_shape := .responses
  body_sources := [
    { path := ["metadata", "session_id"] },
    { path := ["client_metadata", "session_id"] }]
  header_sources := [HDR_SESSION_ID, HDR_SESSION_ID_ALT, HDR_GROK_CONV]
  user_sources := ["safety_identifier", "user"]
  sse_rules := [
    { on := "response.audio_transcript.delta", action := .text ["delta"] },
    { on := "response.output_item.done", action := .tool_done }]
  tool_calls := .done_items
  usage_frames := [
    { on_event := some "response.done", obj_path := ["response", "usage"] }]
  usage_shape := {
    input := [["input_tokens"]]
    output := [["output_tokens"]]
    cache_read := [["input_token_details", "cached_tokens"]]
    cache_write := [["input_token_details", "cache_write_tokens"]] }
  usage_inclusion := .inclusive
  final_output_path := ["output"]
  stitch_eligible := false
  turn_markers := some { start := "response.create", stop := "response.done" }

end Live

/-! ### Detection -/

/-- The registered tables, in order. -/
def DESCRIPTORS : List ProtocolDescriptor :=
  [Anthropic.DESCRIPTOR, Responses.DESCRIPTOR, Chat.DESCRIPTOR, Live.DESCRIPTOR]

/-- Sub-resources that may follow a loose endpoint. -/
def LOOSE_SUBRESOURCES : List String := ["count_tokens"]

/-- Which descriptor matched a path, and whether only loosely. -/
structure PathMatch where
  descriptor : ProtocolDescriptor
  loose : Bool

/-- `Iterator::max_by_key`: the last of the largest. -/
def max_by_key {α : Type} (f : α → Nat) (xs : List α) : Option α :=
  xs.foldl (fun best x =>
    match best with
    | none => some x
    | some b => if f b ≤ f x then some x else some b) none

/-- The length of a table's longest prefix. -/
def longest_prefix (d : ProtocolDescriptor) : Nat :=
  ((d.path_prefixes.map Text.len).max?).getD 0

/-- Exact detection: the tables with a prefix of the path, longest first. -/
def detect (path : String) : Option ProtocolDescriptor :=
  max_by_key longest_prefix
    (DESCRIPTORS.filter fun d => d.path_prefixes.any fun p => Text.starts_with path p)

def detect_by_name (name : String) : Option ProtocolDescriptor :=
  DESCRIPTORS.find? fun d => d.name == name

/-- The non-empty `/`-separated segments of a path. -/
def segments (path : String) : List String :=
  ((path.toList.splitOn '/').filter fun s => !s.isEmpty).map String.ofList

/-- An endpoint occurs as a window of the segments, at the end of the path
    or before a whitelisted sub-resource. -/
def loose_hit (segs ep : List String) : Bool :=
  !ep.isEmpty && (List.range (segs.length + 1 - ep.length)).any fun start =>
    (segs.drop start).take ep.length == ep &&
      match segs.drop (start + ep.length) with
      | [] => true
      | t :: _ => LOOSE_SUBRESOURCES.contains t

/-- Exact prefix first, then a loose endpoint match in table order. -/
def detect_path (path : String) : Option PathMatch :=
  match detect path with
  | some d => some { descriptor := d, loose := false }
  | none =>
    (DESCRIPTORS.find? fun d =>
      d.loose_endpoints.any fun ep => loose_hit (segments path) (segments ep)).map
        fun d => { descriptor := d, loose := true }

/-- Every table is found under its own name. -/
theorem detect_by_name_self {d : ProtocolDescriptor} (h : d ∈ DESCRIPTORS) :
    detect_by_name d.name = some d := by
  simp only [DESCRIPTORS, List.mem_cons, List.not_mem_nil, or_false] at h
  rcases h with rfl | rfl | rfl | rfl <;> rfl

theorem max_by_key_mem {α : Type} (f : α → Nat) (xs : List α) {x : α}
    (h : max_by_key f xs = some x) : x ∈ xs := by
  have key : ∀ (ys : List α) (best : Option α),
      ys.foldl (fun best x =>
        match best with
        | none => some x
        | some b => if f b ≤ f x then some x else some b) best = some x →
      best = some x ∨ x ∈ ys := by
    intro ys
    induction ys with
    | nil => intro best hb; exact Or.inl hb
    | cons y ys ih =>
      intro best hb
      rw [List.foldl_cons] at hb
      rcases ih _ hb with hbest | hmem
      · cases best with
        | none =>
          simp only [Option.some.injEq] at hbest
          exact Or.inr (hbest ▸ List.mem_cons_self)
        | some b =>
          simp only at hbest
          split_ifs at hbest with hle
          · simp only [Option.some.injEq] at hbest
            exact Or.inr (hbest ▸ List.mem_cons_self)
          · exact Or.inl hbest
      · exact Or.inr (List.mem_cons_of_mem _ hmem)
  rcases key xs none h with hnone | hmem
  · cases hnone
  · exact hmem

/-- Whatever a path is detected as is one of the registered tables. -/
theorem detect_path_mem {path : String} {m : PathMatch} (h : detect_path path = some m) :
    m.descriptor ∈ DESCRIPTORS := by
  unfold detect_path at h
  cases hd : detect path with
  | some d =>
    rw [hd] at h
    simp only [Option.some.injEq] at h
    subst h
    exact List.mem_of_mem_filter (max_by_key_mem _ _ hd)
  | none =>
    rw [hd] at h
    obtain ⟨d, hfind, rfl⟩ := Option.map_eq_some_iff.mp h
    exact List.mem_of_find?_eq_some hfind

end AgentTraceGateway
