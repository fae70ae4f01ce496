import AgentTraceGateway.Protocol.Views

/-! # Two Views of One OpenAI Answer

  The Responses protocol streams the text in deltas and reports each output
  item when it is done; the chat protocol streams fragments of both, the
  calls interleaved under their indexes. The complete bodies carry the same
  items, or the same message, at rest. -/

namespace AgentTraceGateway

/-! ### openai.responses -/

namespace Responses

/-- One output item of an answer. -/
inductive Item where
  | message (texts : List String)
  | function_call (name arguments : String)
  | custom_tool_call (name input : String)

/-- The text parts of an answer. -/
def texts (items : List Item) : List String :=
  items.flatMap fun item =>
    match item with
    | .message texts => texts
    | _ => []

/-- The calls of an answer. -/
def calls (items : List Item) : List ToolCall :=
  items.filterMap fun item =>
    match item with
    | .message _ => none
    | .function_call name arguments => some { name := name, arguments := arguments }
    | .custom_tool_call name input => some { name := name, arguments := input }

/-- An `output_text` part. -/
def TextPart (text : String) (b : Value) : Prop :=
  (b.index "type").as_str = some "output_text" ∧ (b.index "text").as_str = some text

/-- An item as the protocol spells it, when it is done and in the complete
    body. -/
def ItemOf : Item → Value → Prop
  | .message texts, v =>
    (v.index "type").as_str = some "message" ∧
      ∃ blocks, v.index "content" = .array blocks ∧ List.Forall₂ TextPart texts blocks
  | .function_call name arguments, v =>
    (v.index "type").as_str = some "function_call" ∧ (v.index "name").as_str = some name ∧
      (v.index "arguments").as_str = some arguments ∧ v.index "content" = .null
  | .custom_tool_call name input, v =>
    (v.index "type").as_str = some "custom_tool_call" ∧ (v.index "name").as_str = some name ∧
      (v.index "input").as_str = some input ∧ v.index "arguments" = .null ∧
      v.index "content" = .null

/-- The text fragments of a stream, in order. -/
def deltas (values : List Value) : List String :=
  values.filterMap fun v =>
    if (v.index "type").is_str "response.output_text.delta" then (v.index "delta").as_str else none

/-- The items a stream reports done, in order. -/
def done_items (values : List Value) : List Value :=
  (values.filter fun v => (v.index "type").is_str "response.output_item.done").map
    (·.index "item")

/-- One answer to one request, streamed and complete: the fragments make its
    texts, however they are cut, and its items are reported done in order. -/
structure Exchange (from_str : String → Option Value) where
  items : List Item
  req : Value
  body : Bytes
  resp : Value
  asked : (DESCRIPTOR.user_input req).isSome = true
  text_sent : String.join (deltas (stream_values from_str body)) = String.join (texts items)
  items_sent : List.Forall₂ ItemOf items (done_items (stream_values from_str body))
  complete : ∃ output, resp.index "output" = .array output ∧ List.Forall₂ ItemOf items output

/-! #### The streamed view -/

/-- The call a done item stands for. -/
def item_call (item : Value) : Option ToolCall :=
  let item_type := ((item.index "type").as_str).getD ""
  if item_type = "function_call" ∨ item_type = "custom_tool_call" then
    some {
      name := ((item.index "name").as_str).getD ""
      arguments := ((item.index "arguments").as_str.or (item.index "input").as_str).getD "" }
  else none

/-- One frame: its fragment goes to the text, its done item to the calls. -/
theorem feed_frame_spoken (acc : SseAccum) (v : Value) :
    (feed_value DESCRIPTOR acc v).spoken
      = { acc.spoken with
          text := acc.spoken.text ++ String.join (deltas [v])
          tools := acc.spoken.tools ++ (done_items [v]).filterMap item_call } := by
  have hpath : resolve_path v ["delta"] = v.index "delta" := resolve_name (by decide) v
  rw [feed_value_spoken, apply_sse_rule_matching]
  by_cases hdelta : (v.index "type").as_str = some "response.output_text.delta"
  · cases hfragment : (v.index "delta").as_str with
    | none => simp [DESCRIPTOR, matches_rule, deltas, done_items, Value.is_str, hdelta, hpath,
        hfragment, apply_action, SseAccum.spoken]
    | some fragment => simp [DESCRIPTOR, matches_rule, deltas, done_items, Value.is_str, hdelta,
        hpath, hfragment, apply_action, SseAccum.spoken]
  · by_cases hdone : (v.index "type").as_str = some "response.output_item.done"
    · by_cases hcall : (((v.index "item").index "type").as_str).getD "" = "function_call" ∨
          (((v.index "item").index "type").as_str).getD "" = "custom_tool_call"
      · simp [DESCRIPTOR, matches_rule, deltas, done_items, Value.is_str, hdone, apply_action,
          item_call, hcall, SseAccum.spoken]
      · simp [DESCRIPTOR, matches_rule, deltas, done_items, Value.is_str, hdone, apply_action,
          item_call, hcall, SseAccum.spoken]
    · simp [DESCRIPTOR, matches_rule, deltas, done_items, Value.is_str, hdelta, hdone,
        SseAccum.spoken]

/-- However a text is cut, its fragments make it again, and the done items
    give the calls. -/
theorem feed_stream_spoken : ∀ (values : List Value) (acc : SseAccum),
    (feed_values DESCRIPTOR acc values).spoken
      = { acc.spoken with
          text := acc.spoken.text ++ String.join (deltas values)
          tools := acc.spoken.tools ++ (done_items values).filterMap item_call } := by
  intro values
  induction values with
  | nil =>
    intro acc
    simp [feed_values, deltas, done_items]
  | cons v values ih =>
    intro acc
    have hdeltas : deltas (v :: values) = deltas [v] ++ deltas values :=
      List.filterMap_append (l := [v])
    have hdone : done_items (v :: values) = done_items [v] ++ done_items values := by
      unfold done_items
      rw [← List.map_append, ← List.filter_append, List.singleton_append]
    rw [feed_values, List.foldl_cons, ← feed_values, ih, feed_frame_spoken, hdeltas, hdone,
      String.join_append, List.filterMap_append, String.append_assoc, List.append_assoc]

/-- An item of an answer stands for its call, if it is one. -/
theorem item_calls {items : List Item} {output : List Value}
    (h : List.Forall₂ ItemOf items output) : output.filterMap item_call = calls items := by
  induction h with
  | nil => rfl
  | @cons item v items output hitem _ ih =>
    cases item with
    | message texts =>
      obtain ⟨htype, -⟩ := hitem
      have hnone : item_call v = none := by
        rw [item_call, htype]
        rfl
      rw [List.filterMap_cons_none hnone, ih]
      rfl
    | function_call name arguments =>
      obtain ⟨htype, hname, hargs, -⟩ := hitem
      have hcall : item_call v = some { name := name, arguments := arguments } := by
        rw [item_call, htype, hname, hargs]
        rfl
      rw [List.filterMap_cons_some hcall, ih]
      rfl
    | custom_tool_call name input =>
      obtain ⟨htype, hname, hinput, hargs, -⟩ := hitem
      have hcall : item_call v = some { name := name, arguments := input } := by
        rw [item_call, htype, hname, hinput, hargs]
        rfl
      rw [List.filterMap_cons_some hcall, ih]
      rfl

/-! #### The complete view -/

/-- The items at rest are read as done items are. -/
theorem nonstreaming_tools_items {resp : Value} {output : List Value}
    (h : resp.index "output" = .array output) :
    nonstreaming_tools resp = output.filterMap item_call := by
  rw [nonstreaming_tools, h]
  show (output.filter _).map _ = _
  clear h
  induction output with
  | nil => rfl
  | cons v output ih =>
    by_cases hcall : (v.index "type").as_str = some "function_call" ∨
        (v.index "type").as_str = some "custom_tool_call"
    · have hitem : item_call v = some {
          name := ((v.index "name").as_str).getD ""
          arguments := ((v.index "arguments").as_str.or (v.index "input").as_str).getD "" } := by
        rcases hcall with hcall | hcall
        · simp [item_call, hcall]
        · simp [item_call, hcall]
      rw [List.filterMap_cons_some hitem, List.filter_cons_of_pos (by simpa [Value.is_str] using hcall),
        List.map_cons, ih]
    · -- an item of any other type, or of none, is no call
      have hitem : item_call v = none := by
        unfold item_call
        apply if_neg
        intro hty
        cases htype : (v.index "type").as_str with
        | none =>
          rw [htype] at hty
          exact absurd hty (by decide)
        | some ty =>
          rw [htype] at hty hcall
          apply hcall
          rcases hty with rfl | rfl
          · exact Or.inl rfl
          · exact Or.inr rfl
      rw [List.filterMap_cons_none hitem, List.filter_cons_of_neg (by simpa [Value.is_str] using hcall),
        ih]

theorem typed_texts_of_parts {texts : List String} {blocks : List Value}
    (h : List.Forall₂ TextPart texts blocks) : typed_texts "output_text" blocks = texts := by
  induction h with
  | nil => rfl
  | @cons text b texts blocks hpart _ ih =>
    obtain ⟨htype, htext⟩ := hpart
    have hsome : (if (b.index "type").is_str "output_text" then (b.index "text").as_str else none)
        = some text := by
      rw [Value.is_str, htype, htext]
      rfl
    unfold typed_texts at ih ⊢
    simp only [List.filterMap_cons, hsome, ih]

theorem output_texts {items : List Item} {output : List Value}
    (h : List.Forall₂ ItemOf items output) :
    (output.flatMap fun item =>
      typed_texts "output_text" (((item.index "content").as_array).getD [])) = texts items := by
  induction h with
  | nil => rfl
  | @cons item v items output hitem _ ih =>
    rw [List.flatMap_cons, ih]
    cases item with
    | message parts =>
      obtain ⟨-, blocks, hcontent, hblocks⟩ := hitem
      rw [hcontent]
      show typed_texts "output_text" blocks ++ texts items = _
      rw [typed_texts_of_parts hblocks]
      rfl
    | function_call name arguments =>
      obtain ⟨-, -, -, hcontent⟩ := hitem
      rw [hcontent]
      rfl
    | custom_tool_call name input =>
      obtain ⟨-, -, -, -, hcontent⟩ := hitem
      rw [hcontent]
      rfl

/-! #### Agreement -/

variable {from_str : String → Option Value}

theorem Exchange.agree_iff (x : Exchange from_str) :
    ViewsAgree from_str DESCRIPTOR x.req x.body x.resp ↔ (texts x.items).length ≤ 1 := by
  obtain ⟨output, houtput, hitems⟩ := x.complete
  obtain ⟨htext, htools⟩ := stream_response_spoken from_str DESCRIPTOR x.body
  rw [feed_stream_spoken] at htext htools
  have hstreamed : (stream_response from_str DESCRIPTOR x.body).text
      = String.join (texts x.items) := by
    rw [htext, ← x.text_sent]
    simp [SseAccum.spoken]
  have hsent : (stream_response from_str DESCRIPTOR x.body).tools = calls x.items := by
    rw [htools, ← item_calls x.items_sent]
    simp [SseAccum.spoken, Spoken.calls, DESCRIPTOR]
  have hfinal : (DESCRIPTOR.final_output x.resp).getD "" = Text.join "\n" (texts x.items) := by
    show (responses_final_output x.resp).getD "" = _
    rw [responses_final_output, houtput]
    show (if _ then none else some (Text.join "\n" _)).getD "" = _
    rw [output_texts hitems]
    by_cases hnone : (texts x.items).isEmpty = true
    · rw [if_pos hnone, List.isEmpty_iff.mp hnone]
      rfl
    · rw [if_neg hnone]
      rfl
  have hcalls : (DESCRIPTOR.nonstreaming_tools.map fun f => f x.resp).getD [] = calls x.items :=
    (nonstreaming_tools_items houtput).trans (item_calls hitems)
  rw [views_agree_of_asked from_str x.asked, hstreamed, hsent, hfinal, hcalls,
    Text.join_eq_string_join_iff (by decide)]
  exact and_iff_left (List.forall₂_same.mpr fun call _ => ⟨rfl, Or.inl rfl⟩)

end Responses

/-! ### openai.chat_completions -/

namespace Chat

/-- The `delta` of a frame's first choice. -/
def delta (v : Value) : Value := ((v.index "choices").item 0).index "delta"

/-- The text fragments of a stream, in order. -/
def contents (values : List Value) : List String :=
  values.filterMap fun v => ((delta v).index "content").as_str

/-- The call fragments of a stream, in order. -/
def chunks (values : List Value) : List Value :=
  values.flatMap fun v => (((delta v).index "tool_calls").as_array).getD []

def chunk_name (tc : Value) : Option String := ((tc.index "function").index "name").as_str

def chunk_arguments (tc : Value) : Option String :=
  ((tc.index "function").index "arguments").as_str

/-- The fragments under one index deliver a call: one of them names it, none
    names another, and the arguments are cut anywhere. -/
structure CallSent (call : ToolCall) (fragments : List Value) : Prop where
  named : ∃ tc ∈ fragments, chunk_name tc = some call.name
  one_name : ∀ tc ∈ fragments, ∀ n, chunk_name tc = some n → n = call.name ∨ n = ""
  arguments : String.join (fragments.filterMap chunk_arguments) = call.arguments

/-- The `content` of a complete message: nothing, the whole text, or an array
    with the parts of it. -/
inductive ContentOf : List String → Value → Prop where
  | absent : ContentOf [] .null
  | plain (texts : List String) : ContentOf texts (.string (String.join texts))
  | blocks {texts : List String} {bs : List Value}
      (h : List.Forall₂ (fun t b => (b.index "text").as_str = some t) texts bs) :
      ContentOf texts (.array bs)

/-- A call of a complete message. -/
def CallOf (call : ToolCall) (c : Value) : Prop :=
  ((c.index "function").index "name").as_str = some call.name ∧
    ((c.index "function").index "arguments").as_str = some call.arguments

/-- The `tool_calls` of a complete message, missing when there are none. -/
def CallsOf (calls : List ToolCall) (v : Value) : Prop :=
  (calls = [] ∧ v = .null) ∨ ∃ items, v = .array items ∧ List.Forall₂ CallOf calls items

/-- One answer to one request, streamed and complete. In the stream the
    fragments of a call stand under its position, interleaved with those of
    the others. -/
structure Exchange (from_str : String → Option Value) where
  texts : List String
  calls : List ToolCall
  req : Value
  body : Bytes
  resp : Value
  choice : Value
  others : List Value
  asked : (DESCRIPTOR.user_input req).isSome = true
  framed : ∀ v ∈ stream_values from_str body, (v.index "choices").as_object = none
  text_sent : String.join (contents (stream_values from_str body)) = String.join texts
  indexed : ∀ tc ∈ chunks (stream_values from_str body), (frame_index tc).toNat < calls.length
  calls_sent : ∀ (k : Nat) (call : ToolCall), calls[k]? = some call →
    CallSent call ((chunks (stream_values from_str body)).filter
      fun tc => (frame_index tc).toNat = k)
  chosen : resp.index "choices" = .array (choice :: others)
  content : ContentOf texts ((choice.index "message").index "content")
  complete : CallsOf calls ((choice.index "message").index "tool_calls")

/-! #### The streamed view -/

/-- The call before any fragment of it. -/
def no_call : ToolCall := { name := "", arguments := "" }

theorem upsert_call_eq (idx : UInt64) (tc : Value) : ∀ entries : List (UInt64 × ToolCall),
    upsert_call idx tc entries = Assembly.upsert (extend_call tc) no_call idx entries := by
  intro entries
  induction entries with
  | nil => rfl
  | cons e entries ih =>
    rw [upsert_call, Assembly.upsert, ih]

/-- A choice is looked up in the list of choices. -/
theorem resolve_choice {choices : Value} (h : choices.as_object = none) (path : List String) :
    resolve_path choices ("0" :: path) = resolve_path (choices.item 0) path := by
  rw [resolve_path_cons]
  have hfirst : resolve_path choices ["0"] = choices.item 0 := by
    have hzero : parse_usize "0" = some 0 := by decide
    cases choices with
    | object entries => cases h
    | array items => simp [resolve_path, hzero, Value.item]
    | _ => rfl
  rw [hfirst]

/-- The text a frame's content path leads to. -/
def frame_text (v : Value) : Option String :=
  (resolve_path v ["choices", "0", "delta", "content"]).as_str

/-- One frame: its text goes to the text, its chunks to their calls. -/
theorem feed_frame (acc : SseAccum) (v : Value) :
    (feed_value DESCRIPTOR acc v).spoken
      = { acc.spoken with
          text := acc.spoken.text ++ (frame_text v).getD ""
          chat_tools := (chunks [v]).foldl (fun ts tc => upsert_call (frame_index tc) tc ts)
            acc.spoken.chat_tools } := by
  have hchunks : ((((v.index "choices").item 0).index "delta").index "tool_calls").as_array
      = ((delta v).index "tool_calls").as_array := rfl
  rw [feed_value_spoken, apply_sse_rule_matching]
  -- with or without a text, with or without calls
  cases htext : (resolve_path v ["choices", "0", "delta", "content"]).as_str with
  | none =>
    cases hcalls : ((delta v).index "tool_calls").as_array with
    | none => simp [DESCRIPTOR, matches_rule, apply_action, hchunks, frame_text, chunks,
        htext, hcalls, SseAccum.spoken]
    | some calls => simp [DESCRIPTOR, matches_rule, apply_action, hchunks, frame_text, chunks,
        htext, hcalls, SseAccum.spoken]
  | some fragment =>
    cases hcalls : ((delta v).index "tool_calls").as_array with
    | none => simp [DESCRIPTOR, matches_rule, apply_action, hchunks, frame_text, chunks,
        htext, hcalls, SseAccum.spoken]
    | some calls => simp [DESCRIPTOR, matches_rule, apply_action, hchunks, frame_text, chunks,
        htext, hcalls, SseAccum.spoken]

/-- Where the choices are a list, the text is the content of the first
    choice's delta. -/
theorem feed_frame_spoken {v : Value} (hframed : (v.index "choices").as_object = none)
    (acc : SseAccum) :
    (feed_value DESCRIPTOR acc v).spoken
      = { acc.spoken with
          text := acc.spoken.text ++ String.join (contents [v])
          chat_tools := (chunks [v]).foldl (fun ts tc => upsert_call (frame_index tc) tc ts)
            acc.spoken.chat_tools } := by
  have htext : frame_text v = ((delta v).index "content").as_str := by
    rw [frame_text, resolve_path_cons, resolve_name (by decide), resolve_choice hframed,
      resolve_path_cons, resolve_name (by decide), resolve_name (by decide)]
    rfl
  have hcontents : (frame_text v).getD "" = String.join (contents [v]) := by
    rw [htext]
    cases hcontent : ((delta v).index "content").as_str <;> simp [contents, hcontent]
  rw [feed_frame, hcontents]

theorem chunks_cons (v : Value) (values : List Value) :
    chunks (v :: values) = chunks [v] ++ chunks values := @List.flatMap_append _ _ [v] values _

/-- All frames: the fragments make the text, and the chunks are assembled
    under their indexes. -/
theorem feed_stream_spoken : ∀ {values : List Value},
    (∀ v ∈ values, (v.index "choices").as_object = none) → ∀ acc : SseAccum,
    (feed_values DESCRIPTOR acc values).spoken
      = { acc.spoken with
          text := acc.spoken.text ++ String.join (contents values)
          chat_tools := (chunks values).foldl (fun ts tc => upsert_call (frame_index tc) tc ts)
            acc.spoken.chat_tools } := by
  intro values
  induction values with
  | nil =>
    intro _ acc
    simp [feed_values, contents, chunks]
  | cons v values ih =>
    intro hframed acc
    have hcontents : contents (v :: values) = contents [v] ++ contents values :=
      List.filterMap_append (l := [v])
    rw [feed_values, List.foldl_cons, ← feed_values,
      ih (fun w hw => hframed w (List.mem_cons_of_mem v hw)),
      feed_frame_spoken (hframed v List.mem_cons_self), hcontents, chunks_cons v values, String.join_append,
      List.foldl_append, String.append_assoc]

/-! The fragments of one call. -/

theorem extend_call_arguments : ∀ (fragments : List Value) (call : ToolCall),
    (fragments.foldl (fun call tc => extend_call tc call) call).arguments
      = call.arguments ++ String.join (fragments.filterMap chunk_arguments) := by
  intro fragments
  induction fragments with
  | nil => intro call; simp
  | cons tc fragments ih =>
    intro call
    rw [List.foldl_cons, ih]
    show (call.arguments ++ (chunk_arguments tc).getD "") ++ _ = _
    cases hargs : chunk_arguments tc with
    | none => simp [hargs]
    | some s => simp [hargs, String.append_assoc]

theorem extend_call_unnamed {tc : Value} (h : chunk_name tc = none) (call : ToolCall) :
    (extend_call tc call).name = call.name := by
  simp only [chunk_name] at h
  simp only [extend_call, h]

theorem extend_call_named {tc : Value} {n : String} (h : chunk_name tc = some n)
    (call : ToolCall) :
    (extend_call tc call).name = if call.name = "" then n else call.name := by
  simp only [chunk_name] at h
  simp only [extend_call, h, String.isEmpty_iff]

/-- The first name that is not empty stays. -/
theorem extend_call_name {name : String} : ∀ {fragments : List Value} (call : ToolCall),
    (∀ tc ∈ fragments, ∀ n, chunk_name tc = some n → n = name ∨ n = "") →
    (call.name = name ∨
      (call.name = "" ∧ ∃ tc ∈ fragments, chunk_name tc = some name)) →
    (fragments.foldl (fun call tc => extend_call tc call) call).name = name := by
  intro fragments
  induction fragments with
  | nil =>
    intro call _ h
    rcases h with h | ⟨-, tc, hmem, -⟩
    · exact h
    · cases hmem
  | cons tc fragments ih =>
    intro call hone h
    rw [List.foldl_cons]
    apply ih _ (fun w hw => hone w (List.mem_cons_of_mem tc hw))
    cases hsaid : chunk_name tc with
    | none =>
      -- A fragment without a name leaves the call's as it is.
      rw [extend_call_unnamed hsaid]
      rcases h with h | ⟨hempty, w, hmem, hw⟩
      · exact Or.inl h
      · rcases List.mem_cons.mp hmem with rfl | hmem
        · rw [hsaid] at hw
          cases hw
        · exact Or.inr ⟨hempty, w, hmem, hw⟩
    | some n =>
      rw [extend_call_named hsaid]
      by_cases hcall : call.name = ""
      · -- An unnamed call takes the fragment's name, which may itself be empty.
        rw [if_pos hcall]
        rcases hone tc List.mem_cons_self n hsaid with hn | hn
        · exact Or.inl hn
        · rcases h with h | ⟨-, w, hmem, hw⟩
          · exact Or.inl (hn.trans (hcall.symm.trans h))
          · rcases List.mem_cons.mp hmem with rfl | hmem
            · rw [hsaid] at hw
              exact Or.inl (Option.some.inj hw)
            · exact Or.inr ⟨hn, w, hmem, hw⟩
      · rw [if_neg hcall]
        exact Or.inl (h.resolve_right fun hempty => hcall hempty.1)

theorem CallSent.assembled {call : ToolCall} {fragments : List Value}
    (h : CallSent call fragments) :
    fragments.foldl (fun call tc => extend_call tc call) no_call = call := by
  have hname := extend_call_name no_call h.one_name (Or.inr ⟨rfl, h.named⟩)
  have hargs := extend_call_arguments fragments no_call
  rw [h.arguments] at hargs
  calc fragments.foldl (fun call tc => extend_call tc call) no_call
      = ⟨_, _⟩ := rfl
    _ = call := by
      rw [hname, hargs]
      simp [no_call]

/-- Fragments that deliver calls, each under an index of its own, in any
    interleaving. -/
structure Interleaved (calls : List (UInt64 × ToolCall)) (fragments : List Value) : Prop where
  distinct : (calls.map Prod.fst).Nodup
  indexed : ∀ tc ∈ fragments, frame_index tc ∈ calls.map Prod.fst
  sent : ∀ c ∈ calls, CallSent c.2 (fragments.filter fun tc => frame_index tc = c.1)

/-- Assembled and sorted, the fragments are the calls by index. -/
theorem Interleaved.assembled {calls : List (UInt64 × ToolCall)} {fragments : List Value}
    (h : Interleaved calls fragments) :
    (fragments.foldl (fun ts tc => upsert_call (frame_index tc) tc ts) []).insertionSort
        (fun a b => a.1 ≤ b.1)
      = calls.insertionSort fun a b => a.1 ≤ b.1 := by
  obtain ⟨sorted, hsorted⟩ : ∃ sorted, calls.insertionSort (fun a b => a.1 ≤ b.1) = sorted :=
    ⟨_, rfl⟩
  have hperm : sorted.Perm calls := hsorted ▸ List.perm_insertionSort _ calls
  have htotal : Std.Total (fun a b : UInt64 × ToolCall => a.1 ≤ b.1) :=
    ⟨fun a b => Std.Total.total a.1 b.1⟩
  have htrans : IsTrans (UInt64 × ToolCall) (fun a b => a.1 ≤ b.1) :=
    ⟨fun a b c => Std.IsPreorder.le_trans a.1 b.1 c.1⟩
  have hpairwise : sorted.Pairwise (fun a b => a.1 ≤ b.1) :=
    hsorted ▸ List.pairwise_insertionSort _ calls
  have hkeys := hperm.map Prod.fst
  have hassemble : fragments.foldl (fun ts tc => upsert_call (frame_index tc) tc ts) []
      = Assembly.assemble extend_call no_call frame_index fragments := by
    unfold Assembly.assemble
    simp only [upsert_call_eq]
  have hseen : ∀ k, k ∈ sorted.map Prod.fst ↔ k ∈ fragments.map frame_index := by
    intro k
    rw [hkeys.mem_iff]
    constructor
    · intro hk
      obtain ⟨c, hc, rfl⟩ := List.mem_map.mp hk
      -- a call has a fragment that names it
      obtain ⟨tc, hmem, -⟩ := (h.sent c hc).named
      obtain ⟨hmem, hindex⟩ := List.mem_filter.mp hmem
      exact of_decide_eq_true hindex ▸ List.mem_map_of_mem hmem
    · intro hk
      obtain ⟨tc, hmem, rfl⟩ := List.mem_map.mp hk
      exact h.indexed tc hmem
  rw [hassemble, hsorted, Assembly.sorted_assemble (List.pairwise_map.mpr hpairwise)
    (hkeys.nodup_iff.mpr h.distinct) hseen, List.map_map]
  calc sorted.map _
      = sorted.map id := by
        apply List.map_congr_left
        intro c hc
        exact Prod.ext rfl (h.sent c (hperm.mem_iff.mp hc)).assembled
    _ = sorted := List.map_id sorted

/-- Interleaved as they come, the fragments of all calls end up as the calls
    in their order. -/
theorem chunks_assembled {calls : List ToolCall} {fragments : List Value}
    (hindexed : ∀ tc ∈ fragments, (frame_index tc).toNat < calls.length)
    (hsent : ∀ (k : Nat) (call : ToolCall), calls[k]? = some call →
      CallSent call (fragments.filter fun tc => (frame_index tc).toNat = k)) :
    ((fragments.foldl (fun ts tc => upsert_call (frame_index tc) tc ts) []).insertionSort
      fun a b => a.1 ≤ b.1).map (·.2) = calls := by
  -- Every position is the index of some fragment, so it fits 64 bits.
  have hbound : ∀ k < calls.length, (UInt64.ofNat k).toNat = k := by
    intro k hk
    obtain ⟨tc, hmem, -⟩ := (hsent k _ (List.getElem?_eq_getElem hk)).named
    have hindex : (frame_index tc).toNat = k := of_decide_eq_true (List.mem_filter.mp hmem).2
    rw [← hindex, UInt64.ofNat_toNat]
  have hfst : (calls.mapIdx fun k call => (UInt64.ofNat k, call)).map Prod.fst
      = (List.range calls.length).map UInt64.ofNat := by
    apply List.ext_getElem <;> simp
  have hsnd : (calls.mapIdx fun k call => (UInt64.ofNat k, call)).map Prod.snd = calls := by
    apply List.ext_getElem <;> simp
  have hsorted : ((List.range calls.length).map UInt64.ofNat).Pairwise (· ≤ ·) := by
    apply List.pairwise_map.mpr
    apply List.Pairwise.imp_of_mem _ List.pairwise_lt_range
    intro a b ha hb hlt
    rw [UInt64.le_iff_toNat_le, hbound a (List.mem_range.mp ha), hbound b (List.mem_range.mp hb)]
    exact Nat.le_of_lt hlt
  have hinterleaved : Interleaved (calls.mapIdx fun k call => (UInt64.ofNat k, call)) fragments := by
    refine ⟨?_, ?_, ?_⟩
    · rw [hfst]
      apply List.Nodup.map_on _ List.nodup_range
      intro a ha b hb hab
      rw [← hbound a (List.mem_range.mp ha), hab, hbound b (List.mem_range.mp hb)]
    · intro tc hmem
      rw [hfst]
      exact List.mem_map.mpr
        ⟨(frame_index tc).toNat, List.mem_range.mpr (hindexed tc hmem), UInt64.ofNat_toNat⟩
    · intro c hc
      obtain ⟨k, hk, rfl⟩ := List.mem_mapIdx.mp hc
      have hown : (fragments.filter fun tc => frame_index tc = UInt64.ofNat k)
          = fragments.filter fun tc => (frame_index tc).toNat = k := by
        apply List.filter_congr
        intro tc _
        apply decide_eq_decide.mpr
        rw [← UInt64.toNat_inj, hbound k hk]
      show CallSent calls[k] (fragments.filter fun tc => frame_index tc = UInt64.ofNat k)
      rw [hown]
      exact hsent k _ (List.getElem?_eq_getElem hk)
  have hkept := List.pairwise_map.mp (hfst.symm ▸ hsorted)
  rw [hinterleaved.assembled, hkept.insertionSort_eq]
  exact hsnd

/-! #### The complete view -/

/-- Two lookups with `get` read as two lookups with `[]`. -/
theorem get_get_bind {α : Type} {read : Value → Option α} (hnull : read .null = none) (v : Value)
    (k₁ k₂ : String) :
    ((v.get k₁).bind (·.get k₂)).bind read = read ((v.index k₁).index k₂) := by
  unfold Value.index
  cases v.get k₁ with
  | none => exact hnull.symm
  | some w =>
    show (w.get k₂).bind read = read ((w.get k₂).getD .null)
    cases w.get k₂ with
    | none => exact hnull.symm
    | some u => rfl

theorem nonstreaming_tools_of_calls {calls : List ToolCall} {resp choice : Value}
    {others : List Value} (hchosen : resp.index "choices" = .array (choice :: others))
    (hcalls : CallsOf calls ((choice.index "message").index "tool_calls")) :
    nonstreaming_tools resp = calls := by
  -- `get` and `index` agree where the field is there.
  have hget : resp.get "choices" = some (.array (choice :: others)) := by
    cases hresp : resp.get "choices" with
    | none =>
      rw [Value.index, hresp] at hchosen
      cases hchosen
    | some v =>
      rw [Value.index, hresp] at hchosen
      rw [← hchosen]
      rfl
  have hmessage : ((((resp.get "choices").map (·.item 0)).bind (·.get "message")).bind
      (·.get "tool_calls")).bind (·.as_array)
      = ((choice.index "message").index "tool_calls").as_array := by
    rw [hget]
    exact get_get_bind rfl choice "message" "tool_calls"
  unfold nonstreaming_tools
  dsimp only
  rw [hmessage]
  rcases hcalls with ⟨rfl, hnone⟩ | ⟨items, hitems, hall⟩
  · rw [hnone]
    rfl
  · rw [hitems]
    show items.map _ = calls
    clear hitems
    induction hall with
    | nil => rfl
    | @cons call c calls items hcall _ ih =>
      obtain ⟨hname, hargs⟩ := hcall
      rw [List.map_cons, ih, get_get_bind rfl, get_get_bind rfl, hname, hargs]
      rfl

theorem final_output_of_content {resp choice : Value} {others : List Value}
    (hchosen : resp.index "choices" = .array (choice :: others)) :
    (DESCRIPTOR.final_output resp).getD ""
      = (content_text ((choice.index "message").index "content")).getD "" := by
  show (content_text (resolve_path resp ["choices", "0", "message", "content"])).getD "" = _
  rw [resolve_path_cons, resolve_name (by decide), hchosen, resolve_choice rfl,
    resolve_path_cons, resolve_name (by decide), resolve_name (by decide)]
  rfl

/-! #### Agreement -/

/-- A text given whole, or in one part at most, reads as it was streamed. -/
theorem content_agrees_iff {texts : List String} {content : Value} (h : ContentOf texts content) :
    String.join texts = (content_text content).getD "" ↔
      content.as_array = none ∨ texts.length ≤ 1 := by
  cases h with
  | absent => exact iff_of_true rfl (Or.inl rfl)
  | plain =>
    apply iff_of_true _ (Or.inl rfl)
    show _ = (if (String.join texts).isEmpty then none else some (String.join texts)).getD ""
    by_cases hempty : (String.join texts).isEmpty = true
    · rw [if_pos hempty, String.isEmpty_iff.mp hempty]
      rfl
    · rw [if_neg hempty]
      rfl
  | @blocks _ bs hblocks =>
    have htexts : block_texts bs = texts := by
      induction hblocks with
      | nil => rfl
      | cons htext _ ih =>
        rw [block_texts_cons, htext, ih]
        rfl
    rw [content_text_blocks, htexts, Text.join_eq_string_join_iff (by decide)]
    constructor
    · exact Or.inr
    · rintro (harray | hone)
      · cases harray
      · exact hone

variable {from_str : String → Option Value}

theorem Exchange.agree_iff (x : Exchange from_str) :
    ViewsAgree from_str DESCRIPTOR x.req x.body x.resp ↔
      ((x.choice.index "message").index "content").as_array = none ∨ x.texts.length ≤ 1 := by
  obtain ⟨htext, htools⟩ := stream_response_spoken from_str DESCRIPTOR x.body
  rw [feed_stream_spoken x.framed] at htext htools
  have hstreamed : (stream_response from_str DESCRIPTOR x.body).text = String.join x.texts := by
    rw [htext, ← x.text_sent]
    simp [SseAccum.spoken]
  have hsent : (stream_response from_str DESCRIPTOR x.body).tools = x.calls := by
    rw [htools]
    exact chunks_assembled x.indexed x.calls_sent
  have hcalls : (DESCRIPTOR.nonstreaming_tools.map fun f => f x.resp).getD [] = x.calls :=
    nonstreaming_tools_of_calls x.chosen x.complete
  rw [views_agree_of_asked from_str x.asked, hstreamed, hsent, hcalls,
    final_output_of_content x.chosen, ← content_agrees_iff x.content]
  exact and_iff_left (List.forall₂_same.mpr fun call _ => ⟨rfl, Or.inl rfl⟩)

end Chat

end AgentTraceGateway
