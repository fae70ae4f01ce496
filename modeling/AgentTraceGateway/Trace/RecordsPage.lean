import AgentTraceGateway.JsonRead
import AgentTraceGateway.Lib.Pages
import AgentTraceGateway.Trace.Store

/-! # The Records Endpoint

  `/__atg/records` answers with a window of the store as JSON. A record is
  serialized field by field, and most fields are left out when they are
  empty; whoever reads the answer puts the empty values back. Nothing is
  lost on the way: the answer is read as the records of the window. -/

namespace AgentTraceGateway

open JsonText

namespace RecordsPage

/-! ### Serialization -/

/-- `skip_serializing_if = "String::is_empty"`. -/
def text_slot (s : String) : Option Tree := if s.isEmpty then none else some (str s)

/-- `skip_serializing_if = "Vec::is_empty"`. -/
def list_slot {α : Type} (write : α → Tree) (l : List α) : Option Tree :=
  if l.isEmpty then none else some (.array (l.map write))

/-- `skip_serializing_if = "std::ops::Not::not"`. -/
def flag_slot (b : Bool) : Option Tree := if !b then none else some (.bool b)

def u64_json (n : UInt64) : Tree := nat n.toNat

/-- An option that is not skipped is `null` where it is missing. -/
def option_json : Option UInt64 → Tree
  | some n => u64_json n
  | none => .null

def pair_json (e : String × String) : Tree := .array [str e.1, str e.2]

def tool_call_json (c : ToolCall) : Tree :=
  fields [("name", str c.name), ("arguments", str c.arguments)]

def usage_json (u : TurnUsage) : Tree :=
  fields [("input_tokens", option_json u.input_tokens),
    ("output_tokens", option_json u.output_tokens),
    ("cache_read_tokens", option_json u.cache_read_tokens),
    ("cache_creation_tokens", option_json u.cache_creation_tokens),
    ("total_tokens", option_json u.total_tokens)]

/-- The fields of a record in the order of their declaration. -/
def slots (r : TurnRecord) : List (String × Option Tree) := [
  ("protocol", some (str r.protocol)),
  ("session_id", some (str r.session_id)),
  ("user_input", some (str r.user_input)),
  ("final_output", some (str r.final_output)),
  ("raw_request", text_slot r.raw_request),
  ("raw_response", text_slot r.raw_response),
  ("tool_calls", list_slot tool_call_json r.tool_calls),
  ("breakpoint", flag_slot r.breakpoint),
  ("start_ns", some (u64_json r.start_ns)),
  ("end_ns", some (u64_json r.end_ns)),
  ("usage", r.usage.map usage_json),
  ("model_name", text_slot r.model_name),
  ("user_id", text_slot r.user_id),
  ("error", r.error.map str),
  ("harness", text_slot r.harness),
  ("dialect", text_slot r.dialect),
  ("client_ua", text_slot r.client_ua),
  ("hdr_evidence", list_slot pair_json r.hdr_evidence),
  ("session_source", text_slot r.session_source),
  ("cancelled", flag_slot r.cancelled),
  ("drain_timed_out", flag_slot r.drain_timed_out),
  ("api_key_fp", text_slot r.api_key_fp),
  ("harness_candidates", list_slot str r.harness_candidates),
  ("harness_anomaly", flag_slot r.harness_anomaly),
  ("harness_enrich", list_slot pair_json r.harness_enrich),
  ("session_synthetic", flag_slot r.session_synthetic),
  ("completion_start_ns", r.completion_start_ns.map u64_json),
  ("trace_tag", text_slot r.trace_tag)]

def record_json (r : TurnRecord) : Tree := fields (present (slots r))

/-- `serde_json::to_vec` of some records. -/
def records_text (records : List TurnRecord) : Bytes :=
  utf8_bytes (json_text (.array (records.map record_json)))

/-! ### The endpoint -/

/-- At most `limit` of the newest records, behind the `offset` newest; all of
    them when the limit is zero. -/
def snapshot_bounded (store : TraceStore) (limit offset : Nat) : List TurnRecord :=
  let total := store.deque.length
  let stop := total - offset
  let start := stop - if limit = 0 then total else limit
  (store.deque.drop start).take (stop - start)

/-- One pair of the query. A value that is no number counts as zero. -/
def apply_pair (window : Nat × Nat) (pair : List Char) : Nat × Nat :=
  let (k, v) := (Text.split_once ['='] pair).getD (pair, [])
  let number := (Text.parse_uint (2 ^ 64) (String.ofList v)).getD 0
  if k = "limit".toList then (number, window.2)
  else if k = "offset".toList then (window.1, number)
  else window

/-- The limit and the offset of a request. -/
def parse_window (query : Option String) : Nat × Nat :=
  query.elim (0, 0) fun q => (q.toList.splitOn '&').foldl apply_pair (0, 0)

/-- The body of an answer. -/
def records_body (store : TraceStore) (query : Option String) : Bytes :=
  let (limit, offset) := parse_window query
  records_text (snapshot_bounded store limit offset)

/-! ### Reading an answer -/

def read_text : Option Tree → Option String
  | some t => t.as_str
  | none => some ""

def read_list {α : Type} (read : Tree → Option α) : Option Tree → Option (List α)
  | some t => t.as_list read
  | none => some []

def read_flag : Option Tree → Option Bool
  | some t => t.as_bool
  | none => some false

def read_u64 (t : Tree) : Option UInt64 := (t.as_nat.filter (· < 2 ^ 64)).map UInt64.ofNat

def read_option : Tree → Option (Option UInt64)
  | .null => some none
  | t => (read_u64 t).map some

def read_pair (t : Tree) : Option (String × String) :=
  match t with
  | .array [k, v] => do some (← k.as_str, ← v.as_str)
  | _ => none

def read_tool_call (t : Tree) : Option ToolCall := do
  some ⟨← (t.get "name").bind Tree.as_str, ← (t.get "arguments").bind Tree.as_str⟩

def read_usage (t : Tree) : Option TurnUsage := do
  some {
    input_tokens := ← (t.get "input_tokens").bind read_option
    output_tokens := ← (t.get "output_tokens").bind read_option
    cache_read_tokens := ← (t.get "cache_read_tokens").bind read_option
    cache_creation_tokens := ← (t.get "cache_creation_tokens").bind read_option
    total_tokens := ← (t.get "total_tokens").bind read_option }

def read_record (t : Tree) : Option TurnRecord := do
  some {
    protocol := ← (t.get "protocol").bind Tree.as_str
    session_id := ← (t.get "session_id").bind Tree.as_str
    user_input := ← (t.get "user_input").bind Tree.as_str
    final_output := ← (t.get "final_output").bind Tree.as_str
    raw_request := ← read_text (t.get "raw_request")
    raw_response := ← read_text (t.get "raw_response")
    tool_calls := ← read_list read_tool_call (t.get "tool_calls")
    breakpoint := ← read_flag (t.get "breakpoint")
    start_ns := ← (t.get "start_ns").bind read_u64
    end_ns := ← (t.get "end_ns").bind read_u64
    usage := ← Tree.optional read_usage (t.get "usage")
    model_name := ← read_text (t.get "model_name")
    user_id := ← read_text (t.get "user_id")
    error := ← Tree.optional Tree.as_str (t.get "error")
    harness := ← read_text (t.get "harness")
    dialect := ← read_text (t.get "dialect")
    client_ua := ← read_text (t.get "client_ua")
    hdr_evidence := ← read_list read_pair (t.get "hdr_evidence")
    session_source := ← read_text (t.get "session_source")
    cancelled := ← read_flag (t.get "cancelled")
    drain_timed_out := ← read_flag (t.get "drain_timed_out")
    api_key_fp := ← read_text (t.get "api_key_fp")
    harness_candidates := ← read_list Tree.as_str (t.get "harness_candidates")
    harness_anomaly := ← read_flag (t.get "harness_anomaly")
    harness_enrich := ← read_list read_pair (t.get "harness_enrich")
    session_synthetic := ← read_flag (t.get "session_synthetic")
    completion_start_ns := ← Tree.optional read_u64 (t.get "completion_start_ns")
    trace_tag := ← read_text (t.get "trace_tag") }

/-- The records of an answer. -/
def read_records (body : Bytes) : Option (List TurnRecord) :=
  (read_json body).bind fun t => t.as_list read_record

/-! ### What is written is read -/

@[simp] theorem read_text_slot (s : String) : read_text (text_slot s) = some s := by
  unfold text_slot
  split_ifs with h
  · rw [String.isEmpty_iff.mp h]
    rfl
  · exact as_str_str s

@[simp] theorem read_flag_slot (b : Bool) : read_flag (flag_slot b) = some b := by
  cases b <;> rfl

theorem read_list_slot {α : Type} {write : α → Tree} {read : Tree → Option α}
    (h : ∀ a, read (write a) = some a) (l : List α) :
    read_list read (list_slot write l) = some l := by
  cases l with
  | nil => rfl
  | cons a l => exact as_list_array fun b _ => h b

@[simp] theorem read_u64_json (n : UInt64) : read_u64 (u64_json n) = some n := by
  rw [read_u64, u64_json, as_nat_nat, Option.filter_some_pos (by simpa using n.toNat_lt),
    Option.map_some, UInt64.ofNat_toNat]

@[simp] theorem read_option_json (o : Option UInt64) : read_option (option_json o) = some o := by
  cases o with
  | none => rfl
  | some n =>
    show (read_u64 (u64_json n)).map some = some (some n)
    rw [read_u64_json]
    rfl

theorem read_pair_json (e : String × String) : read_pair (pair_json e) = some e := by
  simp [read_pair, pair_json]

theorem read_tool_call_json (c : ToolCall) : read_tool_call (tool_call_json c) = some c := by
  simp [read_tool_call, tool_call_json, List.lookup_cons]

theorem read_usage_json (u : TurnUsage) : read_usage (usage_json u) = some u := by
  simp [read_usage, usage_json, List.lookup_cons]

/-- No two fields of a record have one name. -/
theorem slot_keys_nodup (r : TurnRecord) : ((slots r).map (·.1)).Nodup := by
  have hkeys : (slots r).map (·.1) = (slots {}).map (·.1) := rfl
  rw [hkeys]
  decide

theorem record_get (r : TurnRecord) {i : Nat} {key : String} {o : Option Tree}
    (h : (slots r)[i]? = some (key, o)) : (record_json r).get key = o :=
  get_present (slot_keys_nodup r) h

theorem read_record_json (r : TurnRecord) : read_record (record_json r) = some r := by
  unfold read_record
  rw [record_get r (i := 0) rfl, record_get r (i := 1) rfl, record_get r (i := 2) rfl,
    record_get r (i := 3) rfl, record_get r (i := 4) rfl, record_get r (i := 5) rfl,
    record_get r (i := 6) rfl, record_get r (i := 7) rfl, record_get r (i := 8) rfl,
    record_get r (i := 9) rfl, record_get r (i := 10) rfl, record_get r (i := 11) rfl,
    record_get r (i := 12) rfl, record_get r (i := 13) rfl, record_get r (i := 14) rfl,
    record_get r (i := 15) rfl, record_get r (i := 16) rfl, record_get r (i := 17) rfl,
    record_get r (i := 18) rfl, record_get r (i := 19) rfl, record_get r (i := 20) rfl,
    record_get r (i := 21) rfl, record_get r (i := 22) rfl, record_get r (i := 23) rfl,
    record_get r (i := 24) rfl, record_get r (i := 25) rfl, record_get r (i := 26) rfl,
    record_get r (i := 27) rfl]
  simp only [read_text_slot, read_flag_slot, read_list_slot read_tool_call_json,
    read_list_slot read_pair_json, read_list_slot as_str_str, optional_map read_usage_json,
    optional_map as_str_str, optional_map read_u64_json, Option.bind_eq_bind, Option.bind_some,
    as_str_str, read_u64_json]

theorem option_json_valid (o : Option UInt64) : (option_json o).Valid := by
  cases o with
  | none => exact null_valid
  | some n => exact nat_valid _

theorem usage_json_valid (u : TurnUsage) : (usage_json u).Valid := by
  simp [usage_json, option_json_valid]

@[simp] theorem text_slot_valid (s : String) : SlotValid (text_slot s) := by
  unfold text_slot
  split_ifs <;> simp

@[simp] theorem flag_slot_valid (b : Bool) : SlotValid (flag_slot b) := by
  cases b <;> simp [flag_slot]

theorem list_slot_valid {α : Type} {write : α → Tree} (h : ∀ a, (write a).Valid) (l : List α) :
    SlotValid (list_slot write l) := by
  unfold list_slot
  split_ifs <;> simp [h]

@[simp] theorem u64_json_valid (n : UInt64) : (u64_json n).Valid := nat_valid n.toNat

theorem record_json_valid (r : TurnRecord) : (record_json r).Valid := by
  have hcall : ∀ c : ToolCall, (tool_call_json c).Valid := fun c => by simp [tool_call_json]
  have hpair : ∀ e : String × String, (pair_json e).Valid := fun e => by simp [pair_json]
  refine present_valid ?_
  simp [slots, list_slot_valid hcall, list_slot_valid hpair, list_slot_valid str_valid,
    slot_valid_map usage_json_valid, slot_valid_map str_valid, slot_valid_map u64_json_valid]

/-- An answer is read as the records it was made from. -/
theorem read_records_text (records : List TurnRecord) :
    read_records (records_text records) = some records := by
  have hvalid : (Tree.array (records.map record_json)).Valid := by
    simp [record_json_valid]
  rw [read_records, records_text, read_json_text hvalid, Option.bind_some,
    as_list_array fun r _ => read_record_json r]

/-! ### The window -/

/-- A window is a page of the newest end. -/
theorem snapshot_bounded_page (store : TraceStore) (limit offset : Nat) :
    snapshot_bounded store limit offset = Pages.page limit offset store.deque := by
  rw [Pages.page_eq, snapshot_bounded, Pages.width]
  congr 1
  omega

/-- **The answer is the window**: whatever texts the records hold, the answer
    to a request is read as the records of its window, field by field. -/
theorem records_answered (store : TraceStore) (query : Option String) :
    read_records (records_body store query)
      = some (snapshot_bounded store (parse_window query).1 (parse_window query).2) := by
  rw [records_body, read_records_text]

/-- The query for a page. -/
def page_query (limit offset : Nat) : String :=
  "limit=" ++ toString limit ++ "&offset=" ++ toString offset

/-- A number as the query's parser takes it: one beyond a word is none, and
    counts as zero. -/
def word_or_zero (n : Nat) : Nat := if n < 2 ^ 64 then n else 0

theorem word_or_zero_of_lt {n : Nat} (h : n < 2 ^ 64) : word_or_zero n = n := if_pos h

/-- A pair with a number for its value. -/
theorem apply_number_pair {key : String} {n : Nat} (hkey : '=' ∉ key.toList)
    (window : Nat × Nat) :
    apply_pair window (key.toList ++ '=' :: (toString n).toList)
      = if key = "limit" then (word_or_zero n, window.2)
        else if key = "offset" then (window.1, word_or_zero n) else window := by
  have hvalue : (if n < 2 ^ 64 then some n else none).getD 0 = word_or_zero n := by
    unfold word_or_zero
    split <;> rfl
  have hpair : Text.split_once ['='] (key.toList ++ '=' :: (toString n).toList)
      = some (key.toList, (toString n).toList) :=
    Text.split_once_first [] hkey (toString n).toList
  rw [apply_pair, hpair, Option.getD_some]
  dsimp only
  rw [String.ofList_toList, Text.parse_uint_toString, hvalue]
  simp only [String.toList_inj]

/-- The query of a page asks for this page. -/
theorem parse_page_query (limit offset : Nat) :
    parse_window (some (page_query limit offset)) = (word_or_zero limit, word_or_zero offset) := by
  have hno : ∀ (key : String) (n : Nat), '&' ∉ key.toList →
      '&' ∉ key.toList ++ '=' :: (toString n).toList := fun key n hkey hmem => by
    rcases List.mem_append.mp hmem with hmem | hmem
    · exact hkey hmem
    · rcases List.mem_cons.mp hmem with heq | hmem
      · exact absurd heq (by decide)
      · exact absurd (Text.digits_of_nat hmem) (by decide)
  have hpairs : (page_query limit offset).toList
      = ['&'].intercalate ["limit".toList ++ '=' :: (toString limit).toList,
          "offset".toList ++ '=' :: (toString offset).toList] := by
    simp [page_query]
  have hsplit : (page_query limit offset).toList.splitOn '&'
      = ["limit".toList ++ '=' :: (toString limit).toList,
          "offset".toList ++ '=' :: (toString offset).toList] := by
    rw [hpairs]
    refine List.splitOn_intercalate '&' (fun pair hpair => ?_) (List.cons_ne_nil _ _)
    rcases List.mem_pair.mp hpair with rfl | rfl
    · exact hno "limit" limit (by decide)
    · exact hno "offset" offset (by decide)
  rw [parse_window, Option.elim_some, hsplit, List.foldl_cons, List.foldl_cons, List.foldl_nil,
    apply_number_pair (by decide), apply_number_pair (by decide)]
  rfl

end RecordsPage

end AgentTraceGateway
