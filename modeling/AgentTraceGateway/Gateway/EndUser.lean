import AgentTraceGateway.Gateway.Records

/-! # The End User of an Anthropic Turn

  An Anthropic request names its end user at `metadata.user_id`. The table
  lists the two keys of that path, but the evaluator reads its list as names
  of top-level entries, one instead of the other. So `metadata` itself is
  recorded where it is a text, a top-level `user_id` is recorded where there
  is one, and the named user is not. -/

namespace AgentTraceGateway

/-- The end user a request names; `""` is none. -/
def named_user (req : Value) : String := ((ClaudeCode.user_id req).as_str.bind trimmed).getD ""

/-- Reading the two keys as top-level entries makes no difference. -/
structure ReadsAlike (req : Value) : Prop where
  metadata : (req.index "metadata").as_str.bind trimmed = none
  user_id : (req.index "user_id").as_str.bind trimmed
    = (ClaudeCode.user_id req).as_str.bind trimmed

theorem trimmed_ne_empty {s v : String} (h : trimmed s = some v) : v ≠ "" := by
  unfold trimmed Text.is_blank at h
  split_ifs at h with hblank
  cases h
  intro hempty
  apply hblank
  rw [List.isEmpty_iff]
  exact String.ofList_injective hempty

/-- A text that is found is never empty, so `""` is nobody alone. -/
theorem getD_trimmed_inj {o o' : Option String}
    (h : (o.bind trimmed).getD "" = (o'.bind trimmed).getD "") : o.bind trimmed = o'.bind trimmed := by
  have hne : ∀ {o : Option String} {v : String}, o.bind trimmed = some v → v ≠ "" := by
    intro o v hv
    obtain ⟨text, -, htrimmed⟩ := Option.bind_eq_some_iff.mp hv
    exact trimmed_ne_empty htrimmed
  cases ho : o.bind trimmed with
  | none =>
    cases ho' : o'.bind trimmed with
    | none => rfl
    | some v' =>
      rw [ho, ho'] at h
      exact absurd h.symm (hne ho')
  | some v =>
    cases ho' : o'.bind trimmed with
    | none =>
      rw [ho, ho'] at h
      exact absurd h (hne ho)
    | some v' =>
      rw [ho, ho'] at h
      exact congrArg some h

/-- A name is read at the top of a body. -/
theorem read_path_single (body : Value) (name : String) :
    read_path body [name] = (body.index name).as_str := by
  simp only [read_path, List.foldl_cons, List.foldl_nil, Option.bind_some, Value.index]
  cases body.get name <;> rfl

/-- A `metadata` that is a text names nobody. -/
theorem named_user_of_text {req : Value} {text : String}
    (h : (req.index "metadata").as_str = some text) : named_user req = "" := by
  unfold named_user ClaudeCode.user_id
  cases hmeta : req.index "metadata" with
  | string s => rfl
  | _ =>
    rw [hmeta] at h
    cases h

/-- The evaluator finds the named user exactly where the keys read alike. -/
theorem end_user_iff (req : Value) :
    (Anthropic.DESCRIPTOR.end_user req).getD "" = named_user req ↔ ReadsAlike req := by
  have hread : Anthropic.DESCRIPTOR.end_user req
      = ((req.index "metadata").as_str.bind trimmed).or
          ((req.index "user_id").as_str.bind trimmed) := by
    simp only [ProtocolDescriptor.end_user, Anthropic.DESCRIPTOR, List.findSome?_cons,
      List.findSome?_nil, read_path_single]
    cases (req.index "metadata").as_str.bind trimmed with
    | some v => rfl
    | none => cases (req.index "user_id").as_str.bind trimmed <;> rfl
  rw [hread]
  cases hmeta : (req.index "metadata").as_str.bind trimmed with
  | some v =>
    -- the text of `metadata` is recorded, and it names nobody
    obtain ⟨text, htext, hv⟩ := Option.bind_eq_some_iff.mp hmeta
    refine iff_of_false ?_ fun h => ?_
    · rw [named_user_of_text htext]
      exact trimmed_ne_empty hv
    · rw [h.metadata] at hmeta
      cases hmeta
  | none =>
    have huser : ReadsAlike req ↔ (req.index "user_id").as_str.bind trimmed
        = (ClaudeCode.user_id req).as_str.bind trimmed :=
      ⟨fun h => h.user_id, fun h => ⟨hmeta, h⟩⟩
    rw [huser, named_user, Option.none_or]
    constructor
    · exact getD_trimmed_inj
    · intro heq
      rw [heq]

/-! ### The recorded end user -/

section records

variable (sha256 : Bytes → Digest) (from_str : String → Option Value)

/-- The record of a turn is made from its body: the gateway captures, and the
    response is a stream or unpacks. Any other record names nobody. -/
def made_from_body (gw : Gateway) (t : Turn) : Bool :=
  !gw.trace_off && (looks_like_sse t.ctx.resp_content_type ||
    (unpack_nonstreaming from_str Anthropic.DESCRIPTOR.name (parse_body from_str t.ctx.req_buf)
      t.ctx.resp_buf).isSome)

theorem unpacked_user {req : Value} {resp_buf : Bytes} {record : TurnRecord}
    (h : unpack_nonstreaming from_str Anthropic.DESCRIPTOR.name (some req) resp_buf = some record) :
    record.user_id = (Anthropic.DESCRIPTOR.end_user req).getD "" := by
  have hname : detect_by_name Anthropic.DESCRIPTOR.name = some Anthropic.DESCRIPTOR := rfl
  rw [unpack_nonstreaming, hname, Option.bind_some, Option.bind_some] at h
  obtain ⟨resp, -, hrecord⟩ := Option.bind_eq_some_iff.mp h
  obtain ⟨user_input, -, rfl⟩ := Option.map_eq_some_iff.mp hrecord
  rfl

/-- What is recorded of an Anthropic body. -/
theorem logged_user {gw : Gateway} {t : Turn} {req : Value} {record : TurnRecord}
    (hreq : parse_body from_str t.ctx.req_buf = some req)
    (h : logged_record sha256 from_str gw Anthropic.DESCRIPTOR t = some record) :
    record.user_id = if made_from_body from_str gw t then
        (Anthropic.DESCRIPTOR.end_user req).getD "" else "" := by
  have hname : detect_by_name Anthropic.DESCRIPTOR.name = some Anthropic.DESCRIPTOR := rfl
  unfold made_from_body
  rcases logged_record_cases sha256 from_str h with ⟨hoff, rfl⟩ | ⟨hon, hrecorded⟩
  · simp [hoff, shell_record]
  · cases hrecorded with
    | streamed hsse =>
      simp [hon, hsse, sse_record, assemble, hreq, turn_facts, hname]
    | unpacked hrest hinner =>
      have hinner' : unpack_nonstreaming from_str Anthropic.DESCRIPTOR.name
          (parse_body from_str t.ctx.req_buf) t.ctx.resp_buf = some _ := hinner
      have hnamed := hinner'
      rw [hreq] at hnamed
      have huser := unpacked_user from_str hnamed
      simpa [hon, hinner', nonstreaming_record] using huser
    | minimal hrest hnone hdue =>
      have hnone' : unpack_nonstreaming from_str Anthropic.DESCRIPTOR.name
          (parse_body from_str t.ctx.req_buf) t.ctx.resp_buf = none := hnone
      simp [hrest, hnone', minimal_record]

/-- The record of an Anthropic turn names the end user of its body, if it is
    made from the body, exactly where the keys read alike; any other record
    does where the body names nobody. -/
theorem recorded_user_iff {gw : Gateway} {t : Turn} {m : PathMatch} {req : Value}
    {record : TurnRecord} (hm : t.matched = some m)
    (hanthropic : m.descriptor = Anthropic.DESCRIPTOR)
    (hreq : parse_body from_str t.ctx.req_buf = some req)
    (h : Pushed gw (logging sha256 from_str gw t) record) :
    record.user_id = named_user req ↔
      if made_from_body from_str gw t then ReadsAlike req else named_user req = "" := by
  obtain ⟨m', hm', hlogged⟩ := (pushed_iff_logged sha256 from_str gw t record).mp h
  rw [hm] at hm'
  cases hm'
  rw [hanthropic] at hlogged
  rw [logged_user sha256 from_str hreq hlogged]
  split
  · exact end_user_iff req
  · exact eq_comm

end records

/-! ### A named user -/

def alice_text : String := "\x7b\"metadata\":\x7b\"user_id\":\"alice\"\x7d\x7d"

/-- The user is named where the protocol has it. -/
def alice_body : Value := .object [("metadata", .object [("user_id", .string "alice")])]

def alice_twice_text : String :=
  "\x7b\"metadata\":\x7b\"user_id\":\"alice\"\x7d,\"user_id\":\" alice \"\x7d"

/-- The user is named there and at the top. -/
def alice_twice_body : Value :=
  .object [("metadata", .object [("user_id", .string "alice")]), ("user_id", .string " alice ")]

/-- The parser on these texts. -/
def alice_from_str (s : String) : Option Value :=
  if s = alice_text then some alice_body
  else if s = alice_twice_text then some alice_twice_body
  else none

/-- A streamed turn with a request body. -/
def alice_turn (body : String) : Turn where
  path := "/v1/messages"
  headers := []
  error := none
  ctx := {
    snap := ⟨"salt", "tag", false, 30, half_minute_pos⟩
    req_buf := utf8_bytes body
    resp_content_type := "text/event-stream"
    resp_status := 200
    response_complete := true }
  now_ns := 1
  instant := 1
  order := Lru.IterOrder.stored

theorem alice_turn_matched (body : String) :
    (alice_turn body).matched = some ⟨Anthropic.DESCRIPTOR, false⟩ := exact_matched messages_path

/-- The record of such a turn. -/
def alice_record (body : String) : TurnRecord :=
  sse_record (assemble Sha256.digest alice_from_str idle_gateway Anthropic.DESCRIPTOR
      (alice_turn body)).1 (alice_turn body)
    (stream_outcome alice_from_str Anthropic.DESCRIPTOR (alice_turn body).ctx)

theorem alice_streamed (body : String) :
    looks_like_sse (alice_turn body).ctx.resp_content_type = true := by
  show looks_like_sse "text/event-stream" = true
  decide

theorem alice_record_pushed (body : String) :
    Pushed idle_gateway (logging Sha256.digest alice_from_str idle_gateway (alice_turn body))
      (alice_record body) :=
  stream_pushed Sha256.digest alice_from_str messages_path rfl (alice_streamed body)

theorem recorded_user_iff_alice :
    (alice_record alice_twice_text).user_id = "alice" := by
  have hparsed : parse_body alice_from_str (alice_turn alice_twice_text).ctx.req_buf
      = some alice_twice_body := rfl
  have hmade : made_from_body alice_from_str idle_gateway (alice_turn alice_twice_text) = true := by
    decide +kernel
  have hrecorded := recorded_user_iff Sha256.digest alice_from_str
    (alice_turn_matched alice_twice_text) rfl hparsed (alice_record_pushed alice_twice_text)
  rw [if_pos hmade] at hrecorded
  rw [hrecorded.mpr ⟨by decide, by decide⟩]
  decide

/-- The user that a body names at `metadata.user_id` alone is not recorded. -/
theorem named_user_unrecorded :
    parse_body alice_from_str (alice_turn alice_text).ctx.req_buf = some alice_body ∧
      named_user alice_body = "alice" ∧
      Pushed idle_gateway (logging Sha256.digest alice_from_str idle_gateway (alice_turn alice_text))
        (alice_record alice_text) ∧
      (alice_record alice_text).user_id = "" := by
  have hparsed : parse_body alice_from_str (alice_turn alice_text).ctx.req_buf = some alice_body := rfl
  have hmade : made_from_body alice_from_str idle_gateway (alice_turn alice_text) = true := by
    decide +kernel
  refine ⟨hparsed, by decide, alice_record_pushed alice_text, ?_⟩
  have hlogged := @stream_logged Sha256.digest alice_from_str idle_gateway Anthropic.DESCRIPTOR _
    rfl (alice_streamed alice_text)
  rw [alice_record, logged_user Sha256.digest alice_from_str hparsed hlogged, if_pos hmade]
  decide

end AgentTraceGateway
