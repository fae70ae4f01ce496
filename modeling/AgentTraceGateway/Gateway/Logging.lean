import AgentTraceGateway.Gateway.Headers
import AgentTraceGateway.Trace.Store
import AgentTraceGateway.Trace.Unpack

/-! # The Logging Hook

  Every request ends in `logging`: it classifies how the session ended,
  attributes the request, finds or stitches its session and assembles the
  turn record from the bytes the delivery path left in the request context.

  The response has been delivered by then; the hook only observes. Clocks
  and the stitcher's table order are inputs of the turn. The standard error
  stream is taken to be writable. Gauges, histograms and the WebSocket fields
  of the context are left out. -/

namespace AgentTraceGateway

/-! ### The request context -/

/-- The part of a configuration snapshot that a turn reads. `validate` keeps
    the drain timeout positive. -/
structure Snapshot where
  salt : String
  trace_tag : String
  on_cancel : Bool
  timeout_secs : UInt64
  timeout_pos : 1 ≤ timeout_secs

/-- Half a minute is a drain timeout. -/
theorem half_minute_pos : (1 : UInt64) ≤ 30 := by decide

/-- What the delivery path of a request leaves for `logging`. -/
structure Ctx where
  snap : Snapshot
  req_buf : Bytes := []
  resp_buf : Bytes := []
  resp_content_type : String := ""
  start_ns : UInt64 := 0
  first_output_ns : Option UInt64 := none
  body_end_ns : Option UInt64 := none
  resp_status : UInt16 := 0
  response_complete : Bool := false
  client_dead : Bool := false
  relay_done : Bool := false
  drain_timed_out : Bool := false
  drain_acc : Option SseAccum := none
  drain_tail : Bytes := []
  drain_overflow : Nat := 0
  relay_error : Option String := none

/-- A pingora session error: its debug text, and whether the downstream side
    raised it. -/
structure SessionError where
  err_text : String
  downstream_sourced : Bool
  deriving DecidableEq, Repr

/-- One request as `logging` finds it. -/
structure Turn where
  path : String
  headers : HeaderMap
  error : Option SessionError
  ctx : Ctx
  now_ns : UInt64
  instant : Nat
  order : StitchOrder

def Turn.header_get (t : Turn) (name : String) : Option String := t.headers.header_get name

/-- The gateway as `logging` changes it. `submitted` lists the records handed
    to the export queue. -/
structure Gateway where
  trace_off : Bool
  cap : CaptureCap
  stitcher : PrefixStitcher
  store : TraceStore
  submitted : List TurnRecord := []
  failed_frames : UInt64 := 0
  turns_total : UInt64 := 0
  loose_path_matches : UInt64 := 0
  turns_with_session : UInt64 := 0
  turns_with_harness : UInt64 := 0
  hdr_evidence_dropped : UInt64 := 0

def Gateway.push_record (gw : Gateway) (record : TurnRecord) : Gateway :=
  { gw with
    store := gw.store.push record
    submitted := gw.submitted ++ [record] }

/-! ### How the session ended -/

inductive SessionErrorClass where
  | idle_noise
  | client_cancelled
  | proxy_error
  deriving DecidableEq, Repr

/-- A 2xx status. -/
def is_success (status : UInt16) : Bool := 200 ≤ status && status < 300

def classify_session_error (err_text : String) (downstream_sourced : Bool)
    (resp_status : UInt16) (response_complete : Bool) : SessionErrorClass :=
  if Text.contains err_text "during HTTP idle state"
      || (downstream_sourced && response_complete && is_success resp_status) then .idle_noise
  else if downstream_sourced then .client_cancelled
  else .proxy_error

/-- The class of a turn's session error, if it has one. -/
def Turn.error_class (t : Turn) : Option SessionErrorClass :=
  t.error.map fun e =>
    classify_session_error e.err_text e.downstream_sourced t.ctx.resp_status
      t.ctx.response_complete

/-- The client hung up mid-turn: the relay saw it, or the error says so. -/
def client_cancelled (t : Turn) : Bool :=
  t.ctx.client_dead || t.error_class == some .client_cancelled

/-- The failure marker of the exchange. A session error speaks for itself;
    without one the relay's own marker outranks the status. -/
def http_error (t : Turn) : Option String :=
  match t.error with
  | some e =>
    match classify_session_error e.err_text e.downstream_sourced t.ctx.resp_status
        t.ctx.response_complete with
    | .idle_noise => none
    | .client_cancelled => none
    | .proxy_error => some ("proxy_error: " ++ e.err_text)
  | none =>
    match t.ctx.relay_error with
    | some marker => some marker
    | none =>
      if 400 ≤ t.ctx.resp_status then
        some ("http_status: " ++ toString t.ctx.resp_status.toNat)
      else none

section logging

variable (sha256 : Bytes → Digest) (from_str : String → Option Value)

/-! ### Sessions -/

/-- The session of a turn. -/
structure TurnSession where
  session_id : String := ""
  session_source : String := ""
  synthetic : Bool := false
  breakpoint : Bool := false
  deriving DecidableEq, Repr

/-- The messages a turn is stitched by: the protocol has session semantics,
    the request names no session, and its chain has two messages or more. -/
def stitch_messages (tf : Option TurnFacts) : Option (List Value) :=
  tf.bind fun f =>
    if (f.session_id.getD "").isEmpty && f.stitch_eligible then
      f.messages.filter fun messages => 2 ≤ messages.length
    else none

/-- The scope a turn is stitched in. -/
def stitch_scope (t : Turn) : String := (t.header_get "authorization").getD ""

/-- The session a request names, or the one the stitcher puts it in. -/
def turn_session (st : PrefixStitcher) (t : Turn) (tf : Option TurnFacts) :
    TurnSession × PrefixStitcher :=
  match stitch_messages tf with
  | some messages =>
    let (a, st) := st.assign sha256 t.order (stitch_scope t) messages t.instant
    ({ session_id := a.session_id
       session_source := "stitcher"
       synthetic := !a.session_id.isEmpty
       breakpoint := a.breakpoint }, st)
  | none =>
    ({ session_id := (tf.bind (·.session_id)).getD ""
       session_source := (tf.map (·.session_source)).getD "" }, st)

/-! ### Record assembly -/

/-- What every record of a turn is assembled from. -/
structure Assembly where
  descriptor : ProtocolDescriptor
  parsed_req : Option Value
  hfacts : HarnessFacts
  tf : Option TurnFacts
  session : TurnSession
  client_ua : String
  hdr_evidence : List (String × String)
  hdr_dropped : UInt32
  api_key_fp : String
  harness_enrich : List (String × String)
  raw_request : String
  raw_response : String

/-- The bounded response, with the drain marker when capture stopped early. -/
def raw_response (cap : CaptureCap) (ctx : Ctx) : String :=
  let raw_response := cap.bound ctx.resp_buf
  if 0 < ctx.drain_overflow then
    raw_response ++ CaptureCap.truncation_marker
      (saturating_add ctx.resp_buf.length ctx.drain_overflow) ctx.resp_buf.length
  else raw_response

/-- The request side of a turn: one parse, shared by every extractor. -/
def assemble (gw : Gateway) (d : ProtocolDescriptor) (t : Turn) : Assembly × PrefixStitcher :=
  let parsed_req := parse_body from_str t.ctx.req_buf
  let ua := t.header_get "user-agent"
  let hfacts := identify from_str d.name parsed_req ua t.header_get
  let (hdr_evidence, hdr_dropped) := collect_hdr_evidence t.headers
  let tf := parsed_req.bind fun req => turn_facts from_str d.name req t.header_get hfacts
  let (session, stitcher) := turn_session sha256 gw.stitcher t tf
  ({ descriptor := d
     parsed_req := parsed_req
     hfacts := hfacts
     tf := tf
     session := session
     client_ua := (ua.map fun u => truncate_header_value u HDR_VALUE_CAP).getD ""
     hdr_evidence := hdr_evidence
     hdr_dropped := hdr_dropped
     api_key_fp := request_api_key_fp sha256 d.name t.header_get t.ctx.snap.salt
     harness_enrich := (parsed_req.map fun req => enrich from_str hfacts req).getD []
     raw_request := gw.cap.bound t.ctx.req_buf
     raw_response := raw_response gw.cap t.ctx }, stitcher)

/-- The streaming side: a drained turn replays its accumulator, any other
    reassembles what was captured. -/
def stream_outcome (d : ProtocolDescriptor) (ctx : Ctx) : SseOutcome :=
  match ctx.drain_acc with
  | some acc => drain_finish from_str d (acc, ctx.drain_tail)
  | none => reassemble_sse from_str d.name ctx.resp_buf

/-- The record of a streamed turn. -/
def sse_record (a : Assembly) (t : Turn) (out : SseOutcome) : TurnRecord where
  protocol := a.descriptor.name
  session_id := a.session.session_id
  user_input := (a.tf.map (·.user_input)).getD ""
  final_output := out.text
  raw_request := a.raw_request
  raw_response := a.raw_response
  tool_calls := out.tools
  breakpoint := a.session.breakpoint
  start_ns := t.ctx.start_ns
  end_ns := t.now_ns
  usage := out.usage
  model_name := (a.tf.map (·.model_name)).getD ""
  user_id := (a.tf.map (·.user_id)).getD ""
  harness := a.hfacts.harness_label
  dialect := a.hfacts.dialect
  client_ua := a.client_ua
  hdr_evidence := a.hdr_evidence
  session_source := a.session.session_source
  api_key_fp := a.api_key_fp
  harness_candidates := a.hfacts.candidates
  harness_anomaly := a.hfacts.protocol_anomaly
  harness_enrich := a.harness_enrich
  session_synthetic := a.session.synthetic
  completion_start_ns := t.ctx.first_output_ns
  error := out.error.or (http_error t)
  cancelled := client_cancelled t
  drain_timed_out := t.ctx.drain_timed_out
  trace_tag := t.ctx.snap.trace_tag

/-- The record of a non-streaming turn, over what unpacking found. -/
def nonstreaming_record (a : Assembly) (t : Turn) (record : TurnRecord) : TurnRecord :=
  { record with
    session_id := a.session.session_id
    breakpoint := a.session.breakpoint
    harness := a.hfacts.harness_label
    dialect := a.hfacts.dialect
    client_ua := a.client_ua
    hdr_evidence := a.hdr_evidence
    session_source := a.session.session_source
    api_key_fp := a.api_key_fp
    harness_candidates := a.hfacts.candidates
    harness_anomaly := a.hfacts.protocol_anomaly
    harness_enrich := a.harness_enrich
    session_synthetic := a.session.synthetic
    completion_start_ns := some t.ctx.start_ns
    error := record.error.or (http_error t)
    cancelled := client_cancelled t
    drain_timed_out := t.ctx.drain_timed_out
    trace_tag := t.ctx.snap.trace_tag
    raw_request := a.raw_request
    raw_response := a.raw_response
    start_ns := t.ctx.start_ns
    end_ns := t.now_ns }

/-- The minimal record of a failed turn without a usable response. -/
def minimal_record (a : Assembly) (t : Turn) : TurnRecord where
  protocol := a.descriptor.name
  session_id := a.session.session_id
  user_input := (a.tf.map (·.user_input)).getD ""
  raw_request := a.raw_request
  raw_response := a.raw_response
  harness := a.hfacts.harness_label
  harness_candidates := a.hfacts.candidates
  harness_anomaly := a.hfacts.protocol_anomaly
  harness_enrich := a.harness_enrich
  session_synthetic := a.session.synthetic
  hdr_evidence := a.hdr_evidence
  session_source := a.session.session_source
  error := http_error t
  start_ns := t.ctx.start_ns
  end_ns := t.now_ns
  cancelled := client_cancelled t
  drain_timed_out := t.ctx.drain_timed_out
  trace_tag := t.ctx.snap.trace_tag
  model_name := (a.tf.map (·.model_name)).getD ""

/-- The shell record of a gateway that captures nothing. -/
def shell_record (d : ProtocolDescriptor) (t : Turn) : TurnRecord where
  protocol := d.name
  error := http_error t
  cancelled := client_cancelled t
  drain_timed_out := t.ctx.drain_timed_out
  start_ns := t.ctx.start_ns
  end_ns := t.now_ns
  completion_start_ns := t.ctx.first_output_ns
  trace_tag := t.ctx.snap.trace_tag

/-- The record of an assembled turn, if there is one: streamed, unpacked, or
    minimal when the exchange failed or a relayed client went away. -/
def turn_record (a : Assembly) (t : Turn) : Option TurnRecord :=
  if looks_like_sse t.ctx.resp_content_type then
    some (sse_record a t (stream_outcome from_str a.descriptor t.ctx))
  else
    match unpack_nonstreaming from_str a.descriptor.name a.parsed_req t.ctx.resp_buf with
    | some record => some (nonstreaming_record a t record)
    | none =>
      if (http_error t).isSome || (t.ctx.relay_done && client_cancelled t) then
        some (minimal_record a t)
      else none

/-- The counters an assembled turn moves. -/
def Gateway.count_turn (gw : Gateway) (a : Assembly) (t : Turn) : Gateway :=
  { gw with
    turns_total := gw.turns_total + 1
    hdr_evidence_dropped := gw.hdr_evidence_dropped + a.hdr_dropped.toUInt64
    turns_with_harness :=
      if a.hfacts.identity.isSome then gw.turns_with_harness + 1 else gw.turns_with_harness
    -- synthetic sessions are fallbacks, not observed identifiers
    turns_with_session :=
      if !a.session.session_id.isEmpty && !a.session.synthetic then gw.turns_with_session + 1
      else gw.turns_with_session
    failed_frames :=
      if looks_like_sse t.ctx.resp_content_type then
        gw.failed_frames + (stream_outcome from_str a.descriptor t.ctx).frame_errors.toUInt64
      else gw.failed_frames }

/-- Push a record, if there is one. -/
def Gateway.push_option (gw : Gateway) : Option TurnRecord → Gateway
  | some record => gw.push_record record
  | none => gw

/-- The hook for a turn that may be recorded. -/
def Gateway.log_turn (gw : Gateway) (d : ProtocolDescriptor) (t : Turn) : Gateway :=
  if gw.trace_off then
    { gw with turns_total := gw.turns_total + 1 }.push_record (shell_record d t)
  else
    let (a, stitcher) := assemble sha256 from_str gw d t
    let gw := { gw with stitcher := stitcher }
    (gw.count_turn from_str a t).push_option (turn_record from_str a t)

/-- `logging`: an unknown path is no turn, and a loose match is counted but
    recorded on a 2xx only. -/
def logging (gw : Gateway) (t : Turn) : Gateway :=
  match detect_path t.path with
  | none => gw
  | some matched =>
    if matched.loose then
      let gw := { gw with loose_path_matches := gw.loose_path_matches + 1 }
      if is_success t.ctx.resp_status then gw.log_turn sha256 from_str matched.descriptor t
      else gw
    else gw.log_turn sha256 from_str matched.descriptor t

end logging

end AgentTraceGateway
