import AgentTraceGateway.Gateway.Pump
import AgentTraceGateway.Gateway.Records

/-! # Cancelled Turns

  A client may go away at any point of its turn. On the relay such a turn is
  always recorded, as long as the relay lives to return. On the pump it is
  recorded when the response was a stream, or when the bytes that made it
  happen to parse; a partial JSON body leaves no trace, because the arm for
  responses that do not unpack asks for a failure marker or a relayed turn,
  and a cancellation by the client is neither. -/

namespace AgentTraceGateway

/-- A turn reaches `logging` through pingora's pump or through the relay. -/
inductive Delivery where
  | pump (t : Turn)
  | relay (r : RelayedRequest)

section cancel

variable (sha256 : Bytes → Digest) (from_str : String → Option Value)

/-- The gateway after a turn. -/
def Delivery.after (gw : Gateway) : Delivery → Gateway
  | .pump t => logging sha256 from_str gw t
  | .relay r => r.after sha256 from_str gw

/-! ### Where the client goes away -/

/-- A pumped turn with a complete request and a session error that says the
    client hung up. The pump never touches the relay's fields. -/
structure PumpCancelled (d : ProtocolDescriptor) (req : Value) (t : Turn) : Prop where
  exact_path : detect_path t.path = some ⟨d, false⟩
  parsed : parse_body from_str t.ctx.req_buf = some req
  user_text : last_user_text d req = true
  pumped : t.ctx.relay_done = false ∧ t.ctx.client_dead = false
  cancelled : t.error_class = some .client_cancelled

/-- A relayed turn with a complete request whose client was found dead. -/
structure RelayCancelled (d : ProtocolDescriptor) (req : Value) (r : RelayedRequest) : Prop where
  exact_path : r.matched = ⟨d, false⟩
  uploaded : r.exchange.upload_aborted = false
  parsed : parse_body from_str r.exchange.upload.flatten = some req
  user_text : last_user_text d req = true
  found_dead : (r.outcome from_str).state.found_dead.isSome

/-- The client goes away after its request was complete. -/
def Delivery.Cancelled (d : ProtocolDescriptor) (req : Value) : Delivery → Prop
  | .pump t => PumpCancelled from_str d req t
  | .relay r => RelayCancelled from_str d req r

/-- The drain deadline can be computed: the death was the head write's, which
    sets none, or the instant plus the timeout fits. -/
def RelayedRequest.deadline_fits (r : RelayedRequest) : Prop :=
  (∃ head, r.exchange.sent = .ok head ∧ head.write_ok = false) ∨
  ∀ T, (r.outcome from_str).state.found_dead = some T →
    (deadline_after T r.snap.timeout_secs).isSome

/-- The deliveries that keep a cancelled turn. -/
def Delivery.Keeps (gw : Gateway) : Delivery → Prop
  | .pump t => gw.trace_off = true ∨ looks_like_sse t.ctx.resp_content_type = true ∨
      (from_slice from_str t.ctx.resp_buf).isSome
  | .relay r => r.deadline_fits from_str

/-- Exactly one record was pushed, and it is marked cancelled. -/
def PushedCancelled (gw gw' : Gateway) : Prop :=
  ∃ record, Pushed gw gw' record ∧ record.cancelled = true

/-! ### The two paths -/

/-- An exact turn of a client that went away is pushed as cancelled when it
    has a record at all. -/
theorem exact_pushed_cancelled_iff {gw : Gateway} {d : ProtocolDescriptor} {t : Turn}
    (hpath : detect_path t.path = some ⟨d, false⟩) (hcancelled : client_cancelled t = true) :
    PushedCancelled gw (logging sha256 from_str gw t)
      ↔ (logged_record sha256 from_str gw d t).isSome := by
  rw [← exact_pushed_one_iff sha256 from_str hpath]
  constructor
  · rintro ⟨record, hpushed, -⟩
    exact ⟨record, hpushed⟩
  · rintro ⟨record, hpushed⟩
    refine ⟨record, hpushed, ?_⟩
    rw [logging_exact sha256 from_str hpath, log_turn_pushed_iff] at hpushed
    rw [logged_record_cancelled sha256 from_str hpushed, hcancelled]

/-- A cancellation is not a failure of the exchange. -/
theorem http_error_of_cancelled {t : Turn} (h : t.error_class = some .client_cancelled) :
    http_error t = none := by
  unfold Turn.error_class at h
  unfold http_error
  cases herror : t.error with
  | none =>
    rw [herror] at h
    cases h
  | some e =>
    rw [herror] at h
    have hclass : classify_session_error e.err_text e.downstream_sourced t.ctx.resp_status
        t.ctx.response_complete = .client_cancelled := Option.some.inj h
    dsimp only
    rw [hclass]

theorem pump_cancelled_recorded_iff {gw : Gateway} {d : ProtocolDescriptor} {req : Value}
    {t : Turn} (h : PumpCancelled from_str d req t) :
    PushedCancelled gw (logging sha256 from_str gw t) ↔
      gw.trace_off = true ∨ looks_like_sse t.ctx.resp_content_type = true ∨
      (from_slice from_str t.ctx.resp_buf).isSome := by
  have hcancelled : client_cancelled t = true := by
    unfold client_cancelled
    rw [h.cancelled]
    simp
  rw [exact_pushed_cancelled_iff sha256 from_str h.exact_path hcancelled,
    logged_record_isSome_iff sha256 from_str h.exact_path]
  simp only [h.parsed, Option.some.injEq, exists_eq_left', h.user_text, true_and,
    http_error_of_cancelled h.cancelled, Option.isSome_none, Bool.false_eq_true, relay_cancelled,
    h.pumped.1, false_and, or_false]

theorem relay_cancelled_recorded_iff {gw : Gateway} {d : ProtocolDescriptor} {req : Value}
    {r : RelayedRequest} (h : RelayCancelled from_str d req r) :
    PushedCancelled gw (r.after sha256 from_str gw) ↔ r.deadline_fits from_str := by
  obtain ⟨T, hfound⟩ := Option.isSome_iff_exists.mp h.found_dead
  obtain ⟨head, hsent, hended⟩ := relay_found_dead from_str r.wall r.gated h.uploaded hfound
  have houtcome : r.outcome from_str
      = relay from_str r.wall r.matched.descriptor r.exchange (Ctx.fresh r.snap r.start_ns) := rfl
  rw [← houtcome] at hended
  unfold RelayedRequest.after RelayedRequest.deadline_fits
  rcases hended with ⟨hwrite, hdeadline, s, hout, -⟩ | ⟨s, D, hout, hdone, -, -, hok, -, hrun⟩
  · -- the relay panicked: nothing is logged, and the deadline did not fit
    rw [hout] at hfound ⊢
    constructor
    · rintro ⟨record, hpushed, -⟩
      exact absurd hpushed (not_pushed_nothing gw record)
    · rintro (⟨head', hsent', hfailed⟩ | hfits)
      · rw [hsent] at hsent'
        cases hsent'
        rw [hwrite] at hfailed
        cases hfailed
      · have hsome := hfits T hfound
        rw [hdeadline] at hsome
        cases hsome
  · -- the relay drained, so its deadline fitted and the turn is logged
    rw [hout] at hfound ⊢
    constructor
    · intro _
      cases hwrite : head.write_ok with
      | false => exact Or.inl ⟨head, hsent, hwrite⟩
      | true =>
        refine Or.inr fun T' hT' => ?_
        rw [hfound] at hT'
        cases hT'
        rw [hok hwrite]
        rfl
    · intro _
      have hpath : detect_path (r.turn s).path = some ⟨d, false⟩ := by
        rw [← h.exact_path]
        exact r.detected
      have hcancelled : client_cancelled (r.turn s) = true := by
        unfold client_cancelled
        rw [show (r.turn s).ctx.client_dead = true from hrun.dead, Bool.true_or]
      refine (exact_pushed_cancelled_iff sha256 from_str hpath hcancelled).mpr ?_
      rw [logged_record_isSome_iff sha256 from_str hpath]
      exact Or.inr (Or.inr (Or.inr (Or.inr ⟨hdone, hcancelled⟩)))

/-- A turn whose client went away after the request was complete is recorded
    exactly once, as cancelled, if and only if its delivery keeps it: a
    relay whose drain deadline fits, and on the pump a stream or a response
    that parses as far as it came. -/
theorem cancelled_turn_recorded_iff {gw : Gateway} {d : ProtocolDescriptor} {req : Value}
    {delivery : Delivery} (h : delivery.Cancelled from_str d req) :
    PushedCancelled gw (delivery.after sha256 from_str gw) ↔ delivery.Keeps from_str gw := by
  cases delivery with
  | pump t => exact pump_cancelled_recorded_iff sha256 from_str h
  | relay r => exact relay_cancelled_recorded_iff sha256 from_str h

end cancel

/-! ### A client that hangs up -/

def greeting_text : String :=
  "\x7b\"messages\":[\x7b\"role\":\"user\",\"content\":\"hi\"\x7d]\x7d"

def greeting_request : Value :=
  .object [("messages", .array [.object [("content", .string "hi"), ("role", .string "user")]])]

/-- The parser on the texts of this turn; a cut response is no JSON. -/
def greeting_from_str (s : String) : Option Value :=
  if s = greeting_text then some greeting_request else none

/-- The client hangs up in the middle of a response. -/
def hung_up_turn (content_type partial_body : String) : Turn where
  path := "/v1/messages"
  headers := []
  error := some ⟨"WriteError", true⟩
  ctx := {
    snap := ⟨"salt", "tag", false, 30, half_minute_pos⟩
    req_buf := utf8_bytes greeting_text
    resp_buf := utf8_bytes partial_body
    resp_content_type := content_type
    resp_status := 200 }
  now_ns := 1
  instant := 1
  order := Lru.IterOrder.stored

theorem hung_up_cancelled (content_type partial_body : String) :
    PumpCancelled greeting_from_str Anthropic.DESCRIPTOR greeting_request
      (hung_up_turn content_type partial_body) :=
  ⟨messages_path, rfl, by decide, ⟨rfl, rfl⟩, rfl⟩

theorem cancelled_turn_recorded_iff_stream :
    let t := hung_up_turn "text/event-stream" "data: x"
    PushedCancelled idle_gateway
      ((Delivery.pump t).after Sha256.digest greeting_from_str idle_gateway) := by
  intro t
  have hcancelled : (Delivery.pump t).Cancelled greeting_from_str Anthropic.DESCRIPTOR
      greeting_request := hung_up_cancelled _ _
  refine (cancelled_turn_recorded_iff Sha256.digest greeting_from_str hcancelled).mpr ?_
  exact Or.inr (Or.inl (by decide))

/-- Half a JSON body, and the cancelled turn is gone. -/
theorem hung_up_turn_lost :
    let t := hung_up_turn "application/json" "[1"
    (Delivery.pump t).Cancelled greeting_from_str Anthropic.DESCRIPTOR greeting_request ∧
      ¬ PushedCancelled idle_gateway
        ((Delivery.pump t).after Sha256.digest greeting_from_str idle_gateway) := by
  intro t
  have hcancelled := hung_up_cancelled "application/json" "[1"
  refine ⟨hcancelled, ?_⟩
  show ¬ PushedCancelled idle_gateway (logging Sha256.digest greeting_from_str idle_gateway t)
  rw [pump_cancelled_recorded_iff Sha256.digest greeting_from_str hcancelled]
  decide

end AgentTraceGateway
