import AgentTraceGateway.Feed
import AgentTraceGateway.Gateway.Records

/-! # Truncated Turns

  A session error that comes before the end of the response leaves a
  truncated turn. Its class decides whether the record says so: a client's
  hang-up marks the record cancelled, anything else marks it failed. The idle
  text is looked for first, and wherever in the error it stands; a truncated
  turn whose error carries it is marked by nothing but its own stream. -/

namespace AgentTraceGateway

/-- The text the classifier takes for a teardown after the response. -/
def IDLE_CONTEXT : String := "during HTTP idle state"

/-- The record tells that the turn went wrong. -/
def TurnRecord.Marked (record : TurnRecord) : Prop :=
  record.error.isSome = true ∨ record.cancelled = true

/-- A turn of the pump path on an exact path that a session error cut off
    before the response was complete. The pump path leaves the relay's fields
    as they were. -/
structure TruncatedTurn (d : ProtocolDescriptor) (e : SessionError) (t : Turn) : Prop where
  exact_path : detect_path t.path = some ⟨d, false⟩
  ended : t.error = some e
  truncated : t.ctx.response_complete = false
  unrelayed : t.ctx.client_dead = false ∧ t.ctx.relay_done = false
  undrained : t.ctx.drain_acc = none

/-- The error text carries the idle context. -/
def SessionError.idle_text (e : SessionError) : Bool := Text.contains e.err_text IDLE_CONTEXT

/-- Before the end of the response only the text makes an error idle noise. -/
theorem truncated_class {d : ProtocolDescriptor} {e : SessionError} {t : Turn}
    (h : TruncatedTurn d e t) :
    classify_session_error e.err_text e.downstream_sourced t.ctx.resp_status
        t.ctx.response_complete
      = if e.idle_text then .idle_noise
        else if e.downstream_sourced then .client_cancelled else .proxy_error := by
  unfold classify_session_error
  rw [h.truncated, Bool.and_false, Bool.false_and, Bool.or_false]
  rfl

/-- Without the idle text the record is marked, whatever it is made from. -/
theorem truncated_marked {d : ProtocolDescriptor} {e : SessionError} {t : Turn}
    (h : TruncatedTurn d e t) (hidle : e.idle_text = false) :
    client_cancelled t = true ∨ (http_error t).isSome = true := by
  have hclass := truncated_class h
  rw [hidle, if_neg Bool.false_ne_true] at hclass
  by_cases hdown : e.downstream_sourced = true
  · -- the client hung up
    rw [if_pos hdown] at hclass
    apply Or.inl
    unfold client_cancelled Turn.error_class
    rw [h.ended, Option.map_some, hclass]
    simp
  · rw [if_neg hdown] at hclass
    apply Or.inr
    unfold http_error
    rw [h.ended]
    dsimp only
    rw [hclass]
    rfl

/-- With the idle text nothing of the session marks the record. -/
theorem truncated_unmarked {d : ProtocolDescriptor} {e : SessionError} {t : Turn}
    (h : TruncatedTurn d e t) (hidle : e.idle_text = true) :
    client_cancelled t = false ∧ http_error t = none := by
  have hclass := truncated_class h
  rw [hidle, if_pos rfl] at hclass
  constructor
  · unfold client_cancelled Turn.error_class
    rw [h.ended, Option.map_some, hclass, h.unrelayed.1]
    rfl
  · unfold http_error
    rw [h.ended]
    dsimp only
    rw [hclass]

section truncated

variable (sha256 : Bytes → Digest) (from_str : String → Option Value)

/-- Every record of a turn carries the session's failure marker, unless the
    stream brought its own. -/
theorem logged_record_error {gw : Gateway} {d : ProtocolDescriptor} {t : Turn}
    {record : TurnRecord} (h : logged_record sha256 from_str gw d t = some record) :
    (http_error t).isSome = true → record.error.isSome = true := by
  intro hmarked
  rcases logged_record_cases sha256 from_str h with ⟨-, rfl⟩ | ⟨-, hrecorded⟩
  · exact hmarked
  · cases hrecorded with
    | streamed hsse =>
      show ((stream_outcome from_str _ t.ctx).error.or (http_error t)).isSome = true
      rw [Option.isSome_or, hmarked, Bool.or_true]
    | @unpacked inner hrest hinner =>
      show (inner.error.or (http_error t)).isSome = true
      rw [Option.isSome_or, hmarked, Bool.or_true]
    | minimal hrest hnone hdue => exact hmarked

/-- What unpacking finds at rest is never an error. -/
theorem unpack_nonstreaming_error {protocol : String} {request : Option Value} {body : Bytes}
    {record : TurnRecord} (h : unpack_nonstreaming from_str protocol request body = some record) :
    record.error = none := by
  obtain ⟨d, -, hreq⟩ := Option.bind_eq_some_iff.mp h
  obtain ⟨req, -, hresp⟩ := Option.bind_eq_some_iff.mp hreq
  obtain ⟨resp, -, hrecord⟩ := Option.bind_eq_some_iff.mp hresp
  obtain ⟨user_input, -, rfl⟩ := Option.map_eq_some_iff.mp hrecord
  rfl

/-- The response of an idle-marked turn tells for itself that the turn went
    wrong, or leaves nothing to record: a stream carries an error frame, or a
    response at rest does not unpack. -/
def SpeaksForItself (d : ProtocolDescriptor) (t : Turn) : Prop :=
  if looks_like_sse t.ctx.resp_content_type then
    ∃ v ∈ stream_values from_str t.ctx.resp_buf, (error_marker d.name v).isSome = true
  else
    ¬ ((∃ req, parse_body from_str t.ctx.req_buf = some req ∧ last_user_text d req = true) ∧
      (from_slice from_str t.ctx.resp_buf).isSome = true)

/-! The three ways to a record, when the session itself marks nothing. -/

/-- The shell of a turn that is not captured says nothing. -/
theorem shell_record_unmarked {d : ProtocolDescriptor} {t : Turn}
    (halive : client_cancelled t = false) (hclean : http_error t = none) :
    ¬ (shell_record d t).Marked := by
  rintro (herror | hcancel)
  · have hsome : (http_error t).isSome = true := herror
    rw [hclean] at hsome
    cases hsome
  · have hwent : client_cancelled t = true := hcancel
    rw [halive] at hwent
    cases hwent

/-- The record of a stream is marked by its own error frame alone. -/
theorem sse_record_marked_iff {a : Assembly} {t : Turn} {out : SseOutcome}
    (halive : client_cancelled t = false) (hclean : http_error t = none) :
    (sse_record a t out).Marked ↔ out.error.isSome = true := by
  have herror : (sse_record a t out).error = out.error := by
    show out.error.or (http_error t) = out.error
    rw [hclean, Option.or_none]
  have hcancel : (sse_record a t out).cancelled = client_cancelled t := rfl
  unfold TurnRecord.Marked
  rw [herror, hcancel, halive]
  simp

/-- At rest nothing is marked. -/
theorem rest_record_unmarked {gw : Gateway} {d : ProtocolDescriptor} {t : Turn}
    {record : TurnRecord} (halive : client_cancelled t = false) (hclean : http_error t = none)
    (hon : gw.trace_off = false) (hrest : looks_like_sse t.ctx.resp_content_type = false)
    (h : logged_record sha256 from_str gw d t = some record) : ¬ record.Marked := by
  have hcancelled := logged_record_cancelled sha256 from_str h
  rintro (herror | hcancel)
  · rcases logged_record_cases sha256 from_str h with ⟨hoff, -⟩ | ⟨-, hrecorded⟩
    · rw [hon] at hoff
      cases hoff
    · cases hrecorded with
      | streamed hsse =>
        rw [hrest] at hsse
        cases hsse
      | @unpacked inner _ hinner =>
        -- an unpacked response has no error of its own
        have hor : (inner.error.or (http_error t)).isSome = true := herror
        rw [unpack_nonstreaming_error from_str hinner, hclean] at hor
        cases hor
      | minimal _ hnone hdue =>
        have hmark : (http_error t).isSome = true := herror
        rw [hclean] at hmark
        cases hmark
  · rw [hcancelled, halive] at hcancel
    cases hcancel

/-- The record of a truncated turn whose error carries the idle text. -/
theorem idle_record_marked_iff {gw : Gateway} {d : ProtocolDescriptor} {e : SessionError}
    {t : Turn} (h : TruncatedTurn d e t) (hidle : e.idle_text = true) :
    (∀ record, logged_record sha256 from_str gw d t = some record → record.Marked) ↔
      gw.trace_off = false ∧ SpeaksForItself from_str d t := by
  obtain ⟨halive, hclean⟩ := truncated_unmarked h hidle
  by_cases hoff : gw.trace_off = true
  · -- the shell record says nothing
    constructor
    · intro hall
      have hmarked := hall (shell_record d t) (by unfold logged_record; rw [if_pos hoff])
      exact absurd hmarked (shell_record_unmarked halive hclean)
    · rintro ⟨hon, -⟩
      rw [hoff] at hon
      cases hon
  have hon : gw.trace_off = false := Bool.eq_false_iff.mpr hoff
  unfold SpeaksForItself
  by_cases hsse : looks_like_sse t.ctx.resp_content_type = true
  · have houtcome : stream_outcome from_str d t.ctx
        = stream_response from_str d t.ctx.resp_buf := by
      simp only [stream_outcome, h.undrained, reassemble_sse,
        detect_by_name_self (detect_path_mem h.exact_path)]
    have hrecord : logged_record sha256 from_str gw d t
        = some (sse_record (assemble sha256 from_str gw d t).1 t
            (stream_response from_str d t.ctx.resp_buf)) := by
      unfold logged_record turn_record
      rw [if_neg hoff, if_pos hsse, ← houtcome]
      rfl
    have hmarked : (sse_record (assemble sha256 from_str gw d t).1 t
        (stream_response from_str d t.ctx.resp_buf)).Marked ↔
        ∃ v ∈ stream_values from_str t.ctx.resp_buf, (error_marker d.name v).isSome = true := by
      rw [sse_record_marked_iff halive hclean, stream_response_error_isSome, List.any_eq_true]
    rw [if_pos hsse, hrecord, ← hmarked]
    simp [hon]
  · -- at rest there is no marker, so a record is an unmarked one
    rw [if_neg hsse]
    have hrest : (logged_record sha256 from_str gw d t).isSome = true ↔
        ((∃ req, parse_body from_str t.ctx.req_buf = some req ∧ last_user_text d req = true) ∧
          (from_slice from_str t.ctx.resp_buf).isSome = true) := by
      have hstays : ¬ relay_cancelled t := by
        rintro ⟨-, hgone⟩
        rw [halive] at hgone
        cases hgone
      rw [@logged_record_isSome_iff sha256 from_str gw d t h.exact_path]
      simp [hon, hsse, hclean, hstays]
    rw [← hrest]
    constructor
    · intro hall
      refine ⟨hon, ?_⟩
      intro hpushed
      obtain ⟨record, hrecord⟩ := Option.isSome_iff_exists.mp hpushed
      exact rest_record_unmarked sha256 from_str halive hclean hon
        (Bool.eq_false_iff.mpr hsse) hrecord (hall record hrecord)
    · rintro ⟨-, hnone⟩ record hrecord
      exact absurd (by rw [hrecord]; rfl) hnone

/-- The record of a truncated turn says that the turn went wrong, if and only
    if the error text does not carry the idle context, or the gateway captures
    and the response speaks for itself. -/
theorem truncated_turn_marked_iff {gw : Gateway} {d : ProtocolDescriptor} {e : SessionError}
    {t : Turn} (h : TruncatedTurn d e t) :
    (∀ record, Pushed gw (logging sha256 from_str gw t) record → record.Marked) ↔
      e.idle_text = false ∨ (gw.trace_off = false ∧ SpeaksForItself from_str d t) := by
  have hpushed : ∀ record, Pushed gw (logging sha256 from_str gw t) record ↔
      logged_record sha256 from_str gw d t = some record := by
    intro record
    rw [logging_exact sha256 from_str h.exact_path]
    exact log_turn_pushed_iff sha256 from_str gw d t record
  simp only [hpushed]
  by_cases hidle : e.idle_text = true
  · rw [idle_record_marked_iff sha256 from_str h hidle]
    simp [hidle]
  · have hplain : e.idle_text = false := Bool.eq_false_iff.mpr hidle
    refine iff_of_true ?_ (Or.inl hplain)
    intro record hrecord
    rcases truncated_marked h hplain with hcancel | herror
    · exact Or.inr ((logged_record_cancelled sha256 from_str hrecord).trans hcancel)
    · exact Or.inl (logged_record_error sha256 from_str hrecord herror)

end truncated

/-! ### A reset in the middle of a stream -/

/-- A client reset that comes after the head of a streamed answer. -/
def reset_turn (err_text : String) : Turn where
  path := "/v1/messages"
  headers := []
  error := some ⟨err_text, true⟩
  ctx := {
    snap := ⟨"salt", "tag", false, 30, half_minute_pos⟩
    resp_content_type := "text/event-stream"
    resp_status := 200 }
  now_ns := 1
  instant := 1
  order := Lru.IterOrder.stored

theorem reset_turn_truncated (err_text : String) :
    TruncatedTurn Anthropic.DESCRIPTOR ⟨err_text, true⟩ (reset_turn err_text) :=
  ⟨messages_path, rfl, rfl, ⟨rfl, rfl⟩, rfl⟩

theorem truncated_turn_marked_iff_reset :
    let t := reset_turn "ReadError: connection reset"
    ∀ record, Pushed idle_gateway
      (logging Sha256.digest (fun _ => none) idle_gateway t) record → record.Marked := by
  intro t
  apply (truncated_turn_marked_iff Sha256.digest (fun _ => none) (reset_turn_truncated _)).mpr
  exact Or.inl (by decide)

/-- The same reset with the text of a body read: the record says nothing. -/
theorem idle_reset_unmarked :
    let t := reset_turn "ReadError context: during HTTP idle state"
    TruncatedTurn Anthropic.DESCRIPTOR ⟨"ReadError context: during HTTP idle state", true⟩ t ∧
      ¬ ∀ record, Pushed idle_gateway
        (logging Sha256.digest (fun _ => none) idle_gateway t) record → record.Marked := by
  intro t
  have hturn := reset_turn_truncated "ReadError context: during HTTP idle state"
  refine ⟨hturn, ?_⟩
  intro hall
  have hpushed : Pushed idle_gateway (logging Sha256.digest (fun _ => none) idle_gateway t)
      (sse_record (assemble Sha256.digest (fun _ => none) idle_gateway Anthropic.DESCRIPTOR t).1 t
        (stream_outcome (fun _ => none) Anthropic.DESCRIPTOR t.ctx)) := by
    rw [logging_exact Sha256.digest (fun _ => none) hturn.exact_path]
    exact ⟨rfl, rfl⟩
  rcases hall _ hpushed with herror | hcancel
  · exact absurd herror (by decide)
  · exact absurd hcancel (by decide)

end AgentTraceGateway
