import AgentTraceGateway.Protocol.Live
import AgentTraceGateway.Protocol.LiveTurn

/-! # Fragmented Messages

  A text message goes out in one frame, or as a text frame without FIN and
  continuation frames behind it, with control frames in between. The parser
  does not look at FIN, and a continuation frame is no text frame to it: of
  each message it delivers the first fragment. That is the message when the
  continuation frames carry nothing. -/

namespace AgentTraceGateway

/-! ### Messages -/

/-- A text message as its sender cuts it. -/
structure WsMessage where
  first : Bytes
  rest : List Bytes

def WsMessage.payload (m : WsMessage) : Bytes := m.first ++ m.rest.flatten

/-- The same message in one piece. -/
def WsMessage.whole (m : WsMessage) : WsMessage := ⟨m.payload, []⟩

/-- A close, ping or pong frame. -/
def ControlFrame (f : WsFrame) : Prop :=
  f.head.b0 ∈ [0x88, 0x89, 0x8a] ∧ f.head.len ≤ 125

/-- Continuation frames with these fragments. The last one has FIN, and
    control frames may come in between. -/
inductive Continues : List Bytes → List WsFrame → Prop where
  | last {f : WsFrame} (hop : f.head.b0 = 0x80) : Continues [f.payload] [f]
  | more {f : WsFrame} {fragments : List Bytes} {fs : List WsFrame} (hop : f.head.b0 = 0x00)
      (hrest : Continues fragments fs) : Continues (f.payload :: fragments) (f :: fs)
  | control {f : WsFrame} {fragments : List Bytes} {fs : List WsFrame} (hctl : ControlFrame f)
      (hrest : Continues fragments fs) : Continues fragments (f :: fs)

/-- The frames of a message: one text frame with FIN, or one without and
    continuation frames. -/
inductive MessageFrames : WsMessage → List WsFrame → Prop where
  | single {f : WsFrame} (hop : f.head.b0 = 0x81) : MessageFrames ⟨f.payload, []⟩ [f]
  | fragmented {f : WsFrame} {fragments : List Bytes} {fs : List WsFrame} (hop : f.head.b0 = 0x01)
      (hrest : Continues fragments fs) : MessageFrames ⟨f.payload, fragments⟩ (f :: fs)

/-- The frames of a direction that sends these messages. -/
inductive Sending : List WsMessage → List WsFrame → Prop where
  | done : Sending [] []
  | message {m : WsMessage} {fs : List WsFrame} {messages : List WsMessage} {more : List WsFrame}
      (hframes : MessageFrames m fs) (hrest : Sending messages more) :
      Sending (m :: messages) (fs ++ more)
  | control {f : WsFrame} {messages : List WsMessage} {fs : List WsFrame} (hctl : ControlFrame f)
      (hrest : Sending messages fs) : Sending messages (f :: fs)

/-! ### What is delivered of them -/

theorem text_payloads_text {f : WsFrame} (hop : f.head.b0 &&& 0x0f = 0x1) (fs : List WsFrame) :
    text_payloads (f :: fs) = f.payload :: text_payloads fs := by
  rw [text_payloads_cons, if_pos hop]
  rfl

theorem text_payloads_other {f : WsFrame} (hop : f.head.b0 &&& 0x0f ≠ 0x1) (fs : List WsFrame) :
    text_payloads (f :: fs) = text_payloads fs := by
  rw [text_payloads_cons, if_neg hop]
  rfl

theorem control_payloads {f : WsFrame} (hctl : ControlFrame f) (fs : List WsFrame) :
    text_payloads (f :: fs) = text_payloads fs := by
  -- no control opcode is the text opcode
  have hop : f.head.b0 = 0x88 ∨ f.head.b0 = 0x89 ∨ f.head.b0 = 0x8a := by
    simpa [ControlFrame] using hctl.1
  apply text_payloads_other
  rcases hop with hop | hop | hop <;> rw [hop] <;> decide

/-- Continuation frames deliver nothing. -/
theorem continues_payloads {fragments : List Bytes} {fs : List WsFrame} (h : Continues fragments fs)
    (more : List WsFrame) : text_payloads (fs ++ more) = text_payloads more := by
  induction h with
  | last hop => exact text_payloads_other (by rw [hop]; decide) more
  | more hop hrest ih =>
    rw [List.cons_append, text_payloads_other (by rw [hop]; decide), ih]
  | control hctl hrest ih => rw [List.cons_append, control_payloads hctl, ih]

/-- Every message delivers its first fragment. -/
theorem sending_payloads {messages : List WsMessage} {fs : List WsFrame}
    (h : Sending messages fs) : text_payloads fs = messages.map (·.first) := by
  induction h with
  | done => rfl
  | @message m fs messages more hframes hrest ih =>
    rw [List.map_cons, ← ih]
    -- the text frame comes first, and what follows it delivers nothing
    cases hframes with
    | single hop => exact text_payloads_text (by rw [hop]; decide) more
    | fragmented hop hcont =>
      rw [List.cons_append, text_payloads_text (by rw [hop]; decide), continues_payloads hcont]
  | control hctl hrest ih => rw [control_payloads hctl, ih]

/-- However the frames are cut, a parser with room for them delivers the
    first fragments. -/
theorem push_all_sending {max_payload : Nat} {messages : List WsMessage} {fs : List WsFrame}
    (h : Sending messages fs) (hcap : max_payload = 0 ∨ ∀ f ∈ fs, f.head.len ≤ max_payload)
    {chunks : List Bytes} (hcut : chunks.flatten = wire_bytes fs) :
    (WsFrameParser.push_all max_payload chunks).1 = messages.map (·.first) := by
  -- nothing is refused, so the cut does not matter
  have hempty : (WsFrameParser.scanner max_payload).scan [] = ([], some []) :=
    Scanner.scan_wait _ rfl
  have hscan := scan_wire_bytes [] fs hcap
  rw [hempty, List.append_nil, List.append_nil, sending_payloads h] at hscan
  rw [WsFrameParser.push_all_eq, Scanner.push_all_eq_scan, hcut, hscan]
  rw [hcut, hscan]
  simp

/-! ### Records -/

/-- The payloads of one direction, one after the other: the state they leave
    and the records they yield. -/
def live_records (from_str : String → Option Value) (frame : Bytes → LiveFrame)
    (s : WsTurnState) (payloads : List Bytes) : WsTurnState × List TurnRecord :=
  payloads.foldl
    (fun st payload =>
      let stepped := live_step from_str st.1 (frame payload)
      (stepped.1, st.2 ++ stepped.2.toList))
    (s, [])

/-- Messages as they are fragmented, and each in one frame, however either is
    cut. What the fragments deliver is the first of each message, so they
    deliver the messages exactly when the others carry nothing. Then the
    records are the same in either direction and from any state. -/
theorem ws_fragments_delivered (from_str : String → Option Value) {max_payload : Nat}
    {messages : List WsMessage} {fragmented single : List WsFrame}
    (hfragmented : Sending messages fragmented)
    (hsingle : Sending (messages.map WsMessage.whole) single)
    (hcap : max_payload = 0 ∨ ∀ f ∈ fragmented ++ single, f.head.len ≤ max_payload)
    {chunks chunks' : List Bytes} (hcut : chunks.flatten = wire_bytes fragmented)
    (hcut' : chunks'.flatten = wire_bytes single) :
    let delivered := (WsFrameParser.push_all max_payload chunks).1
    let sent := (WsFrameParser.push_all max_payload chunks').1
    delivered = messages.map (·.first) ∧ sent = messages.map WsMessage.payload ∧
      (delivered = sent ↔ ∀ m ∈ messages, m.rest.flatten = []) ∧
      ((∀ m ∈ messages, m.rest.flatten = []) → ∀ frame s,
        live_records from_str frame s delivered = live_records from_str frame s sent) := by
  have hfirst : (WsFrameParser.push_all max_payload chunks).1 = messages.map (·.first) :=
    push_all_sending hfragmented
      (hcap.imp_right fun h f hf => h f (List.mem_append_left single hf)) hcut
  have hwhole : (WsFrameParser.push_all max_payload chunks').1 = messages.map WsMessage.payload := by
    rw [push_all_sending hsingle
      (hcap.imp_right fun h f hf => h f (List.mem_append_right fragmented hf)) hcut', List.map_map]
    rfl
  -- message by message: `first = first ++ rest.flatten`
  have hiff : messages.map (·.first) = messages.map WsMessage.payload
      ↔ ∀ m ∈ messages, m.rest.flatten = [] := by
    rw [List.map_inj_left]
    constructor
    · intro h m hm
      exact List.self_eq_append_right.mp (h m hm)
    · intro h m hm
      exact List.self_eq_append_right.mpr (h m hm)
  dsimp only
  rw [hfirst, hwhole]
  refine ⟨rfl, rfl, hiff, ?_⟩
  intro hnothing frame s
  rw [hiff.mpr hnothing]

/-- An unmasked frame with a short payload. -/
def short_frame (b0 : UInt8) (payload : Bytes) (h : payload.length ≤ 125) : WsFrame where
  head := ⟨b0, none, .seven, payload.length, h⟩
  payload := payload
  fills := rfl
  in_memory := by
    show payload.length < 2 ^ 63
    omega

theorem short_continues (payload : Bytes) (h : payload.length ≤ 125) :
    Continues [payload] [short_frame 0x80 payload h] :=
  Continues.last (f := short_frame 0x80 payload h) rfl

theorem short_single (payload : Bytes) (h : payload.length ≤ 125) :
    Sending [⟨payload, []⟩] [short_frame 0x81 payload h] :=
  .message (MessageFrames.single (f := short_frame 0x81 payload h) rfl) .done

theorem short_fragmented (first : Bytes) (h : first.length ≤ 125) {fragments : List Bytes}
    {fs : List WsFrame} (hrest : Continues fragments fs) :
    Sending [⟨first, fragments⟩] (short_frame 0x01 first h :: fs) := by
  have hmessage := MessageFrames.fragmented (f := short_frame 0x01 first h) rfl hrest
  have hsent := Sending.message hmessage .done
  rw [List.append_nil] at hsent
  exact hsent

/-- Two letters, a ping behind them and an empty last fragment. -/
def empty_tail : List WsFrame :=
  [short_frame 0x01 [0x68, 0x69] (by decide), short_frame 0x89 [] (by decide),
    short_frame 0x80 [] (by decide)]

/-- The two letters in two fragments. -/
def two_fragments : List WsFrame :=
  [short_frame 0x01 [0x68] (by decide), short_frame 0x80 [0x69] (by decide)]

/-- The two letters in one frame. -/
def one_frame : List WsFrame := [short_frame 0x81 [0x68, 0x69] (by decide)]

theorem empty_tail_sends : Sending [⟨[0x68, 0x69], [[]]⟩] empty_tail := by
  have hping : ControlFrame (short_frame 0x89 [] (by decide)) := by
    constructor <;> decide
  exact short_fragmented _ _ (.control hping (short_continues [] _))

/-- An empty fragment takes nothing away. -/
theorem ws_fragments_delivered_empty :
    (WsFrameParser.push_all 0 [wire_bytes empty_tail]).1
      = (WsFrameParser.push_all 0 [wire_bytes one_frame]).1 := by
  have hsingle := short_single [0x68, 0x69] (by decide)
  have hcut : [wire_bytes empty_tail].flatten = wire_bytes empty_tail := List.flatten_singleton
  have hcut' : [wire_bytes one_frame].flatten = wire_bytes one_frame := List.flatten_singleton
  exact (ws_fragments_delivered (fun _ => none) empty_tail_sends hsingle (Or.inl rfl)
    hcut hcut').2.2.1.mpr (by simp)

/-- A message in two fragments loses the second. -/
theorem ws_fragment_lost :
    let fragmented : WsMessage := ⟨[0x68], [[0x69]]⟩
    Sending [fragmented] two_fragments ∧ Sending [fragmented.whole] one_frame ∧
      (WsFrameParser.push_all 0 [wire_bytes two_fragments]).1 = [[0x68]] ∧
      (WsFrameParser.push_all 0 [wire_bytes one_frame]).1 = [[0x68, 0x69]] := by
  intro fragmented
  have hfragmented : Sending [fragmented] two_fragments :=
    short_fragmented _ _ (short_continues [0x69] (by decide))
  have hsingle : Sending [fragmented.whole] one_frame := short_single [0x68, 0x69] (by decide)
  exact ⟨hfragmented, hsingle,
    push_all_sending hfragmented (Or.inl rfl) List.flatten_singleton,
    push_all_sending hsingle (Or.inl rfl) List.flatten_singleton⟩

end AgentTraceGateway
