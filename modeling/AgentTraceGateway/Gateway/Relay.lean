import AgentTraceGateway.Gateway.Logging

/-! # The Owned Relay

  With `drain.on_cancel` the gateway relays a request itself. It buffers the
  upload, sends it, writes the response head and pumps the body. A failed
  head write, a failed body write or the idle probe tells that the client is
  gone; from then on the upstream is read to its end, within the drain
  window, and nothing is forwarded.

  What happens outside is data: an exchange lists what the upload, the
  upstream and the downstream do, and when. Stream items carry the delay
  since the item before, so the upstream's pace does not depend on the
  relay's. Instants are nanoseconds and timers are exact. Header copying and
  the choice of the upstream address are not modelled here. -/

namespace AgentTraceGateway

/-! ### The world of one relayed request -/

/-- One item of the upstream body stream. -/
inductive Frame where
  | chunk (bytes : Bytes)
  | stop
  | failed (error : String)
  deriving DecidableEq, Repr

/-- A stream item: its delay after the item before, what a downstream write
    of it does and how long that takes, and the capture cap in force. -/
structure PumpItem where
  delay : Nat
  frame : Frame
  write_ok : Bool
  took : Nat
  cap : CaptureCap

/-- What the pump meets, in the order it meets it. `probe` is the downstream
    read half failing. -/
inductive PumpInput where
  | item (i : PumpItem)
  | probe (time : Nat)

/-- The response head, and what writing it downstream does. -/
structure UpstreamHead where
  status : UInt16
  content_type : Option Bytes
  build_error : Option String
  head_request : Bool
  arrived : Nat
  write_ok : Bool
  took : Nat

/-- A response without a body: by status, or to a HEAD request. -/
def UpstreamHead.no_body_status (head : UpstreamHead) : Bool :=
  head.status == 204 || head.status == 304 || head.head_request

/-- All that happens to one relayed request. -/
structure Exchange where
  upload : List Bytes
  upload_aborted : Bool
  sent : Except String UpstreamHead
  inputs : List PumpInput

/-- The context of a request that has just come in, as `new_ctx` builds it. -/
def Ctx.fresh (snap : Snapshot) (start_ns : UInt64) : Ctx := { snap := snap, start_ns := start_ns }

/-! ### The relay's state -/

/-- The relay between two operations. `written` is what went to the
    downstream writer, `found_dead` the instant the client was found dead. -/
structure RelayState where
  ctx : Ctx
  now : Nat := 0
  ready : Nat := 0
  drain_deadline : Option Nat := none
  upstream_failed : Bool := false
  end_seen : Bool := false
  responded : Option UInt16 := none
  written : Bytes := []
  terminated : Bool := false
  found_dead : Option Nat := none

/-- How a relay stops: it returns, it panics, or it waits for an upstream
    and a client that both stay silent. -/
inductive RelayEnd where
  | returned (s : RelayState)
  | panicked (s : RelayState)
  | waiting (s : RelayState)

def RelayEnd.state : RelayEnd → RelayState
  | .returned s => s
  | .panicked s => s
  | .waiting s => s

/-- `Instant + Duration`: the seconds must fit an `i64`, or the addition
    panics. -/
def deadline_after (now : Nat) (timeout_secs : UInt64) : Option Nat :=
  if now / 1000000000 + timeout_secs.toNat < 2 ^ 63 then
    some (now + 1000000000 * timeout_secs.toNat)
  else none

/-- Bounded raw capture while draining: bytes stop at the cap. -/
def drain_capture (cap : CaptureCap) (ctx : Ctx) (bytes : Bytes) : Ctx :=
  let room := cap.max_bytes - ctx.resp_buf.length
  let take := min room bytes.length
  { ctx with
    resp_buf := ctx.resp_buf ++ bytes.take take
    drain_overflow := ctx.drain_overflow + (bytes.length - take) }

section relaying

-- The JSON parser, and the wall clock (`now_ns`) at an instant.
variable (from_str : String → Option Value) (wall : Nat → UInt64)

/-- Enter the drain window: seed the accumulator with what was captured so
    far, once, and compute the deadline. -/
def begin_drain (d : ProtocolDescriptor) (now : Nat) (ctx : Ctx) : Ctx × Option Nat :=
  let ctx :=
    if ctx.drain_acc.isNone && looks_like_sse ctx.resp_content_type then
      let (acc, tail) := drain_feed from_str d ({}, ctx.drain_tail) ctx.resp_buf
      { ctx with drain_acc := some acc, drain_tail := tail }
    else ctx
  (ctx, deadline_after now ctx.snap.timeout_secs)

theorem begin_drain_deadline (d : ProtocolDescriptor) (now : Nat) (ctx : Ctx) :
    (begin_drain from_str d now ctx).2 = deadline_after now ctx.snap.timeout_secs := by
  unfold begin_drain
  dsimp only
  split <;> rfl

namespace RelayState

/-- The client is found dead. -/
def mark_dead (s : RelayState) : RelayState :=
  { s with ctx := { s.ctx with client_dead := true }, found_dead := some s.now }

/-- A body write or the probe failed: leave the loop, or start to drain. -/
def client_gone (d : ProtocolDescriptor) (s : RelayState) : Except RelayEnd RelayState :=
  let s := s.mark_dead
  if s.ctx.snap.on_cancel then
    let (ctx, deadline) := begin_drain from_str d s.now s.ctx
    match deadline with
    | some deadline => .ok { s with ctx := ctx, drain_deadline := some deadline }
    | none => .error (.panicked { s with ctx := ctx })
  else .error (.returned s)

/-- A chunk while draining: bounded capture, and incremental parsing. -/
def drain_chunk (d : ProtocolDescriptor) (s : RelayState) (cap : CaptureCap) (bytes : Bytes) :
    RelayState :=
  let ctx := drain_capture cap s.ctx bytes
  let acc :=
    if ctx.drain_acc.isNone && looks_like_sse ctx.resp_content_type then some {}
    else ctx.drain_acc
  match acc with
  | some acc =>
    let (acc, tail) := drain_feed from_str d (acc, ctx.drain_tail) bytes
    { s with ctx := { ctx with drain_acc := some acc, drain_tail := tail } }
  | none => { s with ctx := ctx }

/-- A chunk while the client is believed alive: capture and forward. -/
def forward_chunk (d : ProtocolDescriptor) (s : RelayState) (i : PumpItem) (bytes : Bytes) :
    Except RelayEnd RelayState :=
  let s := { s with
    ctx := { s.ctx with resp_buf := s.ctx.resp_buf ++ bytes }
    written := s.written ++ bytes
    now := s.now + i.took }
  if i.write_ok then .ok s else s.client_gone from_str d

/-- The first non-empty chunk is the first output. -/
def latch_first_output (s : RelayState) (bytes : Bytes) : RelayState :=
  if s.ctx.first_output_ns.isNone && !bytes.isEmpty then
    { s with ctx := { s.ctx with first_output_ns := some (wall s.now) } }
  else s

/-- One stream item has come in. -/
def take_frame (d : ProtocolDescriptor) (s : RelayState) (i : PumpItem) :
    Except RelayEnd RelayState :=
  match i.frame with
  | .stop => .error (.returned { s with end_seen := true })
  | .failed e =>
    .error (.returned { s with
      ctx := { s.ctx with relay_error := some ("proxy_error: upstream read: " ++ e) }
      upstream_failed := true })
  | .chunk bytes =>
    let s := s.latch_first_output wall bytes
    if !s.ctx.client_dead then s.forward_chunk from_str d i bytes
    else if s.ctx.snap.on_cancel then .ok (s.drain_chunk from_str d i.cap bytes)
    else .error (.returned s)

/-- How long a drain waits for the next item. Without a deadline the wait is
    over at once. -/
def wait_limit (s : RelayState) : Nat := max s.now (s.drain_deadline.getD s.now)

/-- The drain window closes. -/
def time_out (s : RelayState) : RelayState :=
  { s with now := s.wait_limit, ctx := { s.ctx with drain_timed_out := true } }

end RelayState

/-- The body pump. A live pump watches both sides; a draining one waits for
    the upstream only, up to its limit. -/
def pump (d : ProtocolDescriptor) : RelayState → List PumpInput → RelayEnd
  | s, [] => if s.ctx.client_dead then .returned s.time_out else .waiting s
  | s, .probe time :: rest =>
    if s.ctx.client_dead then pump d s rest
    else
      match ({ s with now := max s.now time } : RelayState).client_gone from_str d with
      | .ok s => pump d s rest
      | .error stopped => stopped
  | s, .item i :: rest =>
    let ready := s.ready + i.delay
    if s.ctx.client_dead ∧ s.wait_limit < ready then .returned s.time_out
    else
      match ({ s with now := max s.now ready, ready := ready } : RelayState).take_frame
          from_str wall d i with
      | .ok s => pump d s rest
      | .error stopped => stopped

/-- Response end: mark completeness, end the downstream body, close the
    delivery stage. -/
def RelayState.finish (s : RelayState) : RelayState :=
  { s with
    terminated := !s.ctx.client_dead && !s.upstream_failed
    ctx := { s.ctx with
      response_complete := s.ctx.response_complete || (s.end_seen && !s.upstream_failed)
      body_end_ns := s.ctx.body_end_ns.or (some (wall s.now))
      relay_done := true } }

/-- The relay is over before the body: the marker tells why. -/
def RelayState.fail (s : RelayState) (marker : String) : RelayState :=
  { s with ctx := { s.ctx with relay_error := some marker, relay_done := true } }

/-- The response head is in. -/
def RelayState.receive_head (s : RelayState) (head : UpstreamHead) : RelayState :=
  { s with
    now := head.arrived
    ready := head.arrived
    ctx := { s.ctx with
      resp_status := head.status
      resp_content_type :=
        match head.content_type with
        | some v => (HeaderMap.value_to_str v).getD ""
        | none => s.ctx.resp_content_type } }

/-- The head has been written, or the write failed. A failed write marks the
    client dead and leaves the drain deadline unset. -/
def RelayState.write_head (s : RelayState) (head : UpstreamHead) : RelayState :=
  let s := { s with now := s.now + head.took, end_seen := head.no_body_status }
  if head.write_ok then s else s.mark_dead

/-- The response body, after the head. -/
def relay_body (d : ProtocolDescriptor) (s : RelayState) (inputs : List PumpInput) : RelayEnd :=
  if s.end_seen then .returned (s.finish wall)
  else
    match pump from_str wall d s inputs with
    | .returned s => .returned (s.finish wall)
    | stopped => stopped

def relay (d : ProtocolDescriptor) (x : Exchange) (ctx : Ctx) : RelayEnd :=
  let s : RelayState := { ctx := { ctx with req_buf := ctx.req_buf ++ x.upload.flatten } }
  if x.upload_aborted then
    -- the request never became a turn
    .returned { s with ctx := { s.ctx with client_dead := true } }
  else
    match x.sent with
    | .error e => .returned { s.fail ("proxy_error: connect: " ++ e) with responded := some 502 }
    | .ok head =>
      let s := s.receive_head head
      match head.build_error with
      | some e => .returned (s.fail ("proxy_error: response head: " ++ e))
      | none =>
        let s := s.write_head head
        if !head.write_ok && !s.ctx.snap.on_cancel then
          .returned { s with ctx := { s.ctx with relay_done := true } }
        else relay_body from_str wall d s x.inputs

end relaying

/-! ### Routing -/

/-- A request that `request_filter` gives to the relay: draining is on and
    the path is a protocol's. The rest is what the exchange and `logging`
    meet. -/
structure RelayedRequest where
  path : String
  headers : HeaderMap
  matched : PathMatch
  detected : detect_path path = some matched
  snap : Snapshot
  gated : snap.on_cancel = true
  exchange : Exchange
  start_ns : UInt64
  wall : Nat → UInt64
  now_ns : UInt64
  instant : Nat
  order : StitchOrder

namespace RelayedRequest

/-- The relay of the request. -/
def outcome (from_str : String → Option Value) (r : RelayedRequest) : RelayEnd :=
  relay from_str r.wall r.matched.descriptor r.exchange (Ctx.fresh r.snap r.start_ns)

/-- The turn `logging` finds; a relayed request surfaces without a session
    error. -/
def turn (r : RelayedRequest) (s : RelayState) : Turn where
  path := r.path
  headers := r.headers
  error := none
  ctx := s.ctx
  now_ns := r.now_ns
  instant := r.instant
  order := r.order

/-- The gateway after the request. A panicked relay takes its request with
    it, before the logging hook. -/
def after (sha256 : Bytes → Digest) (from_str : String → Option Value) (r : RelayedRequest)
    (gw : Gateway) : Gateway :=
  match r.outcome from_str with
  | .returned s => logging sha256 from_str gw (r.turn s)
  | .panicked _ => gw
  | .waiting _ => gw

end RelayedRequest

end AgentTraceGateway
