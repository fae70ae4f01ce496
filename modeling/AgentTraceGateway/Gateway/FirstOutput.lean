import AgentTraceGateway.Gateway.Delivery
import AgentTraceGateway.Gateway.Intake
import AgentTraceGateway.Gateway.Records

/-! # The First Output Time

  A response is stamped with the time of its first body byte. The time to
  first byte is observed from that stamp, and streamed turns and shell
  records export it. The relay latches it: a chunk is stamped while there is
  no stamp. The pump path asks instead whether anything has been captured,
  and a gateway with tracing off captures nothing: there every chunk looks
  like the first one.

  What a delivery should be stamped with is `first_byte_ns` of its chunks,
  and `Stamps` says that a stretch of it was. -/

namespace AgentTraceGateway

/-! ### Chunks and their times -/

/-- A chunk of a response body, with the time at which it is seen. -/
structure StampedChunk where
  bytes : Bytes
  time : UInt64
  deriving DecidableEq, Repr

/-- The time of the first byte: of the first chunk that is not empty. -/
def first_byte_ns (chunks : List StampedChunk) : Option UInt64 :=
  (chunks.find? fun c => !c.bytes.isEmpty).map StampedChunk.time

theorem first_byte_ns_append (a b : List StampedChunk) :
    first_byte_ns (a ++ b) = (first_byte_ns a).or (first_byte_ns b) := by
  unfold first_byte_ns
  rw [List.find?_append]
  cases a.find? fun c => !c.bytes.isEmpty <;> rfl

/-- An empty chunk carries no first byte. -/
theorem first_byte_ns_empty {c : StampedChunk} (h : c.bytes.isEmpty = true) :
    first_byte_ns [c] = none := by
  simp [first_byte_ns, h]

theorem first_byte_ns_single {c : StampedChunk} (h : c.bytes.isEmpty = false) :
    first_byte_ns [c] = some c.time := by
  simp [first_byte_ns, h]

theorem first_byte_ns_mem {chunks : List StampedChunk} {t : UInt64}
    (h : first_byte_ns chunks = some t) :
    ∃ c ∈ chunks, c.bytes.isEmpty = false ∧ c.time = t := by
  obtain ⟨c, hfind, rfl⟩ := Option.map_eq_some_iff.mp h
  refine ⟨c, List.mem_of_find?_eq_some hfind, ?_, rfl⟩
  simpa using List.find?_some hfind

/-- A first byte stays the first byte. -/
theorem first_byte_ns_front {a b : List StampedChunk} (h : a <+: b) {t : UInt64}
    (ht : first_byte_ns a = some t) : first_byte_ns b = some t := by
  obtain ⟨rest, rfl⟩ := h
  rw [first_byte_ns_append, ht]
  rfl

/-- A stretch of a delivery stamps its first byte, unless there is a stamp
    already. -/
structure Stamps (chunks : List StampedChunk) (ctx ctx' : Ctx) : Prop where
  start : ctx'.start_ns = ctx.start_ns
  first : ctx'.first_output_ns = ctx.first_output_ns.or (first_byte_ns chunks)

namespace Stamps

/-- A stretch without a chunk leaves the stamp alone. -/
theorem nothing {ctx ctx' : Ctx} (hstart : ctx'.start_ns = ctx.start_ns)
    (hfirst : ctx'.first_output_ns = ctx.first_output_ns) : Stamps [] ctx ctx' :=
  ⟨hstart, by rw [hfirst]; exact Option.or_none.symm⟩

theorem trans {a b : List StampedChunk} {ctx₁ ctx₂ ctx₃ : Ctx} (h₁ : Stamps a ctx₁ ctx₂)
    (h₂ : Stamps b ctx₂ ctx₃) : Stamps (a ++ b) ctx₁ ctx₃ :=
  ⟨h₂.start.trans h₁.start, by rw [h₂.first, h₁.first, first_byte_ns_append, Option.or_assoc]⟩

end Stamps

/-! ### The relay -/

section relayed

variable (from_str : String → Option Value) (wall : Nat → UInt64)

/-- The chunk the pump takes with an input, at the wall time it takes it. -/
def PumpInput.taken (s : RelayState) : PumpInput → List StampedChunk
  | .probe _ => []
  | .item i =>
    if s.ctx.client_dead ∧ s.wait_limit < s.ready + i.delay then []
    else
      match i.frame with
      | .chunk bytes => [⟨bytes, wall (max s.now (s.ready + i.delay))⟩]
      | .stop => []
      | .failed _ => []

/-- The chunks the pump takes until it stops. -/
def pump_chunks (d : ProtocolDescriptor) : RelayState → List PumpInput → List StampedChunk
  | _, [] => []
  | s, input :: rest =>
    input.taken wall s ++
      match pump_event from_str wall d s input with
      | .ok s => pump_chunks d s rest
      | .error _ => []

/-- More input adds chunks behind those taken before. -/
theorem pump_chunks_front (d : ProtocolDescriptor) (more : List PumpInput) :
    ∀ (inputs : List PumpInput) (s : RelayState),
      pump_chunks from_str wall d s inputs <+: pump_chunks from_str wall d s (inputs ++ more) := by
  intro inputs
  induction inputs with
  | nil =>
    intro s
    exact List.nil_prefix
  | cons input rest ih =>
    intro s
    rw [List.cons_append, pump_chunks, pump_chunks]
    rw [List.prefix_append_right_inj]
    cases pump_event from_str wall d s input with
    | ok s₁ => exact ih s₁
    | error stopped => exact List.nil_prefix

/-- The latch stamps a chunk that is not empty, once. -/
theorem latch_stamps (s : RelayState) (bytes : Bytes) :
    Stamps [⟨bytes, wall s.now⟩] s.ctx (s.latch_first_output wall bytes).ctx := by
  unfold RelayState.latch_first_output
  cases hempty : bytes.isEmpty with
  | true =>
    refine ⟨by simp, ?_⟩
    rw [first_byte_ns_empty hempty]
    simp
  | false =>
    cases hfirst : s.ctx.first_output_ns with
    | none =>
      refine ⟨rfl, ?_⟩
      rw [first_byte_ns_single hempty, hfirst]
      rfl
    | some t =>
      refine ⟨rfl, ?_⟩
      rw [hfirst]
      exact hfirst

theorem client_gone_stamps (d : ProtocolDescriptor) (s : RelayState) :
    Stamps [] s.ctx (step_state (s.client_gone from_str d)).ctx := by
  obtain ⟨acc, tail, hframe⟩ := client_gone_frame from_str d s
  rw [hframe]
  exact .nothing rfl rfl

/-- A chunk is stamped before it is forwarded or drained. -/
theorem chunk_stamps (d : ProtocolDescriptor) (s : RelayState) {i : PumpItem} {bytes : Bytes}
    (hframe : i.frame = .chunk bytes) :
    Stamps [⟨bytes, wall s.now⟩] s.ctx (step_state (s.take_frame from_str wall d i)).ctx := by
  have hlatch := latch_stamps wall s bytes
  unfold RelayState.take_frame
  rw [hframe]
  dsimp only
  generalize s.latch_first_output wall bytes = s₁ at hlatch ⊢
  split
  · -- forwarded: a failed write finds the client gone
    unfold RelayState.forward_chunk
    dsimp only
    split
    · exact ⟨hlatch.start, hlatch.first⟩
    · have hkept : Stamps [⟨bytes, wall s.now⟩] s.ctx
          { s₁.ctx with resp_buf := s₁.ctx.resp_buf ++ bytes } := ⟨hlatch.start, hlatch.first⟩
      have hgone := client_gone_stamps from_str d
        ({ s₁ with
          ctx := { s₁.ctx with resp_buf := s₁.ctx.resp_buf ++ bytes }
          written := s₁.written ++ bytes
          now := s₁.now + i.took } : RelayState)
      exact hkept.trans hgone
  · split
    · obtain ⟨buf, overflow, acc, tail, hdrain⟩ := drain_chunk_frame from_str d s₁ i.cap bytes
      rw [hdrain]
      exact ⟨hlatch.start, hlatch.first⟩
    · exact hlatch

/-- One event stamps what it takes. -/
theorem pump_event_stamps (d : ProtocolDescriptor) (s : RelayState) (input : PumpInput) :
    Stamps (input.taken wall s) s.ctx (step_state (pump_event from_str wall d s input)).ctx := by
  cases input with
  | probe time =>
    rw [pump_event, PumpInput.taken]
    by_cases hdead : s.ctx.client_dead = true
    · rw [if_pos hdead]
      exact .nothing rfl rfl
    · rw [if_neg hdead]
      exact client_gone_stamps from_str d ({ s with now := max s.now time } : RelayState)
  | item i =>
    rw [pump_event, PumpInput.taken]
    by_cases hlate : s.ctx.client_dead = true ∧ s.wait_limit < s.ready + i.delay
    · rw [if_pos hlate, if_pos hlate]
      exact .nothing rfl rfl
    · rw [if_neg hlate, if_neg hlate]
      cases hframe : i.frame with
      | stop =>
        rw [take_frame_stop from_str wall _ hframe]
        exact .nothing rfl rfl
      | failed error =>
        rw [take_frame_failed from_str wall _ hframe]
        exact .nothing rfl rfl
      | chunk bytes =>
        exact chunk_stamps from_str wall d
          ({ s with now := max s.now (s.ready + i.delay), ready := s.ready + i.delay }
            : RelayState) hframe

/-- A run of the pump stamps the first byte of what it takes. -/
theorem pump_stamps (d : ProtocolDescriptor) : ∀ (inputs : List PumpInput) (s : RelayState),
    Stamps (pump_chunks from_str wall d s inputs) s.ctx
      (pump from_str wall d s inputs).state.ctx := by
  intro inputs
  induction inputs with
  | nil =>
    intro s
    rw [pump, pump_chunks]
    split
    · exact .nothing rfl rfl
    · exact .nothing rfl rfl
  | cons input rest ih =>
    intro s
    have hevent := pump_event_stamps from_str wall d s input
    rw [pump_cons, pump_chunks]
    cases hstep : pump_event from_str wall d s input with
    | ok s₁ =>
      rw [hstep] at hevent
      exact hevent.trans (ih s₁)
    | error stopped =>
      rw [hstep] at hevent
      dsimp only
      rw [List.append_nil]
      exact hevent

/-- The epilogue stamps nothing. -/
theorem relay_body_stamps (d : ProtocolDescriptor) {s : RelayState} (hbody : s.end_seen = false)
    (inputs : List PumpInput) :
    Stamps (pump_chunks from_str wall d s inputs) s.ctx
      (relay_body from_str wall d s inputs).state.ctx := by
  have hpump := pump_stamps from_str wall d inputs s
  unfold relay_body
  rw [hbody, if_neg Bool.false_ne_true]
  split
  · rename_i s' hreturned
    rw [hreturned] at hpump
    exact ⟨hpump.start, hpump.first⟩
  · exact hpump

/-- The chunks that a relayed request takes. -/
def RelayedRequest.chunks (r : RelayedRequest) : List StampedChunk :=
  match r.body_start with
  | some s => pump_chunks from_str r.wall r.matched.descriptor s r.exchange.inputs
  | none => []

/-- The same request as far as some inputs. -/
def RelayedRequest.upto (r : RelayedRequest) (inputs : List PumpInput) : RelayedRequest :=
  { r with exchange := r.exchange.upto inputs }

theorem relayed_chunks_front (r : RelayedRequest) (inputs more : List PumpInput) :
    (r.upto inputs).chunks from_str <+: (r.upto (inputs ++ more)).chunks from_str := by
  have hstart : ∀ inputs, (r.upto inputs).body_start = r.body_start := fun _ => rfl
  unfold RelayedRequest.chunks
  rw [hstart, hstart]
  cases r.body_start with
  | none => exact List.nil_prefix
  | some s => exact pump_chunks_front from_str r.wall r.matched.descriptor more inputs s

/-- A relay stamps the first byte of the response it takes. -/
theorem outcome_stamps (r : RelayedRequest) :
    Stamps (r.chunks from_str) (Ctx.fresh r.snap r.start_ns) (r.outcome from_str).state.ctx := by
  unfold RelayedRequest.chunks
  cases hstart : r.body_start with
  | none =>
    have hunread := outcome_unread from_str hstart
    exact .nothing hunread.start hunread.first
  | some s =>
    obtain ⟨hbody, hunread, hout⟩ := outcome_body from_str hstart
    have hhead : Stamps [] (Ctx.fresh r.snap r.start_ns) s.ctx :=
      .nothing hunread.start hunread.first
    rw [hout]
    exact hhead.trans (relay_body_stamps from_str r.wall r.matched.descriptor hbody
      r.exchange.inputs)

end relayed

/-! ### The pump path -/

/-- One call of `response_body_filter`, and what the clock reads in it: for
    the end of the body, and for its chunk. -/
structure FilterCall where
  body : Option Bytes
  last : Bool
  end_ns : UInt64
  now_ns : UInt64

def FilterCall.chunk (c : FilterCall) : List StampedChunk :=
  c.body.toList.map fun b => ⟨b, c.now_ns⟩

/-- `response_body_filter` on a connection that is not upgraded. -/
def Ctx.response_body_filter (trace_off : Bool) (ctx : Ctx) (c : FilterCall) : Ctx :=
  let ctx :=
    if c.last then
      { ctx with
        response_complete := true
        body_end_ns := ctx.body_end_ns.or (some c.end_ns) }
    else ctx
  match c.body with
  | none => ctx
  | some b =>
    let ctx :=
      if ctx.resp_buf.isEmpty && !b.isEmpty then { ctx with first_output_ns := some c.now_ns }
      else ctx
    -- tracing off: no capture, so the next chunk finds the buffer empty again
    if !trace_off then { ctx with resp_buf := ctx.resp_buf ++ b } else ctx

/-- The filter over a whole response. -/
def Ctx.filter_body (trace_off : Bool) (ctx : Ctx) (calls : List FilterCall) : Ctx :=
  calls.foldl (Ctx.response_body_filter trace_off) ctx

/-- What one call leaves. -/
theorem response_body_filter_spec (trace_off : Bool) (ctx : Ctx) (c : FilterCall) :
    (ctx.response_body_filter trace_off c).start_ns = ctx.start_ns
      ∧ (ctx.response_body_filter trace_off c).resp_buf
        = ctx.resp_buf ++ (if trace_off then [] else c.body.getD [])
      ∧ (ctx.response_body_filter trace_off c).first_output_ns
        = if ctx.resp_buf.isEmpty then (first_byte_ns c.chunk).or ctx.first_output_ns
          else ctx.first_output_ns := by
  unfold Ctx.response_body_filter FilterCall.chunk
  generalize hctx : (if c.last = true then
    { ctx with response_complete := true, body_end_ns := ctx.body_end_ns.or (some c.end_ns) }
    else ctx) = ctx₁
  have hsame : ctx₁.start_ns = ctx.start_ns ∧ ctx₁.resp_buf = ctx.resp_buf
      ∧ ctx₁.first_output_ns = ctx.first_output_ns := by
    rw [← hctx]
    split <;> exact ⟨rfl, rfl, rfl⟩
  obtain ⟨hstart, hbuf, hfirst⟩ := hsame
  cases c.body with
  | none =>
    refine ⟨hstart, by simp [hbuf], by simp [first_byte_ns, hfirst]⟩
  | some b =>
    dsimp only
    rw [hbuf]
    cases hempty : b.isEmpty with
    | true =>
      have hnone : first_byte_ns [⟨b, c.now_ns⟩] = none := first_byte_ns_empty hempty
      cases trace_off <;> simp [hstart, hbuf, hfirst, hnone]
    | false =>
      have hsome : first_byte_ns [⟨b, c.now_ns⟩] = some c.now_ns := first_byte_ns_single hempty
      cases trace_off <;> cases ctx.resp_buf.isEmpty <;> simp [hstart, hbuf, hfirst, hsome]

/-- If every call stamps what it sees under an invariant, the response is
    stamped. -/
theorem filter_body_stamps {trace_off : Bool} (Inv : Ctx → Prop) :
    ∀ (calls : List FilterCall) (ctx : Ctx), Inv ctx →
      (∀ c ∈ calls, ∀ ctx, Inv ctx →
        Stamps c.chunk ctx (ctx.response_body_filter trace_off c)
          ∧ Inv (ctx.response_body_filter trace_off c)) →
      Stamps (calls.flatMap FilterCall.chunk) ctx (ctx.filter_body trace_off calls) := by
  intro calls
  induction calls with
  | nil =>
    intro ctx _ _
    exact .nothing rfl rfl
  | cons c rest ih =>
    intro ctx hinv hstep
    obtain ⟨hstamps, hnext⟩ := hstep c List.mem_cons_self ctx hinv
    rw [List.flatMap_cons]
    exact hstamps.trans (ih _ hnext fun c' hc' => hstep c' (List.mem_cons_of_mem c hc'))

/-! Tracing on: the buffer is empty until there is a stamp. -/

theorem filter_call_captured (ctx : Ctx) (c : FilterCall)
    (hinv : ctx.resp_buf.isEmpty = ctx.first_output_ns.isNone) :
    Stamps c.chunk ctx (ctx.response_body_filter false c)
      ∧ (ctx.response_body_filter false c).resp_buf.isEmpty
        = (ctx.response_body_filter false c).first_output_ns.isNone := by
  obtain ⟨hstart, hbuf, hfirst⟩ := response_body_filter_spec false ctx c
  rw [if_neg Bool.false_ne_true] at hbuf
  cases hstamp : ctx.first_output_ns with
  | some t =>
    rw [hstamp, Option.isNone_some] at hinv
    rw [hinv, if_neg Bool.false_ne_true, hstamp] at hfirst
    refine ⟨⟨hstart, by rw [hfirst, hstamp]; rfl⟩, ?_⟩
    rw [hfirst, List.isEmpty_eq_false_iff.mpr]
    · rfl
    · rw [hbuf]
      exact List.append_ne_nil_of_left_ne_nil (List.isEmpty_eq_false_iff.mp hinv) _
  | none =>
    rw [hstamp, Option.isNone_none] at hinv
    rw [hinv, if_pos rfl, hstamp, Option.or_none] at hfirst
    refine ⟨⟨hstart, by rw [hfirst, hstamp, Option.none_or]⟩, ?_⟩
    rw [hfirst, hbuf, List.isEmpty_iff.mp hinv, List.nil_append]
    unfold FilterCall.chunk
    cases c.body with
    | none => rfl
    | some b =>
      cases hempty : b.isEmpty with
      | true => simp [hempty, first_byte_ns]
      | false => simp [hempty, first_byte_ns]

/-! Tracing off: the buffer stays empty, and every chunk is stamped. -/

theorem filter_call_uncaptured {ctx : Ctx} (hbuf : ctx.resp_buf = []) (c : FilterCall) :
    (ctx.response_body_filter true c).resp_buf = []
      ∧ (ctx.response_body_filter true c).first_output_ns
        = (first_byte_ns c.chunk).or ctx.first_output_ns := by
  obtain ⟨-, hbuf', hfirst⟩ := response_body_filter_spec true ctx c
  rw [hbuf] at hbuf' hfirst
  exact ⟨hbuf', hfirst⟩

theorem filter_body_uncaptured : ∀ (calls : List FilterCall) {ctx : Ctx}, ctx.resp_buf = [] →
    (ctx.filter_body true calls).resp_buf = [] := by
  intro calls
  induction calls with
  | nil =>
    intro ctx hbuf
    exact hbuf
  | cons c rest ih =>
    intro ctx hbuf
    exact ih (filter_call_uncaptured hbuf c).1

/-- The chunks that are not empty bear one reading of the clock. -/
def OneReading (chunks : List StampedChunk) : Prop :=
  ∀ a ∈ chunks, ∀ b ∈ chunks, a.bytes.isEmpty = false → b.bytes.isEmpty = false → a.time = b.time

/-- Under one reading the stamps behind the first change nothing. -/
theorem filter_call_one_reading {chunks : List StampedChunk} (hone : OneReading chunks)
    {ctx : Ctx} {c : FilterCall} (hmem : ∀ a ∈ c.chunk, a ∈ chunks) (hbuf : ctx.resp_buf = [])
    (hstamp : ∀ t, ctx.first_output_ns = some t →
      ∀ a ∈ chunks, a.bytes.isEmpty = false → a.time = t) :
    Stamps c.chunk ctx (ctx.response_body_filter true c)
      ∧ ∀ t, (ctx.response_body_filter true c).first_output_ns = some t →
        ∀ a ∈ chunks, a.bytes.isEmpty = false → a.time = t := by
  have hstart := (response_body_filter_spec true ctx c).1
  have hfirst := (filter_call_uncaptured hbuf c).2
  rw [hfirst]
  cases hseen : first_byte_ns c.chunk with
  | none =>
    refine ⟨⟨hstart, by rw [hfirst, hseen, Option.none_or, Option.or_none]⟩, ?_⟩
    exact hstamp
  | some t =>
    obtain ⟨a, ha, hbytes, rfl⟩ := first_byte_ns_mem hseen
    refine ⟨⟨hstart, ?_⟩, ?_⟩
    · rw [hfirst, hseen]
      cases hold : ctx.first_output_ns with
      | none => rfl
      | some t' => exact congrArg some (hstamp t' hold a (hmem a ha) hbytes)
    · intro t ht b hb hb'
      cases ht
      exact hone b hb a (hmem a ha) hb' hbytes

/-! ### Deliveries -/

/-- A request that goes through pingora's pump, from its response head on. -/
structure PumpedResponse where
  path : String
  headers : HeaderMap
  error : Option SessionError
  snap : Snapshot
  start_ns : UInt64
  req_buf : Bytes
  status : UInt16
  content_type : String
  calls : List FilterCall
  now_ns : UInt64
  instant : Nat
  order : StitchOrder

namespace PumpedResponse

/-- The context when the response body starts. -/
def head_ctx (p : PumpedResponse) : Ctx :=
  { Ctx.fresh p.snap p.start_ns with
    req_buf := p.req_buf
    resp_status := p.status
    resp_content_type := p.content_type }

def turn (trace_off : Bool) (p : PumpedResponse) : Turn where
  path := p.path
  headers := p.headers
  error := p.error
  ctx := p.head_ctx.filter_body trace_off p.calls
  now_ns := p.now_ns
  instant := p.instant
  order := p.order

end PumpedResponse

/-- A response is delivered by the pump or by the relay. -/
inductive ResponseDelivery where
  | pumped (p : PumpedResponse)
  | relayed (r : RelayedRequest)

/-- The stage that `exit_request` observes for an identified path. -/
def time_to_first_byte (ctx : Ctx) (identified : Bool) : Option UInt64 :=
  if identified then ctx.first_output_ns.map fun first => saturating_sub first ctx.start_ns
  else none

namespace ResponseDelivery

variable (sha256 : Bytes → Digest) (from_str : String → Option Value)

/-- The same delivery as far as its first events. -/
def upto (n : Nat) : ResponseDelivery → ResponseDelivery
  | .pumped p => .pumped { p with calls := p.calls.take n }
  | .relayed r => .relayed (r.upto (r.exchange.inputs.take n))

/-- The context in front of the response. -/
def head_ctx : ResponseDelivery → Ctx
  | .pumped p => p.head_ctx
  | .relayed r => Ctx.fresh r.snap r.start_ns

def is_relayed : ResponseDelivery → Bool
  | .pumped _ => false
  | .relayed _ => true

def start_ns : ResponseDelivery → UInt64
  | .pumped p => p.start_ns
  | .relayed r => r.start_ns

/-- The chunks of the response, with the times at which they are seen. -/
def chunks : ResponseDelivery → List StampedChunk
  | .pumped p => p.calls.flatMap FilterCall.chunk
  | .relayed r => r.chunks from_str

/-- The context behind the response. The relay captures whatever the mode. -/
def ctx (trace_off : Bool) : ResponseDelivery → Ctx
  | .pumped p => p.head_ctx.filter_body trace_off p.calls
  | .relayed r => (r.outcome from_str).state.ctx

/-- The gateway behind the response. -/
def after (trace_off : Bool) (gw : Gateway) : ResponseDelivery → Gateway
  | .pumped p => logging sha256 from_str gw (p.turn trace_off)
  | .relayed r => r.after sha256 from_str gw

end ResponseDelivery

section stamped

variable (sha256 : Bytes → Digest) (from_str : String → Option Value)

/-- The stamp is the first byte's, from the first byte on, and so are the
    stage and what a streamed turn or a shell record exports. A turn that is
    unpacked at rest exports its start instead. -/
structure FirstByteStamped (trace_off : Bool) (δ : ResponseDelivery) : Prop where
  set : ∀ n, ((δ.upto n).ctx from_str trace_off).first_output_ns
    = first_byte_ns ((δ.upto n).chunks from_str)
  stays : ∀ m n t, m ≤ n → ((δ.upto m).ctx from_str trace_off).first_output_ns = some t →
    ((δ.upto n).ctx from_str trace_off).first_output_ns = some t
  stage : ∀ identified, time_to_first_byte (δ.ctx from_str trace_off) identified
    = if identified then
        (first_byte_ns (δ.chunks from_str)).map fun first => saturating_sub first δ.start_ns
      else none
  exported : ∀ gw record, gw.trace_off = trace_off →
    Pushed gw (δ.after sha256 from_str trace_off gw) record →
    (trace_off = true ∨ looks_like_sse (δ.ctx from_str trace_off).resp_content_type = true) →
    record.completion_start_ns = first_byte_ns (δ.chunks from_str)

/-- More events add chunks behind those seen before. -/
theorem chunks_upto_le (δ : ResponseDelivery) {m n : Nat} (h : m ≤ n) :
    (δ.upto m).chunks from_str <+: (δ.upto n).chunks from_str := by
  cases δ with
  | pumped p =>
    obtain ⟨more, hmore⟩ := List.take_prefix_take_left h (l := p.calls)
    change (p.calls.take m).flatMap FilterCall.chunk <+: (p.calls.take n).flatMap FilterCall.chunk
    rw [← hmore, List.flatMap_append]
    exact List.prefix_append _ _
  | relayed r =>
    obtain ⟨more, hmore⟩ := List.take_prefix_take_left h (l := r.exchange.inputs)
    have hfront := relayed_chunks_front from_str r (r.exchange.inputs.take m) more
    rw [hmore] at hfront
    exact hfront

/-- All events are the delivery. -/
theorem upto_all (δ : ResponseDelivery) : ∃ n, δ.upto n = δ := by
  cases δ with
  | pumped p => exact ⟨p.calls.length, by simp [ResponseDelivery.upto]⟩
  | relayed r =>
    exact ⟨r.exchange.inputs.length, by
      simp [ResponseDelivery.upto, RelayedRequest.upto, Exchange.upto]⟩

/-- Streamed turns and shell records export the stamp. -/
theorem logged_stamp {gw : Gateway} {d : ProtocolDescriptor} {t : Turn} {record : TurnRecord}
    (h : logged_record sha256 from_str gw d t = some record)
    (hkind : gw.trace_off = true ∨ looks_like_sse t.ctx.resp_content_type = true) :
    record.completion_start_ns = t.ctx.first_output_ns := by
  rcases logged_record_cases sha256 from_str h with ⟨-, rfl⟩ | ⟨hon, hrecorded⟩
  · rfl
  · rw [hon] at hkind
    cases hrecorded with
    | streamed hsse => rfl
    | unpacked hrest hinner => simp [hrest] at hkind
    | minimal hrest hnone hdue => simp [hrest] at hkind

/-- What a delivery exports is the stamp that it leaves. -/
theorem pushed_stamp {trace_off : Bool} {gw : Gateway} {δ : ResponseDelivery}
    {record : TurnRecord} (hmode : gw.trace_off = trace_off)
    (h : Pushed gw (δ.after sha256 from_str trace_off gw) record)
    (hkind : trace_off = true ∨ looks_like_sse (δ.ctx from_str trace_off).resp_content_type = true) :
    record.completion_start_ns = (δ.ctx from_str trace_off).first_output_ns := by
  rw [← hmode] at hkind
  cases δ with
  | pumped p =>
    obtain ⟨m, -, hlogged⟩ := (pushed_iff_logged sha256 from_str gw _ record).mp h
    exact logged_stamp sha256 from_str hlogged (by rwa [← hmode])
  | relayed r =>
    have hctx : ∀ off, (ResponseDelivery.relayed r).ctx from_str off = (r.outcome from_str).state.ctx :=
      fun _ => rfl
    change Pushed gw (r.after sha256 from_str gw) record at h
    unfold RelayedRequest.after at h
    rw [hctx] at hkind ⊢
    cases hout : r.outcome from_str with
    | returned s =>
      rw [hout] at h hkind
      obtain ⟨m, -, hlogged⟩ := (pushed_iff_logged sha256 from_str gw _ record).mp h
      exact logged_stamp sha256 from_str hlogged hkind
    | panicked s =>
      rw [hout] at h
      exact absurd h (not_pushed_nothing gw record)
    | waiting s =>
      rw [hout] at h
      exact absurd h (not_pushed_nothing gw record)

/-- A delivery whose every beginning is stamped is stamped throughout. -/
theorem FirstByteStamped.of_stamps {trace_off : Bool} {δ : ResponseDelivery}
    (h : ∀ n, Stamps ((δ.upto n).chunks from_str) δ.head_ctx ((δ.upto n).ctx from_str trace_off)) :
    FirstByteStamped sha256 from_str trace_off δ := by
  have hhead : δ.head_ctx.first_output_ns = none ∧ δ.head_ctx.start_ns = δ.start_ns := by
    cases δ <;> exact ⟨rfl, rfl⟩
  have hset : ∀ n, ((δ.upto n).ctx from_str trace_off).first_output_ns
      = first_byte_ns ((δ.upto n).chunks from_str) := by
    intro n
    rw [(h n).first, hhead.1, Option.none_or]
  obtain ⟨all, hall⟩ := upto_all δ
  have hfirst := hset all
  have hstart := (h all).start
  rw [hall] at hfirst hstart
  refine ⟨hset, ?_, ?_, ?_⟩
  · intro m n t hle ht
    rw [hset] at ht ⊢
    exact first_byte_ns_front (chunks_upto_le from_str δ hle) ht
  · intro identified
    rw [time_to_first_byte, hfirst, hstart, hhead.2]
  · intro gw record hmode hpushed hkind
    rw [pushed_stamp sha256 from_str hmode hpushed hkind, hfirst]

/-- With tracing on, the pump stamps the first byte. -/
theorem pumped_stamps_captured (p : PumpedResponse) :
    Stamps (p.calls.flatMap FilterCall.chunk) p.head_ctx (p.head_ctx.filter_body false p.calls) :=
  filter_body_stamps (fun ctx => ctx.resp_buf.isEmpty = ctx.first_output_ns.isNone) p.calls
    p.head_ctx rfl fun c _ ctx hinv => filter_call_captured ctx c hinv

/-- With tracing off, it does so if no later chunk bears another reading. -/
theorem pumped_stamps_one_reading {p : PumpedResponse}
    (hone : OneReading (p.calls.flatMap FilterCall.chunk)) :
    Stamps (p.calls.flatMap FilterCall.chunk) p.head_ctx (p.head_ctx.filter_body true p.calls) := by
  refine filter_body_stamps (fun ctx => ctx.resp_buf = [] ∧ ∀ t, ctx.first_output_ns = some t →
    ∀ a ∈ p.calls.flatMap FilterCall.chunk, a.bytes.isEmpty = false → a.time = t) p.calls
    p.head_ctx ⟨rfl, fun t ht => by cases ht⟩ ?_
  intro c hc ctx hinv
  have hmem : ∀ a ∈ c.chunk, a ∈ p.calls.flatMap FilterCall.chunk :=
    fun a ha => List.mem_flatMap.mpr ⟨c, hc, ha⟩
  obtain ⟨hstamps, hnext⟩ := filter_call_one_reading hone hmem hinv.1 hinv.2
  exact ⟨hstamps, (filter_call_uncaptured hinv.1 c).1, hnext⟩

/-- With tracing off, every chunk is stamped as if it were the first. -/
theorem stamped_one_reading {p : PumpedResponse}
    (h : FirstByteStamped sha256 from_str true (.pumped p)) :
    OneReading (p.calls.flatMap FilterCall.chunk) := by
  have hfirst : ∀ a ∈ p.calls.flatMap FilterCall.chunk, a.bytes.isEmpty = false →
      first_byte_ns (p.calls.flatMap FilterCall.chunk) = some a.time := by
    intro a ha hbytes
    obtain ⟨c, hc, hac⟩ := List.mem_flatMap.mp ha
    have hchunk : c.chunk = [a] := by
      unfold FilterCall.chunk at hac ⊢
      cases hbody : c.body with
      | none => simp [hbody] at hac
      | some b =>
        rw [hbody] at hac
        exact (congrArg (fun x => [x]) (List.mem_singleton.mp hac)).symm
    obtain ⟨front, back, hcalls⟩ := List.append_of_mem hc
    -- the delivery stops behind this chunk
    have htake : p.calls.take (front.length + 1) = front ++ [c] := by
      rw [hcalls, List.take_append]
      simp
    have hset := h.set (front.length + 1)
    change (p.head_ctx.filter_body true (p.calls.take (front.length + 1))).first_output_ns
      = first_byte_ns ((p.calls.take (front.length + 1)).flatMap FilterCall.chunk) at hset
    have hbuf : (p.head_ctx.filter_body true front).resp_buf = [] := filter_body_uncaptured front rfl
    have hlast : (p.head_ctx.filter_body true (front ++ [c])).first_output_ns = some a.time := by
      unfold Ctx.filter_body at hbuf ⊢
      rw [List.foldl_append]
      have hstamp := (filter_call_uncaptured hbuf c).2
      rw [hchunk, first_byte_ns_single hbytes] at hstamp
      exact hstamp
    rw [htake, hlast] at hset
    have hall : p.calls.flatMap FilterCall.chunk
        = (front ++ [c]).flatMap FilterCall.chunk ++ back.flatMap FilterCall.chunk := by
      rw [← List.flatMap_append, ← List.append_cons, ← hcalls]
    exact first_byte_ns_front ⟨_, hall.symm⟩ hset.symm
  intro a ha b hb ha' hb'
  exact Option.some.inj ((hfirst a ha ha').symm.trans (hfirst b hb hb'))

/-- A response is stamped with its first byte on the relay, and on the pump
    path with tracing on. With tracing off the pump path stamps every chunk
    anew, so there all chunks must bear one reading of the clock. -/
theorem first_byte_stamped_iff (trace_off : Bool) (δ : ResponseDelivery) :
    FirstByteStamped sha256 from_str trace_off δ ↔
      δ.is_relayed = true ∨ trace_off = false ∨ OneReading (δ.chunks from_str) := by
  cases δ with
  | relayed r =>
    exact iff_of_true (.of_stamps sha256 from_str fun n => outcome_stamps from_str (r.upto _))
      (Or.inl rfl)
  | pumped p =>
    constructor
    · intro h
      cases trace_off with
      | false => exact Or.inr (Or.inl rfl)
      | true => exact Or.inr (Or.inr (stamped_one_reading sha256 from_str h))
    · rintro (hrelayed | rfl | hone)
      · cases hrelayed
      · exact .of_stamps sha256 from_str fun n =>
          pumped_stamps_captured { p with calls := p.calls.take n }
      · refine .of_stamps sha256 from_str fun n => ?_
        cases trace_off with
        | false => exact pumped_stamps_captured { p with calls := p.calls.take n }
        | true =>
          -- a beginning of the response bears one reading as well
          have hsub : ∀ a ∈ (p.calls.take n).flatMap FilterCall.chunk,
              a ∈ p.calls.flatMap FilterCall.chunk := by
            intro a ha
            obtain ⟨c, hc, hac⟩ := List.mem_flatMap.mp ha
            exact List.mem_flatMap.mpr ⟨c, List.mem_of_mem_take hc, hac⟩
          exact pumped_stamps_one_reading (p := { p with calls := p.calls.take n })
            fun a ha b hb => hone a (hsub a ha) b (hsub b hb)

end stamped

/-! ### A response in two pieces -/

/-- Two chunks of a stream, a second apart. -/
def paced_response : PumpedResponse where
  path := "/v1/messages"
  headers := []
  error := none
  snap := ⟨"salt", "tag", false, 30, half_minute_pos⟩
  start_ns := 1000000000
  req_buf := []
  status := 200
  content_type := "text/event-stream"
  calls := [
    ⟨some [100], false, 0, 2000000000⟩,
    ⟨some [101], false, 0, 3000000000⟩,
    ⟨none, true, 3000000001, 0⟩]
  now_ns := 3000000002
  instant := 0
  order := Lru.IterOrder.stored

/-- With tracing off the second chunk moves the stamp: the first byte came
    after one second, and two seconds are observed. -/
theorem paced_response_unstamped :
    time_to_first_byte ((ResponseDelivery.pumped paced_response).ctx (fun _ => none) true) true
        = some 2000000000
      ∧ ¬ FirstByteStamped Sha256.digest (fun _ => none) true (.pumped paced_response) := by
  refine ⟨by decide, fun h => ?_⟩
  have hset := h.set 2
  exact absurd hset (by decide)

end AgentTraceGateway
