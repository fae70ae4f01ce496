import AgentTraceGateway.Gateway.Counters
import AgentTraceGateway.Gateway.FirstOutput

/-! # Switching the Drain On

  With `drain.on_cancel` a request leaves pingora's pump for the gateway's own
  relay. The two paths see a response through different hooks, keep it in
  different fields and read the clock at different moments. Where both deliver
  the same response (the same status, content type and body, so no redirect
  is followed and no base path is put in front) and the client stays to its
  clean end, nothing else differs: the turn is attributed, stitched, counted,
  recorded and stored alike.

  What is compared is a gateway without the clock readings of its records.
  Every hook acts on such a view, so two runs that differ only in the path of
  such responses end with the same one. -/

namespace AgentTraceGateway

/-! ### Without clock readings -/

/-- A record without what its clocks read; whether there was output stays. -/
def TurnRecord.untimed (r : TurnRecord) : TurnRecord :=
  { r with
    start_ns := 0
    end_ns := 0
    completion_start_ns := r.completion_start_ns.map fun _ => 0 }

def TraceStore.untimed (store : TraceStore) : TraceStore :=
  { store with deque := store.deque.map TurnRecord.untimed }

def Gateway.untimed (gw : Gateway) : Gateway :=
  { gw with
    store := gw.store.untimed
    submitted := gw.submitted.map TurnRecord.untimed }

def LiveGateway.untimed (s : LiveGateway) : LiveGateway := { s with gateway := s.gateway.untimed }

theorem TurnRecord.untimed_untimed (r : TurnRecord) : r.untimed.untimed = r.untimed := by
  unfold TurnRecord.untimed
  dsimp only
  rw [Option.map_map]
  rfl

theorem untimed_records (records : List TurnRecord) :
    (records.map TurnRecord.untimed).map TurnRecord.untimed = records.map TurnRecord.untimed := by
  rw [List.map_map]
  exact List.map_congr_left fun r _ => r.untimed_untimed

@[simp] theorem Gateway.untimed_untimed (gw : Gateway) : gw.untimed.untimed = gw.untimed := by
  show ({ gw with
    store := { gw.store with
      deque := (gw.store.deque.map TurnRecord.untimed).map TurnRecord.untimed }
    submitted := (gw.submitted.map TurnRecord.untimed).map TurnRecord.untimed } : Gateway) = _
  rw [untimed_records, untimed_records]
  rfl

/-- What a record takes up does not depend on its clocks. -/
@[simp] theorem estimate_untimed (r : TurnRecord) : estimate r.untimed = estimate r := rfl

/-- The loop drops the same records. -/
theorem make_room_untimed (max_records max_bytes size : Nat) :
    ∀ (records : List TurnRecord) (bytes : Nat) (dropped : UInt64),
      TraceStore.make_room max_records max_bytes size (records.map TurnRecord.untimed) bytes dropped
        = ((TraceStore.make_room max_records max_bytes size records bytes dropped).1.map
            TurnRecord.untimed,
          (TraceStore.make_room max_records max_bytes size records bytes dropped).2) := by
  intro records
  induction records with
  | nil => exact fun _ _ => rfl
  | cons old rest ih =>
    intro bytes dropped
    have hlen : (old.untimed :: rest.map TurnRecord.untimed).length = (old :: rest).length := by
      rw [List.length_cons, List.length_map, List.length_cons]
    rw [List.map_cons, TraceStore.make_room, TraceStore.make_room, hlen]
    by_cases hfull : max_records ≤ (old :: rest).length ∨ max_bytes < saturating_add bytes size
    · rw [if_pos hfull, if_pos hfull, estimate_untimed]
      exact ih _ _
    · rw [if_neg hfull, if_neg hfull]
      rfl

theorem TraceStore.push_untimed (store : TraceStore) (record : TurnRecord) :
    (store.push record).untimed = store.untimed.push record.untimed := by
  have hroom := make_room_untimed store.max_records store.max_bytes (estimate record) store.deque
    store.estimated_bytes store.dropped
  unfold TraceStore.push TraceStore.untimed
  dsimp only
  rw [estimate_untimed, hroom]
  dsimp only
  rw [List.map_append]
  rfl

theorem Gateway.push_record_untimed (gw : Gateway) (record : TurnRecord) :
    (gw.push_record record).untimed = gw.untimed.push_record record.untimed := by
  show ({ gw with
    store := (gw.store.push record).untimed
    submitted := (gw.submitted ++ [record]).map TurnRecord.untimed } : Gateway) = _
  rw [TraceStore.push_untimed, List.map_append]
  rfl

theorem Gateway.push_option_untimed (gw : Gateway) (record : Option TurnRecord) :
    (gw.push_option record).untimed
      = gw.untimed.push_option (record.map TurnRecord.untimed) := by
  cases record with
  | none => rfl
  | some record => exact gw.push_record_untimed record

section hooks

variable (sha256 : Bytes → Digest) (from_str : String → Option Value)

/-! ### Hooks on the view -/

/-- What the hook does to the view of a gateway. -/
theorem log_turn_untimed (gw : Gateway) (d : ProtocolDescriptor) (t : Turn) :
    (gw.log_turn sha256 from_str d t).untimed
      = if gw.trace_off then
          { gw.untimed with turns_total := gw.turns_total + 1 }.push_record
            (shell_record d t).untimed
        else
          (({ gw.untimed with
            stitcher := (assemble sha256 from_str gw d t).2 } : Gateway).count_turn from_str
              (assemble sha256 from_str gw d t).1 t).push_option
              ((turn_record from_str (assemble sha256 from_str gw d t).1 t).map
                TurnRecord.untimed) := by
  unfold Gateway.log_turn
  by_cases hoff : gw.trace_off = true
  · rw [if_pos hoff, if_pos hoff]
    exact Gateway.push_record_untimed _ _
  · rw [if_neg hoff, if_neg hoff]
    exact Gateway.push_option_untimed _ _

/-- The hook acts on the view. -/
theorem log_turn_view (gw : Gateway) (d : ProtocolDescriptor) (t : Turn) :
    (gw.untimed.log_turn sha256 from_str d t).untimed
      = (gw.log_turn sha256 from_str d t).untimed := by
  rw [log_turn_untimed, log_turn_untimed, Gateway.untimed_untimed]
  rfl

theorem logging_view (gw : Gateway) (t : Turn) :
    (logging sha256 from_str gw.untimed t).untimed = (logging sha256 from_str gw t).untimed := by
  unfold logging
  cases detect_path t.path with
  | none => exact gw.untimed_untimed
  | some matched =>
    dsimp only
    by_cases hloose : matched.loose = true
    · rw [if_pos hloose, if_pos hloose]
      by_cases hok : is_success t.ctx.resp_status = true
      · rw [if_pos hok, if_pos hok]
        exact log_turn_view sha256 from_str
          { gw with loose_path_matches := gw.loose_path_matches + 1 } matched.descriptor t
      · rw [if_neg hok, if_neg hok]
        exact Gateway.untimed_untimed { gw with loose_path_matches := gw.loose_path_matches + 1 }
    · rw [if_neg hloose, if_neg hloose]
      exact log_turn_view sha256 from_str gw matched.descriptor t

/-! ### Undisturbed turns -/

/-- Nothing went wrong on the way: no session error, no upstream failure, no
    client that left, and so no drain. -/
structure Undisturbed (t : Turn) : Prop where
  quiet : t.error = none
  alive : t.ctx.client_dead = false
  unmarked : t.ctx.relay_error = none
  in_time : t.ctx.drain_timed_out = false
  undrained : t.ctx.drain_acc = none
  uncut : t.ctx.drain_overflow = 0

/-- Two turns in which a client sees the same: request and response agree,
    and what a capturing gateway has kept of them. -/
structure SameTurn (trace_off : Bool) (t t' : Turn) : Prop where
  path : t'.path = t.path
  headers : t'.headers = t.headers
  instant : t'.instant = t.instant
  order : t'.order = t.order
  salt : t'.ctx.snap.salt = t.ctx.snap.salt
  trace_tag : t'.ctx.snap.trace_tag = t.ctx.snap.trace_tag
  status : t'.ctx.resp_status = t.ctx.resp_status
  content_type : t'.ctx.resp_content_type = t.ctx.resp_content_type
  began : t'.ctx.first_output_ns.isSome = t.ctx.first_output_ns.isSome
  request : trace_off = false → t'.ctx.req_buf = t.ctx.req_buf
  response : trace_off = false → t'.ctx.resp_buf = t.ctx.resp_buf

theorem Undisturbed.stays {t : Turn} (h : Undisturbed t) : client_cancelled t = false := by
  rw [client_cancelled, h.alive, Turn.error_class, h.quiet]
  rfl

theorem Undisturbed.failure {t : Turn} (h : Undisturbed t) :
    http_error t = if 400 ≤ t.ctx.resp_status then
      some ("http_status: " ++ toString t.ctx.resp_status.toNat) else none := by
  rw [http_error, h.quiet]
  dsimp only
  rw [h.unmarked]

theorem Undisturbed.whole {t : Turn} (h : Undisturbed t) (cap : CaptureCap) :
    raw_response cap t.ctx = cap.bound t.ctx.resp_buf := by
  rw [raw_response, h.uncut]
  exact if_neg (Nat.lt_irrefl 0)

theorem Undisturbed.stream {t : Turn} (h : Undisturbed t) (d : ProtocolDescriptor) :
    stream_outcome from_str d t.ctx = reassemble_sse from_str d.name t.ctx.resp_buf := by
  rw [stream_outcome, h.undrained]

/-- A stamp without its reading. -/
theorem stamp_untimed {a b : Option UInt64} (h : b.isSome = a.isSome) :
    (b.map fun _ => (0 : UInt64)) = a.map fun _ => 0 := by
  cases a with
  | none =>
    rw [Option.isSome_none, Option.isSome_eq_false_iff, Option.isNone_iff_eq_none] at h
    rw [h]
  | some t =>
    obtain ⟨t', rfl⟩ := Option.isSome_iff_exists.mp h
    rfl

section same

variable {t t' : Turn} {gw : Gateway} {d : ProtocolDescriptor}

theorem SameTurn.failure {trace_off : Bool} (h : SameTurn trace_off t t') (ht : Undisturbed t)
    (ht' : Undisturbed t') :
    http_error t' = http_error t := by
  rw [ht.failure, ht'.failure, h.status]

/-- Same turns are assembled alike. -/
theorem SameTurn.assembled (h : SameTurn false t t') (ht : Undisturbed t) (ht' : Undisturbed t') :
    assemble sha256 from_str gw d t' = assemble sha256 from_str gw d t := by
  have hget : t'.header_get = t.header_get := by
    funext name
    rw [Turn.header_get, Turn.header_get, h.headers]
  have hsession : ∀ tf, turn_session sha256 gw.stitcher t' tf
      = turn_session sha256 gw.stitcher t tf := by
    intro tf
    rw [turn_session, turn_session, stitch_scope, stitch_scope, hget, h.order, h.instant]
  unfold assemble
  rw [ht.whole, ht'.whole, hget, h.headers, h.request rfl, h.response rfl, h.salt]
  simp only [hsession]

theorem SameTurn.counted (h : SameTurn false t t') (ht : Undisturbed t) (ht' : Undisturbed t')
    (a : Assembly) : gw.count_turn from_str a t' = gw.count_turn from_str a t := by
  unfold Gateway.count_turn
  rw [ht.stream, ht'.stream, h.content_type, h.response rfl]

/-- Their records differ in what the clocks read. -/
theorem SameTurn.recorded (h : SameTurn false t t') (ht : Undisturbed t) (ht' : Undisturbed t')
    (a : Assembly) :
    (turn_record from_str a t').map TurnRecord.untimed
      = (turn_record from_str a t).map TurnRecord.untimed := by
  have hfailure := h.failure ht ht'
  have hbegan := stamp_untimed h.began
  unfold turn_record
  rw [h.content_type, h.response rfl, ht.stays, ht'.stays, Bool.and_false, Bool.and_false, hfailure,
    ht.stream, ht'.stream, h.response rfl]
  by_cases hsse : looks_like_sse t.ctx.resp_content_type = true
  · rw [if_pos hsse, if_pos hsse]
    refine congrArg some ?_
    unfold sse_record TurnRecord.untimed
    dsimp only
    rw [hbegan, hfailure, ht.stays, ht'.stays, ht.in_time, ht'.in_time, h.trace_tag]
  · rw [if_neg hsse, if_neg hsse]
    cases unpack_nonstreaming from_str a.descriptor.name a.parsed_req t.ctx.resp_buf with
    | some record =>
      refine congrArg some ?_
      unfold nonstreaming_record TurnRecord.untimed
      dsimp only
      rw [hfailure, ht.stays, ht'.stays, ht.in_time, ht'.in_time, h.trace_tag]
      rfl
    | none =>
      dsimp only
      by_cases hfailed : ((http_error t).isSome || false) = true
      · rw [if_pos hfailed, if_pos hfailed]
        refine congrArg some ?_
        unfold minimal_record TurnRecord.untimed
        dsimp only
        rw [hfailure, ht.stays, ht'.stays, ht.in_time, ht'.in_time, h.trace_tag]
      · rw [if_neg hfailed, if_neg hfailed]

theorem SameTurn.logged_turn (h : SameTurn gw.trace_off t t') (ht : Undisturbed t)
    (ht' : Undisturbed t') :
    (gw.log_turn sha256 from_str d t').untimed = (gw.log_turn sha256 from_str d t).untimed := by
  rw [log_turn_untimed, log_turn_untimed]
  by_cases hoff : gw.trace_off = true
  · rw [if_pos hoff, if_pos hoff]
    have hshell : (shell_record d t').untimed = (shell_record d t).untimed := by
      unfold shell_record TurnRecord.untimed
      dsimp only
      rw [stamp_untimed h.began, h.failure ht ht', ht.stays, ht'.stays, ht.in_time, ht'.in_time,
        h.trace_tag]
    rw [hshell]
  · rw [if_neg hoff, if_neg hoff]
    have hsame : SameTurn false t t' := Bool.eq_false_iff.mpr hoff ▸ h
    rw [hsame.assembled sha256 from_str ht ht', hsame.counted from_str ht ht',
      hsame.recorded from_str ht ht']

/-- The hook makes the same of same turns, clocks apart. -/
theorem SameTurn.logged (h : SameTurn gw.trace_off t t') (ht : Undisturbed t)
    (ht' : Undisturbed t') :
    (logging sha256 from_str gw t').untimed = (logging sha256 from_str gw t).untimed := by
  unfold logging
  rw [h.path, h.status]
  cases detect_path t.path with
  | none => rfl
  | some matched =>
    dsimp only
    by_cases hloose : matched.loose = true
    · rw [if_pos hloose, if_pos hloose]
      by_cases hok : is_success t.ctx.resp_status = true
      · rw [if_pos hok, if_pos hok]
        exact @SameTurn.logged_turn sha256 from_str t t'
          { gw with loose_path_matches := gw.loose_path_matches + 1 } matched.descriptor h ht ht'
      · rw [if_neg hok, if_neg hok]
    · rw [if_neg hloose, if_neg hloose]
      exact h.logged_turn sha256 from_str ht ht'

end same

/-! ### The relay of an undisturbed response -/

/-- Whether there is output on top of what there was. -/
theorem latch_began (wall : Nat → UInt64) (s : RelayState) (bytes : Bytes) :
    ∃ first, s.latch_first_output wall bytes
        = { s with ctx := { s.ctx with first_output_ns := first } } ∧
      first.isSome = (s.ctx.first_output_ns.isSome || !bytes.isEmpty) := by
  unfold RelayState.latch_first_output
  cases hfirst : s.ctx.first_output_ns with
  | some t =>
    refine ⟨some t, ?_, rfl⟩
    rw [if_neg (by simp), ← hfirst]
  | none =>
    cases hempty : bytes.isEmpty with
    | true => exact ⟨none, by rw [if_neg (by simp), ← hfirst], rfl⟩
    | false => exact ⟨some (wall s.now), if_pos (by simp), rfl⟩

/-- A living client's chunk is captured, and nothing else changes. -/
theorem forward_kept (wall : Nat → UInt64) {d : ProtocolDescriptor} {s : RelayState}
    (halive : s.ctx.client_dead = false) {i : PumpItem} {bytes : Bytes}
    (hframe : i.frame = .chunk bytes) (hkept : i.write_ok = true) :
    ∃ s₁ first, s.take_frame from_str wall d i = .ok s₁ ∧
      s₁.ctx = { s.ctx with
        resp_buf := s.ctx.resp_buf ++ bytes
        first_output_ns := first } ∧
      first.isSome = (s.ctx.first_output_ns.isSome || !bytes.isEmpty) := by
  obtain ⟨first, hlatch, hbegan⟩ := latch_began wall s bytes
  unfold RelayState.take_frame
  rw [hframe]
  dsimp only
  rw [hlatch, if_pos (by rw [halive]; rfl)]
  unfold RelayState.forward_chunk
  dsimp only
  rw [if_pos hkept]
  exact ⟨_, first, rfl, rfl, hbegan⟩

/-- To the clean end of a stream whose client stays, the pump captures the
    body. -/
theorem pump_kept (wall : Nat → UInt64) {d : ProtocolDescriptor} :
    ∀ (inputs : List PumpInput) (s : RelayState), s.ctx.client_dead = false →
      (∀ input ∈ inputs, input.kept = true) → ends_clean inputs = true →
      ∃ s' first, pump from_str wall d s inputs = .returned s' ∧
        s'.ctx = { s.ctx with
          resp_buf := s.ctx.resp_buf ++ upstream_body inputs
          first_output_ns := first } ∧
        first.isSome = (s.ctx.first_output_ns.isSome || !(upstream_body inputs).isEmpty) := by
  intro inputs
  induction inputs with
  | nil => exact fun s _ _ hclean => by cases hclean
  | cons input rest ih =>
    intro s halive hkept hclean
    have hrest : ∀ input ∈ rest, input.kept = true :=
      fun input hmem => hkept input (List.mem_cons_of_mem _ hmem)
    cases input with
    | probe time => exact absurd (hkept _ List.mem_cons_self) Bool.false_ne_true
    | item i =>
      have hin : ¬ (s.ctx.client_dead = true ∧ s.wait_limit < s.ready + i.delay) := by
        rw [halive]
        exact fun h => Bool.false_ne_true h.1
      cases hframe : i.frame with
      | failed error =>
        -- a stream with a failure does not end cleanly
        rw [ends_clean, hframe] at hclean
        cases hclean
      | stop =>
        refine ⟨_, s.ctx.first_output_ns,
          pump_item_error from_str wall hin (take_frame_stop from_str wall _ hframe), ?_, ?_⟩
        · rw [upstream_body, hframe, List.append_nil]
        · rw [upstream_body, hframe, List.isEmpty_nil, Bool.not_true, Bool.or_false]
      | chunk bytes =>
        have hclean' : ends_clean rest = true := by
          rw [ends_clean, hframe] at hclean
          exact hclean
        -- the chunk is captured and handed on, then the rest of the stream
        obtain ⟨s₁, first₁, htake, hctx₁, hbegan₁⟩ := forward_kept from_str wall (d := d)
          (s := { s with now := max s.now (s.ready + i.delay), ready := s.ready + i.delay })
          halive hframe (hkept _ List.mem_cons_self)
        have halive₁ : s₁.ctx.client_dead = false := by
          rw [hctx₁]
          exact halive
        obtain ⟨s', first, hpump, hctx, hbegan⟩ := ih s₁ halive₁ hrest hclean'
        have hbody : upstream_body (.item i :: rest) = bytes ++ upstream_body rest := by
          rw [upstream_body, hframe]
        refine ⟨s', first, (pump_item_ok from_str wall hin htake).trans hpump, ?_, ?_⟩
        · rw [hctx, hctx₁, hbody]
          dsimp only
          rw [List.append_assoc]
        · rw [hbegan, hctx₁, hbody]
          dsimp only
          rw [hbegan₁, Bool.or_assoc]
          cases bytes <;> rfl

/-- A response that comes to its clean end, over the relay, in front of a
    client that takes all of it. -/
structure CleanExchange (x : Exchange) (head : UpstreamHead) : Prop where
  uploaded : x.upload_aborted = false
  answered : x.sent = .ok head
  buildable : head.Buildable
  stays : x.ClientLives
  ends : head.no_body_status = true ∨ ends_clean x.inputs = true

/-- What a path leaves of an undisturbed response: the context has changed in
    what is captured, in clock readings and in the marks of an end. -/
structure KeptResponse (ctx : Ctx) (resp_buf body : Bytes) (ctx' : Ctx) : Prop where
  only : ctx' = { ctx with
    resp_buf := resp_buf
    first_output_ns := ctx'.first_output_ns
    response_complete := ctx'.response_complete
    body_end_ns := ctx'.body_end_ns
    relay_done := ctx'.relay_done }
  began : ctx'.first_output_ns.isSome = !body.isEmpty

/-- The epilogue changes no more. -/
theorem KeptResponse.finish (wall : Nat → UInt64) {ctx : Ctx} {resp_buf body : Bytes}
    {s : RelayState} (h : KeptResponse ctx resp_buf body s.ctx) :
    KeptResponse ctx resp_buf body (s.finish wall).ctx := by
  refine ⟨?_, h.began⟩
  unfold RelayState.finish
  dsimp only
  rw [h.only]

/-- The context of a relayed request that has been answered. -/
def RelayedRequest.head_ctx (r : RelayedRequest) (head : UpstreamHead) : Ctx :=
  { Ctx.fresh r.snap r.start_ns with
    req_buf := r.exchange.upload.flatten
    resp_status := head.status
    resp_content_type := head.content_type_text }

/-- The head has been written to a client that takes it. -/
theorem head_kept (r : RelayedRequest) {head : UpstreamHead} (hwrite : head.write_ok = true) :
    (head_state r.exchange r.snap r.start_ns head).ctx = r.head_ctx head := by
  unfold head_state RelayState.write_head
  dsimp only
  rw [if_pos hwrite]
  unfold RelayState.receive_head RelayedRequest.head_ctx UpstreamHead.content_type_text
  cases head.content_type <;> rfl

/-- The relay leaves the whole response. -/
theorem relay_kept {r : RelayedRequest} {head : UpstreamHead} (h : CleanExchange r.exchange head) :
    ∃ s, r.outcome from_str = .returned s ∧
      KeptResponse (r.head_ctx head) r.exchange.body r.exchange.body s.ctx := by
  have hctx := head_kept r (h.stays.1 head h.answered)
  have hend := (head_state_spec r.exchange r.snap r.start_ns head).end_seen
  have hbody : r.exchange.body = head.body r.exchange.inputs := by
    rw [Exchange.body, h.answered]
  unfold RelayedRequest.outcome
  rw [relay_eq_body from_str r.wall r.gated h.uploaded h.answered h.buildable.build]
  unfold relay_body
  by_cases hnone : head.no_body_status = true
  · -- over with its head
    have hempty : r.exchange.body = [] := by rw [hbody, UpstreamHead.body, if_pos hnone]
    rw [hend, if_pos hnone, hempty]
    refine ⟨_, rfl, .finish r.wall ?_⟩
    rw [hctx]
    exact ⟨rfl, rfl⟩
  · have hwhole : r.exchange.body = upstream_body r.exchange.inputs := by
      rw [hbody, UpstreamHead.body, if_neg hnone]
    have halive : (head_state r.exchange r.snap r.start_ns head).ctx.client_dead = false := by
      rw [hctx]
      rfl
    obtain ⟨s, first, hpump, hs, hbegan⟩ := pump_kept from_str r.wall (d := r.matched.descriptor)
      r.exchange.inputs _ halive h.stays.2 (h.ends.resolve_left hnone)
    rw [hctx] at hs hbegan
    rw [hend, if_neg hnone, hpump, hwhole]
    refine ⟨_, rfl, .finish r.wall ?_⟩
    rw [hs]
    exact ⟨rfl, hbegan⟩

/-! ### The pump of an undisturbed response -/

def FilterCall.bytes (c : FilterCall) : Bytes := c.body.getD []

def PumpedResponse.body (p : PumpedResponse) : Bytes := p.calls.flatMap FilterCall.bytes

/-- One call captures its bytes, if the gateway captures. Bytes that were
    captured have been stamped. -/
theorem filter_call_kept (trace_off : Bool) {ctx : Ctx} (c : FilterCall)
    (hstamped : ctx.resp_buf.isEmpty = false → ctx.first_output_ns.isSome = true) :
    ∃ first complete ended, ctx.response_body_filter trace_off c = { ctx with
        resp_buf := ctx.resp_buf ++ if trace_off then [] else c.bytes
        first_output_ns := first
        response_complete := complete
        body_end_ns := ended } ∧
      first.isSome = (ctx.first_output_ns.isSome || !c.bytes.isEmpty) := by
  -- the last call moves the two end marks and nothing else
  obtain ⟨complete, ended, hlast⟩ : ∃ complete ended, (if c.last = true then
      { ctx with response_complete := true, body_end_ns := ctx.body_end_ns.or (some c.end_ns) }
      else ctx) = { ctx with response_complete := complete, body_end_ns := ended } := by
    by_cases hc : c.last = true
    · exact ⟨true, _, if_pos hc⟩
    · exact ⟨ctx.response_complete, ctx.body_end_ns, if_neg hc⟩
  unfold Ctx.response_body_filter FilterCall.bytes
  rw [hlast]
  cases hbody : c.body with
  | none =>
    refine ⟨ctx.first_output_ns, complete, ended, ?_, ?_⟩
    · simp
    · simp
  | some b =>
    dsimp only
    by_cases hstamp : (ctx.resp_buf.isEmpty && !b.isEmpty) = true
    · refine ⟨some c.now_ns, complete, ended, ?_, ?_⟩
      · rw [if_pos hstamp]
        cases trace_off <;> simp
      · rw [Bool.and_eq_true] at hstamp
        rw [Option.getD_some, hstamp.2, Bool.or_true]
        rfl
    · refine ⟨ctx.first_output_ns, complete, ended, ?_, ?_⟩
      · rw [if_neg hstamp]
        cases trace_off <;> simp
      · rw [Option.getD_some]
        cases hempty : b.isEmpty with
        | true => simp
        | false =>
          -- bytes that are not the first come after a stamp
          have hsome : ctx.first_output_ns.isSome = true := by
            refine hstamped ?_
            simpa [hempty] using hstamp
          rw [hsome]
          rfl

/-- The filter over a whole response. -/
theorem filter_body_kept (trace_off : Bool) : ∀ (calls : List FilterCall) (ctx : Ctx),
    (ctx.resp_buf.isEmpty = false → ctx.first_output_ns.isSome = true) →
    ∃ first complete ended, ctx.filter_body trace_off calls = { ctx with
        resp_buf := ctx.resp_buf ++ if trace_off then [] else calls.flatMap FilterCall.bytes
        first_output_ns := first
        response_complete := complete
        body_end_ns := ended } ∧
      first.isSome = (ctx.first_output_ns.isSome || !(calls.flatMap FilterCall.bytes).isEmpty) := by
  intro calls
  induction calls with
  | nil =>
    intro ctx _
    refine ⟨ctx.first_output_ns, ctx.response_complete, ctx.body_end_ns, ?_, ?_⟩
    · rw [List.flatMap_nil, ite_self, List.append_nil]
      rfl
    · rw [List.flatMap_nil, List.isEmpty_nil, Bool.not_true, Bool.or_false]
  | cons c rest ih =>
    intro ctx hstamped
    obtain ⟨first₁, complete₁, ended₁, hcall, hbegan₁⟩ := filter_call_kept trace_off c hstamped
    -- what the call has buffered was stamped by it or before it
    have hstamped₁ : (ctx.response_body_filter trace_off c).resp_buf.isEmpty = false →
        (ctx.response_body_filter trace_off c).first_output_ns.isSome = true := by
      intro hbuf
      rw [hcall] at hbuf ⊢
      show first₁.isSome = true
      rw [hbegan₁, Bool.or_eq_true]
      by_cases hold : ctx.resp_buf.isEmpty = true
      · refine Or.inr ?_
        cases trace_off with
        | true => simp [List.isEmpty_iff.mp hold] at hbuf
        | false => simpa [List.isEmpty_iff.mp hold] using hbuf
      · exact Or.inl (hstamped (Bool.eq_false_iff.mpr hold))
    obtain ⟨first, complete, ended, hrest, hbegan⟩ := ih _ hstamped₁
    refine ⟨first, complete, ended, ?_, ?_⟩
    · show (ctx.response_body_filter trace_off c).filter_body trace_off rest = _
      rw [hrest, hcall, List.flatMap_cons]
      cases trace_off <;> simp
    · rw [hbegan, hcall, List.flatMap_cons]
      dsimp only
      rw [hbegan₁, Bool.or_assoc]
      cases c.bytes <;> rfl

/-- The pump leaves the whole response, if the gateway captures. -/
theorem filter_kept (trace_off : Bool) (p : PumpedResponse) :
    KeptResponse p.head_ctx (if trace_off then [] else p.body) p.body
      (p.head_ctx.filter_body trace_off p.calls) := by
  obtain ⟨first, complete, ended, hfilter, hbegan⟩ := filter_body_kept trace_off p.calls p.head_ctx
    (fun h => by cases h)
  rw [hfilter]
  exact ⟨rfl, hbegan⟩

/-! ### One exchange on two paths -/

/-- A response the pump delivers, and the relay delivers alike: one request,
    one answer of the same status, content type and body, taken to its end. -/
structure SameExchange (trace_off : Bool) (p : PumpedResponse) (r : RelayedRequest) : Prop where
  path : r.path = p.path
  headers : r.headers = p.headers
  instant : r.instant = p.instant
  order : r.order = p.order
  salt : r.snap.salt = p.snap.salt
  trace_tag : r.snap.trace_tag = p.snap.trace_tag
  quiet : p.error = none
  request : trace_off = false → r.exchange.upload.flatten = p.req_buf
  body : r.exchange.body = p.body
  answer : ∃ head, CleanExchange r.exchange head ∧ head.status = p.status ∧
    head.content_type_text = p.content_type

/-- Both paths end in the same view of the gateway. -/
theorem SameExchange.after {p : PumpedResponse} {r : RelayedRequest} {gw : Gateway}
    (h : SameExchange gw.trace_off p r) :
    ((ResponseDelivery.relayed r).after sha256 from_str gw.trace_off gw).untimed
      = ((ResponseDelivery.pumped p).after sha256 from_str gw.trace_off gw).untimed := by
  obtain ⟨head, hclean, hstatus, htype⟩ := h.answer
  obtain ⟨s, hout, hrelayed⟩ := relay_kept from_str hclean
  have hpumped := filter_kept gw.trace_off p
  have hsame : SameTurn gw.trace_off (p.turn gw.trace_off) (r.turn s) := by
    refine ⟨h.path, h.headers, h.instant, h.order, ?_, ?_, ?_, ?_, ?_, ?_, ?_⟩
    · show s.ctx.snap.salt = (p.head_ctx.filter_body gw.trace_off p.calls).snap.salt
      rw [hrelayed.only, hpumped.only]
      exact h.salt
    · show s.ctx.snap.trace_tag = (p.head_ctx.filter_body gw.trace_off p.calls).snap.trace_tag
      rw [hrelayed.only, hpumped.only]
      exact h.trace_tag
    · show s.ctx.resp_status = (p.head_ctx.filter_body gw.trace_off p.calls).resp_status
      rw [hrelayed.only, hpumped.only]
      exact hstatus
    · show s.ctx.resp_content_type
        = (p.head_ctx.filter_body gw.trace_off p.calls).resp_content_type
      rw [hrelayed.only, hpumped.only]
      exact htype
    · show s.ctx.first_output_ns.isSome
        = (p.head_ctx.filter_body gw.trace_off p.calls).first_output_ns.isSome
      rw [hrelayed.began, hpumped.began, h.body]
    · intro hoff
      show s.ctx.req_buf = (p.head_ctx.filter_body gw.trace_off p.calls).req_buf
      rw [hrelayed.only, hpumped.only]
      exact h.request hoff
    · intro hoff
      show s.ctx.resp_buf = (p.head_ctx.filter_body gw.trace_off p.calls).resp_buf
      rw [hrelayed.only, hpumped.only, hoff]
      exact h.body
  -- neither path leaves a mark of trouble
  have hcalm : Undisturbed (p.turn gw.trace_off) := by
    refine ⟨h.quiet, ?_, ?_, ?_, ?_, ?_⟩
    all_goals
      unfold PumpedResponse.turn
      dsimp only
      rw [hpumped.only]
      rfl
  have hcalm' : Undisturbed (r.turn s) := by
    refine ⟨rfl, ?_, ?_, ?_, ?_, ?_⟩
    all_goals
      unfold RelayedRequest.turn
      dsimp only
      rw [hrelayed.only]
      rfl
  unfold ResponseDelivery.after RelayedRequest.after
  dsimp only
  rw [hout]
  exact hsame.logged sha256 from_str hcalm hcalm'

/-! ### Runs -/

/-- What reaches the gateway: a response is over, or another hook runs. -/
inductive DeliveryEvent where
  | response (δ : ResponseDelivery)
  | hook (op : HookOp)

def delivery_step (s : LiveGateway) : DeliveryEvent → Option LiveGateway
  | .response δ =>
    some { s with gateway := δ.after sha256 from_str s.gateway.trace_off s.gateway }
  | .hook op => hook_op sha256 from_str s op

/-- An event, and the same event where a response that both paths deliver
    alike may have taken the other one. -/
inductive Switched (trace_off : Bool) : DeliveryEvent → DeliveryEvent → Prop
  | same (e : DeliveryEvent) : Switched trace_off e e
  | relayed {p : PumpedResponse} {r : RelayedRequest} (h : SameExchange trace_off p r) :
    Switched trace_off (.response (.pumped p)) (.response (.relayed r))
  | pumped {p : PumpedResponse} {r : RelayedRequest} (h : SameExchange trace_off p r) :
    Switched trace_off (.response (.relayed r)) (.response (.pumped p))

/-- A delivery acts on the view. -/
theorem after_view (δ : ResponseDelivery) (trace_off : Bool) (gw : Gateway) :
    (δ.after sha256 from_str trace_off gw.untimed).untimed
      = (δ.after sha256 from_str trace_off gw).untimed := by
  cases δ with
  | pumped p => exact logging_view sha256 from_str gw (p.turn trace_off)
  | relayed r =>
    show (r.after sha256 from_str gw.untimed).untimed = (r.after sha256 from_str gw).untimed
    unfold RelayedRequest.after
    cases r.outcome from_str with
    | returned s => exact logging_view sha256 from_str gw (r.turn s)
    | panicked s => exact gw.untimed_untimed
    | waiting s => exact gw.untimed_untimed

/-- A payload acts on the view, and the view decides what it does. -/
theorem server_payload_view (gw : Gateway) (tap : LiveTap) (output_ns end_ns : UInt64)
    (payload : Bytes) :
    (gw.untimed.server_payload from_str tap output_ns end_ns payload).1.untimed
        = (gw.server_payload from_str tap output_ns end_ns payload).1.untimed ∧
      (gw.untimed.server_payload from_str tap output_ns end_ns payload).2
        = (gw.server_payload from_str tap output_ns end_ns payload).2 := by
  unfold Gateway.server_payload
  dsimp only
  cases (tap.turn.apply_server_frame from_str payload).2 with
  | none => exact ⟨gw.untimed_untimed, rfl⟩
  | some record =>
    refine ⟨?_, rfl⟩
    dsimp only
    rw [Gateway.push_record_untimed, Gateway.push_record_untimed]
    refine congrArg (Gateway.push_record · _) ?_
    exact Gateway.untimed_untimed
      { gw with hdr_evidence_dropped :=
          gw.hdr_evidence_dropped + (collect_hdr_evidence tap.headers).2.toUInt64 }

theorem server_payloads_view : ∀ (payloads : List Bytes) (gw gw' : Gateway) (tap : LiveTap)
    (clock : Nat → UInt64), gw.untimed = gw'.untimed →
    (gw.server_payloads from_str tap clock payloads).1.untimed
        = (gw'.server_payloads from_str tap clock payloads).1.untimed ∧
      (gw.server_payloads from_str tap clock payloads).2
        = (gw'.server_payloads from_str tap clock payloads).2 := by
  intro payloads
  induction payloads with
  | nil => exact fun _ _ _ _ h => ⟨h, rfl⟩
  | cons payload payloads ih =>
    intro gw gw' tap clock h
    obtain ⟨hgateway, htap⟩ := server_payload_view from_str gw tap (clock 0) (clock 1) payload
    obtain ⟨hgateway', htap'⟩ := server_payload_view from_str gw' tap (clock 0) (clock 1) payload
    rw [← h] at hgateway' htap'
    unfold Gateway.server_payloads
    dsimp only
    rw [← htap, ← htap']
    exact ih _ _ _ _ (hgateway.symm.trans hgateway')

/-- A hook acts on the view. -/
theorem hook_op_view (s : LiveGateway) (op : HookOp) :
    (hook_op sha256 from_str s.untimed op).map LiveGateway.untimed
      = (hook_op sha256 from_str s op).map LiveGateway.untimed := by
  cases op with
  | turn t =>
    refine congrArg some ?_
    show LiveGateway.mk (logging sha256 from_str s.gateway.untimed t).untimed s.taps
      = LiveGateway.mk (logging sha256 from_str s.gateway t).untimed s.taps
    rw [logging_view]
  | reload capacity ttl_ms =>
    refine congrArg some (congrArg (LiveGateway.mk · s.taps) ?_)
    exact Gateway.untimed_untimed
      { s.gateway with stitcher := s.gateway.stitcher.set_limits capacity ttl_ms }
  | upgrade headers max_payload trace_tag start_ns =>
    exact congrArg some (congrArg (LiveGateway.mk · _) s.gateway.untimed_untimed)
  | client_chunk i data =>
    show ((s.taps[i]?).map _).map _ = ((s.taps[i]?).map _).map _
    rw [Option.map_map, Option.map_map]
    refine Option.map_congr fun tap _ => ?_
    exact congrArg (LiveGateway.mk · _) s.gateway.untimed_untimed
  | server_chunk i data clock =>
    show ((s.taps[i]?).map _).map _ = ((s.taps[i]?).map _).map _
    rw [Option.map_map, Option.map_map]
    refine Option.map_congr fun tap _ => ?_
    obtain ⟨hgateway, htap⟩ := server_payloads_view from_str
      (WsFrameParser.push tap.max_payload tap.server_buf data).1 s.gateway.untimed s.gateway
      { tap with server_buf := (WsFrameParser.push tap.max_payload tap.server_buf data).2 } clock
      s.gateway.untimed_untimed
    exact congrArg₂ LiveGateway.mk hgateway (congrArg (s.taps.set i ·) htap)

theorem delivery_step_view (s : LiveGateway) (e : DeliveryEvent) :
    (delivery_step sha256 from_str s.untimed e).map LiveGateway.untimed
      = (delivery_step sha256 from_str s e).map LiveGateway.untimed := by
  cases e with
  | response δ =>
    exact congrArg some (congrArg (LiveGateway.mk · s.taps)
      (after_view sha256 from_str δ s.gateway.trace_off s.gateway))
  | hook op => exact hook_op_view sha256 from_str s op

/-- From states with one view, an event and a switched one lead to states
    with one view. -/
theorem Switched.step {s s' : LiveGateway} {e e' : DeliveryEvent} (hview : s.untimed = s'.untimed)
    (h : Switched s.gateway.trace_off e e') :
    (delivery_step sha256 from_str s e).map LiveGateway.untimed
      = (delivery_step sha256 from_str s' e').map LiveGateway.untimed := by
  rw [← delivery_step_view sha256 from_str s' e', ← hview, delivery_step_view sha256 from_str s e']
  cases h with
  | same e => rfl
  | relayed h =>
    exact congrArg some (congrArg (LiveGateway.mk · s.taps) (h.after sha256 from_str).symm)
  | pumped h =>
    exact congrArg some (congrArg (LiveGateway.mk · s.taps) (h.after sha256 from_str))

theorem server_payload_trace_off (gw : Gateway) (tap : LiveTap) (output_ns end_ns : UInt64)
    (payload : Bytes) :
    (gw.server_payload from_str tap output_ns end_ns payload).1.trace_off = gw.trace_off := by
  unfold Gateway.server_payload
  dsimp only
  cases (tap.turn.apply_server_frame from_str payload).2 <;> rfl

theorem server_payloads_trace_off : ∀ (payloads : List Bytes) (gw : Gateway) (tap : LiveTap)
    (clock : Nat → UInt64),
    (gw.server_payloads from_str tap clock payloads).1.trace_off = gw.trace_off := by
  intro payloads
  induction payloads with
  | nil => exact fun _ _ _ => rfl
  | cons payload payloads ih =>
    intro gw tap clock
    exact (ih _ _ _).trans (server_payload_trace_off from_str gw tap _ _ payload)

/-- Whether a gateway captures never changes. -/
theorem delivery_step_trace_off {s s' : LiveGateway} {e : DeliveryEvent}
    (h : delivery_step sha256 from_str s e = some s') :
    s'.gateway.trace_off = s.gateway.trace_off := by
  cases e with
  | response δ =>
    cases h
    cases δ with
    | pumped p => exact logging_trace_off sha256 from_str s.gateway _
    | relayed r =>
      show (r.after sha256 from_str s.gateway).trace_off = s.gateway.trace_off
      unfold RelayedRequest.after
      cases r.outcome from_str with
      | returned s₁ => exact logging_trace_off sha256 from_str s.gateway _
      | panicked s₁ => rfl
      | waiting s₁ => rfl
  | hook op =>
    cases op with
    | turn t =>
      cases h
      exact logging_trace_off sha256 from_str s.gateway t
    | reload capacity ttl_ms =>
      cases h
      rfl
    | upgrade headers max_payload trace_tag start_ns =>
      cases h
      rfl
    | client_chunk i data =>
      obtain ⟨tap, -, rfl⟩ := Option.map_eq_some_iff.mp h
      rfl
    | server_chunk i data clock =>
      obtain ⟨tap, -, rfl⟩ := Option.map_eq_some_iff.mp h
      exact server_payloads_trace_off from_str _ _ _ _

/-- **The drain switch is invisible to clients that stay**: over any run of
    responses, live turns and reloads, moving responses that both paths
    deliver alike between pingora's pump and the owned relay changes no
    session, no counter, no record and no retention, clock readings apart. -/
theorem drain_switch_invisible {s : LiveGateway} {events events' : List DeliveryEvent}
    (h : List.Forall₂ (Switched s.gateway.trace_off) events events') :
    (run (delivery_step sha256 from_str) s events).map LiveGateway.untimed
      = (run (delivery_step sha256 from_str) s events').map LiveGateway.untimed := by
  refine run_view (fun s₁ => s₁.gateway.trace_off = s.gateway.trace_off) ?_ ?_ h rfl rfl
  · intro s₁ e s₂ hoff hstep
    exact (delivery_step_trace_off sha256 from_str hstep).trans hoff
  · intro s₁ s₂ e e' hoff hview hswitched
    rw [← hoff] at hswitched
    exact hswitched.step sha256 from_str hview

end hooks

/-! ### A response in two chunks -/

/-- A client that reads a short response to its end, over the relay. -/
def attended_request : RelayedRequest where
  path := "/v1/messages"
  headers := []
  matched := ⟨Anthropic.DESCRIPTOR, false⟩
  detected := messages_path
  snap := draining_snapshot
  gated := rfl
  exchange := {
    upload := [[104], [105]]
    upload_aborted := false
    sent := .ok ⟨200, none, none, false, 1, true, 0⟩
    inputs := [
      .item ⟨1, .chunk [111], true, 0, CaptureCap.of_max 8⟩,
      .item ⟨1, .chunk [107], true, 0, CaptureCap.of_max 8⟩,
      .item ⟨1, .stop, true, 0, CaptureCap.of_max 8⟩] }
  start_ns := 0
  wall := fun now => UInt64.ofNat now
  now_ns := 10
  instant := 10
  order := Lru.IterOrder.stored

/-- The same one over the pump, in one chunk and later. -/
def attended_response : PumpedResponse where
  path := "/v1/messages"
  headers := []
  error := none
  snap := { draining_snapshot with on_cancel := false }
  start_ns := 5
  req_buf := [104, 105]
  status := 200
  content_type := ""
  calls := [⟨some [111, 107], false, 0, 7⟩, ⟨none, true, 8, 0⟩]
  now_ns := 20
  instant := 10
  order := Lru.IterOrder.stored

theorem attended_exchange :
    SameExchange idle_gateway.trace_off attended_response attended_request := by
  refine ⟨rfl, rfl, rfl, rfl, rfl, rfl, rfl, fun _ => rfl, rfl, _, ⟨rfl, rfl, ?_, ?_, ?_⟩,
    rfl, rfl⟩
  · exact ⟨by decide, fun h => by cases h⟩
  · refine ⟨fun head h => by cases h; rfl, ?_⟩
    decide
  · exact Or.inr rfl

theorem drain_switch_invisible_attended :
    (run (delivery_step Sha256.digest fun _ => none) ⟨idle_gateway, []⟩
        [.response (.pumped attended_response), .hook (.reload 1 1)]).map LiveGateway.untimed
      = (run (delivery_step Sha256.digest fun _ => none) ⟨idle_gateway, []⟩
        [.response (.relayed attended_request), .hook (.reload 1 1)]).map LiveGateway.untimed :=
  drain_switch_invisible Sha256.digest (fun _ => none)
    (.cons (.relayed attended_exchange) (.cons (.same _) .nil))

end AgentTraceGateway
