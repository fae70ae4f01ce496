import AgentTraceGateway.Gateway.Pump

/-! # What the Relay Keeps of a Body

  A relayed body is captured chunk by chunk. While the client lives every
  chunk is kept. While the upstream is drained a chunk is kept up to the cap
  in force at that moment, and what is left out is counted. So the captured
  bytes and the count are a function of the chunks, of the caps they met and
  of the moment the client was lost. -/

namespace AgentTraceGateway

/-! ### What comes in -/

/-- Bytes of the response body as the relay takes them: from a client that
    is believed alive, or drained under a capture cap. -/
inductive Intake where
  | live (bytes : Bytes)
  | drained (cap : CaptureCap) (bytes : Bytes)

namespace Intake

def bytes : Intake → Bytes
  | live bytes => bytes
  | drained _ bytes => bytes

/-- How many of the bytes are kept on top of `got` bytes. -/
def taken (got : Nat) : Intake → Nat
  | live bytes => bytes.length
  | drained cap bytes => min (cap.max_bytes - got) bytes.length

theorem taken_le (got : Nat) (i : Intake) : i.taken got ≤ i.bytes.length := by
  cases i with
  | live bytes => exact Nat.le_refl _
  | drained cap bytes => exact Nat.min_le_right _ _

end Intake

/-- The bytes that came in. -/
def received (intake : List Intake) : Bytes := intake.flatMap Intake.bytes

/-- What is kept of them on top of `got` bytes. -/
def captured : Nat → List Intake → Bytes
  | _, [] => []
  | got, i :: rest => i.bytes.take (i.taken got) ++ captured (got + i.taken got) rest

/-- The first chunk that is not kept whole: how many bytes are kept by its
    end, and what comes in after it. -/
def first_cut : Nat → List Intake → Option (Nat × List Intake)
  | _, [] => none
  | got, i :: rest =>
    if i.taken got < i.bytes.length then some (got + i.taken got, rest)
    else first_cut (got + i.taken got) rest

theorem received_cons (i : Intake) (rest : List Intake) :
    received (i :: rest) = i.bytes ++ received rest := List.flatMap_cons

theorem received_append (a b : List Intake) :
    received (a ++ b) = received a ++ received b := List.flatMap_append

theorem length_captured_le : ∀ (intake : List Intake) (got : Nat),
    (captured got intake).length ≤ (received intake).length
  | [], _ => Nat.le_refl _
  | i :: rest, got => by
    have hrest := length_captured_le rest (got + i.taken got)
    have htaken := i.taken_le got
    rw [received_cons, captured, List.length_append, List.length_append, List.length_take,
      Nat.min_eq_left htaken]
    omega

theorem captured_append : ∀ (a b : List Intake) (got : Nat),
    captured got (a ++ b) = captured got a ++ captured (got + (captured got a).length) b
  | [], _, _ => rfl
  | i :: rest, b, got => by
    have hlen : (i.bytes.take (i.taken got)).length = i.taken got := by
      rw [List.length_take, Nat.min_eq_left (i.taken_le got)]
    rw [List.cons_append, captured, captured_append rest b, captured, List.append_assoc,
      List.length_append, hlen, Nat.add_assoc]

/-- Without a cut everything is kept. -/
theorem captured_of_uncut : ∀ (intake : List Intake) (got : Nat), first_cut got intake = none →
    captured got intake = received intake
  | [], _, _ => rfl
  | i :: rest, got, h => by
    unfold first_cut at h
    split at h
    · cases h
    · rename_i hall
      rw [captured, List.take_of_length_le (Nat.le_of_not_lt hall), captured_of_uncut rest _ h,
        received_cons]

/-- A cut parts the body in three: what is kept before it, what it loses,
    and what comes in behind the gap. -/
theorem captured_of_cut : ∀ (intake : List Intake) (got p : Nat) (rest : List Intake),
    first_cut got intake = some (p, rest) →
    ∃ head lost, lost ≠ [] ∧ got + head.length = p ∧
      received intake = head ++ (lost ++ received rest) ∧
      captured got intake = head ++ captured p rest
  | [], _, _, _, h => by cases h
  | i :: later, got, p, rest, h => by
    unfold first_cut at h
    split at h
    · rename_i hcut
      cases h
      -- this chunk is cut: its rest is the gap
      refine ⟨i.bytes.take (i.taken got), i.bytes.drop (i.taken got), ?_, ?_, ?_, rfl⟩
      · intro hnil
        exact absurd (List.drop_eq_nil_iff.mp hnil) (Nat.not_le_of_lt hcut)
      · rw [List.length_take, Nat.min_eq_left (i.taken_le got)]
      · rw [received_cons, ← List.append_assoc, List.take_append_drop]
    · rename_i hall
      -- this chunk is kept whole, and the gap is further on
      have hkept : i.bytes.take (i.taken got) = i.bytes :=
        List.take_of_length_le (Nat.le_of_not_lt hall)
      have htaken : i.taken got = i.bytes.length :=
        Nat.le_antisymm (i.taken_le got) (Nat.le_of_not_lt hall)
      obtain ⟨head, lost, hlost, hp, hreceived, hcaptured⟩ := captured_of_cut later _ p rest h
      refine ⟨i.bytes ++ head, lost, hlost, ?_, ?_, ?_⟩
      · rw [List.length_append]
        omega
      · rw [received_cons, hreceived, List.append_assoc]
      · rw [captured, hkept, hcaptured, List.append_assoc]

/-! ### The capture of a run -/

/-- A stretch of the relay keeps what the caps leave of an intake, and
    counts the rest. -/
structure Captures (intake : List Intake) (ctx ctx' : Ctx) : Prop where
  kept : ctx'.resp_buf = ctx.resp_buf ++ captured ctx.resp_buf.length intake
  counted : ctx'.drain_overflow = ctx.drain_overflow
    + ((received intake).length - (captured ctx.resp_buf.length intake).length)

namespace Captures

/-- A stretch that takes nothing in. -/
theorem nothing {ctx ctx' : Ctx} (hbuf : ctx'.resp_buf = ctx.resp_buf)
    (hoverflow : ctx'.drain_overflow = ctx.drain_overflow) : Captures [] ctx ctx' :=
  ⟨by rw [hbuf, captured, List.append_nil], by rw [hoverflow]; rfl⟩

theorem trans {a b : List Intake} {ctx₁ ctx₂ ctx₃ : Ctx} (h₁ : Captures a ctx₁ ctx₂)
    (h₂ : Captures b ctx₂ ctx₃) : Captures (a ++ b) ctx₁ ctx₃ := by
  have hlen : ctx₂.resp_buf.length
      = ctx₁.resp_buf.length + (captured ctx₁.resp_buf.length a).length := by
    rw [h₁.kept, List.length_append]
  refine ⟨?_, ?_⟩
  · rw [h₂.kept, hlen, h₁.kept, captured_append, List.append_assoc]
  · have hle := length_captured_le a ctx₁.resp_buf.length
    have hle' := length_captured_le b
      (ctx₁.resp_buf.length + (captured ctx₁.resp_buf.length a).length)
    rw [h₂.counted, hlen, h₁.counted, captured_append, received_append, List.length_append,
      List.length_append]
    omega

/-- A chunk of a living client is kept whole. -/
theorem live {ctx ctx' : Ctx} {bytes : Bytes} (hbuf : ctx'.resp_buf = ctx.resp_buf ++ bytes)
    (hoverflow : ctx'.drain_overflow = ctx.drain_overflow) :
    Captures [.live bytes] ctx ctx' := by
  have hcaptured : captured ctx.resp_buf.length [.live bytes] = bytes := by
    show bytes.take bytes.length ++ [] = bytes
    rw [List.take_length, List.append_nil]
  have hreceived : received [.live bytes] = bytes := List.append_nil bytes
  refine ⟨by rw [hcaptured, hbuf], ?_⟩
  rw [hcaptured, hreceived, hoverflow, Nat.sub_self, Nat.add_zero]

/-- A drained chunk is kept up to the cap. -/
theorem drained (cap : CaptureCap) (ctx : Ctx) (bytes : Bytes) :
    Captures [.drained cap bytes] ctx (drain_capture cap ctx bytes) := by
  have hcaptured : captured ctx.resp_buf.length [.drained cap bytes]
      = bytes.take (min (cap.max_bytes - ctx.resp_buf.length) bytes.length) :=
    List.append_nil _
  have hreceived : received [.drained cap bytes] = bytes := List.append_nil bytes
  refine ⟨by rw [hcaptured]; rfl, ?_⟩
  rw [hcaptured, hreceived, List.length_take, Nat.min_assoc, Nat.min_self]
  rfl

end Captures

section runs

variable (from_str : String → Option Value) (wall : Nat → UInt64)

/-- What the relay takes of one stream item. -/
def RelayState.intake (s : RelayState) (i : PumpItem) : List Intake :=
  match i.frame with
  | .chunk bytes =>
    if !s.ctx.client_dead then [.live bytes]
    else if s.ctx.snap.on_cancel then [.drained i.cap bytes]
    else []
  | .stop => []
  | .failed _ => []

/-- What the pump takes in, item by item, until it stops. -/
def pump_intake (d : ProtocolDescriptor) : RelayState → List PumpInput → List Intake
  | _, [] => []
  | s, .probe time :: rest =>
    if s.ctx.client_dead then pump_intake d s rest
    else
      match ({ s with now := max s.now time } : RelayState).client_gone from_str d with
      | .ok s => pump_intake d s rest
      | .error _ => []
  | s, .item i :: rest =>
    let ready := s.ready + i.delay
    if s.ctx.client_dead ∧ s.wait_limit < ready then []
    else
      s.intake i ++
        match ({ s with now := max s.now ready, ready := ready } : RelayState).take_frame
            from_str wall d i with
        | .ok s => pump_intake d s rest
        | .error _ => []

/-- The body bytes the upstream sends, up to the end of its stream. -/
def sent_body : List PumpInput → Bytes
  | [] => []
  | .probe _ :: rest => sent_body rest
  | .item i :: rest =>
    match i.frame with
    | .chunk bytes => bytes ++ sent_body rest
    | .stop => []
    | .failed _ => []

/-- The state a step of the relay leaves, whether it goes on or stops. -/
def step_state : Except RelayEnd RelayState → RelayState
  | .ok s => s
  | .error stopped => stopped.state

/-- Finding the client dead marks it and starts the accumulator. -/
theorem client_gone_frame (d : ProtocolDescriptor) (s : RelayState) :
    ∃ acc tail, (step_state (s.client_gone from_str d)).ctx
      = { s.ctx with client_dead := true, drain_acc := acc, drain_tail := tail } := by
  obtain ⟨acc, tail, hframe⟩ := begin_drain_frame from_str d s.mark_dead.now s.mark_dead.ctx
  unfold RelayState.client_gone
  dsimp only
  rw [hframe]
  split
  · split
    · exact ⟨acc, tail, rfl⟩
    · exact ⟨acc, tail, rfl⟩
  · exact ⟨_, _, rfl⟩

/-- Finding the client dead captures nothing. -/
theorem client_gone_captures (d : ProtocolDescriptor) (s : RelayState) :
    Captures [] s.ctx (step_state (s.client_gone from_str d)).ctx := by
  obtain ⟨acc, tail, hframe⟩ := client_gone_frame from_str d s
  rw [hframe]
  exact .nothing rfl rfl

/-- A drained chunk is captured as `drain_capture` does. -/
theorem drain_chunk_captures (d : ProtocolDescriptor) (s : RelayState) (cap : CaptureCap)
    (bytes : Bytes) :
    Captures [.drained cap bytes] s.ctx (s.drain_chunk from_str d cap bytes).ctx := by
  have hcaptured := Captures.drained cap s.ctx bytes
  unfold RelayState.drain_chunk
  dsimp only
  split
  · exact ⟨hcaptured.kept, hcaptured.counted⟩
  · exact hcaptured

/-- One stream item is captured as its intake says. -/
theorem take_frame_captures (d : ProtocolDescriptor) (s : RelayState) (i : PumpItem) :
    Captures (s.intake i) s.ctx (step_state (s.take_frame from_str wall d i)).ctx := by
  unfold RelayState.take_frame RelayState.intake
  cases hframe : i.frame with
  | stop => exact .nothing rfl rfl
  | failed error => exact .nothing rfl rfl
  | chunk bytes =>
    obtain ⟨first, hlatch⟩ := latch_frame wall s bytes
    dsimp only
    rw [hlatch]
    dsimp only
    -- only the state before the chunk says whether the client lives
    by_cases hlive : (!s.ctx.client_dead) = true
    · rw [if_pos hlive, if_pos hlive]
      unfold RelayState.forward_chunk
      dsimp only
      split
      · exact .live rfl rfl
      · -- the write failed: the chunk is kept, and the drain begins
        have hkept : Captures [.live bytes] s.ctx
            { s.ctx with first_output_ns := first, resp_buf := s.ctx.resp_buf ++ bytes } :=
          .live rfl rfl
        have hgone := client_gone_captures from_str d
          { s with
            now := s.now + i.took
            written := s.written ++ bytes
            ctx := { s.ctx with
              first_output_ns := first
              resp_buf := s.ctx.resp_buf ++ bytes } }
        exact hkept.trans hgone
    · rw [if_neg hlive, if_neg hlive]
      -- a dead client: the chunk is drained, or the relay stops
      by_cases hcancel : s.ctx.snap.on_cancel = true
      · rw [if_pos hcancel, if_pos hcancel]
        have hdrained := drain_chunk_captures from_str d
          { s with ctx := { s.ctx with first_output_ns := first } } i.cap bytes
        exact ⟨hdrained.kept, hdrained.counted⟩
      · rw [if_neg hcancel, if_neg hcancel]
        exact .nothing rfl rfl

/-- A run of the pump captures as its intake says. -/
theorem pump_captures (d : ProtocolDescriptor) : ∀ (inputs : List PumpInput) (s : RelayState),
    Captures (pump_intake from_str wall d s inputs) s.ctx
      (pump from_str wall d s inputs).state.ctx := by
  intro inputs
  induction inputs with
  | nil =>
    intro s
    unfold pump pump_intake
    split
    · exact .nothing rfl rfl
    · exact .nothing rfl rfl
  | cons input rest ih =>
    intro s
    cases input with
    | probe time =>
      unfold pump pump_intake
      split
      · exact ih s
      · -- a probe takes no byte, but it may stop the relay
        have hgone := client_gone_captures from_str d { s with now := max s.now time }
        cases hstep : ({ s with now := max s.now time } : RelayState).client_gone from_str d with
        | ok s₁ =>
          rw [hstep] at hgone
          exact hgone.trans (ih s₁)
        | error stopped =>
          rw [hstep] at hgone
          exact hgone
    | item i =>
      unfold pump pump_intake
      dsimp only
      split
      · exact .nothing rfl rfl
      · -- a chunk is captured whether or not the relay goes on behind it
        have htake := take_frame_captures from_str wall d
          { s with now := max s.now (s.ready + i.delay), ready := s.ready + i.delay } i
        cases hstep : ({ s with
            now := max s.now (s.ready + i.delay)
            ready := s.ready + i.delay } : RelayState).take_frame from_str wall d i with
        | ok s₁ =>
          rw [hstep] at htake
          exact htake.trans (ih s₁)
        | error stopped =>
          rw [hstep] at htake
          dsimp only
          rw [List.append_nil]
          exact htake

/-- A chunk is taken whole, or the relay stops at it. -/
theorem intake_chunk (d : ProtocolDescriptor) {s : RelayState} {i : PumpItem} {bytes : Bytes}
    (hframe : i.frame = .chunk bytes) :
    received (s.intake i) = bytes ∨
      (received (s.intake i) = [] ∧
        ∃ stopped, s.take_frame from_str wall d i = .error stopped) := by
  obtain ⟨first, hlatch⟩ := latch_frame wall s bytes
  unfold RelayState.intake RelayState.take_frame
  rw [hframe]
  dsimp only
  rw [hlatch]
  dsimp only
  by_cases hlive : (!s.ctx.client_dead) = true
  · rw [if_pos hlive]
    exact Or.inl (List.append_nil bytes)
  · rw [if_neg hlive, if_neg hlive]
    by_cases hcancel : s.ctx.snap.on_cancel = true
    · rw [if_pos hcancel]
      exact Or.inl (List.append_nil bytes)
    · rw [if_neg hcancel, if_neg hcancel]
      exact Or.inr ⟨rfl, _, rfl⟩

/-- What the pump takes in is the beginning of what the upstream sends. -/
theorem pump_intake_sent (d : ProtocolDescriptor) : ∀ (inputs : List PumpInput) (s : RelayState),
    received (pump_intake from_str wall d s inputs) <+: sent_body inputs := by
  intro inputs
  induction inputs with
  | nil => exact fun s => List.prefix_rfl
  | cons input rest ih =>
    intro s
    cases input with
    | probe time =>
      unfold pump_intake sent_body
      split
      · exact ih s
      · split
        · exact ih _
        · exact List.nil_prefix
    | item i =>
      unfold pump_intake sent_body
      dsimp only
      split
      · exact List.nil_prefix
      · cases hframe : i.frame with
        | stop =>
          rw [take_frame_stop from_str wall _ hframe]
          simp only [RelayState.intake, hframe]
          exact List.nil_prefix
        | failed error =>
          rw [take_frame_failed from_str wall _ hframe]
          simp only [RelayState.intake, hframe]
          exact List.nil_prefix
        | chunk bytes =>
          rw [received_append]
          -- a chunk is taken whole, or it is the one the relay stops at
          rcases intake_chunk from_str wall d (s := { s with
              now := max s.now (s.ready + i.delay)
              ready := s.ready + i.delay }) hframe with hall | ⟨hnone, stopped, hstop⟩
          · rw [show received (s.intake i) = bytes from hall]
            refine (List.prefix_append_right_inj bytes).mpr ?_
            split
            · exact ih _
            · exact List.nil_prefix
          · rw [show received (s.intake i) = [] from hnone, hstop]
            exact List.nil_prefix

/-- What a relayed request takes in. Without a body to read there is
    nothing. -/
def RelayedRequest.intake (r : RelayedRequest) : List Intake :=
  if r.exchange.upload_aborted then []
  else
    match r.exchange.sent with
    | .error _ => []
    | .ok head =>
      match head.build_error with
      | some _ => []
      | none =>
        if head.no_body_status then []
        else
          pump_intake from_str r.wall r.matched.descriptor
            (head_state r.exchange r.snap r.start_ns head) r.exchange.inputs

/-- The state in which a relayed request starts on its body, if it gets
    there. -/
def RelayedRequest.body_start (r : RelayedRequest) : Option RelayState :=
  if r.exchange.upload_aborted then none
  else
    match r.exchange.sent with
    | .error _ => none
    | .ok head =>
      if head.build_error.isSome || head.no_body_status then none
      else some (head_state r.exchange r.snap r.start_ns head)

/-- Whatever is taken in is taken in by the pump. -/
theorem intake_eq (r : RelayedRequest) :
    r.intake from_str = r.body_start.elim [] fun s =>
      pump_intake from_str r.wall r.matched.descriptor s r.exchange.inputs := by
  unfold RelayedRequest.intake RelayedRequest.body_start
  split
  · rfl
  · split
    · rfl
    · rename_i head _
      cases head.build_error with
      | some e => rfl
      | none =>
        cases head.no_body_status with
        | true => rfl
        | false => rfl

/-- Nothing of a response body has been seen. -/
structure Unread (ctx ctx' : Ctx) : Prop where
  start : ctx'.start_ns = ctx.start_ns
  captured : ctx'.resp_buf = ctx.resp_buf
  overflow : ctx'.drain_overflow = ctx.drain_overflow
  first : ctx'.first_output_ns = ctx.first_output_ns

theorem head_state_unread (x : Exchange) (snap : Snapshot) (start_ns : UInt64)
    (head : UpstreamHead) :
    Unread (Ctx.fresh snap start_ns) (head_state x snap start_ns head).ctx := by
  unfold head_state RelayState.write_head
  dsimp only
  split
  · exact ⟨rfl, rfl, rfl, rfl⟩
  · exact ⟨rfl, rfl, rfl, rfl⟩

/-- A request that does not get to its body ends with it unread. -/
theorem outcome_unread {r : RelayedRequest} (h : r.body_start = none) :
    Unread (Ctx.fresh r.snap r.start_ns) (r.outcome from_str).state.ctx := by
  unfold RelayedRequest.outcome
  by_cases hupload : r.exchange.upload_aborted = true
  · unfold relay
    rw [hupload, if_pos rfl]
    exact ⟨rfl, rfl, rfl, rfl⟩
  · rw [Bool.not_eq_true] at hupload
    cases hsent : r.exchange.sent with
    | error e =>
      unfold relay
      rw [hupload, if_neg Bool.false_ne_true, hsent]
      exact ⟨rfl, rfl, rfl, rfl⟩
    | ok head =>
      cases hbuild : head.build_error with
      | some e =>
        unfold relay
        rw [hupload, if_neg Bool.false_ne_true, hsent]
        dsimp only
        rw [hbuild]
        exact ⟨rfl, rfl, rfl, rfl⟩
      | none =>
        -- a status without a body: the stream is never read
        have hstatus : head.no_body_status = true := by
          simpa [RelayedRequest.body_start, hupload, hsent, hbuild] using h
        have hspec := head_state_spec r.exchange r.snap r.start_ns head
        have hhead := head_state_unread r.exchange r.snap r.start_ns head
        rw [relay_eq_body from_str r.wall r.gated hupload hsent hbuild]
        unfold relay_body
        rw [hspec.end_seen, if_pos hstatus]
        exact ⟨hhead.start, hhead.captured, hhead.overflow, hhead.first⟩

/-- A request that gets to its body goes on as the body does. -/
theorem outcome_body {r : RelayedRequest} {s : RelayState} (h : r.body_start = some s) :
    s.end_seen = false ∧ Unread (Ctx.fresh r.snap r.start_ns) s.ctx ∧
      r.outcome from_str
        = relay_body from_str r.wall r.matched.descriptor s r.exchange.inputs := by
  unfold RelayedRequest.body_start at h
  split at h
  · cases h
  · rename_i hupload
    rw [Bool.not_eq_true] at hupload
    split at h
    · cases h
    · rename_i head hsent
      cases hbuild : head.build_error with
      | some e =>
        rw [hbuild] at h
        cases h
      | none =>
        cases hstatus : head.no_body_status with
        | true =>
          rw [hbuild, hstatus] at h
          cases h
        | false =>
          rw [hbuild, hstatus] at h
          cases h
          exact ⟨(head_state_spec r.exchange r.snap r.start_ns head).end_seen.trans hstatus,
            head_state_unread r.exchange r.snap r.start_ns head,
            relay_eq_body from_str r.wall r.gated hupload hsent hbuild⟩

/-- The body is captured as the pump captures it. -/
theorem relay_body_captures (d : ProtocolDescriptor) (s : RelayState) (inputs : List PumpInput)
    (hbody : s.end_seen = false) :
    Captures (pump_intake from_str wall d s inputs) s.ctx
      (relay_body from_str wall d s inputs).state.ctx := by
  have hpump := pump_captures from_str wall d inputs s
  unfold relay_body
  rw [hbody, if_neg Bool.false_ne_true]
  split
  · rename_i s' hreturned
    rw [hreturned] at hpump
    exact ⟨hpump.kept, hpump.counted⟩
  · exact hpump

/-- The whole relay captures as its intake says. -/
theorem relay_captures (r : RelayedRequest) :
    Captures (r.intake from_str) (Ctx.fresh r.snap r.start_ns)
      (r.outcome from_str).state.ctx := by
  rw [intake_eq]
  cases hstart : r.body_start with
  | none =>
    have hunread := outcome_unread from_str hstart
    exact .nothing hunread.captured hunread.overflow
  | some s =>
    obtain ⟨hbody, hunread, hout⟩ := outcome_body from_str hstart
    have hhead : Captures [] (Ctx.fresh r.snap r.start_ns) s.ctx :=
      .nothing hunread.captured hunread.overflow
    rw [hout]
    exact hhead.trans (relay_body_captures from_str r.wall _ _ _ hbody)

/-- What comes in is the beginning of what the upstream sends. -/
theorem intake_sent (r : RelayedRequest) :
    received (r.intake from_str) <+: sent_body r.exchange.inputs := by
  rw [intake_eq]
  cases r.body_start with
  | none => exact List.nil_prefix
  | some s => exact pump_intake_sent from_str r.wall _ _ _

end runs

end AgentTraceGateway
