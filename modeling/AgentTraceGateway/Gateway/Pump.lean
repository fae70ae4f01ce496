import AgentTraceGateway.Drain
import AgentTraceGateway.Gateway.Relay

/-! # Runs of the Body Pump

  A pump is live until the client is found dead, and draining from then on.
  While it drains, its wait limit stands still: either the upstream ends by
  then and everything has been read, or the window closes at the limit with
  the upstream unfinished. What the accumulator holds meanwhile is invariant
  over the stream: finishing it on any rest gives the one-pass outcome on the
  whole body.

  The results of this module say how a relay that finds its client dead can
  end, for every stream and every moment of the death. -/

namespace AgentTraceGateway

/-! ### The upstream's end -/

/-- The end of the upstream stream: when it comes, all body bytes before it,
    and whether it is a clean one. -/
structure StreamEnd where
  ended_at : Nat
  body : Bytes
  clean : Bool

/-- The end of a stream whose last item came at `ready`. It does not depend
    on what the relay does. -/
def stream_end : Nat → List PumpInput → Option StreamEnd
  | _, [] => none
  | ready, .probe _ :: rest => stream_end ready rest
  | ready, .item i :: rest =>
    match i.frame with
    | .stop => some ⟨ready + i.delay, [], true⟩
    | .failed _ => some ⟨ready + i.delay, [], false⟩
    | .chunk bytes =>
      (stream_end (ready + i.delay) rest).map fun e => { e with body := bytes ++ e.body }

/-- The end of a response body; a bodiless response ends with its head. -/
def UpstreamHead.upstream_end (head : UpstreamHead) (inputs : List PumpInput) :
    Option StreamEnd :=
  if head.no_body_status then some ⟨head.arrived, [], true⟩ else stream_end head.arrived inputs

/-- A stream does not end before its last item came. -/
theorem stream_end_ge : ∀ (inputs : List PumpInput) (ready : Nat) (e : StreamEnd),
    stream_end ready inputs = some e → ready ≤ e.ended_at := by
  intro inputs
  induction inputs with
  | nil => intro ready e h; cases h
  | cons input rest ih =>
    intro ready e h
    cases input with
    | probe time => exact ih ready e h
    | item i =>
      unfold stream_end at h
      split at h
      · cases h
        exact Nat.le_add_right ready i.delay
      · cases h
        exact Nat.le_add_right ready i.delay
      · obtain ⟨e', he', rfl⟩ := Option.map_eq_some_iff.mp h
        have hge := ih (ready + i.delay) e' he'
        show ready ≤ e'.ended_at
        omega

/-! ### What the pump leaves alone -/

/-- The context fields that the body pump does not write. -/
structure Ctx.SameHead (ctx ctx' : Ctx) : Prop where
  snap : ctx'.snap = ctx.snap
  content_type : ctx'.resp_content_type = ctx.resp_content_type
  status : ctx'.resp_status = ctx.resp_status

theorem Ctx.SameHead.refl (ctx : Ctx) : Ctx.SameHead ctx ctx := ⟨rfl, rfl, rfl⟩

theorem Ctx.SameHead.trans {a b c : Ctx} (h₁ : Ctx.SameHead a b) (h₂ : Ctx.SameHead b c) :
    Ctx.SameHead a c :=
  ⟨h₂.snap.trans h₁.snap, h₂.content_type.trans h₁.content_type, h₂.status.trans h₁.status⟩

section runs

variable (from_str : String → Option Value) (wall : Nat → UInt64)

/-! ### The accumulator -/

/-- The drain state stands for `seen`: finishing it on any rest is one pass
    over the whole body. Without an accumulator nothing has been seen. -/
def Drained (d : ProtocolDescriptor) (ctx : Ctx) (seen : Bytes) : Prop :=
  match ctx.drain_acc with
  | some acc => ∀ rest,
      drain_outcome from_str d (acc, ctx.drain_tail) rest = stream_response from_str d (seen ++ rest)
  | none => ctx.drain_tail = [] ∧ ctx.resp_buf = [] ∧ seen = []

/-- A turn whose drain state stands for the body is recorded as one pass
    over the body would be. -/
theorem Drained.outcome {d : ProtocolDescriptor} (hd : d ∈ DESCRIPTORS) {ctx : Ctx}
    {body : Bytes} (h : Drained from_str d ctx body) :
    stream_outcome from_str d ctx = stream_response from_str d body := by
  unfold Drained at h
  unfold stream_outcome
  cases hacc : ctx.drain_acc with
  | some acc =>
    rw [hacc] at h
    have hfinish := h []
    simpa only [drain_outcome, List.append_nil] using hfinish
  | none =>
    rw [hacc] at h
    obtain ⟨-, hbuf, rfl⟩ := h
    simp only [hbuf, reassemble_sse, detect_by_name_self hd]

/-- Feeding a chunk extends what the state stands for. -/
theorem drained_feed {d : ProtocolDescriptor} {acc : SseAccum} {tail seen : Bytes}
    (h : ∀ rest, drain_outcome from_str d (acc, tail) rest
      = stream_response from_str d (seen ++ rest)) (bytes rest : Bytes) :
    drain_outcome from_str d (drain_feed from_str d (acc, tail) bytes) rest
      = stream_response from_str d ((seen ++ bytes) ++ rest) := by
  rw [drain_feed_outcome, h, List.append_assoc]

/-- A drained chunk is accounted for, whatever the capture cap. -/
theorem drain_chunk_drained {d : ProtocolDescriptor} {s : RelayState} {seen : Bytes}
    (hsse : looks_like_sse s.ctx.resp_content_type = true) (h : Drained from_str d s.ctx seen)
    (cap : CaptureCap) (bytes : Bytes) :
    Drained from_str d (s.drain_chunk from_str d cap bytes).ctx (seen ++ bytes) := by
  unfold Drained at h
  split at h
  · rename_i acc hacc
    have hfed := drained_feed from_str h bytes
    simpa [Drained, RelayState.drain_chunk, drain_capture, hacc] using hfed
  · rename_i hnone
    obtain ⟨htail, -, rfl⟩ := h
    have hfresh : ∀ rest, drain_outcome from_str d ({}, ([] : Bytes)) rest
        = stream_response from_str d (([] : Bytes) ++ rest) :=
      fun rest => drain_outcome_initial from_str d rest
    have hfed := drained_feed from_str hfresh bytes
    simpa [Drained, RelayState.drain_chunk, drain_capture, hnone, hsse, htail] using hfed

/-! ### Draining -/

/-- The client was found dead at `T` and the wait limit is `D`. -/
structure Draining (T D : Nat) (s : RelayState) : Prop where
  dead : s.ctx.client_dead = true
  on_cancel : s.ctx.snap.on_cancel = true
  found : s.found_dead = some T
  limit : s.wait_limit = D

/-- How a drain from `s` ends: the upstream ended in time and was read to
    its end, or the window closed with the upstream unfinished. -/
structure DrainEnd (d : ProtocolDescriptor) (T D : Nat) (s : RelayState) (inputs : List PumpInput)
    (s' : RelayState) : Prop where
  dead : s'.ctx.client_dead = true
  found : s'.found_dead = some T
  same_head : Ctx.SameHead s.ctx s'.ctx
  cases :
    (∃ e, stream_end s.ready inputs = some e ∧ e.ended_at ≤ D ∧
      s'.ctx.drain_timed_out = s.ctx.drain_timed_out ∧
      ∀ seen, looks_like_sse s.ctx.resp_content_type = true → Drained from_str d s.ctx seen →
        Drained from_str d s'.ctx (seen ++ e.body)) ∨
    ((∀ e, stream_end s.ready inputs = some e → D < e.ended_at) ∧
      s'.ctx.drain_timed_out = true ∧ s'.now = D)

/-- An item that comes within the limit leaves the limit where it is. -/
theorem wait_limit_advance {s : RelayState} {ready : Nat} (h : ready ≤ s.wait_limit) :
    ({ s with now := max s.now ready, ready := ready } : RelayState).wait_limit
      = s.wait_limit := by
  unfold RelayState.wait_limit at h ⊢
  cases hdeadline : s.drain_deadline with
  | none =>
    simp only [hdeadline, Option.getD_none, max_self] at h ⊢
    exact max_eq_left h
  | some deadline =>
    simp only [hdeadline, Option.getD_some] at h ⊢
    omega

/-! ### Steps of the pump -/

/-- The pump takes an item and goes on. -/
theorem pump_item_ok {d : ProtocolDescriptor} {s s₁ : RelayState} {i : PumpItem}
    {rest : List PumpInput}
    (hin : ¬ (s.ctx.client_dead = true ∧ s.wait_limit < s.ready + i.delay))
    (h : ({ s with now := max s.now (s.ready + i.delay), ready := s.ready + i.delay }
      : RelayState).take_frame from_str wall d i = .ok s₁) :
    pump from_str wall d s (.item i :: rest) = pump from_str wall d s₁ rest := by
  rw [pump, if_neg hin, h]

/-- The pump takes an item and stops. -/
theorem pump_item_error {d : ProtocolDescriptor} {s : RelayState} {i : PumpItem}
    {rest : List PumpInput} {stopped : RelayEnd}
    (hin : ¬ (s.ctx.client_dead = true ∧ s.wait_limit < s.ready + i.delay))
    (h : ({ s with now := max s.now (s.ready + i.delay), ready := s.ready + i.delay }
      : RelayState).take_frame from_str wall d i = .error stopped) :
    pump from_str wall d s (.item i :: rest) = stopped := by
  rw [pump, if_neg hin, h]

theorem take_frame_stop {d : ProtocolDescriptor} (s : RelayState) {i : PumpItem}
    (h : i.frame = .stop) :
    s.take_frame from_str wall d i = .error (.returned { s with end_seen := true }) := by
  rw [RelayState.take_frame, h]

theorem take_frame_failed {d : ProtocolDescriptor} (s : RelayState) {i : PumpItem}
    {error : String} (h : i.frame = .failed error) :
    s.take_frame from_str wall d i = .error (.returned { s with
      ctx := { s.ctx with relay_error := some ("proxy_error: upstream read: " ++ error) }
      upstream_failed := true }) := by
  rw [RelayState.take_frame, h]

/-- The latch writes the first output time only. -/
theorem latch_frame (s : RelayState) (bytes : Bytes) :
    ∃ first, s.latch_first_output wall bytes
      = { s with ctx := { s.ctx with first_output_ns := first } } := by
  unfold RelayState.latch_first_output
  split
  · exact ⟨_, rfl⟩
  · exact ⟨s.ctx.first_output_ns, rfl⟩

/-- A drained chunk touches the capture and the accumulator only. -/
theorem drain_chunk_frame (d : ProtocolDescriptor) (s : RelayState) (cap : CaptureCap)
    (bytes : Bytes) :
    ∃ buf overflow acc tail, s.drain_chunk from_str d cap bytes
      = { s with ctx := { s.ctx with
          resp_buf := buf, drain_overflow := overflow, drain_acc := acc, drain_tail := tail } } := by
  unfold RelayState.drain_chunk
  dsimp only
  split
  · exact ⟨_, _, _, _, rfl⟩
  · exact ⟨_, _, _, _, rfl⟩

/-- A chunk that comes within the limit is drained, and the drain goes on. -/
theorem drain_step {d : ProtocolDescriptor} {T D : Nat} {s : RelayState} (h : Draining T D s)
    {i : PumpItem} {bytes : Bytes} (hframe : i.frame = .chunk bytes) {ready : Nat}
    (hready : ready ≤ D) :
    ∃ s₁, ({ s with now := max s.now ready, ready := ready } : RelayState).take_frame
        from_str wall d i = .ok s₁ ∧
      Draining T D s₁ ∧ s₁.ready = ready ∧ Ctx.SameHead s.ctx s₁.ctx ∧
      s₁.ctx.drain_timed_out = s.ctx.drain_timed_out ∧
      ∀ seen, looks_like_sse s.ctx.resp_content_type = true → Drained from_str d s.ctx seen →
        Drained from_str d s₁.ctx (seen ++ bytes) := by
  obtain ⟨first, hlatch⟩ := latch_frame wall
    ({ s with now := max s.now ready, ready := ready } : RelayState) bytes
  have htake : ({ s with now := max s.now ready, ready := ready } : RelayState).take_frame
      from_str wall d i
      = .ok (({ s with
          now := max s.now ready
          ready := ready
          ctx := { s.ctx with first_output_ns := first } } : RelayState).drain_chunk
            from_str d i.cap bytes) := by
    unfold RelayState.take_frame
    rw [hframe]
    dsimp only
    rw [hlatch]
    simp only [h.dead, h.on_cancel, Bool.not_true, Bool.false_eq_true, if_false, if_true]
  refine ⟨_, htake, ?_⟩
  -- The latched time of the first output is no part of what was drained.
  have hdrained : ∀ seen, looks_like_sse s.ctx.resp_content_type = true →
      Drained from_str d s.ctx seen → Drained from_str d (({ s with
          now := max s.now ready
          ready := ready
          ctx := { s.ctx with first_output_ns := first } } : RelayState).drain_chunk
            from_str d i.cap bytes).ctx (seen ++ bytes) :=
    fun seen hsse hseen => drain_chunk_drained from_str (s := { s with
        now := max s.now ready
        ready := ready
        ctx := { s.ctx with first_output_ns := first } }) hsse hseen i.cap bytes
  obtain ⟨buf, overflow, acc, tail, hframe'⟩ := drain_chunk_frame from_str d
    ({ s with
      now := max s.now ready
      ready := ready
      ctx := { s.ctx with first_output_ns := first } } : RelayState) i.cap bytes
  rw [hframe'] at hdrained ⊢
  have hready' : ready ≤ s.wait_limit := by
    rw [h.limit]
    exact hready
  have hlimit := wait_limit_advance hready'
  exact ⟨⟨h.dead, h.on_cancel, h.found, hlimit.trans h.limit⟩, rfl, ⟨rfl, rfl, rfl⟩, rfl, hdrained⟩

/-- The window closes: nothing but the mark and the clock changes. -/
theorem time_out_end {d : ProtocolDescriptor} {T D : Nat} {s : RelayState} (h : Draining T D s)
    {inputs : List PumpInput} (hopen : ∀ e, stream_end s.ready inputs = some e → D < e.ended_at) :
    DrainEnd from_str d T D s inputs s.time_out where
  dead := h.dead
  found := h.found
  same_head := ⟨rfl, rfl, rfl⟩
  cases := Or.inr ⟨hopen, rfl, h.limit⟩

/-- A draining pump returns, at the upstream's end or at the limit. -/
theorem pump_draining {d : ProtocolDescriptor} {T D : Nat} :
    ∀ (inputs : List PumpInput) (s : RelayState), Draining T D s →
      ∃ s', pump from_str wall d s inputs = .returned s' ∧
        DrainEnd from_str d T D s inputs s' := by
  intro inputs
  induction inputs with
  | nil =>
    intro s h
    refine ⟨s.time_out, ?_, time_out_end from_str h (fun e he => by cases he)⟩
    simp only [pump, h.dead, if_true]
  | cons input rest ih =>
    intro s h
    cases input with
    | probe time =>
      -- nobody watches the downstream side any more
      obtain ⟨s', hpump, hend⟩ := ih s h
      refine ⟨s', ?_, hend.dead, hend.found, hend.same_head, hend.cases⟩
      simp only [pump, h.dead, if_true]
      exact hpump
    | item i =>
      by_cases hlate : D < s.ready + i.delay
      · refine ⟨s.time_out, ?_, time_out_end from_str h ?_⟩
        · simp only [pump, h.dead, h.limit, hlate, and_self, if_true]
        · intro e he
          have hge : s.ready + i.delay ≤ e.ended_at := by
            unfold stream_end at he
            split at he
            · cases he
              exact Nat.le_refl _
            · cases he
              exact Nat.le_refl _
            · obtain ⟨e', he', rfl⟩ := Option.map_eq_some_iff.mp he
              exact stream_end_ge rest _ e' he'
          omega
      · have hready : s.ready + i.delay ≤ D := Nat.le_of_not_lt hlate
        have hin : ¬ (s.ctx.client_dead = true ∧ s.wait_limit < s.ready + i.delay) := by
          rw [h.limit]
          exact fun hlimit => hlate hlimit.2
        cases hframe : i.frame with
        | stop =>
          refine ⟨_, pump_item_error from_str wall hin (take_frame_stop from_str wall _ hframe),
            h.dead, h.found, ⟨rfl, rfl, rfl⟩, Or.inl ?_⟩
          refine ⟨⟨s.ready + i.delay, [], true⟩, by simp only [stream_end, hframe], hready, rfl, ?_⟩
          intro seen _ hseen
          rw [List.append_nil]
          exact hseen
        | failed error =>
          refine ⟨_, pump_item_error from_str wall hin (take_frame_failed from_str wall _ hframe),
            h.dead, h.found, ⟨rfl, rfl, rfl⟩, Or.inl ?_⟩
          refine ⟨⟨s.ready + i.delay, [], false⟩, by simp only [stream_end, hframe], hready, rfl, ?_⟩
          intro seen _ hseen
          rw [List.append_nil]
          exact hseen
        | chunk bytes =>
          obtain ⟨s₁, htake, hdraining, hr, hsame, hout, hdrained⟩ :=
            drain_step from_str wall (d := d) h hframe hready
          obtain ⟨s', hrest, hend⟩ := ih s₁ hdraining
          refine ⟨s', (pump_item_ok from_str wall hin htake).trans hrest, hend.dead, hend.found,
            hsame.trans hend.same_head, ?_⟩
          have hstream : stream_end s.ready (.item i :: rest)
              = (stream_end s₁.ready rest).map fun e => { e with body := bytes ++ e.body } := by
            simp only [stream_end, hframe, hr]
          rw [hstream]
          rcases hend.cases with ⟨e, he, hle, hkeep, hall⟩ | ⟨hopen, hclosed, hnow⟩
          · refine Or.inl ⟨{ e with body := bytes ++ e.body }, by rw [he]; rfl, hle,
              hkeep.trans hout, ?_⟩
            intro seen hsse hseen
            have hsse₁ : looks_like_sse s₁.ctx.resp_content_type = true := by
              rw [hsame.content_type]
              exact hsse
            have hbody := hall (seen ++ bytes) hsse₁ (hdrained seen hsse hseen)
            rwa [List.append_assoc] at hbody
          · refine Or.inr ⟨?_, hclosed, hnow⟩
            intro e he
            obtain ⟨e', he', rfl⟩ := Option.map_eq_some_iff.mp he
            exact hopen e' he'

/-! ### The live phase -/

/-- The client is believed alive and everything so far has been captured. -/
structure Live (s : RelayState) (seen : Bytes) : Prop where
  alive : s.ctx.client_dead = false
  unfound : s.found_dead = none
  on_cancel : s.ctx.snap.on_cancel = true
  acc : s.ctx.drain_acc = none
  tail : s.ctx.drain_tail = []
  captured : s.ctx.resp_buf = seen
  untimed : s.ctx.drain_timed_out = false

/-- A stream end with the body read before it. -/
def after_seen (seen : Bytes) (ending : Option StreamEnd) : Option StreamEnd :=
  ending.map fun e => { e with body := seen ++ e.body }

theorem after_seen_append (seen bytes : Bytes) (ending : Option StreamEnd) :
    after_seen seen (ending.map fun e => { e with body := bytes ++ e.body })
      = after_seen (seen ++ bytes) ending := by
  cases ending <;> simp [after_seen]

/-- How a run whose client was found dead at `T` ends, under the wait limit
    `D`: with the whole body read, or with the window closed at `D` and the
    upstream unfinished. -/
structure DrainedRun (d : ProtocolDescriptor) (T D : Nat) (ending : Option StreamEnd)
    (s' : RelayState) : Prop where
  dead : s'.ctx.client_dead = true
  found : s'.found_dead = some T
  cases :
    (∃ e, ending = some e ∧ e.ended_at ≤ D ∧ s'.ctx.drain_timed_out = false ∧
      (looks_like_sse s'.ctx.resp_content_type = true → Drained from_str d s'.ctx e.body)) ∨
    ((∀ e, ending = some e → D < e.ended_at) ∧ s'.ctx.drain_timed_out = true ∧ s'.now = D)

/-- A drain that starts with everything accounted for. -/
theorem DrainEnd.run {d : ProtocolDescriptor} {T D : Nat} {s s' : RelayState}
    {inputs : List PumpInput} (h : DrainEnd from_str d T D s inputs s') {seen : Bytes}
    (huntimed : s.ctx.drain_timed_out = false)
    (hseen : looks_like_sse s.ctx.resp_content_type = true → Drained from_str d s.ctx seen) :
    DrainedRun from_str d T D (after_seen seen (stream_end s.ready inputs)) s' := by
  refine ⟨h.dead, h.found, ?_⟩
  rcases h.cases with ⟨e, he, hle, hkeep, hall⟩ | ⟨hopen, hclosed, hnow⟩
  · refine Or.inl ⟨{ e with body := seen ++ e.body }, by rw [he]; rfl, hle,
      hkeep.trans huntimed, ?_⟩
    intro hsse
    rw [h.same_head.content_type] at hsse
    exact hall seen hsse (hseen hsse)
  · refine Or.inr ⟨?_, hclosed, hnow⟩
    intro e he
    obtain ⟨e', he', rfl⟩ := Option.map_eq_some_iff.mp he
    exact hopen e' he'

/-- Where a live pump can stop. -/
def LiveEnd (d : ProtocolDescriptor) (ctx : Ctx) (ending : Option StreamEnd) : RelayEnd → Prop
  | .waiting s' => s'.found_dead = none
  | .panicked s' => ∃ T, s'.found_dead = some T ∧
      deadline_after T ctx.snap.timeout_secs = none ∧ s'.ctx.drain_timed_out = false
  | .returned s' => Ctx.SameHead ctx s'.ctx ∧
      (s'.found_dead = none ∨
        ∃ T D, deadline_after T ctx.snap.timeout_secs = some D ∧
          DrainedRun from_str d T D ending s')

theorem LiveEnd.of_same {d : ProtocolDescriptor} {ctx ctx₁ : Ctx} {ending : Option StreamEnd}
    {out : RelayEnd} (hsame : Ctx.SameHead ctx ctx₁) (h : LiveEnd from_str d ctx₁ ending out) :
    LiveEnd from_str d ctx ending out := by
  cases out with
  | waiting s' => exact h
  | panicked s' =>
    obtain ⟨T, hfound, hdeadline, huntimed⟩ := h
    exact ⟨T, hfound, by rw [← hsame.snap]; exact hdeadline, huntimed⟩
  | returned s' =>
    refine ⟨hsame.trans h.1, ?_⟩
    rw [← hsame.snap]
    exact h.2

theorem deadline_after_ge {now : Nat} {timeout_secs : UInt64} {deadline : Nat}
    (h : deadline_after now timeout_secs = some deadline) :
    deadline = now + 1000000000 * timeout_secs.toNat := by
  unfold deadline_after at h
  split at h
  · exact (Option.some.inj h).symm
  · cases h

/-- The drain starts with the captured prefix accounted for. -/
theorem begin_drain_drained {d : ProtocolDescriptor} {now : Nat} {ctx : Ctx}
    (hacc : ctx.drain_acc = none) (htail : ctx.drain_tail = [])
    (hsse : looks_like_sse ctx.resp_content_type = true) :
    Drained from_str d (begin_drain from_str d now ctx).1 ctx.resp_buf := by
  have hfresh : ∀ rest, drain_outcome from_str d ({}, ([] : Bytes)) rest
      = stream_response from_str d (([] : Bytes) ++ rest) :=
    fun rest => drain_outcome_initial from_str d rest
  have hfed := drained_feed from_str hfresh ctx.resp_buf
  simpa [Drained, begin_drain, hacc, htail, hsse] using hfed

theorem begin_drain_frame (d : ProtocolDescriptor) (now : Nat) (ctx : Ctx) :
    ∃ acc tail, (begin_drain from_str d now ctx).1
      = { ctx with drain_acc := acc, drain_tail := tail } := by
  unfold begin_drain
  dsimp only
  split
  · exact ⟨_, _, rfl⟩
  · exact ⟨ctx.drain_acc, ctx.drain_tail, rfl⟩

/-- The death of a live client, found at `s.now`: its deadline overflows, or
    a drain starts with everything so far accounted for. -/
theorem client_gone_cases {d : ProtocolDescriptor} {s : RelayState} {seen : Bytes}
    (h : Live s seen) :
    (deadline_after s.now s.ctx.snap.timeout_secs = none ∧
      ∃ s', s.client_gone from_str d = .error (.panicked s') ∧
        s'.found_dead = some s.now ∧ s'.ctx.drain_timed_out = false) ∨
    ∃ D s₁, deadline_after s.now s.ctx.snap.timeout_secs = some D ∧
      s.client_gone from_str d = .ok s₁ ∧ Draining s.now D s₁ ∧ s₁.ready = s.ready ∧
      Ctx.SameHead s.ctx s₁.ctx ∧ s₁.ctx.drain_timed_out = false ∧
      (looks_like_sse s₁.ctx.resp_content_type = true → Drained from_str d s₁.ctx seen) := by
  have hcancel : s.mark_dead.ctx.snap.on_cancel = true := h.on_cancel
  have hsnd : (begin_drain from_str d s.mark_dead.now s.mark_dead.ctx).2
      = deadline_after s.now s.ctx.snap.timeout_secs := begin_drain_deadline from_str d _ _
  obtain ⟨acc, tail, hframe⟩ := begin_drain_frame from_str d s.mark_dead.now s.mark_dead.ctx
  have hdrained : looks_like_sse s.ctx.resp_content_type = true →
      Drained from_str d (begin_drain from_str d s.mark_dead.now s.mark_dead.ctx).1 seen := by
    intro hsse
    have hseed : Drained from_str d
        (begin_drain from_str d s.mark_dead.now s.mark_dead.ctx).1 s.mark_dead.ctx.resp_buf :=
      begin_drain_drained from_str h.acc h.tail hsse
    rwa [show s.mark_dead.ctx.resp_buf = seen from h.captured] at hseed
  rw [hframe] at hdrained
  unfold RelayState.client_gone
  dsimp only
  rw [if_pos hcancel, hsnd, hframe]
  cases hdeadline : deadline_after s.now s.ctx.snap.timeout_secs with
  | none =>
    -- The sum of the clock and the window overflows: the addition panics.
    exact Or.inl ⟨rfl, _, rfl, rfl, h.untimed⟩
  | some D =>
    have hD := deadline_after_ge hdeadline
    refine Or.inr ⟨D, _, rfl, rfl, ⟨rfl, h.on_cancel, rfl, ?_⟩, rfl, ⟨rfl, rfl, rfl⟩, h.untimed,
      hdrained⟩
    show max s.now D = D
    omega

/-- Once the death is found, the rest of the run is a drain. -/
theorem gone_pump {d : ProtocolDescriptor} {s : RelayState} {seen : Bytes} (h : Live s seen)
    (inputs : List PumpInput) {out : RelayEnd}
    (herror : ∀ stopped, s.client_gone from_str d = .error stopped → out = stopped)
    (hok : ∀ s₁, s.client_gone from_str d = .ok s₁ → out = pump from_str wall d s₁ inputs) :
    LiveEnd from_str d s.ctx (after_seen seen (stream_end s.ready inputs)) out := by
  rcases client_gone_cases from_str (d := d) h with
    ⟨hdeadline, s', hgone, hfound, huntimed⟩ |
    ⟨D, s₁, hdeadline, hgone, hdraining, hready, hsame, huntimed, hdrained⟩
  · rw [herror _ hgone]
    exact ⟨s.now, hfound, hdeadline, huntimed⟩
  · obtain ⟨s', hpump, hend⟩ := pump_draining from_str wall (d := d) inputs s₁ hdraining
    rw [hok _ hgone, hpump, ← hready]
    exact ⟨hsame.trans hend.same_head,
      Or.inr ⟨s.now, D, hdeadline, hend.run from_str huntimed hdrained⟩⟩

/-- What a live pump is after the latch and the capture of a chunk. -/
theorem live_capture {s : RelayState} {seen : Bytes} (h : Live s seen) (ready now : Nat)
    (first : Option UInt64) (bytes written : Bytes) :
    Live { s with
      now := now
      ready := ready
      written := written
      ctx := { s.ctx with
        first_output_ns := first
        resp_buf := s.ctx.resp_buf ++ bytes } } (seen ++ bytes) :=
  ⟨h.alive, h.unfound, h.on_cancel, h.acc, h.tail, by rw [← h.captured], h.untimed⟩

/-- A live pump stops in one of four ways: still waiting, at the upstream's
    end, in a drain, or with an overflowing deadline. -/
theorem pump_live {d : ProtocolDescriptor} :
    ∀ (inputs : List PumpInput) (s : RelayState) (seen : Bytes), Live s seen →
      LiveEnd from_str d s.ctx (after_seen seen (stream_end s.ready inputs))
        (pump from_str wall d s inputs) := by
  intro inputs
  induction inputs with
  | nil =>
    intro s seen h
    simp only [pump, h.alive, Bool.false_eq_true, if_false]
    exact h.unfound
  | cons input rest ih =>
    intro s seen h
    cases input with
    | probe time =>
      have hlive : Live { s with now := max s.now time } seen :=
        ⟨h.alive, h.unfound, h.on_cancel, h.acc, h.tail, h.captured, h.untimed⟩
      refine gone_pump from_str wall hlive rest ?_ ?_
      · intro stopped hgone
        simp only [pump, h.alive, Bool.false_eq_true, if_false, hgone]
      · intro s₁ hgone
        simp only [pump, h.alive, Bool.false_eq_true, if_false, hgone]
    | item i =>
      have hin : ¬ (s.ctx.client_dead = true ∧ s.wait_limit < s.ready + i.delay) := by
        rw [h.alive]
        exact fun hdead => Bool.false_ne_true hdead.1
      cases hframe : i.frame with
      | stop =>
        rw [pump_item_error from_str wall hin (take_frame_stop from_str wall _ hframe)]
        exact ⟨⟨rfl, rfl, rfl⟩, Or.inl h.unfound⟩
      | failed error =>
        rw [pump_item_error from_str wall hin (take_frame_failed from_str wall _ hframe)]
        exact ⟨⟨rfl, rfl, rfl⟩, Or.inl h.unfound⟩
      | chunk bytes =>
        obtain ⟨first, hlatch⟩ := latch_frame wall
          ({ s with now := max s.now (s.ready + i.delay), ready := s.ready + i.delay }
            : RelayState) bytes
        -- the state after capture and write
        have hlive := live_capture h (s.ready + i.delay) (max s.now (s.ready + i.delay) + i.took)
          first bytes (s.written ++ bytes)
        have hforward : ({ s with
              now := max s.now (s.ready + i.delay)
              ready := s.ready + i.delay } : RelayState).take_frame from_str wall d i
            = if i.write_ok then .ok { s with
                  now := max s.now (s.ready + i.delay) + i.took
                  ready := s.ready + i.delay
                  written := s.written ++ bytes
                  ctx := { s.ctx with
                    first_output_ns := first
                    resp_buf := s.ctx.resp_buf ++ bytes } }
              else RelayState.client_gone from_str d { s with
                  now := max s.now (s.ready + i.delay) + i.took
                  ready := s.ready + i.delay
                  written := s.written ++ bytes
                  ctx := { s.ctx with
                    first_output_ns := first
                    resp_buf := s.ctx.resp_buf ++ bytes } } := by
          unfold RelayState.take_frame
          rw [hframe]
          dsimp only
          rw [hlatch]
          simp only [h.alive, Bool.not_false, if_true]
          rfl
        have hstream : after_seen seen (stream_end s.ready (.item i :: rest))
            = after_seen (seen ++ bytes) (stream_end (s.ready + i.delay) rest) := by
          rw [← after_seen_append]
          simp only [stream_end, hframe]
        rw [hstream]
        by_cases hwrite : i.write_ok = true
        · rw [if_pos hwrite] at hforward
          rw [pump_item_ok from_str wall hin hforward]
          refine LiveEnd.of_same from_str ?_ (ih _ _ hlive)
          exact ⟨rfl, rfl, rfl⟩
        · rw [if_neg hwrite] at hforward
          refine LiveEnd.of_same from_str ?_ (gone_pump from_str wall hlive rest ?_ ?_)
          · exact ⟨rfl, rfl, rfl⟩
          · intro stopped hgone
            exact pump_item_error from_str wall hin (hforward.trans hgone)
          · intro s₁ hgone
            exact pump_item_ok from_str wall hin (hforward.trans hgone)

/-! ### The whole relay -/

/-- The content type the relay reads off a head. -/
def UpstreamHead.content_type_text (head : UpstreamHead) : String :=
  match head.content_type with
  | some v => (HeaderMap.value_to_str v).getD ""
  | none => ""

/-- What a context knows once the head is in. -/
def UpstreamHead.ctx (head : UpstreamHead) (snap : Snapshot) : Ctx where
  snap := snap
  resp_status := head.status
  resp_content_type := head.content_type_text

theorem after_seen_nil (ending : Option StreamEnd) : after_seen [] ending = ending := by
  cases ending <;> rfl

/-- The epilogue keeps what a drained run ended with. -/
theorem DrainedRun.finish {d : ProtocolDescriptor} {T D : Nat} {ending : Option StreamEnd}
    {s : RelayState} (h : DrainedRun from_str d T D ending s) :
    DrainedRun from_str d T D ending (s.finish wall) :=
  ⟨h.dead, h.found, h.cases⟩

/-- How a relay that found its client dead at `T` has ended. -/
def FoundDeadEnd (d : ProtocolDescriptor) (x : Exchange) (snap : Snapshot) (T : Nat)
    (head : UpstreamHead) (out : RelayEnd) : Prop :=
  (head.write_ok = true ∧ deadline_after T snap.timeout_secs = none ∧
    ∃ s, out = .panicked s ∧ s.ctx.drain_timed_out = false) ∨
  ∃ s D, out = .returned s ∧ s.ctx.relay_done = true ∧ s.ctx.resp_status = head.status ∧
    s.ctx.resp_content_type = head.content_type_text ∧
    (head.write_ok = true → deadline_after T snap.timeout_secs = some D) ∧
    (head.write_ok = false → T = head.arrived + head.took ∧ D = T) ∧
    DrainedRun from_str d T D (head.upstream_end x.inputs) s

/-- The relay once the head has been written, or its write has failed. -/
def head_state (x : Exchange) (snap : Snapshot) (start_ns : UInt64) (head : UpstreamHead) :
    RelayState :=
  (RelayState.receive_head
    { ctx := { Ctx.fresh snap start_ns with req_buf := x.upload.flatten } } head).write_head head

/-- What holds there: nothing has been captured, no drain has started, and
    only a failed write has marked the client. -/
structure HeadState (head : UpstreamHead) (snap : Snapshot) (s : RelayState) : Prop where
  same_head : Ctx.SameHead (head.ctx snap) s.ctx
  now : s.now = head.arrived + head.took
  ready : s.ready = head.arrived
  deadline : s.drain_deadline = none
  end_seen : s.end_seen = head.no_body_status
  acc : s.ctx.drain_acc = none
  tail : s.ctx.drain_tail = []
  captured : s.ctx.resp_buf = []
  untimed : s.ctx.drain_timed_out = false
  written : head.write_ok = true → s.ctx.client_dead = false ∧ s.found_dead = none
  failed : head.write_ok = false → s.ctx.client_dead = true ∧ s.found_dead = some s.now

theorem head_state_spec (x : Exchange) (snap : Snapshot) (start_ns : UInt64)
    (head : UpstreamHead) : HeadState head snap (head_state x snap start_ns head) := by
  unfold head_state RelayState.write_head
  cases hwrite : head.write_ok with
  | true => exact ⟨⟨rfl, rfl, rfl⟩, rfl, rfl, rfl, rfl, rfl, rfl, rfl, rfl, fun _ => ⟨rfl, rfl⟩, by simp [hwrite]⟩
  | false => exact ⟨⟨rfl, rfl, rfl⟩, rfl, rfl, rfl, rfl, rfl, rfl, rfl, rfl, by simp [hwrite], fun _ => ⟨rfl, rfl⟩⟩

/-- A relay that drains on a cancel goes on from the head to the body. -/
theorem relay_eq_body {d : ProtocolDescriptor} {x : Exchange} {snap : Snapshot}
    {start_ns : UInt64} {head : UpstreamHead} (hcancel : snap.on_cancel = true)
    (hupload : x.upload_aborted = false) (hsent : x.sent = .ok head)
    (hbuild : head.build_error = none) :
    relay from_str wall d x (Ctx.fresh snap start_ns)
      = relay_body from_str wall d (head_state x snap start_ns head) x.inputs := by
  have hsnap := (head_state_spec x snap start_ns head).same_head.snap
  have hstay : (!head.write_ok && !(head_state x snap start_ns head).ctx.snap.on_cancel)
      = false := by
    rw [hsnap, show (head.ctx snap).snap.on_cancel = true from hcancel, Bool.not_true,
      Bool.and_false]
  unfold relay
  rw [hupload, if_neg Bool.false_ne_true, hsent]
  dsimp only
  rw [hbuild]
  dsimp only
  exact if_neg (by
    show ¬ (!head.write_ok && !(head_state x snap start_ns head).ctx.snap.on_cancel) = true
    rw [hstay]
    exact Bool.false_ne_true)

/-- The relay after a failed head write: a drain without a window. -/
theorem head_failed_end {d : ProtocolDescriptor} {x : Exchange} {snap : Snapshot}
    {head : UpstreamHead} {s : RelayState} (hcancel : snap.on_cancel = true)
    (h : HeadState head snap s) (hwrite : head.write_ok = false) :
    FoundDeadEnd from_str d x snap s.now head (relay_body from_str wall d s x.inputs) := by
  obtain ⟨hdead, hfound⟩ := h.failed hwrite
  have hdrained : Drained from_str d s.ctx [] := by
    unfold Drained
    rw [h.acc]
    exact ⟨h.tail, h.captured, rfl⟩
  have hok : head.write_ok = true → deadline_after s.now snap.timeout_secs = some s.now := by
    intro hok
    rw [hwrite] at hok
    cases hok
  have hfail : head.write_ok = false → s.now = head.arrived + head.took ∧ s.now = s.now :=
    fun _ => ⟨h.now, rfl⟩
  unfold relay_body FoundDeadEnd
  cases hbody : head.no_body_status with
  | true =>
    -- There is no body to drain: the end came with the head.
    rw [h.end_seen, hbody, if_pos rfl]
    refine Or.inr ⟨_, s.now, rfl, rfl, h.same_head.status, h.same_head.content_type, hok, hfail,
      hdead, hfound, Or.inl ⟨⟨head.arrived, [], true⟩, ?_, ?_, h.untimed, fun _ => hdrained⟩⟩
    · rw [UpstreamHead.upstream_end, hbody, if_pos rfl]
    · have hnow := h.now
      show head.arrived ≤ s.now
      omega
  | false =>
    rw [h.end_seen, hbody, if_neg Bool.false_ne_true]
    -- No window was opened, so the drain ends with what is at hand.
    have hdraining : Draining s.now s.now s := by
      refine ⟨hdead, by rw [h.same_head.snap]; exact hcancel, hfound, ?_⟩
      unfold RelayState.wait_limit
      rw [h.deadline, Option.getD_none, max_self]
    obtain ⟨s', hpump, hrun⟩ := pump_draining from_str wall (d := d) x.inputs s hdraining
    have hended := hrun.run from_str h.untimed (fun _ => hdrained)
    rw [after_seen_nil, h.ready] at hended
    rw [hpump]
    have hsame := h.same_head.trans hrun.same_head
    refine Or.inr ⟨_, s.now, rfl, rfl, hsame.status, hsame.content_type, hok, hfail, ?_⟩
    rw [UpstreamHead.upstream_end, hbody, if_neg Bool.false_ne_true]
    exact hended.finish from_str wall

/-- The relay after a head that was written. -/
theorem head_written_end {d : ProtocolDescriptor} {x : Exchange} {snap : Snapshot}
    {head : UpstreamHead} {s : RelayState} {T : Nat} (hcancel : snap.on_cancel = true)
    (h : HeadState head snap s) (hwrite : head.write_ok = true)
    (hfound : (relay_body from_str wall d s x.inputs).state.found_dead = some T) :
    FoundDeadEnd from_str d x snap T head (relay_body from_str wall d s x.inputs) := by
  obtain ⟨halive, hunfound⟩ := h.written hwrite
  have hlive : Live s [] :=
    ⟨halive, hunfound, by rw [h.same_head.snap]; exact hcancel, h.acc, h.tail, h.captured,
      h.untimed⟩
  have hfail : ∀ D, head.write_ok = false → T = head.arrived + head.took ∧ D = T := by
    intro D hfail
    rw [hwrite] at hfail
    cases hfail
  have hrun := pump_live from_str wall (d := d) x.inputs s [] hlive
  rw [after_seen_nil, h.ready] at hrun
  unfold relay_body at hfound ⊢
  unfold FoundDeadEnd
  cases hbody : head.no_body_status with
  | true =>
    -- nothing follows the head, so nobody was found dead
    rw [h.end_seen, hbody, if_pos rfl] at hfound
    have hsome : s.found_dead = some T := hfound
    rw [hunfound] at hsome
    cases hsome
  | false =>
    rw [h.end_seen, hbody, if_neg Bool.false_ne_true] at hfound ⊢
    cases hpump : pump from_str wall d s x.inputs with
    | waiting s' =>
      rw [hpump] at hrun hfound
      have hnone : s'.found_dead = none := hrun
      have hsome : s'.found_dead = some T := hfound
      rw [hnone] at hsome
      cases hsome
    | panicked s' =>
      rw [hpump] at hrun hfound
      obtain ⟨T', hT', hdeadline, huntimed⟩ := hrun
      have hsome : s'.found_dead = some T := hfound
      rw [hT'] at hsome
      cases hsome
      rw [h.same_head.snap] at hdeadline
      exact Or.inl ⟨hwrite, hdeadline, s', rfl, huntimed⟩
    | returned s' =>
      rw [hpump] at hrun hfound
      have hsome : s'.found_dead = some T := hfound
      obtain ⟨hsame, hnone | ⟨T', D, hdeadline, hdrained⟩⟩ := hrun
      · rw [hnone] at hsome
        cases hsome
      · rw [hdrained.found] at hsome
        cases hsome
        rw [h.same_head.snap] at hdeadline
        have hall := h.same_head.trans hsame
        refine Or.inr ⟨_, D, rfl, rfl, hall.status, hall.content_type, fun _ => hdeadline,
          hfail D, ?_⟩
        rw [UpstreamHead.upstream_end, hbody, if_neg Bool.false_ne_true]
        exact hdrained.finish from_str wall

/-- A relay with `drain.on_cancel` that found its client dead, past the
    upload: it returned from a drained run, or its deadline overflowed. -/
theorem relay_found_dead {d : ProtocolDescriptor} {x : Exchange} {snap : Snapshot}
    {start_ns : UInt64} {T : Nat} (hcancel : snap.on_cancel = true)
    (hupload : x.upload_aborted = false)
    (hfound : (relay from_str wall d x (Ctx.fresh snap start_ns)).state.found_dead = some T) :
    ∃ head, x.sent = .ok head ∧
      FoundDeadEnd from_str d x snap T head
        (relay from_str wall d x (Ctx.fresh snap start_ns)) := by
  cases hsent : x.sent with
  | error e =>
    unfold relay at hfound
    rw [hupload, if_neg Bool.false_ne_true, hsent] at hfound
    cases hfound
  | ok head =>
    refine ⟨head, rfl, ?_⟩
    cases hbuild : head.build_error with
    | some e =>
      unfold relay at hfound
      rw [hupload, if_neg Bool.false_ne_true, hsent] at hfound
      dsimp only at hfound
      rw [hbuild] at hfound
      cases hfound
    | none =>
      have hspec := head_state_spec x snap start_ns head
      rw [relay_eq_body from_str wall hcancel hupload hsent hbuild] at hfound ⊢
      cases hwrite : head.write_ok with
      | true => exact head_written_end from_str wall hcancel hspec hwrite hfound
      | false =>
        have hended := head_failed_end from_str wall (d := d) (x := x) hcancel hspec hwrite
        -- the death found is the head write's
        have hT : T = (head_state x snap start_ns head).now := by
          rcases hended with ⟨hok, -⟩ | ⟨s, D, hout, -, -, -, -, -, hrun⟩
          · rw [hwrite] at hok
            cases hok
          · rw [hout] at hfound
            have hsome : s.found_dead = some T := hfound
            rw [hrun.found] at hsome
            exact (Option.some.inj hsome).symm
        rw [hT]
        exact hended

end runs

end AgentTraceGateway
