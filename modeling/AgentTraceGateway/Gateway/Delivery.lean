import AgentTraceGateway.Gateway.Pump

/-! # What the Relay Delivers

  Whatever the upstream and the client do, the relay hands the downstream
  writer a prefix of the upstream body, and nothing once the client has been
  found dead. Its flags agree with what happened: a response is complete only
  when its body was read to a clean end, an errored one is never complete, and
  only a drain times out.

  The invariant of the body loop is `Pumping`. One event keeps it or stops the
  loop in a `Settled` state; what a whole run delivers follows by induction on
  the events. -/

namespace AgentTraceGateway

/-! ### The upstream's side -/

/-- The body bytes of an event. -/
def PumpInput.bytes : PumpInput → Bytes
  | .probe _ => []
  | .item i =>
    match i.frame with
    | .chunk bytes => bytes
    | .stop => []
    | .failed _ => []

/-- The body bytes an upstream sends, up to the end of its stream. -/
def upstream_body : List PumpInput → Bytes
  | [] => []
  | .probe _ :: rest => upstream_body rest
  | .item i :: rest =>
    match i.frame with
    | .chunk bytes => bytes ++ upstream_body rest
    | .stop => []
    | .failed _ => []

/-- The body of a response; a bodiless one has none. -/
def UpstreamHead.body (head : UpstreamHead) (inputs : List PumpInput) : Bytes :=
  if head.no_body_status then [] else upstream_body inputs

/-- The body an exchange's upstream sends, if it answers at all. -/
def Exchange.body (x : Exchange) : Bytes :=
  match x.sent with
  | .ok head => head.body x.inputs
  | .error _ => []

/-- The stream goes on after the event. -/
def PumpInput.GoesOn : PumpInput → Prop
  | .probe _ => True
  | .item i => ∃ bytes, i.frame = .chunk bytes

/-- An event that is not the stream's end contributes its bytes. -/
theorem upstream_body_cons {input : PumpInput} (h : input.GoesOn) (rest : List PumpInput) :
    upstream_body (input :: rest) = input.bytes ++ upstream_body rest := by
  cases input with
  | probe time => rfl
  | item i =>
    obtain ⟨bytes, hframe⟩ := h
    simp only [upstream_body, PumpInput.bytes, hframe]

/-- The upstream ends its stream, and not by an error. -/
def ends_clean : List PumpInput → Bool
  | [] => false
  | .probe _ :: rest => ends_clean rest
  | .item i :: rest =>
    match i.frame with
    | .chunk _ => ends_clean rest
    | .stop => true
    | .failed _ => false

/-- What follows an event that is not the end ends the same way. -/
theorem ends_clean_cons {input : PumpInput} (h : input.GoesOn) (rest : List PumpInput) :
    ends_clean (input :: rest) = ends_clean rest := by
  cases input with
  | probe time => rfl
  | item i =>
    obtain ⟨bytes, hframe⟩ := h
    simp only [ends_clean, hframe]

/-- The client stays through the event: its read half holds and takes what is
    written to it. -/
def PumpInput.kept : PumpInput → Bool
  | .probe _ => false
  | .item i => i.write_ok

/-! ### The invariant of the body loop -/

/-- The pump between two events: nothing has ended or failed, and a dead
    client is being drained. -/
structure Pumping (s : RelayState) : Prop where
  open_end : s.end_seen = false
  upstream_ok : s.upstream_failed = false
  unmarked : s.ctx.relay_error = none
  incomplete : s.ctx.response_complete = false
  untimed : s.ctx.drain_timed_out = false
  found : s.found_dead.isSome = s.ctx.client_dead
  gated : s.ctx.client_dead = true → s.ctx.snap.on_cancel = true

/-- The flags of a relay whose loop has stopped, before the epilogue. -/
structure Settled (s : RelayState) : Prop where
  incomplete : s.ctx.response_complete = false
  marked : s.ctx.relay_error.isSome = s.upstream_failed
  one_end : s.end_seen = true → s.upstream_failed = false
  timed : s.ctx.drain_timed_out = true →
    s.ctx.client_dead = true ∧ s.ctx.snap.on_cancel = true
  found : s.found_dead.isSome = s.ctx.client_dead

theorem Pumping.settled {s : RelayState} (h : Pumping s) : Settled s where
  incomplete := h.incomplete
  marked := by rw [h.unmarked, h.upstream_ok]; rfl
  one_end := fun _ => h.upstream_ok
  timed := by
    intro htimed
    rw [h.untimed] at htimed
    cases htimed
  found := h.found

/-- The invariant does not read the clock, the stream position or what was
    written and captured. -/
theorem Pumping.frame {s : RelayState} (h : Pumping s) (now ready : Nat) (written buf : Bytes)
    (first : Option UInt64) :
    Pumping { s with
      now := now
      ready := ready
      written := written
      ctx := { s.ctx with resp_buf := buf, first_output_ns := first } } :=
  ⟨h.open_end, h.upstream_ok, h.unmarked, h.incomplete, h.untimed, h.found, h.gated⟩

section delivery

variable (from_str : String → Option Value) (wall : Nat → UInt64)

/-! ### One event -/

/-- What one event does to the pump: it goes on, or it stops. -/
def pump_event (d : ProtocolDescriptor) (s : RelayState) : PumpInput → Except RelayEnd RelayState
  | .probe time =>
    if s.ctx.client_dead then .ok s
    else ({ s with now := max s.now time } : RelayState).client_gone from_str d
  | .item i =>
    if s.ctx.client_dead ∧ s.wait_limit < s.ready + i.delay then .error (.returned s.time_out)
    else ({ s with now := max s.now (s.ready + i.delay), ready := s.ready + i.delay }
      : RelayState).take_frame from_str wall d i

/-- The pump takes event after event. -/
theorem pump_cons (d : ProtocolDescriptor) (s : RelayState) (input : PumpInput)
    (rest : List PumpInput) :
    pump from_str wall d s (input :: rest)
      = match pump_event from_str wall d s input with
        | .ok s₁ => pump from_str wall d s₁ rest
        | .error stopped => stopped := by
  cases input with
  | probe time =>
    rw [pump]
    unfold pump_event
    by_cases hdead : s.ctx.client_dead = true
    · simp only [if_pos hdead]
    · cases hgone : ({ s with now := max s.now time } : RelayState).client_gone from_str d with
      | ok s₁ => simp only [if_neg hdead, hgone]
      | error stopped => simp only [if_neg hdead, hgone]
  | item i =>
    rw [pump]
    unfold pump_event
    by_cases hlate : s.ctx.client_dead = true ∧ s.wait_limit < s.ready + i.delay
    · simp only [if_pos hlate]
    · -- The frame is taken at the time it is ready.
      cases htaken : ({ s with now := max s.now (s.ready + i.delay), ready := s.ready + i.delay }
        : RelayState).take_frame from_str wall d i with
      | ok s₁ => simp only [if_neg hlate, htaken]
      | error stopped => simp only [if_neg hlate, htaken]

/-- The pump goes on after an event: the invariant holds again, and a living
    client has been handed the event's bytes. -/
structure Went (s : RelayState) (input : PumpInput) (s₁ : RelayState) : Prop where
  pumping : Pumping s₁
  same_snap : s₁.ctx.snap = s.ctx.snap
  stays_dead : s.ctx.client_dead = true → s₁.ctx.client_dead = true
  goes_on : input.GoesOn
  written : s₁.written = s.written ++ if s.ctx.client_dead then [] else input.bytes
  lives : input.kept = true → s.ctx.client_dead = false → s₁.ctx.client_dead = false

/-- The pump stops at an event. With a living client it stops at the stream's
    end only. -/
structure StoppedAt (s : RelayState) (input : PumpInput) (stopped : RelayEnd) : Prop where
  settled : Settled stopped.state
  same_snap : stopped.state.ctx.snap = s.ctx.snap
  stays_dead : s.ctx.client_dead = true → stopped.state.ctx.client_dead = true
  written : ∃ bytes, stopped.state.written = s.written ++ bytes ∧ bytes <+: input.bytes ∧
    (s.ctx.client_dead = true → bytes = [])
  ended : stopped.state.end_seen = true → ∃ i, input = .item i ∧ i.frame = .stop
  alive : stopped.state.ctx.client_dead = false →
    ∃ s' i, stopped = .returned s' ∧ input = .item i ∧
      ((i.frame = .stop ∧ s'.end_seen = true) ∨ ∃ error, i.frame = .failed error)
  lives : input.kept = true → s.ctx.client_dead = false → stopped.state.ctx.client_dead = false

/-- A death that is found starts a drain, or stops the relay. -/
theorem client_gone_spec (d : ProtocolDescriptor) {s : RelayState} (h : Pumping s) :
    (∃ s₁, s.client_gone from_str d = .ok s₁ ∧ Pumping s₁ ∧ s₁.ctx.client_dead = true ∧
      s₁.ctx.snap = s.ctx.snap ∧ s₁.written = s.written) ∨
    ∃ stopped, s.client_gone from_str d = .error stopped ∧ Settled stopped.state ∧
      stopped.state.ctx.client_dead = true ∧ stopped.state.ctx.snap = s.ctx.snap ∧
      stopped.state.written = s.written ∧ stopped.state.end_seen = false := by
  have hmarked : (none : Option String).isSome = false := rfl
  obtain ⟨acc, tail, hframe⟩ := begin_drain_frame from_str d s.mark_dead.now s.mark_dead.ctx
  unfold RelayState.client_gone
  dsimp only
  by_cases hcancel : s.mark_dead.ctx.snap.on_cancel = true
  · rw [if_pos hcancel, hframe]
    -- the drain window opens, unless its deadline overflows
    cases hdeadline : (begin_drain from_str d s.mark_dead.now s.mark_dead.ctx).2 with
    | some deadline =>
      refine Or.inl ⟨_, rfl, ?_, rfl, rfl, rfl⟩
      exact ⟨h.open_end, h.upstream_ok, h.unmarked, h.incomplete, h.untimed, rfl, fun _ => hcancel⟩
    | none =>
      refine Or.inr ⟨_, rfl, ?_, rfl, rfl, rfl, h.open_end⟩
      exact ⟨h.incomplete, h.settled.marked, h.settled.one_end, fun _ => ⟨rfl, hcancel⟩, rfl⟩
  · rw [if_neg hcancel]
    refine Or.inr ⟨_, rfl, ?_, rfl, rfl, rfl, h.open_end⟩
    refine ⟨h.incomplete, h.settled.marked, h.settled.one_end, ?_, rfl⟩
    intro htimed
    have huntimed : s.ctx.drain_timed_out = true := htimed
    rw [h.untimed] at huntimed
    cases huntimed

/-- A death found while the bytes of an event were being handed over, or
    between two events. -/
theorem gone_event {d : ProtocolDescriptor} {s s' : RelayState} {input : PumpInput}
    (h : Pumping s') (halive : s.ctx.client_dead = false) (hsnap : s'.ctx.snap = s.ctx.snap)
    (hgoes : input.GoesOn) (hlost : input.kept = false)
    (hwritten : s'.written = s.written ++ input.bytes) :
    (∃ s₁, s'.client_gone from_str d = .ok s₁ ∧ Went s input s₁) ∨
    ∃ stopped, s'.client_gone from_str d = .error stopped ∧ StoppedAt s input stopped := by
  have hlives : ∀ s₁ : RelayState, input.kept = true → s.ctx.client_dead = false →
      s₁.ctx.client_dead = false := by
    intro s₁ hkept
    rw [hlost] at hkept
    cases hkept
  rcases client_gone_spec from_str d h with
    ⟨s₁, hgone, hpumping, hdead, hsame, hsent⟩ |
    ⟨stopped, hgone, hsettled, hdead, hsame, hsent, hopen⟩
  · refine Or.inl ⟨s₁, hgone, hpumping, hsame.trans hsnap, fun _ => hdead, hgoes, ?_, hlives s₁⟩
    rw [hsent, hwritten, halive, if_neg Bool.false_ne_true]
  · refine Or.inr ⟨stopped, hgone, hsettled, hsame.trans hsnap, fun _ => hdead, ?_, ?_, ?_,
      hlives stopped.state⟩
    · refine ⟨input.bytes, hsent.trans hwritten, List.prefix_refl _, ?_⟩
      intro hwas
      rw [halive] at hwas
      cases hwas
    · intro hend
      rw [hopen] at hend
      cases hend
    · intro hstill
      rw [hdead] at hstill
      cases hstill

/-- A chunk is drained, or handed to a living client. -/
theorem chunk_event {d : ProtocolDescriptor} {s : RelayState} (h : Pumping s) {i : PumpItem}
    {bytes : Bytes} (hframe : i.frame = .chunk bytes) (now ready : Nat) :
    (∃ s₁, ({ s with now := now, ready := ready } : RelayState).take_frame from_str wall d i
        = .ok s₁ ∧ Went s (.item i) s₁) ∨
    ∃ stopped, ({ s with now := now, ready := ready } : RelayState).take_frame from_str wall d i
        = .error stopped ∧ StoppedAt s (.item i) stopped := by
  have hbytes : PumpInput.bytes (.item i) = bytes := by
    simp only [PumpInput.bytes, hframe]
  have hgoes : PumpInput.GoesOn (.item i) := ⟨bytes, hframe⟩
  obtain ⟨first, hlatch⟩ := latch_frame wall
    ({ s with now := now, ready := ready } : RelayState) bytes
  unfold RelayState.take_frame
  rw [hframe]
  dsimp only
  rw [hlatch]
  by_cases hdead : s.ctx.client_dead = true
  · -- A drained chunk goes nowhere.
    have hgated := h.gated hdead
    obtain ⟨buf, overflow, acc, tail, hdrain⟩ := drain_chunk_frame from_str d
      ({ s with
        now := now
        ready := ready
        ctx := { s.ctx with first_output_ns := first } } : RelayState) i.cap bytes
    have hskip : ¬ (!s.ctx.client_dead) = true := by
      rw [hdead]
      exact Bool.false_ne_true
    rw [if_neg hskip, if_pos hgated, hdrain]
    refine Or.inl ⟨_, rfl, ?_, rfl, id, hgoes, ?_, fun _ => id⟩
    · exact ⟨h.open_end, h.upstream_ok, h.unmarked, h.incomplete, h.untimed, h.found, h.gated⟩
    · rw [hdead, if_pos rfl, List.append_nil]
  · -- A living client is handed the chunk, whatever the write does.
    have halive : s.ctx.client_dead = false := Bool.eq_false_iff.mpr hdead
    have hforward : (!s.ctx.client_dead) = true := by
      rw [halive]
      rfl
    rw [if_pos hforward]
    unfold RelayState.forward_chunk
    dsimp only
    have hcaptured := h.frame (now + i.took) ready (s.written ++ bytes) (s.ctx.resp_buf ++ bytes)
      first
    by_cases hwrite : i.write_ok = true
    · rw [if_pos hwrite]
      refine Or.inl ⟨_, rfl, hcaptured, rfl, ?_, hgoes, ?_, fun _ => id⟩
      · intro hwas
        exact absurd hwas hdead
      · rw [halive, if_neg Bool.false_ne_true, hbytes]
    · -- The write itself finds the client gone.
      rw [if_neg hwrite]
      have hlost : PumpInput.kept (.item i) = false := Bool.eq_false_iff.mpr hwrite
      apply gone_event from_str hcaptured halive rfl hgoes hlost
      show s.written ++ bytes = s.written ++ PumpInput.bytes (.item i)
      rw [hbytes]

/-- The end of the stream, or its failure, stops the pump. -/
theorem last_event {d : ProtocolDescriptor} {s : RelayState} (h : Pumping s) {i : PumpItem}
    (hlast : i.frame = .stop ∨ ∃ error, i.frame = .failed error) (now ready : Nat) :
    ∃ stopped, ({ s with now := now, ready := ready } : RelayState).take_frame from_str wall d i
        = .error stopped ∧ StoppedAt s (.item i) stopped := by
  have hnothing : ∃ bytes, s.written = s.written ++ bytes ∧
      bytes <+: PumpInput.bytes (.item i) ∧ (s.ctx.client_dead = true → bytes = []) :=
    ⟨[], (List.append_nil _).symm, List.nil_prefix, fun _ => rfl⟩
  rcases hlast with hframe | ⟨error, hframe⟩
  · rw [take_frame_stop from_str wall _ hframe]
    refine ⟨_, rfl, ?_, rfl, id, hnothing, fun _ => ⟨i, rfl, hframe⟩, ?_, fun _ => id⟩
    · exact ⟨h.incomplete, h.settled.marked, fun _ => h.upstream_ok, h.settled.timed, h.found⟩
    · exact fun _ => ⟨_, i, rfl, rfl, Or.inl ⟨hframe, rfl⟩⟩
  · -- A failure is no end: the stream's end has not been seen, and never will.
    have hopen : s.end_seen = true → False := by
      intro hend
      rw [h.open_end] at hend
      cases hend
    rw [take_frame_failed from_str wall _ hframe]
    refine ⟨_, rfl, ?_, rfl, id, hnothing, ?_, ?_, fun _ => id⟩
    · exact ⟨h.incomplete, rfl, fun hend => (hopen hend).elim, h.settled.timed, h.found⟩
    · exact fun hend => (hopen hend).elim
    · exact fun _ => ⟨_, i, rfl, rfl, Or.inr ⟨error, hframe⟩⟩

/-- One event keeps the invariant or stops the pump. -/
theorem pump_event_spec {d : ProtocolDescriptor} {s : RelayState} (h : Pumping s)
    (input : PumpInput) :
    (∃ s₁, pump_event from_str wall d s input = .ok s₁ ∧ Went s input s₁) ∨
    ∃ stopped, pump_event from_str wall d s input = .error stopped ∧
      StoppedAt s input stopped := by
  cases input with
  | probe time =>
    rw [pump_event]
    by_cases hdead : s.ctx.client_dead = true
    · -- Nobody watches a dead client.
      rw [if_pos hdead]
      refine Or.inl ⟨s, rfl, h, rfl, id, trivial, ?_, fun _ => id⟩
      rw [hdead, if_pos rfl, List.append_nil]
    · -- The probe finds the client gone, with nothing in hand.
      rw [if_neg hdead]
      apply gone_event from_str (h.frame _ s.ready s.written s.ctx.resp_buf s.ctx.first_output_ns)
      · exact Bool.eq_false_iff.mpr hdead
      · rfl
      · trivial
      · rfl
      · exact (List.append_nil _).symm
  | item i =>
    rw [pump_event]
    by_cases hlate : s.ctx.client_dead = true ∧ s.wait_limit < s.ready + i.delay
    · -- The window closes before the item comes.
      rw [if_pos hlate]
      refine Or.inr ⟨_, rfl, ?_, rfl, id, ?_, ?_, ?_, fun _ => id⟩
      · exact ⟨h.incomplete, h.settled.marked, h.settled.one_end,
          fun _ => ⟨hlate.1, h.gated hlate.1⟩, h.found⟩
      · exact ⟨[], (List.append_nil _).symm, List.nil_prefix, fun _ => rfl⟩
      · intro hend
        have hopen : s.end_seen = true := hend
        rw [h.open_end] at hopen
        cases hopen
      · intro halive
        have hwas : s.ctx.client_dead = false := halive
        rw [hlate.1] at hwas
        cases hwas
    · rw [if_neg hlate]
      cases hframe : i.frame with
      | chunk bytes => exact chunk_event from_str wall h hframe _ _
      | stop => exact Or.inr (last_event from_str wall h (Or.inl hframe) _ _)
      | failed error => exact Or.inr (last_event from_str wall h (Or.inr ⟨error, hframe⟩) _ _)

/-! ### A run -/

/-- How the pump has stopped over `inputs`. -/
structure Pumped (s : RelayState) (inputs : List PumpInput) (out : RelayEnd) : Prop where
  settled : Settled out.state
  same_snap : out.state.ctx.snap = s.ctx.snap
  written : ∃ bytes, out.state.written = s.written ++ bytes ∧ bytes <+: upstream_body inputs ∧
    (s.ctx.client_dead = true → bytes = [])
  ended : out.state.end_seen = true → ends_clean inputs = true
  alive : out.state.ctx.client_dead = false →
    out.state.written = s.written ++ upstream_body inputs ∧
      (ends_clean inputs = true → ∃ s', out = .returned s' ∧ s'.end_seen = true)
  stays_dead : s.ctx.client_dead = true → out.state.ctx.client_dead = true
  lives : (∀ input ∈ inputs, input.kept = true) → s.ctx.client_dead = false →
    out.state.ctx.client_dead = false

/-- A pump without events waits, or its window closes. -/
theorem pump_nil {d : ProtocolDescriptor} {s : RelayState} (h : Pumping s) :
    Pumped s [] (pump from_str wall d s []) := by
  have hnothing : ∃ bytes, s.written = s.written ++ bytes ∧ bytes <+: upstream_body [] ∧
      (s.ctx.client_dead = true → bytes = []) :=
    ⟨[], (List.append_nil _).symm, List.nil_prefix, fun _ => rfl⟩
  have hopen : s.end_seen = true → ends_clean [] = true := by
    intro hend
    rw [h.open_end] at hend
    cases hend
  rw [pump]
  by_cases hdead : s.ctx.client_dead = true
  · rw [if_pos hdead]
    refine ⟨?_, rfl, hnothing, hopen, ?_, id, fun _ => id⟩
    · exact ⟨h.incomplete, h.settled.marked, h.settled.one_end,
        fun _ => ⟨hdead, h.gated hdead⟩, h.found⟩
    · intro halive
      exact absurd hdead (Bool.eq_false_iff.mp halive)
  · rw [if_neg hdead]
    refine ⟨h.settled, rfl, hnothing, hopen, ?_, id, fun _ => id⟩
    intro _
    refine ⟨(List.append_nil _).symm, ?_⟩
    intro hclean
    cases hclean

/-- An event that the pump goes on after, then the rest of the run. -/
theorem Went.pumped {s s₁ : RelayState} {input : PumpInput} {rest : List PumpInput}
    {out : RelayEnd} (hwent : Went s input s₁) (hrun : Pumped s₁ rest out) :
    Pumped s (input :: rest) out := by
  have hbody := upstream_body_cons hwent.goes_on rest
  have hclean := ends_clean_cons hwent.goes_on rest
  refine ⟨hrun.settled, hrun.same_snap.trans hwent.same_snap, ?_, ?_, ?_,
    fun hdead => hrun.stays_dead (hwent.stays_dead hdead), ?_⟩
  · -- What the event wrote, and then what the rest of the run did.
    obtain ⟨bytes, hsent, hprefix, hdead⟩ := hrun.written
    rw [hbody]
    by_cases hwas : s.ctx.client_dead = true
    · refine ⟨[], ?_, List.nil_prefix, fun _ => rfl⟩
      have hnone := hdead (hwent.stays_dead hwas)
      rw [hsent, hnone, hwent.written, if_pos hwas]
      simp only [List.append_nil]
    · refine ⟨input.bytes ++ bytes, ?_, (List.prefix_append_right_inj _).mpr hprefix, ?_⟩
      · rw [hsent, hwent.written, if_neg hwas, List.append_assoc]
      · intro hdead
        exact absurd hdead hwas
  · rw [hclean]
    exact hrun.ended
  · intro halive
    obtain ⟨hall, hend⟩ := hrun.alive halive
    -- The client was alive at this event too.
    have hwas : ¬ s.ctx.client_dead = true := by
      intro hdead
      have hstill := hrun.stays_dead (hwent.stays_dead hdead)
      exact absurd hstill (Bool.eq_false_iff.mp halive)
    rw [hall, hwent.written, if_neg hwas, hbody, hclean, List.append_assoc]
    exact ⟨rfl, hend⟩
  · intro hkept halive
    have hhead := hwent.lives (hkept input List.mem_cons_self) halive
    exact hrun.lives (fun i hi => hkept i (List.mem_cons_of_mem _ hi)) hhead

/-- An event that stops the pump, whatever would have come after it. -/
theorem StoppedAt.pumped {s : RelayState} {input : PumpInput} {stopped : RelayEnd}
    (hstop : StoppedAt s input stopped) (rest : List PumpInput) :
    Pumped s (input :: rest) stopped := by
  refine ⟨hstop.settled, hstop.same_snap, ?_, ?_, ?_, hstop.stays_dead, ?_⟩
  · obtain ⟨bytes, hsent, hprefix, hdead⟩ := hstop.written
    refine ⟨bytes, hsent, hprefix.trans ?_, hdead⟩
    -- An event's bytes begin the body it is part of.
    cases input with
    | probe time => exact List.nil_prefix
    | item i =>
      simp only [PumpInput.bytes, upstream_body]
      split
      · exact List.prefix_append _ _
      · exact List.prefix_refl _
      · exact List.prefix_refl _
  · intro hend
    obtain ⟨i, rfl, hframe⟩ := hstop.ended hend
    simp only [ends_clean, hframe]
  · intro halive
    obtain ⟨s', i, rfl, rfl, hframe⟩ := hstop.alive halive
    obtain ⟨bytes, hsent, hprefix, -⟩ := hstop.written
    -- Neither an end nor a failure carries bytes, and nothing comes after it.
    have hnone : PumpInput.bytes (.item i) = [] ∧ upstream_body (.item i :: rest) = [] := by
      rcases hframe with ⟨hframe, -⟩ | ⟨error, hframe⟩
      · simp only [PumpInput.bytes, upstream_body, hframe, and_self]
      · simp only [PumpInput.bytes, upstream_body, hframe, and_self]
    rw [hnone.1, List.prefix_nil] at hprefix
    refine ⟨by rw [hsent, hprefix, hnone.2], ?_⟩
    intro hclean
    rcases hframe with ⟨-, hend⟩ | ⟨error, hframe⟩
    · exact ⟨s', rfl, hend⟩
    · simp only [ends_clean, hframe] at hclean
      cases hclean
  · intro hkept
    exact hstop.lives (hkept input List.mem_cons_self)

/-- Every run of the pump, by induction on its events. -/
theorem pump_run {d : ProtocolDescriptor} :
    ∀ (inputs : List PumpInput) (s : RelayState), Pumping s →
      Pumped s inputs (pump from_str wall d s inputs) := by
  intro inputs
  induction inputs with
  | nil => exact fun s h => pump_nil from_str wall h
  | cons input rest ih =>
    intro s h
    rw [pump_cons]
    rcases pump_event_spec from_str wall (d := d) h input with
      ⟨s₁, hevent, hwent⟩ | ⟨stopped, hevent, hstop⟩
    · rw [hevent]
      exact hwent.pumped (ih s₁ hwent.pumping)
    · rw [hevent]
      exact hstop.pumped rest

/-- After the events that showed the client dead, nothing more is written,
    whatever follows. -/
theorem pump_after_death {d : ProtocolDescriptor} (rest : List PumpInput) :
    ∀ (seen : List PumpInput) (s : RelayState), Pumping s →
      (pump from_str wall d s seen).state.ctx.client_dead = true →
      (pump from_str wall d s (seen ++ rest)).state.written
        = (pump from_str wall d s seen).state.written := by
  intro seen
  induction seen with
  | nil =>
    intro s h hdead
    by_cases hwas : s.ctx.client_dead = true
    · obtain ⟨bytes, hsent, -, hnone⟩ := (pump_run from_str wall (d := d) rest s h).written
      rw [List.nil_append, hsent, hnone hwas, List.append_nil, pump, if_pos hwas]
      rfl
    · -- the pump is still waiting
      rw [pump, if_neg hwas] at hdead
      exact absurd hdead hwas
  | cons input seen ih =>
    intro s h hdead
    rw [List.cons_append, pump_cons, pump_cons]
    rw [pump_cons] at hdead
    rcases pump_event_spec from_str wall (d := d) h input with
      ⟨s₁, hevent, hwent⟩ | ⟨stopped, hevent, -⟩
    · rw [hevent] at hdead ⊢
      exact ih s₁ hwent.pumping hdead
    · rw [hevent]

/-! ### The whole relay -/

/-- `ResponseHeader::build` rejects numbers that are no status code, and the
    client's response carries a status code. -/
structure UpstreamHead.Buildable (head : UpstreamHead) : Prop where
  status : 100 ≤ head.status ∧ head.status ≤ 999
  rejected : head.build_error.isSome = true → head.status < 100 ∨ 999 < head.status

theorem UpstreamHead.Buildable.build {head : UpstreamHead} (h : head.Buildable) :
    head.build_error = none := by
  cases hbuild : head.build_error with
  | none => rfl
  | some e =>
    have hrejected := h.rejected (by rw [hbuild]; rfl)
    have hstatus := h.status
    simp only [UInt16.le_iff_toNat_le, UInt16.lt_iff_toNat_lt] at hstatus hrejected
    omega

/-- Neither a write nor the probe finds the client gone. -/
def Exchange.ClientLives (x : Exchange) : Prop :=
  (∀ head, x.sent = .ok head → head.write_ok = true) ∧ ∀ input ∈ x.inputs, input.kept = true

/-- What a relayed exchange delivers, and what its flags say of it. -/
structure RelayDelivery (x : Exchange) (snap : Snapshot) (out : RelayEnd) : Prop where
  in_order : out.state.written <+: x.body
  complete : out.state.ctx.response_complete = true →
    ∃ head, x.sent = .ok head ∧ (head.no_body_status = true ∨ ends_clean x.inputs = true)
  errored : out.state.ctx.relay_error.isSome = true → out.state.ctx.response_complete = false
  timed_out : out.state.ctx.drain_timed_out = true →
    out.state.ctx.client_dead = true ∧ snap.on_cancel = true
  lives : x.ClientLives → out.state.ctx.client_dead = false
  alive : out.state.ctx.client_dead = false → ∀ head, x.sent = .ok head →
    out.state.written = x.body ∧
      ((head.no_body_status = true ∨ ends_clean x.inputs = true) →
        ∃ s, out = .returned s ∧ s.terminated = true ∧ s.ctx.response_complete = true)

/-- The flags of a relay once its response has ended. -/
theorem finish_flags {s : RelayState} (h : Settled s) :
    ((s.finish wall).ctx.response_complete = true → s.end_seen = true) ∧
    ((s.finish wall).ctx.relay_error.isSome = true →
      (s.finish wall).ctx.response_complete = false) ∧
    (s.end_seen = true → (s.finish wall).ctx.response_complete = true ∧
      (s.ctx.client_dead = false → (s.finish wall).terminated = true)) := by
  have hcomplete : (s.finish wall).ctx.response_complete = (s.end_seen && !s.upstream_failed) := by
    show (s.ctx.response_complete || (s.end_seen && !s.upstream_failed)) = _
    rw [h.incomplete, Bool.false_or]
  refine ⟨?_, ?_, ?_⟩
  · rw [hcomplete]
    intro hboth
    exact (Bool.and_eq_true_iff.mp hboth).1
  · intro hmarked
    have hfailed : s.upstream_failed = true := h.marked.symm.trans hmarked
    rw [hcomplete, hfailed, Bool.not_true, Bool.and_false]
  · intro hend
    have hok := h.one_end hend
    refine ⟨by rw [hcomplete, hend, hok]; rfl, ?_⟩
    intro halive
    show (!s.ctx.client_dead && !s.upstream_failed) = true
    rw [halive, hok]
    rfl

/-- The state after the head: nothing has been handed over, and if a body
    follows, the loop's invariant holds. -/
theorem head_state_start (x : Exchange) (snap : Snapshot) (start_ns : UInt64)
    (head : UpstreamHead) (hstay : head.write_ok = true ∨ snap.on_cancel = true) :
    (head_state x snap start_ns head).written = [] ∧
      (head_state x snap start_ns head).ctx.client_dead = !head.write_ok ∧
      Settled (head_state x snap start_ns head) ∧
      (head.no_body_status = false → Pumping (head_state x snap start_ns head)) := by
  unfold head_state RelayState.write_head
  by_cases hwrite : head.write_ok = true
  · simp only [hwrite, if_true]
    refine ⟨rfl, rfl, ⟨rfl, rfl, fun _ => rfl, ?_, rfl⟩, ?_⟩
    · intro htimed
      cases htimed
    · intro hbody
      refine ⟨hbody, rfl, rfl, rfl, rfl, rfl, ?_⟩
      intro hdead
      cases hdead
  · -- a failed write leaves a dead client, drained only when asked for
    have hcancel : snap.on_cancel = true := hstay.resolve_left hwrite
    simp only [hwrite]
    refine ⟨rfl, rfl, ⟨rfl, rfl, fun _ => rfl, fun _ => ⟨rfl, hcancel⟩, rfl⟩, ?_⟩
    exact fun hbody => ⟨hbody, rfl, rfl, rfl, rfl, rfl, fun _ => hcancel⟩

/-- A relay past its head knows the client's and the drain's flags. -/
theorem settled_timed {s : RelayState} {snap : Snapshot} (h : Settled s)
    (hsnap : s.ctx.snap = snap) (htimed : s.ctx.drain_timed_out = true) :
    s.ctx.client_dead = true ∧ snap.on_cancel = true := by
  obtain ⟨hgone, hcancel⟩ := h.timed htimed
  rw [hsnap] at hcancel
  exact ⟨hgone, hcancel⟩

/-- A client that lives was written the head. -/
theorem head_state_lives {x : Exchange} {snap : Snapshot} {start_ns : UInt64}
    {head : UpstreamHead} (hsent : x.sent = .ok head)
    (hstay : head.write_ok = true ∨ snap.on_cancel = true) (hlives : x.ClientLives) :
    (head_state x snap start_ns head).ctx.client_dead = false := by
  rw [(head_state_start x snap start_ns head hstay).2.1, hlives.1 head hsent]
  rfl

/-- A response that is over with its head. -/
theorem relay_body_unbodied {d : ProtocolDescriptor} {x : Exchange} {snap : Snapshot}
    {start_ns : UInt64} {head : UpstreamHead} (hsent : x.sent = .ok head)
    (hstay : head.write_ok = true ∨ snap.on_cancel = true) (hnone : head.no_body_status = true) :
    RelayDelivery x snap
      (relay_body from_str wall d (head_state x snap start_ns head) x.inputs) := by
  obtain ⟨hwritten, -, hsettled, -⟩ := head_state_start x snap start_ns head hstay
  have hspec := head_state_spec x snap start_ns head
  have hend : (head_state x snap start_ns head).end_seen = true := hspec.end_seen.trans hnone
  obtain ⟨-, herrored, hfinish⟩ := finish_flags wall hsettled
  have hempty : x.body = [] := by
    unfold Exchange.body
    rw [hsent]
    exact if_pos hnone
  have htimed := @settled_timed _ snap hsettled hspec.same_head.snap
  unfold relay_body
  rw [if_pos hend]
  refine ⟨?_, fun _ => ⟨head, hsent, Or.inl hnone⟩, herrored, htimed,
    head_state_lives hsent hstay, ?_⟩
  · show (head_state x snap start_ns head).written <+: x.body
    rw [hwritten]
    exact List.nil_prefix
  · intro halive _ _
    exact ⟨hwritten.trans hempty.symm, fun _ => ⟨_, rfl, (hfinish hend).2 halive, (hfinish hend).1⟩⟩

/-- A relay past its head delivers. -/
theorem relay_body_delivery {d : ProtocolDescriptor} {x : Exchange} {snap : Snapshot}
    {start_ns : UInt64} {head : UpstreamHead} (hsent : x.sent = .ok head)
    (hstay : head.write_ok = true ∨ snap.on_cancel = true) :
    RelayDelivery x snap
      (relay_body from_str wall d (head_state x snap start_ns head) x.inputs) := by
  by_cases hnone : head.no_body_status = true
  · exact relay_body_unbodied from_str wall hsent hstay hnone
  obtain ⟨hwritten, -, -, hpumping⟩ := head_state_start x snap start_ns head hstay
  have hspec := head_state_spec x snap start_ns head
  have hopen : ¬ (head_state x snap start_ns head).end_seen = true := by
    rw [hspec.end_seen]
    exact hnone
  have hstream : x.body = upstream_body x.inputs := by
    unfold Exchange.body
    rw [hsent]
    exact if_neg hnone
  have hrun := pump_run from_str wall (d := d) x.inputs _ (hpumping (Bool.eq_false_iff.mpr hnone))
  obtain ⟨bytes, hsent', hprefix, -⟩ := hrun.written
  rw [hwritten, List.nil_append] at hsent'
  have horder : (pump from_str wall d (head_state x snap start_ns head) x.inputs).state.written
      <+: x.body := by
    rw [hsent', hstream]
    exact hprefix
  have hlives : x.ClientLives →
      (pump from_str wall d (head_state x snap start_ns head) x.inputs).state.ctx.client_dead
        = false :=
    fun hlives => hrun.lives hlives.2 (head_state_lives hsent hstay hlives)
  have halive := hrun.alive
  rw [hwritten, List.nil_append, ← hstream] at halive
  have hsame := hrun.same_snap.trans hspec.same_head.snap
  have hbodied : ∀ head', x.sent = .ok head' → ¬ head'.no_body_status = true := by
    intro head' hsent''
    rw [hsent] at hsent''
    cases hsent''
    exact hnone
  -- a relay that does not return has no end of a response to show
  have hpause : ∀ out, pump from_str wall d (head_state x snap start_ns head) x.inputs = out →
      (∀ s, out ≠ .returned s) → RelayDelivery x snap out := by
    rintro out rfl hstuck
    refine ⟨horder, ?_, fun _ => hrun.settled.incomplete, settled_timed hrun.settled hsame,
      hlives, ?_⟩
    · intro hset
      exact absurd hset (Bool.eq_false_iff.mp hrun.settled.incomplete)
    · intro hstill head' hsent''
      obtain ⟨hall, hend⟩ := halive hstill
      refine ⟨hall, ?_⟩
      intro hover
      obtain ⟨s', hs', -⟩ := hend (hover.resolve_left (hbodied head' hsent''))
      exact absurd hs' (hstuck s')
  unfold relay_body
  rw [if_neg hopen]
  cases hout : pump from_str wall d (head_state x snap start_ns head) x.inputs with
  | panicked s => exact hpause _ hout (fun s' h => by cases h)
  | waiting s => exact hpause _ hout (fun s' h => by cases h)
  | returned s =>
    rw [hout] at hrun horder hlives halive hsame
    obtain ⟨hcomplete, herrored, hfinish⟩ := finish_flags wall hrun.settled
    have htimed := @settled_timed s snap hrun.settled hsame
    refine ⟨horder, ?_, herrored, htimed, hlives, ?_⟩
    · exact fun hset => ⟨head, hsent, Or.inr (hrun.ended (hcomplete hset))⟩
    · intro hstill head' hsent''
      obtain ⟨hall, hend⟩ := halive hstill
      refine ⟨hall, ?_⟩
      intro hover
      obtain ⟨s', hs', hseen⟩ := hend (hover.resolve_left (hbodied head' hsent''))
      cases hs'
      exact ⟨_, rfl, (hfinish hseen).2 hstill, (hfinish hseen).1⟩

/-- The same events as far as `seen`. -/
def Exchange.upto (x : Exchange) (seen : List PumpInput) : Exchange := { x with inputs := seen }

/-- The epilogue writes no body byte and leaves the mark of the client. -/
theorem relay_body_pump {d : ProtocolDescriptor} {s : RelayState} (hopen : ¬ s.end_seen = true)
    (inputs : List PumpInput) :
    (relay_body from_str wall d s inputs).state.written
        = (pump from_str wall d s inputs).state.written ∧
      (relay_body from_str wall d s inputs).state.ctx.client_dead
        = (pump from_str wall d s inputs).state.ctx.client_dead := by
  unfold relay_body
  rw [if_neg hopen]
  cases pump from_str wall d s inputs <;> exact ⟨rfl, rfl⟩

/-- After the events that showed the client dead, a relay past its head
    writes nothing more. -/
theorem relay_body_after_death {d : ProtocolDescriptor} {s : RelayState}
    (hpumping : ¬ s.end_seen = true → Pumping s) (seen rest : List PumpInput)
    (hdead : (relay_body from_str wall d s seen).state.ctx.client_dead = true) :
    (relay_body from_str wall d s (seen ++ rest)).state.written
      = (relay_body from_str wall d s seen).state.written := by
  by_cases hend : s.end_seen = true
  · unfold relay_body
    rw [if_pos hend, if_pos hend]
  · obtain ⟨hwritten, hmark⟩ := relay_body_pump from_str wall (d := d) hend seen
    rw [hmark] at hdead
    rw [hwritten, (relay_body_pump from_str wall (d := d) hend (seen ++ rest)).1]
    exact pump_after_death from_str wall rest seen s (hpumping hend) hdead

/-! The ways a relay leaves its head. -/

/-- A request that got no answer. -/
theorem relay_unsent {d : ProtocolDescriptor} {x : Exchange} {ctx : Ctx} {e : String}
    (hsent : x.sent = .error e) (seen : List PumpInput) :
    relay from_str wall d (x.upto seen) ctx = relay from_str wall d x ctx := by
  simp only [relay, Exchange.upto, hsent]

/-- A head that is built leads into the body, unless it could not be written
    and nobody wants a drain. -/
theorem relay_past_head {d : ProtocolDescriptor} {x : Exchange} {snap : Snapshot}
    {start_ns : UInt64} {head : UpstreamHead} (hupload : x.upload_aborted = false)
    (hsent : x.sent = .ok head) (hbuild : head.Buildable) (inputs : List PumpInput) :
    relay from_str wall d (x.upto inputs) (Ctx.fresh snap start_ns)
      = if head.write_ok = true ∨ snap.on_cancel = true then
          relay_body from_str wall d (head_state x snap start_ns head) inputs
        else
          .returned { head_state x snap start_ns head with
            ctx := { (head_state x snap start_ns head).ctx with relay_done := true } } := by
  have hsnap : (head_state x snap start_ns head).ctx.snap = snap :=
    (head_state_spec x snap start_ns head).same_head.snap
  have hstop : (!head.write_ok && !(head_state x snap start_ns head).ctx.snap.on_cancel) = true ↔
      ¬ (head.write_ok = true ∨ snap.on_cancel = true) := by
    rw [hsnap]
    simp
  unfold relay
  rw [if_neg (show ¬ (x.upto inputs).upload_aborted = true from Bool.eq_false_iff.mp hupload),
    show (x.upto inputs).sent = .ok head from hsent]
  dsimp only
  rw [hbuild.build]
  by_cases hstay : head.write_ok = true ∨ snap.on_cancel = true
  · rw [if_pos hstay]
    exact if_neg (fun h => hstop.mp h hstay)
  · rw [if_neg hstay]
    exact if_pos (hstop.mpr hstay)

/-- Without an answer nothing is delivered and no flag is set. -/
theorem unsent_delivery {d : ProtocolDescriptor} {x : Exchange} {snap : Snapshot}
    {start_ns : UInt64} {e : String} (hupload : x.upload_aborted = false)
    (hsent : x.sent = .error e) :
    RelayDelivery x snap (relay from_str wall d x (Ctx.fresh snap start_ns)) := by
  unfold relay
  rw [if_neg (Bool.eq_false_iff.mp hupload), hsent]
  refine ⟨List.nil_prefix, ?_, fun _ => rfl, ?_, fun _ => rfl, ?_⟩
  · intro hset
    cases hset
  · intro htimed
    cases htimed
  · intro _ head hhead
    rw [hsent] at hhead
    cases hhead

/-- A head that could not be written is all the client would have got. -/
theorem unwritten_delivery {x : Exchange} {snap : Snapshot} {start_ns : UInt64}
    {head : UpstreamHead} (hsent : x.sent = .ok head) (hwrite : ¬ head.write_ok = true) :
    RelayDelivery x snap (.returned { head_state x snap start_ns head with
      ctx := { (head_state x snap start_ns head).ctx with relay_done := true } }) := by
  have hlost : head_state x snap start_ns head
      = (RelayState.receive_head
          { ctx := { Ctx.fresh snap start_ns with req_buf := x.upload.flatten } } head
        |>.write_head head) := rfl
  rw [hlost]
  unfold RelayState.write_head
  dsimp only
  rw [if_neg hwrite]
  refine ⟨List.nil_prefix, ?_, fun _ => rfl, ?_, ?_, ?_⟩
  · intro hset
    cases hset
  · intro htimed
    cases htimed
  · intro hlives
    exact absurd (hlives.1 head hsent) hwrite
  · intro halive
    cases halive

/-- The relay hands its client the upstream body in order and without gaps,
    and nothing after it found the client dead; its flags agree with what
    happened. -/
theorem relay_delivers {d : ProtocolDescriptor} {x : Exchange} {snap : Snapshot}
    {start_ns : UInt64} (hupload : x.upload_aborted = false)
    (hbuild : ∀ head, x.sent = .ok head → head.Buildable) :
    RelayDelivery x snap (relay from_str wall d x (Ctx.fresh snap start_ns)) ∧
    ∀ seen rest, x.inputs = seen ++ rest →
      (relay from_str wall d (x.upto seen) (Ctx.fresh snap start_ns)).state.ctx.client_dead = true →
      (relay from_str wall d x (Ctx.fresh snap start_ns)).state.written
        = (relay from_str wall d (x.upto seen) (Ctx.fresh snap start_ns)).state.written := by
  cases hsent : x.sent with
  | error e =>
    refine ⟨unsent_delivery from_str wall hupload hsent, ?_⟩
    intro seen rest _ _
    rw [relay_unsent from_str wall hsent seen]
  | ok head =>
    have hpast := @relay_past_head from_str wall d x snap start_ns head hupload hsent
      (hbuild head hsent)
    have hall : relay from_str wall d x (Ctx.fresh snap start_ns) = _ := hpast x.inputs
    rw [hall]
    by_cases hstay : head.write_ok = true ∨ snap.on_cancel = true
    · rw [if_pos hstay]
      refine ⟨relay_body_delivery from_str wall hsent hstay, ?_⟩
      intro seen rest hinputs hdead
      rw [hpast seen, if_pos hstay] at hdead ⊢
      rw [hinputs]
      apply relay_body_after_death from_str wall _ seen rest hdead
      intro hend
      rw [(head_state_spec x snap start_ns head).end_seen] at hend
      exact (head_state_start x snap start_ns head hstay).2.2.2 (Bool.eq_false_iff.mpr hend)
    · -- the head could not be written, and nobody wants a drain
      rw [if_neg hstay]
      refine ⟨unwritten_delivery hsent (not_or.mp hstay).1, ?_⟩
      intro seen rest _ _
      rw [hpast seen, if_neg hstay]

end delivery

/-- Three chunks and a clean end; the second write finds the client gone. -/
def cut_exchange : Exchange where
  upload := []
  upload_aborted := false
  sent := .ok {
    status := 200
    content_type := none
    build_error := none
    head_request := false
    arrived := 1
    write_ok := true
    took := 0 }
  inputs := [
    .item ⟨1, .chunk [1], true, 0, CaptureCap.of_max 8⟩,
    .item ⟨1, .chunk [2], false, 0, CaptureCap.of_max 8⟩,
    .item ⟨1, .chunk [3], true, 0, CaptureCap.of_max 8⟩,
    .item ⟨1, .stop, true, 0, CaptureCap.of_max 8⟩]

def draining_snapshot : Snapshot := ⟨"salt", "tag", true, 30, half_minute_pos⟩

theorem relay_delivers_cut :
    RelayDelivery cut_exchange draining_snapshot
      (relay (fun _ => none) (fun _ => 0) Anthropic.DESCRIPTOR cut_exchange
        (Ctx.fresh draining_snapshot 0)) ∧
    (relay (fun _ => none) (fun _ => 0) Anthropic.DESCRIPTOR cut_exchange
      (Ctx.fresh draining_snapshot 0)).state.written = [1, 2] := by
  refine ⟨(relay_delivers (fun _ => none) (fun _ => 0) rfl ?_).1, rfl⟩
  intro head hsent
  cases hsent
  exact ⟨by decide, fun hrejected => by cases hrejected⟩

end AgentTraceGateway
