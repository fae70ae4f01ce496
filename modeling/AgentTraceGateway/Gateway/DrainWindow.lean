import AgentTraceGateway.Gateway.Pump
import AgentTraceGateway.Gateway.Records

/-! # The Drain Window

  A client found dead opens a window of `drain.timeout_secs`. The relay may
  give up on the upstream only when the window is over, and an upstream that
  ends cleanly within it is recorded whole, whatever the capture cap.

  Two of the three places that find a death go through `begin_drain`, which
  sets the deadline. The third, a failed head write, leaves the deadline
  unset, and a drain without a deadline waits for nothing: its window is over
  the moment it opens. So the contract holds there only when the upstream had
  already ended. -/

namespace AgentTraceGateway

/-- The end of the window that a death at `T` opens. -/
def Snapshot.window_end (snap : Snapshot) (T : Nat) : Nat :=
  T + 1000000000 * snap.timeout_secs.toNat

theorem window_end_gt (snap : Snapshot) (T : Nat) : T < snap.window_end T := by
  have hpos := UInt64.le_iff_toNat_le.mp snap.timeout_pos
  have hone : (1 : UInt64).toNat = 1 := rfl
  unfold Snapshot.window_end
  omega

/-- What a record holds of an outcome. -/
def TurnRecord.holds (record : TurnRecord) (out : SseOutcome) : Prop :=
  record.final_output = out.text ∧ record.usage = out.usage ∧ record.tool_calls = out.tools

section window

variable (sha256 : Bytes → Digest) (from_str : String → Option Value)

/-! ### The contract -/

/-- A relay of a streamed response that found its client dead at `T`. -/
structure DeadRelay (r : RelayedRequest) (head : UpstreamHead) (T : Nat) : Prop where
  sent : r.exchange.sent = .ok head
  streamed : looks_like_sse head.content_type_text = true
  found_dead : (r.outcome from_str).state.found_dead = some T

/-- The upstream ends cleanly within the window. -/
structure CleanEnd (r : RelayedRequest) (head : UpstreamHead) (T : Nat) (e : StreamEnd) : Prop where
  ending : head.upstream_end r.exchange.inputs = some e
  clean : e.clean = true
  in_window : e.ended_at ≤ r.snap.window_end T

/-- A request that `logging` records at all: a loose match counts only with a
    2xx answer. -/
def RelayedRequest.due (r : RelayedRequest) (head : UpstreamHead) : Prop :=
  r.matched.loose = false ∨ is_success head.status = true

/-- The contract of the drain window. -/
structure KeepsWindow (gw : Gateway) (r : RelayedRequest) (head : UpstreamHead) (T : Nat) :
    Prop where
  /-- The mark says that the window is over and the upstream unfinished. -/
  timed_out : (r.outcome from_str).state.ctx.drain_timed_out = true →
    r.snap.window_end T ≤ (r.outcome from_str).state.now ∧
    ∀ e, head.upstream_end r.exchange.inputs = some e →
      (r.outcome from_str).state.now < e.ended_at
  /-- A clean end within the window is recorded with the whole body. -/
  recorded : ∀ e, CleanEnd r head T e → r.due head →
    ∃ record, Pushed gw (r.after sha256 from_str gw) record ∧
      record.holds (stream_response from_str r.matched.descriptor e.body)

/-- When the contract is kept: a failed head write found the upstream at its
    end; and for an upstream that ends cleanly within the window, the deadline
    could be computed and the gateway captures, or has nothing to capture. -/
structure WindowArmed (gw : Gateway) (r : RelayedRequest) (head : UpstreamHead) (T : Nat) :
    Prop where
  head_write : head.write_ok = false →
    ∃ e, head.upstream_end r.exchange.inputs = some e ∧ e.ended_at ≤ T
  deadline : ∀ e, CleanEnd r head T e → r.due head → head.write_ok = true →
    (deadline_after T r.snap.timeout_secs).isSome
  captured : ∀ e, CleanEnd r head T e → r.due head → gw.trace_off = true →
    ({} : TurnRecord).holds (stream_response from_str r.matched.descriptor e.body)

/-! ### The record of a drained stream -/

/-- A turn that is due is pushed with its record. -/
theorem logging_pushed_iff {gw : Gateway} {t : Turn} {m : PathMatch}
    (hpath : detect_path t.path = some m)
    (hdue : m.loose = false ∨ is_success t.ctx.resp_status = true) (record : TurnRecord) :
    Pushed gw (logging sha256 from_str gw t) record
      ↔ logged_record sha256 from_str gw m.descriptor t = some record := by
  have hmatched : t.matched = some m := by
    refine Option.filter_eq_some_iff.mpr ⟨hpath, ?_⟩
    rcases hdue with hexact | hstatus
    · rw [hexact, Bool.not_false, Bool.true_or]
    · rw [hstatus, Bool.or_true]
  rw [pushed_iff_logged sha256 from_str, hmatched]
  refine ⟨?_, fun h => ⟨m, rfl, h⟩⟩
  rintro ⟨m', hsome, h⟩
  cases hsome
  exact h

/-- The record of a streamed turn holds its outcome. -/
theorem logged_record_stream {gw : Gateway} {d : ProtocolDescriptor} {t : Turn}
    (hsse : looks_like_sse t.ctx.resp_content_type = true) (hon : gw.trace_off = false) :
    ∃ record, logged_record sha256 from_str gw d t = some record ∧
      record.holds (stream_outcome from_str d t.ctx) := by
  unfold logged_record turn_record
  rw [hon, if_neg Bool.false_ne_true, if_pos hsse]
  exact ⟨_, rfl, rfl, rfl, rfl⟩

theorem logged_record_off {gw : Gateway} {d : ProtocolDescriptor} {t : Turn}
    (hoff : gw.trace_off = true) :
    logged_record sha256 from_str gw d t = some (shell_record d t) := by
  unfold logged_record
  rw [if_pos hoff]

/-- A drained stream that was read to its end is recorded whole. -/
theorem drained_recorded_iff {gw : Gateway} {r : RelayedRequest} {s : RelayState} {body : Bytes}
    (hdue : r.matched.loose = false ∨ is_success s.ctx.resp_status = true)
    (hsse : looks_like_sse s.ctx.resp_content_type = true)
    (hdrained : Drained from_str r.matched.descriptor s.ctx body) :
    (∃ record, Pushed gw (logging sha256 from_str gw (r.turn s)) record ∧
        record.holds (stream_response from_str r.matched.descriptor body)) ↔
      (gw.trace_off = true →
        ({} : TurnRecord).holds (stream_response from_str r.matched.descriptor body)) := by
  have hpath : detect_path (r.turn s).path = some r.matched := r.detected
  have hpushed : ∀ record, Pushed gw (logging sha256 from_str gw (r.turn s)) record
      ↔ logged_record sha256 from_str gw r.matched.descriptor (r.turn s) = some record :=
    logging_pushed_iff sha256 from_str hpath hdue
  have houtcome : stream_outcome from_str r.matched.descriptor (r.turn s).ctx
      = stream_response from_str r.matched.descriptor body :=
    hdrained.outcome from_str (detect_path_mem r.detected)
  simp only [hpushed]
  by_cases hoff : gw.trace_off = true
  · -- without a capture the record is the shell, whatever the stream said
    constructor
    · rintro ⟨record, hrecord, hholds⟩ _
      rw [logged_record_off sha256 from_str hoff] at hrecord
      cases hrecord
      exact hholds
    · intro hempty
      exact ⟨_, logged_record_off sha256 from_str hoff, hempty hoff⟩
  · constructor
    · intro _ hon
      exact absurd hon hoff
    · intro _
      obtain ⟨record, hrecord, hholds⟩ := logged_record_stream sha256 from_str
        (d := r.matched.descriptor) (t := r.turn s) hsse (Bool.eq_false_iff.mpr hoff)
      rw [houtcome] at hholds
      exact ⟨record, hrecord, hholds⟩

/-! ### When the contract is kept -/

/-- Nobody is found dead during the upload. -/
theorem upload_of_found_dead {r : RelayedRequest} {T : Nat}
    (h : (r.outcome from_str).state.found_dead = some T) :
    r.exchange.upload_aborted = false := by
  cases hupload : r.exchange.upload_aborted with
  | false => rfl
  | true =>
    unfold RelayedRequest.outcome relay at h
    rw [hupload, if_pos rfl] at h
    cases h

/-- How a relay that found its client dead has ended, by its head. -/
theorem DeadRelay.ended {r : RelayedRequest} {head : UpstreamHead} {T : Nat}
    (h : DeadRelay from_str r head T) :
    FoundDeadEnd from_str r.matched.descriptor r.exchange r.snap T head (r.outcome from_str) := by
  obtain ⟨head', hsent, hended⟩ := relay_found_dead from_str r.wall r.gated
    (upload_of_found_dead from_str h.found_dead) h.found_dead
  rw [h.sent] at hsent
  cases hsent
  exact hended

/-- A panicked relay loses its request, so it keeps the contract when there
    was nothing to record. -/
theorem panicked_window_iff {gw : Gateway} {r : RelayedRequest} {head : UpstreamHead} {T : Nat}
    {s : RelayState} (hout : r.outcome from_str = .panicked s)
    (huntimed : s.ctx.drain_timed_out = false) (hwrite : head.write_ok = true)
    (hdeadline : deadline_after T r.snap.timeout_secs = none) :
    KeepsWindow sha256 from_str gw r head T ↔ WindowArmed from_str gw r head T := by
  have hafter : r.after sha256 from_str gw = gw := by
    unfold RelayedRequest.after
    rw [hout]
  constructor
  · -- a panicked relay logs nothing, so no clean end may be due
    intro hkeeps
    have hnever : ∀ e, CleanEnd r head T e → r.due head → False := by
      intro e he hdue
      obtain ⟨record, hpushed, -⟩ := hkeeps.recorded e he hdue
      rw [hafter] at hpushed
      exact not_pushed_nothing gw record hpushed
    refine ⟨?_, fun e he hdue => (hnever e he hdue).elim,
      fun e he hdue => (hnever e he hdue).elim⟩
    intro hfailed
    rw [hwrite] at hfailed
    cases hfailed
  · -- and a due one would have had a deadline, which this relay lacks
    intro harmed
    refine ⟨?_, ?_⟩
    · intro htimed
      rw [hout] at htimed
      rw [show s.ctx.drain_timed_out = true from htimed] at huntimed
      cases huntimed
    · intro e he hdue
      have hsome := harmed.deadline e he hdue hwrite
      rw [hdeadline] at hsome
      cases hsome

/-- A drained relay keeps the contract when its limit is the window's end, or
    the upstream ended before a failed head write. -/
theorem drained_window_iff {gw : Gateway} {r : RelayedRequest} {head : UpstreamHead} {T D : Nat}
    {s : RelayState} (hout : r.outcome from_str = .returned s)
    (hstatus : s.ctx.resp_status = head.status)
    (hsse : looks_like_sse s.ctx.resp_content_type = true)
    (hok : head.write_ok = true → deadline_after T r.snap.timeout_secs = some D)
    (hfail : head.write_ok = false → D = T)
    (hrun : DrainedRun from_str r.matched.descriptor T D (head.upstream_end r.exchange.inputs) s) :
    KeepsWindow sha256 from_str gw r head T ↔ WindowArmed from_str gw r head T := by
  have hgt := window_end_gt r.snap T
  have hafter : r.after sha256 from_str gw = logging sha256 from_str gw (r.turn s) := by
    unfold RelayedRequest.after
    rw [hout]
  have hrecorded : ∀ {body : Bytes}, r.due head →
      Drained from_str r.matched.descriptor s.ctx body →
      ((∃ record, Pushed gw (r.after sha256 from_str gw) record ∧
          record.holds (stream_response from_str r.matched.descriptor body)) ↔
        (gw.trace_off = true →
          ({} : TurnRecord).holds (stream_response from_str r.matched.descriptor body))) := by
    intro body hdue hdrained
    unfold RelayedRequest.due at hdue
    rw [← hstatus] at hdue
    rw [hafter]
    exact drained_recorded_iff sha256 from_str hdue hsse hdrained
  constructor
  · intro hkeeps
    have hover : s.ctx.drain_timed_out = true → r.snap.window_end T ≤ s.now := by
      have hkept := hkeeps.timed_out
      rw [hout] at hkept
      exact fun htimed => (hkept htimed).1
    refine ⟨?_, fun e he hdue hwrite => by rw [hok hwrite]; rfl, ?_⟩
    · intro hfailed
      have hD := hfail hfailed
      rcases hrun.cases with ⟨e, he, hle, -, -⟩ | ⟨-, htimed, hnow⟩
      · exact ⟨e, he, hD ▸ hle⟩
      · -- timed out on the spot, before the window is over
        have hlate := hover htimed
        omega
    · intro e he hdue
      rcases hrun.cases with ⟨e', he', -, -, hdrained⟩ | ⟨hopen, htimed, hnow⟩
      · rw [he.ending] at he'
        cases he'
        exact (hrecorded hdue (hdrained hsse)).mp (hkeeps.recorded e he hdue)
      · have hlate := hopen e he.ending
        have hlimit := hover htimed
        have hin := he.in_window
        omega
  · intro harmed
    -- an upstream that outlasts the limit outlasts the whole window
    have hlimit : (∀ e, head.upstream_end r.exchange.inputs = some e → D < e.ended_at) →
        D = r.snap.window_end T := by
      intro hopen
      by_cases hwrite : head.write_ok = true
      · exact deadline_after_ge (hok hwrite)
      · have hfailed := Bool.eq_false_iff.mpr hwrite
        obtain ⟨e, he, hle⟩ := harmed.head_write hfailed
        have hlate := hopen e he
        have hD := hfail hfailed
        omega
    refine ⟨?_, ?_⟩
    · intro htimed
      rw [hout] at htimed ⊢
      rcases hrun.cases with ⟨e, he, hle, huntimed, -⟩ | ⟨hopen, -, hnow⟩
      · rw [show s.ctx.drain_timed_out = true from htimed] at huntimed
        cases huntimed
      · show r.snap.window_end T ≤ s.now ∧
          ∀ e, head.upstream_end r.exchange.inputs = some e → s.now < e.ended_at
        rw [hnow]
        exact ⟨Nat.le_of_eq (hlimit hopen).symm, hopen⟩
    · intro e he hdue
      rcases hrun.cases with ⟨e', he', -, -, hdrained⟩ | ⟨hopen, -, -⟩
      · rw [he.ending] at he'
        cases he'
        exact (hrecorded hdue (hdrained hsse)).mpr (harmed.captured e he hdue)
      · have hlate := hopen e he.ending
        have hD := hlimit hopen
        have hin := he.in_window
        omega

/-- With a client found dead, the relay keeps the contract of the drain
    window if and only if the window was armed. -/
theorem drain_window_kept_iff {gw : Gateway} {r : RelayedRequest} {head : UpstreamHead} {T : Nat}
    (h : DeadRelay from_str r head T) :
    KeepsWindow sha256 from_str gw r head T ↔ WindowArmed from_str gw r head T := by
  rcases h.ended with ⟨hwrite, hdeadline, s, hout, huntimed⟩ |
    ⟨s, D, hout, -, hstatus, htype, hok, hfail, hrun⟩
  · exact panicked_window_iff sha256 from_str hout huntimed hwrite hdeadline
  · have hsse : looks_like_sse s.ctx.resp_content_type = true := by
      rw [htype]
      exact h.streamed
    exact drained_window_iff sha256 from_str hout hstatus hsse hok
      (fun hfailed => (hfail hfailed).2) hrun

end window

/-! ### A head write that fails -/

/-- So many seconds on the gateway's clock. -/
def seconds (n : Nat) : Nat := 1000000000 * n

/-- The head of a stream that came after five seconds; its write took a
    millisecond. -/
def streamed_head (write_ok : Bool) : UpstreamHead where
  status := 200
  content_type := some (utf8_bytes "text/event-stream")
  build_error := none
  head_request := false
  arrived := seconds 5
  write_ok := write_ok
  took := 1000000

/-- A relayed stream of one chunk after eight seconds that ends after nine;
    the client's side is given by the head write and by what the pump sees of
    it. -/
def streamed_request (write_ok : Bool) (probes : List PumpInput) : RelayedRequest where
  path := "/v1/messages"
  headers := []
  matched := ⟨Anthropic.DESCRIPTOR, false⟩
  detected := messages_path
  snap := ⟨"salt", "tag", true, 30, half_minute_pos⟩
  gated := rfl
  exchange := {
    upload := []
    upload_aborted := false
    sent := .ok (streamed_head write_ok)
    inputs := probes ++ [
      .item ⟨seconds 3, .chunk (utf8_bytes "data: x"), true, 0, CaptureCap.of_max 4⟩,
      .item ⟨seconds 1, .stop, true, 0, CaptureCap.of_max 4⟩] }
  start_ns := 0
  wall := fun now => UInt64.ofNat now
  now_ns := 10
  instant := 10
  order := Lru.IterOrder.stored

/-- The probe finds the client gone after seven seconds; the rest of the stream
    is drained. -/
theorem drain_window_kept_iff_probe :
    let r := streamed_request true [.probe (seconds 7)]
    KeepsWindow Sha256.digest (fun _ => none) idle_gateway r (streamed_head true) (seconds 7) := by
  intro r
  have hdead : DeadRelay (fun _ => none) r (streamed_head true) (seconds 7) :=
    ⟨rfl, by decide, by decide⟩
  refine (drain_window_kept_iff Sha256.digest (fun _ => none) hdead).mpr ⟨?_, ?_, ?_⟩
  · intro hfailed
    cases hfailed
  · intro _ _ _ _
    rfl
  · intro _ _ _ hoff
    cases hoff

/-- The head write fails after five seconds and a millisecond. The relay gives
    up in that moment, while the stream goes on to the ninth second. -/
theorem failed_head_write_times_out :
    let r := streamed_request false []
    let T := seconds 5 + 1000000
    DeadRelay (fun _ => none) r (streamed_head false) T ∧
      ¬ KeepsWindow Sha256.digest (fun _ => none) idle_gateway r (streamed_head false) T := by
  intro r T
  refine ⟨⟨rfl, by decide, by decide⟩, ?_⟩
  intro hkeeps
  have htimed : (r.outcome fun _ => none).state.ctx.drain_timed_out = true := by decide
  have hover := (hkeeps.timed_out htimed).1
  have hnow : (r.outcome fun _ => none).state.now = T := by decide
  rw [hnow] at hover
  exact absurd hover (by decide)

end AgentTraceGateway
