import AgentTraceGateway.Gateway.Credentials
import AgentTraceGateway.Lib.Run
import AgentTraceGateway.Protocol.LiveEngine
import AgentTraceGateway.Protocol.LiveMessages

/-! # Turn Counters

  Records are pushed by two hooks. `logging` counts a turn before it knows
  whether the turn leaves a record; the body filter of an upgraded connection
  pushes the records of live turns and counts nothing. The counters agree
  with the records in runs where every counted turn leaves a record and no
  live turn closes.

  A connection's filters are modelled with the parsers and the turn state
  they feed. They do not panic, so the arm that resets them is left out. -/

namespace AgentTraceGateway

/-! ### The filters of an upgraded connection -/

/-- What the body filters of an upgraded request work on: the headers of the
    upgrade, the cap and the tag of its configuration, the parsers' buffers
    and the turn in progress. -/
structure LiveTap where
  headers : HeaderMap
  max_payload : Nat
  trace_tag : String
  start_ns : UInt64
  client_buf : Bytes := []
  server_buf : Bytes := []
  turn : WsTurnState := {}
  first_output_ns : Option UInt64 := none

section filters

variable (sha256 : Bytes → Digest) (from_str : String → Option Value)

/-- `request_body_filter` on an upgraded connection. -/
def LiveTap.request_body_filter (tap : LiveTap) (data : Bytes) : LiveTap :=
  let (payloads, client_buf) := WsFrameParser.push tap.max_payload tap.client_buf data
  { tap with
    client_buf := client_buf
    turn := payloads.foldl (WsTurnState.apply_client_frame from_str) tap.turn }

/-- One payload of the server. The record of a turn it closes takes the
    connection's timing, tag and header evidence and is pushed. -/
def Gateway.server_payload (gw : Gateway) (tap : LiveTap) (output_ns end_ns : UInt64)
    (payload : Bytes) : Gateway × LiveTap :=
  -- the first payload while a turn is in progress is its first output
  let first_output_ns :=
    if tap.turn.input.isSome && tap.first_output_ns.isNone then some output_ns
    else tap.first_output_ns
  let (turn, record) := tap.turn.apply_server_frame from_str payload
  match record with
  | none => (gw, { tap with turn := turn, first_output_ns := first_output_ns })
  | some record =>
    let (evidence, dropped) := collect_hdr_evidence tap.headers
    let gw := { gw with hdr_evidence_dropped := gw.hdr_evidence_dropped + dropped.toUInt64 }
    (gw.push_record { record with
        start_ns := tap.start_ns
        end_ns := end_ns
        completion_start_ns := first_output_ns
        trace_tag := tap.trace_tag
        hdr_evidence := evidence },
      -- `take` leaves nothing for the next turn
      { tap with turn := turn, first_output_ns := none })

/-- The payloads of one chunk in order; each reads the clock for itself. -/
def Gateway.server_payloads (gw : Gateway) (tap : LiveTap) (clock : Nat → UInt64) :
    List Bytes → Gateway × LiveTap
  | [] => (gw, tap)
  | payload :: payloads =>
    let (gw, tap) := gw.server_payload from_str tap (clock 0) (clock 1) payload
    gw.server_payloads tap (fun n => clock (n + 2)) payloads

/-- `response_body_filter` on an upgraded connection. -/
def Gateway.response_body_filter (gw : Gateway) (tap : LiveTap) (data : Bytes)
    (clock : Nat → UInt64) : Gateway × LiveTap :=
  let (payloads, server_buf) := WsFrameParser.push tap.max_payload tap.server_buf data
  gw.server_payloads from_str { tap with server_buf := server_buf } clock payloads

/-! ### Runs -/

/-- A gateway with the taps of the connections that were upgraded. -/
structure LiveGateway where
  gateway : Gateway
  taps : List LiveTap := []

/-- What can happen: a request ends, the configuration is reloaded, a
    connection is upgraded, or bytes pass on one. -/
inductive HookOp where
  | turn (t : Turn)
  | reload (capacity ttl_ms : Nat)
  | upgrade (headers : HeaderMap) (max_payload : Nat) (trace_tag : String) (start_ns : UInt64)
  | client_chunk (i : Nat) (data : Bytes)
  | server_chunk (i : Nat) (data : Bytes) (clock : Nat → UInt64)

/-- One hook; bytes pass on a connection that was upgraded. -/
def hook_op (s : LiveGateway) : HookOp → Option LiveGateway
  | .turn t => some { s with gateway := logging sha256 from_str s.gateway t }
  | .reload capacity ttl_ms =>
    some { s with
      gateway := { s.gateway with stitcher := s.gateway.stitcher.set_limits capacity ttl_ms } }
  | .upgrade headers max_payload trace_tag start_ns =>
    some { s with taps := s.taps ++ [{
      headers := headers
      max_payload := max_payload
      trace_tag := trace_tag
      start_ns := start_ns }] }
  | .client_chunk i data =>
    s.taps[i]?.map fun tap =>
      { s with taps := s.taps.set i (tap.request_body_filter from_str data) }
  | .server_chunk i data clock =>
    s.taps[i]?.map fun tap =>
      let (gateway, tap) := s.gateway.response_body_filter from_str tap data clock
      { gateway := gateway, taps := s.taps.set i tap }

/-! ### Counters and records -/

/-- The record carries a session id that was observed, not minted. -/
def TurnRecord.observed_session (r : TurnRecord) : Bool :=
  !r.session_id.isEmpty && !r.session_synthetic

/-- The record is labelled with the name of a harness. -/
def TurnRecord.attributed (r : TurnRecord) : Bool := HARNESSES.any fun h => h.name == r.harness

/-- The counters, which are 64 bits wide, say what was pushed. -/
structure CountersAgree (gw : Gateway) : Prop where
  total : gw.turns_total = UInt64.ofNat gw.submitted.length
  session : gw.turns_with_session
    = UInt64.ofNat (gw.submitted.countP TurnRecord.observed_session)
  harness : gw.turns_with_harness = UInt64.ofNat (gw.submitted.countP TurnRecord.attributed)

/-- A captured turn is streamed, unpacks, failed, or was relayed to a client
    that went away. -/
def Turn.LeavesRecord (t : Turn) : Prop :=
  ∀ m, t.matched = some m →
    looks_like_sse t.ctx.resp_content_type = true ∨
    (unpack_nonstreaming from_str m.descriptor.name (parse_body from_str t.ctx.req_buf)
      t.ctx.resp_buf).isSome ∨
    (http_error t).isSome ∨ relay_cancelled t

/-- A counted turn leaves a record, and no text that a server chunk completes
    closes a live turn. -/
def HookCounted (s : LiveGateway) : HookOp → Prop
  | .turn t => s.gateway.trace_off = true ∨ t.LeavesRecord from_str
  | .server_chunk i data _ => ∀ tap, s.taps[i]? = some tap →
    ∀ payload ∈ (WsFrameParser.push tap.max_payload tap.server_buf data).1,
      (LiveFrame.server payload).closing from_str = none
  | _ => True

/-- A record and the counters that go with it. -/
theorem CountersAgree.push {gw gw' : Gateway} (h : CountersAgree gw) (record : TurnRecord)
    (hsubmitted : gw'.submitted = gw.submitted ++ [record])
    (htotal : gw'.turns_total = gw.turns_total + 1)
    (hsession : gw'.turns_with_session
      = if record.observed_session then gw.turns_with_session + 1 else gw.turns_with_session)
    (hharness : gw'.turns_with_harness
      = if record.attributed then gw.turns_with_harness + 1 else gw.turns_with_harness) :
    CountersAgree gw' := by
  -- one more record moves a count by one or not at all
  have hcount : ∀ (p : TurnRecord → Bool) (n : UInt64),
      n = UInt64.ofNat (gw.submitted.countP p) →
        (if p record then n + 1 else n) = UInt64.ofNat (gw'.submitted.countP p) := by
    intro p n hn
    rw [hsubmitted, List.countP_append, List.countP_singleton, hn]
    split_ifs
    · rw [UInt64.ofNat_add]; rfl
    · rw [Nat.add_zero]
  constructor
  · rw [htotal, h.total, hsubmitted, List.length_append, List.length_singleton, UInt64.ofNat_add]
    rfl
  · exact hsession.trans (hcount _ _ h.session)
  · exact hharness.trans (hcount _ _ h.harness)

/-! ### What a record says of its turn -/

/-- An attribution names a harness of the table. -/
theorem identify_named {protocol : String} {req : Option Value} {ua : Option String}
    {header_get : String → Option String} {name : String}
    (h : (identify from_str protocol req ua header_get).identity = some name) :
    (HARNESSES.any fun d => d.name == name) = true := by
  unfold identify at h
  generalize hhits : (HARNESSES.filterMap fun d =>
    (best_strength d req ua header_get).map fun strength => (d.name, strength)) = hits at h
  by_cases hempty : hits.isEmpty = true
  · simp [hempty] at h
  · simp only [hempty] at h
    -- something was hit, so there is a strongest hit
    have hsome : (hits.map (·.2)).max?.isSome = true := by
      rw [List.isSome_max?_iff]
      intro hnil
      exact hempty (by rw [List.map_eq_nil_iff.mp hnil]; rfl)
    obtain ⟨top, htop⟩ := Option.isSome_iff_exists.mp hsome
    obtain ⟨hit, hhit, hstrong⟩ := List.mem_map.mp (List.max?_mem htop)
    -- the winner is the first of the hits that are as strong as the strongest
    have hfirst : hit ∈ hits.filter fun e => e.2 == top :=
      List.mem_filter.mpr ⟨hhit, by rw [hstrong]; exact beq_self_eq_true top⟩
    rw [htop] at h
    cases hbest : hits.filter fun e => e.2 == top with
    | nil => rw [hbest] at hfirst; cases hfirst
    | cons winner others =>
      have hwinner : winner.1 = name := by simpa [hbest] using h
      have hmem : winner ∈ hits := List.mem_of_mem_filter (hbest ▸ List.mem_cons_self)
      rw [← hhits] at hmem
      obtain ⟨d, hd, hmap⟩ := List.mem_filterMap.mp hmem
      obtain ⟨strength, -, rfl⟩ := Option.map_eq_some_iff.mp hmap
      exact List.any_eq_true.mpr ⟨d, hd, beq_iff_eq.mpr hwinner⟩

/-- The one dialect, if any. -/
theorem matched_dialect_name (req : Option Value) (header_get : String → Option String) :
    matched_dialect from_str req header_get = "" ∨
      matched_dialect from_str req header_get = "claude-code" := by
  unfold matched_dialect
  dsimp only
  cases hhit : (DIALECTS from_str).find? fun d =>
    d.body_shapes.any (fun test => req.any test) || d.header_shapes.any (header_filled header_get) with
  | none => exact Or.inl rfl
  | some d =>
    have hd : d = ClaudeCode.DIALECT from_str :=
      List.mem_singleton.mp (List.mem_of_find?_eq_some hhit)
    exact Or.inr (by rw [hd]; rfl)

/-- A label is the name of a harness exactly when there is an identity: the
    downgraded dialect is no name. -/
theorem label_named (protocol : String) (req : Option Value) (ua : Option String)
    (header_get : String → Option String) :
    (HARNESSES.any fun d => d.name
        == (identify from_str protocol req ua header_get).harness_label)
      = (identify from_str protocol req ua header_get).identity.isSome := by
  cases hidentity : (identify from_str protocol req ua header_get).identity with
  | some name =>
    unfold HarnessFacts.harness_label
    rw [hidentity]
    exact identify_named from_str hidentity
  | none =>
    -- the label is then built from the dialect, of which there is one
    have hdialect : (identify from_str protocol req ua header_get).dialect
        = matched_dialect from_str req header_get := by
      unfold identify
      dsimp only
      split_ifs <;> rfl
    unfold HarnessFacts.harness_label
    rw [hidentity, hdialect]
    rcases matched_dialect_name from_str req header_get with hname | hname
    · rw [hname]; decide
    · rw [hname]; decide

/-- The record of a captured turn carries the turn's session and label. -/
theorem turn_record_fields {a : Assembly} {t : Turn} {record : TurnRecord}
    (h : turn_record from_str a t = some record) :
    record.session_id = a.session.session_id ∧
      record.session_synthetic = a.session.synthetic ∧
      record.harness = a.hfacts.harness_label := by
  cases turn_record_cases from_str h with
  | streamed hsse => exact ⟨rfl, rfl, rfl⟩
  | unpacked hrest hinner => exact ⟨rfl, rfl, rfl⟩
  | minimal hrest hnone hdue => exact ⟨rfl, rfl, rfl⟩

/-! ### One hook -/

/-- A turn that leaves a record is counted as its record says. -/
theorem log_turn_agrees {gw : Gateway} (hgw : CountersAgree gw) (d : ProtocolDescriptor) {t : Turn}
    (hrecord : gw.trace_off = true ∨
      (turn_record from_str (assemble sha256 from_str gw d t).1 t).isSome) :
    CountersAgree (gw.log_turn sha256 from_str d t) := by
  unfold Gateway.log_turn
  by_cases hoff : gw.trace_off = true
  · -- a shell record has neither session nor label
    rw [if_pos hoff]
    exact hgw.push (shell_record d t) rfl rfl rfl rfl
  · rw [if_neg hoff]
    obtain ⟨record, hsome⟩ := Option.isSome_iff_exists.mp (hrecord.resolve_left hoff)
    obtain ⟨hid, hsynthetic, hlabel⟩ := turn_record_fields from_str hsome
    dsimp only
    rw [hsome]
    refine hgw.push record rfl rfl ?_ ?_
    · unfold TurnRecord.observed_session
      rw [hid, hsynthetic]
      rfl
    · unfold TurnRecord.attributed
      -- the counter looks at the identity, the record has only the label
      have hfacts : (assemble sha256 from_str gw d t).1.hfacts
          = identify from_str d.name (parse_body from_str t.ctx.req_buf)
              (t.header_get "user-agent") t.header_get := rfl
      rw [hlabel, hfacts, label_named]
      rfl

/-- Record or not, a turn that comes to the hook is counted. -/
theorem log_turn_counts (gw : Gateway) (d : ProtocolDescriptor) (t : Turn) :
    (gw.log_turn sha256 from_str d t).turns_total = gw.turns_total + 1 := by
  unfold Gateway.log_turn
  split
  · rfl
  · dsimp only
    cases turn_record from_str (assemble sha256 from_str gw d t).1 t <;> rfl

theorem logging_agrees {gw : Gateway} (hgw : CountersAgree gw) {t : Turn}
    (hrecord : gw.trace_off = true ∨ t.LeavesRecord from_str) :
    CountersAgree (logging sha256 from_str gw t) := by
  cases hm : t.matched with
  | none =>
    obtain ⟨n, hlogging⟩ := logging_unmatched sha256 from_str gw hm
    rw [hlogging]
    exact ⟨hgw.total, hgw.session, hgw.harness⟩
  | some m =>
    obtain ⟨n, hlogging⟩ := logging_matched sha256 from_str gw hm
    rw [hlogging]
    have hmoved : CountersAgree { gw with loose_path_matches := n } :=
      ⟨hgw.total, hgw.session, hgw.harness⟩
    refine log_turn_agrees sha256 from_str hmoved m.descriptor (hrecord.imp_right fun h => ?_)
    rw [turn_record_isSome_iff]
    exact h m hm

/-- A server text that closes nothing yields no record. -/
theorem quiet_server_frame (turn : WsTurnState) {payload : Bytes}
    (hquiet : (LiveFrame.server payload).closing from_str = none) :
    (turn.apply_server_frame from_str payload).2 = none := by
  unfold WsTurnState.apply_server_frame
  dsimp only
  cases hparse : from_slice from_str payload with
  | none => rfl
  | some v =>
    -- a frame with the end marker would close the turn
    have hdone : (v.index "type").as_str ≠ end_marker := by
      intro hend
      have hclosing := server_event_some from_str hparse "response.done"
      rw [if_pos (show (v.index "type").as_str = some "response.done" from hend)] at hclosing
      cases hquiet.symm.trans hclosing
    dsimp only
    rw [if_neg hdone]
    split
    · rfl
    · split
      · cases (v.index "delta").as_str <;> rfl
      · rfl

/-- And pushes none. -/
theorem quiet_payload (gw : Gateway) (tap : LiveTap) (output_ns end_ns : UInt64) {payload : Bytes}
    (hquiet : (LiveFrame.server payload).closing from_str = none) :
    (gw.server_payload from_str tap output_ns end_ns payload).1 = gw := by
  unfold Gateway.server_payload
  dsimp only
  rw [quiet_server_frame from_str tap.turn hquiet]

theorem quiet_payloads (gw : Gateway) : ∀ (payloads : List Bytes) (tap : LiveTap)
    (clock : Nat → UInt64),
    (∀ payload ∈ payloads, (LiveFrame.server payload).closing from_str = none) →
      (gw.server_payloads from_str tap clock payloads).1 = gw := by
  intro payloads
  induction payloads with
  | nil => exact fun _ _ _ => rfl
  | cons payload payloads ih =>
    intro tap clock hquiet
    have hhead := quiet_payload from_str gw tap (clock 0) (clock 1)
      (hquiet payload List.mem_cons_self)
    unfold Gateway.server_payloads
    dsimp only
    rw [hhead]
    exact ih _ _ fun p hp => hquiet p (List.mem_cons_of_mem payload hp)

/-- A hook that meets the guard keeps the agreement. -/
theorem hook_op_agrees (s : LiveGateway) (op : HookOp) (s' : LiveGateway)
    (hs : CountersAgree s.gateway) (hcounted : HookCounted from_str s op)
    (hstep : hook_op sha256 from_str s op = some s') : CountersAgree s'.gateway := by
  cases op with
  | turn t =>
    cases hstep
    exact logging_agrees sha256 from_str hs hcounted
  | reload capacity ttl_ms =>
    cases hstep
    exact ⟨hs.total, hs.session, hs.harness⟩
  | upgrade headers max_payload trace_tag start_ns =>
    cases hstep
    exact hs
  | client_chunk i data =>
    -- client frames only move the turn in progress
    obtain ⟨tap, -, rfl⟩ := Option.map_eq_some_iff.mp hstep
    exact hs
  | server_chunk i data clock =>
    obtain ⟨tap, htap, rfl⟩ := Option.map_eq_some_iff.mp hstep
    have hquiet := quiet_payloads from_str s.gateway _
      { tap with server_buf := (WsFrameParser.push tap.max_payload tap.server_buf data).2 } clock
      (hcounted tap htap)
    show CountersAgree (s.gateway.response_body_filter from_str tap data clock).1
    unfold Gateway.response_body_filter
    dsimp only
    rw [hquiet]
    exact hs

/-- The counters agree with the pushed records in every state of a run whose
    counted turns leave records and whose live turns do not close. -/
theorem turn_counters_agree {start s : LiveGateway} (hstart : CountersAgree start.gateway)
    {ops : List HookOp}
    (hcounted : Guarded (hook_op sha256 from_str) (HookCounted from_str) start ops)
    (hrun : run (hook_op sha256 from_str) start ops = some s) : CountersAgree s.gateway :=
  run_invariant (hook_op_agrees sha256 from_str) ops start s hstart hcounted hrun

end filters

/-- A text frame in a chunk of its own. -/
theorem push_text_frame {f : WsFrame} (hop : f.head.b0 &&& 0x0f = 0x1) :
    WsFrameParser.push 0 [] f.wire = ([f.payload], []) := by
  have hempty : (WsFrameParser.scanner 0).scan [] = ([], some []) := Scanner.scan_wait _ rfl
  have hscan : (WsFrameParser.scanner 0).scan (wire_bytes [f] ++ []) = ([f.payload], some []) := by
    rw [scan_wire_bytes [] [f] (Or.inl rfl), hempty, text_payloads_text hop]
    rfl
  rw [wire_bytes, List.flatMap_singleton, List.append_nil] at hscan
  unfold WsFrameParser.push Scanner.push
  rw [List.nil_append, hscan]
  rfl

/-- A gateway that has seen nothing, with no connection upgraded. -/
def idle_start : LiveGateway := ⟨idle_gateway, []⟩

theorem idle_agrees : CountersAgree idle_start.gateway := ⟨rfl, rfl, rfl⟩

/-- A streamed turn, then a live connection whose server says something that
    is no event. -/
theorem turn_counters_agree_streamed :
    let ops : List HookOp :=
      [.turn (tool_turn "text/event-stream"), .upgrade [] 0 "tag" 7,
        .server_chunk 0 text_x fun n => .ofNat n]
    ∃ s, run (hook_op Sha256.digest tool_turn_from_str) idle_start ops = some s ∧
      CountersAgree s.gateway := by
  intro ops
  have hstreamed : (tool_turn "text/event-stream").LeavesRecord tool_turn_from_str :=
    fun _ _ => Or.inl (by decide)
  have hquiet : ∀ payload ∈ (WsFrameParser.push 0 [] text_x).1,
      (LiveFrame.server payload).closing tool_turn_from_str = none := by
    have hpush : (WsFrameParser.push 0 [] text_x).1 = [[0x78]] := congrArg Prod.fst (scan_text_x 0)
    intro payload hpayload
    rw [hpush] at hpayload
    rw [List.mem_singleton.mp hpayload]
    rfl
  -- the guard is met step by step; the upgrade needs nothing
  have hcounted : Guarded (hook_op Sha256.digest tool_turn_from_str) (HookCounted tool_turn_from_str)
      idle_start ops := by
    refine ⟨Or.inr hstreamed, ?_⟩
    intro s₁ hs₁
    cases hs₁
    refine ⟨trivial, ?_⟩
    intro s₂ hs₂
    cases hs₂
    refine ⟨?_, fun _ _ => trivial⟩
    intro tap htap
    cases htap
    exact hquiet
  exact ⟨_, rfl, turn_counters_agree Sha256.digest tool_turn_from_str idle_agrees hcounted rfl⟩

/-- The server's last event of a live turn, in a frame. -/
def done_frame : WsFrame := short_frame 0x81 (utf8_bytes done_text) (by decide)

/-- A tool loop turn at rest is counted and leaves no record; a live turn
    leaves a record and is not counted. -/
theorem turn_counters_disagree :
    (∃ s, run (hook_op Sha256.digest tool_turn_from_str) idle_start
        [.turn (tool_turn "application/json")] = some s ∧
      s.gateway.turns_total = 1 ∧ s.gateway.submitted = []) ∧
    ∃ s, run (hook_op Sha256.digest live_from_str) idle_start
        [.upgrade [] 0 "tag" 7, .server_chunk 0 done_frame.wire fun n => .ofNat n] = some s ∧
      s.gateway.turns_total = 0 ∧ s.gateway.submitted.length = 1 := by
  constructor
  · refine ⟨_, rfl, ?_, ?_⟩
    · show (logging Sha256.digest tool_turn_from_str idle_gateway
        (tool_turn "application/json")).turns_total = 1
      rw [logging_exact Sha256.digest tool_turn_from_str messages_path, log_turn_counts]
      rfl
    · show (logging Sha256.digest tool_turn_from_str idle_gateway
        (tool_turn "application/json")).submitted = []
      rw [logging_exact Sha256.digest tool_turn_from_str messages_path,
        (log_turn_pushes Sha256.digest tool_turn_from_str _ _ _).1, tool_turn_unrecorded]
      rfl
  · have hpush : WsFrameParser.push 0 [] done_frame.wire = ([utf8_bytes done_text], []) :=
      push_text_frame (by decide)
    refine ⟨_, rfl, ?_⟩
    show (idle_gateway.response_body_filter live_from_str ⟨[], 0, "tag", 7, [], [], {}, none⟩
        done_frame.wire fun n => .ofNat n).1.turns_total = 0 ∧
      (idle_gateway.response_body_filter live_from_str ⟨[], 0, "tag", 7, [], [], {}, none⟩
        done_frame.wire fun n => .ofNat n).1.submitted.length = 1
    unfold Gateway.response_body_filter
    dsimp only
    rw [hpush]
    exact ⟨rfl, rfl⟩

end AgentTraceGateway
