import AgentTraceGateway.Gateway.Records
import AgentTraceGateway.Lib.Positions
import AgentTraceGateway.Trace.Segments

/-! # Isolation of Credentials

  A gateway puts requests without a session id into synthetic sessions. The
  requests of a run meet the stitcher one after another, so the run's
  sessions are those of a stitcher's history, and two requests share a
  session exactly when the later continues the conversation of the earlier.

  The stitcher keeps conversations apart by scope, and `logging` takes the
  `authorization` header for the scope. For the openai protocols that header
  is the credential. For anthropic.messages the credential is `x-api-key`,
  and `authorization` is usually absent: two tenants with one conversation
  head then meet in the scope "". -/

namespace AgentTraceGateway

/-! ### Runs of a gateway -/

/-- What can happen to a gateway. Of a reload only the stitcher's bounds
    matter to sessions. -/
inductive GatewayOp where
  | turn (t : Turn)
  | reload (capacity ttl_ms : Nat)

/-- The API credential of a request. -/
def Turn.credential (t : Turn) : Option String :=
  (detect_path t.path).bind fun m => request_api_key m.descriptor.name t.header_get

/-- Both requests carry a credential, and not the same. -/
def DifferentCredentials (a b : Turn) : Prop :=
  ∃ k k', a.credential = some k ∧ b.credential = some k' ∧ k ≠ k'

section runs

variable (sha256 : Bytes → Digest) (from_str : String → Option Value)

/-- The session `logging` finds for a turn; an unmatched turn and a gateway
    that captures nothing do not look for one. -/
def Gateway.session_of (gw : Gateway) (t : Turn) : TurnSession :=
  match t.matched with
  | some m => if gw.trace_off then {} else (assemble sha256 from_str gw m.descriptor t).1.session
  | none => {}

/-- One request of a run, with the gateway it met. -/
structure LoggedTurn where
  gateway : Gateway
  turn : Turn

def LoggedTurn.session (l : LoggedTurn) : TurnSession :=
  l.gateway.session_of sha256 from_str l.turn

/-- The requests of a run. -/
def run_gateway : Gateway → List GatewayOp → List LoggedTurn
  | _, [] => []
  | gw, .turn t :: ops => ⟨gw, t⟩ :: run_gateway (logging sha256 from_str gw t) ops
  | gw, .reload capacity ttl_ms :: ops =>
    run_gateway { gw with stitcher := gw.stitcher.set_limits capacity ttl_ms } ops

/-- Requests with different credentials never receive one synthetic session
    id. -/
def CredentialsIsolated (log : List LoggedTurn) : Prop :=
  ∀ (i j : Nat) (a b : LoggedTurn), i < j → log[i]? = some a → log[j]? = some b →
    DifferentCredentials a.turn b.turn →
    (a.session sha256 from_str).synthetic = true → (b.session sha256 from_str).synthetic = true →
      (a.session sha256 from_str).session_id ≠ (b.session sha256 from_str).session_id

/-! ### Turns as stitcher calls -/

/-- The request side of a turn, as it is assembled. -/
def request_facts (d : ProtocolDescriptor) (t : Turn) : Option TurnFacts :=
  let parsed_req := parse_body from_str t.ctx.req_buf
  let hfacts := identify from_str d.name parsed_req (t.header_get "user-agent") t.header_get
  parsed_req.bind fun req => turn_facts from_str d.name req t.header_get hfacts

/-- The call a turn makes to the stitcher, if it makes one. -/
def stitch_call (trace_off : Bool) (t : Turn) : Option AssignCall :=
  if trace_off then none
  else
    t.matched.bind fun m =>
      (stitch_messages (request_facts from_str m.descriptor t)).map fun messages =>
        ⟨stitch_scope t, messages, t.instant⟩

/-- The step a turn is for the stitcher. -/
def LoggedTurn.step (l : LoggedTurn) : Option StitchStep :=
  (stitch_call from_str l.gateway.trace_off l.turn).map fun c =>
    ⟨l.gateway.stitcher, l.turn.order, c⟩

/-- What an operation is for the stitcher, with the table order it meets. -/
def stitch_op (trace_off : Bool) : GatewayOp → Option (StitchOp × StitchOrder)
  | .turn t => (stitch_call from_str trace_off t).map fun c => (.assign c, t.order)
  | .reload capacity ttl_ms => some (.set_limits capacity ttl_ms, Lru.IterOrder.stored)

/-- The stitcher's side of a run. -/
def stitch_ops (trace_off : Bool) (ops : List GatewayOp) : List (StitchOp × StitchOrder) :=
  ops.filterMap (stitch_op from_str trace_off)

/-- The calls of a run to the stitcher. -/
def stitch_calls (trace_off : Bool) (ops : List GatewayOp) : List AssignCall :=
  calls_of ((stitch_ops from_str trace_off ops).map (·.1))

/-- The table orders of a history, in its own order. -/
def orders (ops : List (StitchOp × StitchOrder)) (n : Nat) : StitchOrder :=
  (ops[n]?.map (·.2)).getD Lru.IterOrder.stored

/-! ### What one request does to the sessions -/

/-- A turn that calls the stitcher gets its answer as session. -/
theorem logging_stitched {gw : Gateway} {t : Turn} {c : AssignCall}
    (h : stitch_call from_str gw.trace_off t = some c) :
    let out := (⟨gw.stitcher, t.order, c⟩ : StitchStep).out sha256
    gw.session_of sha256 from_str t = {
      session_id := out.1.session_id
      session_source := "stitcher"
      synthetic := !out.1.session_id.isEmpty
      breakpoint := out.1.breakpoint } ∧
    (logging sha256 from_str gw t).stitcher = out.2 := by
  unfold stitch_call at h
  split at h
  · cases h
  · rename_i hon
    obtain ⟨m, hm, hcall⟩ := Option.bind_eq_some_iff.mp h
    obtain ⟨messages, hmessages, rfl⟩ := Option.map_eq_some_iff.mp hcall
    -- The counter of loose matches is no part of the session.
    have hsession : ∀ n, turn_session sha256 gw.stitcher t
        (request_facts from_str m.descriptor t)
        = (((assemble sha256 from_str { gw with loose_path_matches := n } m.descriptor t).1.session),
          (assemble sha256 from_str { gw with loose_path_matches := n } m.descriptor t).2) :=
      fun _ => rfl
    have hstitched : turn_session sha256 gw.stitcher t (request_facts from_str m.descriptor t)
        = ({
            session_id := ((⟨gw.stitcher, t.order, ⟨stitch_scope t, messages, t.instant⟩⟩
              : StitchStep).out sha256).1.session_id
            session_source := "stitcher"
            synthetic := !((⟨gw.stitcher, t.order, ⟨stitch_scope t, messages, t.instant⟩⟩
              : StitchStep).out sha256).1.session_id.isEmpty
            breakpoint := ((⟨gw.stitcher, t.order, ⟨stitch_scope t, messages, t.instant⟩⟩
              : StitchStep).out sha256).1.breakpoint },
          ((⟨gw.stitcher, t.order, ⟨stitch_scope t, messages, t.instant⟩⟩
            : StitchStep).out sha256).2) := by
      unfold turn_session
      rw [hmessages]
      rfl
    obtain ⟨n, hlogging⟩ := logging_matched sha256 from_str gw hm
    constructor
    · unfold Gateway.session_of
      rw [hm]
      dsimp only
      rw [if_neg hon]
      exact congrArg Prod.fst ((hsession gw.loose_path_matches).symm.trans hstitched)
    · rw [hlogging, log_turn_stitcher]
      dsimp only
      rw [if_neg hon]
      exact congrArg Prod.snd ((hsession n).symm.trans hstitched)

/-- Any other turn gets no synthetic session and leaves the stitcher alone. -/
theorem logging_unstitched {gw : Gateway} {t : Turn}
    (h : stitch_call from_str gw.trace_off t = none) :
    (gw.session_of sha256 from_str t).synthetic = false ∧
    (logging sha256 from_str gw t).stitcher = gw.stitcher := by
  unfold stitch_call at h
  cases hm : t.matched with
  | none =>
    obtain ⟨n, hlogging⟩ := logging_unmatched sha256 from_str gw hm
    rw [hlogging]
    unfold Gateway.session_of
    rw [hm]
    exact ⟨rfl, rfl⟩
  | some m =>
    obtain ⟨n, hlogging⟩ := logging_matched sha256 from_str gw hm
    rw [hlogging, log_turn_stitcher]
    unfold Gateway.session_of
    rw [hm]
    dsimp only
    by_cases hoff : gw.trace_off = true
    · rw [if_pos hoff, if_pos hoff]
      exact ⟨rfl, rfl⟩
    · rw [if_neg hoff, hm] at h
      have hnone : stitch_messages (request_facts from_str m.descriptor t) = none :=
        Option.map_eq_none_iff.mp h
      have hsession : turn_session sha256 gw.stitcher t (request_facts from_str m.descriptor t)
          = ({
              session_id := ((request_facts from_str m.descriptor t).bind (·.session_id)).getD ""
              session_source :=
                ((request_facts from_str m.descriptor t).map (·.session_source)).getD "" },
            gw.stitcher) := by
        unfold turn_session
        rw [hnone]
      rw [if_neg hoff, if_neg hoff]
      exact ⟨congrArg (fun s => s.1.synthetic) hsession, congrArg Prod.snd hsession⟩

/-! ### A run as a stitcher's history -/

/-- The stitched requests of a run are the steps of its stitcher's history. -/
theorem run_gateway_steps : ∀ (ops : List GatewayOp) (gw : Gateway),
    (run_gateway sha256 from_str gw ops).filterMap (LoggedTurn.step from_str)
      = run_steps sha256 (orders (stitch_ops from_str gw.trace_off ops)) gw.stitcher
          ((stitch_ops from_str gw.trace_off ops).map (·.1)) := by
  intro ops
  induction ops with
  | nil => intro _; rfl
  | cons op ops ih =>
    intro gw
    cases op with
    | turn t =>
      have hnext := ih (logging sha256 from_str gw t)
      rw [logging_trace_off] at hnext
      unfold run_gateway stitch_ops
      cases hcall : stitch_call from_str gw.trace_off t with
      | none =>
        -- A turn that asks for no assignment leaves the stitcher as it was.
        have hstep : LoggedTurn.step from_str ⟨gw, t⟩ = none := by
          simp only [LoggedTurn.step, hcall, Option.map_none]
        have hop : stitch_op from_str gw.trace_off (.turn t) = none := by
          simp only [stitch_op, hcall, Option.map_none]
        rw [List.filterMap_cons_none hstep, List.filterMap_cons_none hop, hnext,
          (logging_unstitched sha256 from_str hcall).2]
        rfl
      | some c =>
        have hstep : LoggedTurn.step from_str ⟨gw, t⟩ = some ⟨gw.stitcher, t.order, c⟩ := by
          simp only [LoggedTurn.step, hcall, Option.map_some]
        have hop : stitch_op from_str gw.trace_off (.turn t) = some (.assign c, t.order) := by
          simp only [stitch_op, hcall, Option.map_some]
        rw [List.filterMap_cons_some hstep, List.filterMap_cons_some hop, hnext,
          (logging_stitched sha256 from_str hcall).2]
        rfl
    | reload capacity ttl_ms => exact ih _

/-- The session of a stitched request. -/
theorem session_of_step {l : LoggedTurn} {s : StitchStep} (h : l.step from_str = some s) :
    (l.session sha256 from_str).session_id = (s.out sha256).1.session_id ∧
    (l.session sha256 from_str).synthetic = !(s.out sha256).1.session_id.isEmpty := by
  obtain ⟨c, hcall, rfl⟩ := Option.map_eq_some_iff.mp h
  unfold LoggedTurn.session
  rw [(logging_stitched sha256 from_str hcall).1]
  exact ⟨rfl, rfl⟩

/-- Only stitched requests have a synthetic session. -/
theorem step_of_synthetic {l : LoggedTurn} (h : (l.session sha256 from_str).synthetic = true) :
    ∃ s, l.step from_str = some s := by
  cases hcall : stitch_call from_str l.gateway.trace_off l.turn with
  | none =>
    rw [LoggedTurn.session, (logging_unstitched sha256 from_str hcall).1] at h
    cases h
  | some c =>
    refine ⟨⟨l.gateway.stitcher, l.turn.order, c⟩, ?_⟩
    unfold LoggedTurn.step
    rw [hcall]
    rfl

/-! ### Conversations of a run -/

/-- Request `j` continues request `i`: both are stitched, under one key, and
    every request stitched under that key since `i` extended its chain. -/
def TurnContinues (log : List LoggedTurn) (i j : Nat) : Prop :=
  ∃ a b, log[i]?.bind (LoggedTurn.step from_str) = some a ∧
    log[j]?.bind (LoggedTurn.step from_str) = some b ∧
    b.call.key sha256 = a.call.key sha256 ∧
    ∀ m s, i < m → m ≤ j → log[m]?.bind (LoggedTurn.step from_str) = some s →
      s.call.key sha256 = a.call.key sha256 → s.before.Extends sha256 s.call

/-- No request continues a request with another credential. -/
def OwnConversations (log : List LoggedTurn) : Prop :=
  ∀ (i j : Nat) (a b : LoggedTurn), i < j → log[i]? = some a → log[j]? = some b →
    DifferentCredentials a.turn b.turn → ¬ TurnContinues sha256 from_str log i j

/-- Extension in the run is extension among its steps. -/
theorem extended_steps_iff {log : List LoggedTurn} {i j : Nat} {a b : LoggedTurn}
    {sa sb : StitchStep} (ha : log[i]? = some a) (hb : log[j]? = some b)
    (hsa : a.step from_str = some sa) (hsb : b.step from_str = some sb) :
    ExtendedUpTo sha256 (log.filterMap (LoggedTurn.step from_str))
        (Positions.image (LoggedTurn.step from_str) log i)
        (Positions.image (LoggedTurn.step from_str) log j) sa.call ↔
      ∀ m s, i < m → m ≤ j → log[m]?.bind (LoggedTurn.step from_str) = some s →
        s.call.key sha256 = sa.call.key sha256 → s.before.Extends sha256 s.call := by
  constructor
  · intro h m s him hmj hm hkey
    obtain ⟨x, hx, hs⟩ := Option.bind_eq_some_iff.mp hm
    exact h _ s (Positions.image_lt ha hsa him) (Positions.image_mono _ log hmj)
      (Positions.getElem?_image hx hs) hkey
  · intro h k s hik hkj hk hkey
    obtain ⟨m, x, hx, hs, rfl⟩ := Positions.exists_of_image hk
    refine h m s (Positions.lt_of_image_lt hik) ?_ (Option.bind_eq_some_iff.mpr ⟨x, hx, hs⟩) hkey
    by_contra hlt
    have hgt := Positions.image_lt hb hsb (Nat.lt_of_not_le hlt)
    omega

section fresh

variable {sha256 from_str} {gw : Gateway} {capacity ttl_ms clock : Nat} {salt : Bytes}
  (hfresh : gw.stitcher = PrefixStitcher.with_limits capacity ttl_ms clock salt)
  {ops : List GatewayOp}
  (hfree : CollisionFree sha256 salt (stitch_calls from_str gw.trace_off ops))
  (hlen : (stitch_calls from_str gw.trace_off ops).length ≤ 2 ^ 64)

include hfresh hfree hlen

/-- Two stitched requests of a run have one session id exactly when the later
    continues the earlier. -/
theorem same_session_iff_continues {i j : Nat} {a b : LoggedTurn} {sa sb : StitchStep}
    (hij : i < j) (ha : (run_gateway sha256 from_str gw ops)[i]? = some a)
    (hb : (run_gateway sha256 from_str gw ops)[j]? = some b)
    (hsa : a.step from_str = some sa) (hsb : b.step from_str = some sb) :
    (sa.out sha256).1.session_id = (sb.out sha256).1.session_id ↔
      TurnContinues sha256 from_str (run_gateway sha256 from_str gw ops) i j := by
  have hsteps := run_gateway_steps sha256 from_str ops gw
  rw [hfresh] at hsteps
  rw [same_id_iff_continues hfree hlen hsteps (Positions.image_lt ha hsa hij)
      (Positions.getElem?_image ha hsa) (Positions.getElem?_image hb hsb),
    extended_steps_iff sha256 from_str ha hb hsa hsb]
  constructor
  · rintro ⟨hkey, hextended⟩
    exact ⟨sa, sb, Option.bind_eq_some_iff.mpr ⟨a, ha, hsa⟩,
      Option.bind_eq_some_iff.mpr ⟨b, hb, hsb⟩, hkey, hextended⟩
  · rintro ⟨sa', sb', hsa', hsb', hkey, hextended⟩
    rw [ha, Option.bind_some, hsa] at hsa'
    rw [hb, Option.bind_some, hsb] at hsb'
    cases hsa'
    cases hsb'
    exact ⟨hkey, hextended⟩

/-- Every stitched request has a synthetic session. -/
theorem synthetic_of_step {l : LoggedTurn} {s : StitchStep}
    (hl : l ∈ run_gateway sha256 from_str gw ops) (hs : l.step from_str = some s) :
    (l.session sha256 from_str).synthetic = true := by
  have hsteps := run_gateway_steps sha256 from_str ops gw
  rw [hfresh] at hsteps
  rw [(session_of_step sha256 from_str hs).2,
    id_nonempty hfree hlen hsteps (List.mem_filterMap.mpr ⟨l, hl, hs⟩)]
  rfl

/-- A request that continues another credential's request shares its
    session. -/
theorem not_isolated_of_continues {i j : Nat} {a b : LoggedTurn} (hij : i < j)
    (ha : (run_gateway sha256 from_str gw ops)[i]? = some a)
    (hb : (run_gateway sha256 from_str gw ops)[j]? = some b)
    (hdifferent : DifferentCredentials a.turn b.turn)
    (h : TurnContinues sha256 from_str (run_gateway sha256 from_str gw ops) i j) :
    ¬ CredentialsIsolated sha256 from_str (run_gateway sha256 from_str gw ops) := by
  intro hisolated
  have hcontinues := h
  obtain ⟨sa, sb, hsa, hsb, -⟩ := h
  rw [ha, Option.bind_some] at hsa
  rw [hb, Option.bind_some] at hsb
  have hid := (same_session_iff_continues hfresh hfree hlen hij ha hb hsa hsb).mpr hcontinues
  refine hisolated i j a b hij ha hb hdifferent
    (synthetic_of_step hfresh hfree hlen (List.mem_of_getElem? ha) hsa)
    (synthetic_of_step hfresh hfree hlen (List.mem_of_getElem? hb) hsb) ?_
  rw [(session_of_step sha256 from_str hsa).1, (session_of_step sha256 from_str hsb).1]
  exact hid

/-- In a run of at most `2 ^ 64` stitched requests, credentials are isolated
    if and only if no request continues one with another credential. -/
theorem credentials_isolated_iff :
    CredentialsIsolated sha256 from_str (run_gateway sha256 from_str gw ops) ↔
      OwnConversations sha256 from_str (run_gateway sha256 from_str gw ops) := by
  constructor
  · intro hisolated i j a b hij ha hb hdifferent hcontinues
    exact not_isolated_of_continues hfresh hfree hlen hij ha hb hdifferent hcontinues hisolated
  · intro hown i j a b hij ha hb hdifferent hsyna hsynb hid
    obtain ⟨sa, hsa⟩ := step_of_synthetic sha256 from_str hsyna
    obtain ⟨sb, hsb⟩ := step_of_synthetic sha256 from_str hsynb
    rw [(session_of_step sha256 from_str hsa).1, (session_of_step sha256 from_str hsb).1] at hid
    exact hown i j a b hij ha hb hdifferent
      ((same_session_iff_continues hfresh hfree hlen hij ha hb hsa hsb).mp hid)

end fresh

/-! ### Scopes -/

theorem not_different_self (t : Turn) : ¬ DifferentCredentials t t := by
  rintro ⟨k, k', hk, hk', hne⟩
  rw [hk] at hk'
  exact hne (Option.some.inj hk')

/-- A stitched request is stitched in the scope of its turn. -/
theorem step_scope {l : LoggedTurn} {s : StitchStep} (h : l.step from_str = some s) :
    s.call.scope = stitch_scope l.turn := by
  obtain ⟨c, hcall, rfl⟩ := Option.map_eq_some_iff.mp h
  unfold stitch_call at hcall
  split at hcall
  · cases hcall
  · obtain ⟨m, -, hcall⟩ := Option.bind_eq_some_iff.mp hcall
    obtain ⟨messages, -, rfl⟩ := Option.map_eq_some_iff.mp hcall
    rfl

/-- Where different credentials have different scopes, every conversation has
    one credential. -/
theorem own_conversations_of_scopes {log : List LoggedTurn}
    (h : ∀ a ∈ log, ∀ b ∈ log, DifferentCredentials a.turn b.turn →
      stitch_scope a.turn ≠ stitch_scope b.turn) :
    OwnConversations sha256 from_str log := by
  rintro i j a b - ha hb hdifferent ⟨sa, sb, hsa, hsb, hkey, -⟩
  rw [ha, Option.bind_some] at hsa
  rw [hb, Option.bind_some] at hsb
  have hscope : sb.call.scope = sa.call.scope := congrArg Prod.fst hkey
  rw [step_scope from_str hsa, step_scope from_str hsb] at hscope
  exact h a (List.mem_of_getElem? ha) b (List.mem_of_getElem? hb) hdifferent hscope.symm

end runs

/-- A request whose credential is its Bearer token. -/
def Turn.bearer (t : Turn) : Prop :=
  ∀ m, detect_path t.path = some m → m.descriptor.name ≠ "anthropic.messages"

/-- The credential of such a request is read off its scope. -/
theorem bearer_credential {t : Turn} {k : String} (hbearer : t.bearer)
    (h : t.credential = some k) :
    request_api_key "" (fun _ => some (stitch_scope t)) = some k := by
  obtain ⟨m, hm, hkey⟩ := Option.bind_eq_some_iff.mp h
  unfold request_api_key at hkey ⊢
  rw [if_neg (hbearer m hm)] at hkey
  rw [if_neg (by decide)]
  unfold stitch_scope
  cases hauth : t.header_get "authorization" with
  | none =>
    rw [hauth] at hkey
    cases hkey
  | some v =>
    rw [hauth] at hkey
    exact hkey

/-- Bearer credentials never meet in one scope. -/
theorem bearer_scopes_ne {a b : Turn} (ha : a.bearer) (hb : b.bearer)
    (h : DifferentCredentials a b) : stitch_scope a ≠ stitch_scope b := by
  obtain ⟨k, k', hk, hk', hne⟩ := h
  intro hscope
  have hread := bearer_credential ha hk
  rw [hscope, bearer_credential hb hk'] at hread
  exact hne (Option.some.inj hread).symm

/-- So the openai protocols are isolated: in any run of theirs every
    conversation has one credential. -/
theorem bearer_conversations_owned (sha256 : Bytes → Digest) (from_str : String → Option Value)
    {log : List LoggedTurn} (h : ∀ l ∈ log, l.turn.bearer) :
    OwnConversations sha256 from_str log :=
  own_conversations_of_scopes sha256 from_str
    fun a ha b hb hdifferent => bearer_scopes_ne (h a ha) (h b hb) hdifferent

/-! ### Two tenants of anthropic.messages -/

def tenant_text : String :=
  "\x7b\"messages\":[\x7b\"role\":\"user\",\"content\":\"hi\"\x7d,\x7b\"role\":\"assistant\",\"content\":\"yes\"\x7d]\x7d"

def tenant_question : Value := .object [("content", .string "hi"), ("role", .string "user")]

def tenant_answer : Value := .object [("content", .string "yes"), ("role", .string "assistant")]

def tenant_messages : List Value := [tenant_question, tenant_answer]

/-- The parser on the texts of these turns. -/
def tenant_from_str (s : String) : Option Value :=
  if s = tenant_text then some (.object [("messages", .array tenant_messages)]) else none

/-- A turn of this conversation, with its headers. -/
def tenant_turn (headers : HeaderMap) (instant : Nat) : Turn where
  path := "/v1/messages"
  headers := headers
  error := none
  ctx := {
    snap := ⟨"salt", "tag", false, 30, half_minute_pos⟩
    req_buf := utf8_bytes tenant_text
    resp_content_type := "text/event-stream"
    resp_status := 200
    response_complete := true }
  now_ns := 1
  instant := instant
  order := Lru.IterOrder.stored

def key_header (key : String) : String × Bytes := ("x-api-key", utf8_bytes key)

def token_header (token : String) : String × Bytes := ("authorization", utf8_bytes token)

theorem tenant_matched (headers : HeaderMap) (instant : Nat) :
    (tenant_turn headers instant).matched = some ⟨Anthropic.DESCRIPTOR, false⟩ := by
  unfold Turn.matched
  rw [show detect_path (tenant_turn headers instant).path = _ from messages_path]
  rfl

/-- The call such a turn makes. -/
theorem tenant_call (headers : HeaderMap) (instant : Nat)
    (h : stitch_messages (request_facts tenant_from_str Anthropic.DESCRIPTOR
      (tenant_turn headers instant)) = some tenant_messages) :
    stitch_call tenant_from_str false (tenant_turn headers instant)
      = some ⟨stitch_scope (tenant_turn headers instant), tenant_messages, instant⟩ := by
  unfold stitch_call
  rw [if_neg Bool.false_ne_true, tenant_matched, Option.bind_some, h]
  rfl

/-- A run of two such turns has no collision, whatever the headers. -/
theorem tenants_collision_free {t t' : Turn} {scope scope' : String} {now now' : Nat}
    (h : stitch_call tenant_from_str false t = some ⟨scope, tenant_messages, now⟩)
    (h' : stitch_call tenant_from_str false t' = some ⟨scope', tenant_messages, now'⟩) :
    CollisionFree Sha256.digest [] (stitch_calls tenant_from_str false [.turn t, .turn t']) ∧
      (stitch_calls tenant_from_str false [.turn t, .turn t']).length = 2 := by
  have hcalls : stitch_calls tenant_from_str false [.turn t, .turn t']
      = [⟨scope, tenant_messages, now⟩, ⟨scope', tenant_messages, now'⟩] := by
    simp [stitch_calls, stitch_ops, stitch_op, calls_of, h, h']
  rw [hcalls]
  refine ⟨replay_collision_free Sha256.digest tenant_question tenant_answer ?_ rfl ?_ ?_, rfl⟩
  · intro c hc
    rcases List.mem_cons.mp hc with rfl | hc
    · rfl
    · rw [List.mem_singleton] at hc
      rw [hc]
      rfl
  · decide +kernel
  · decide +kernel

/-- Two tenants with tokens of their own are isolated. -/
theorem credentials_isolated_iff_tokens :
    let t := tenant_turn [token_header "A", key_header "k1"] 1
    let t' := tenant_turn [token_header "B", key_header "k2"] 2
    let ops := [.turn t, .turn t']
    CollisionFree Sha256.digest [] (stitch_calls tenant_from_str false ops) ∧
      DifferentCredentials t t' ∧
      CredentialsIsolated Sha256.digest tenant_from_str
        (run_gateway Sha256.digest tenant_from_str idle_gateway ops) := by
  intro t t' ops
  obtain ⟨hfree, hlen⟩ := tenants_collision_free (tenant_call t.headers 1 rfl)
    (tenant_call t'.headers 2 rfl)
  refine ⟨hfree, ⟨"k1", "k2", by decide +kernel, by decide +kernel, by decide⟩, ?_⟩
  have hfresh : idle_gateway.stitcher = PrefixStitcher.with_limits 8 60000 0 [] := rfl
  have hshort : (stitch_calls tenant_from_str idle_gateway.trace_off ops).length ≤ 2 ^ 64 := by
    rw [show (stitch_calls tenant_from_str idle_gateway.trace_off ops).length = 2 from hlen]
    omega
  refine (credentials_isolated_iff hfresh hfree hshort).mpr ?_
  refine own_conversations_of_scopes Sha256.digest tenant_from_str ?_
  intro a ha b hb hdifferent
  have hturns : ∀ l ∈ run_gateway Sha256.digest tenant_from_str idle_gateway ops,
      l.turn = t ∨ l.turn = t' := by
    intro l hl
    rcases List.mem_cons.mp hl with rfl | hl
    · exact Or.inl rfl
    · rw [List.mem_singleton.mp hl]
      exact Or.inr rfl
  have hscopes : stitch_scope t ≠ stitch_scope t' := by decide +kernel
  rcases hturns a ha with ha | ha <;> rcases hturns b hb with hb | hb <;>
    rw [ha, hb] at hdifferent ⊢
  · exact absurd hdifferent (not_different_self t)
  · exact hscopes
  · exact hscopes.symm
  · exact absurd hdifferent (not_different_self t')

/-- Two tenants without an `authorization` header: the second is put into the
    session of the first. -/
theorem tenants_share_session :
    let t := tenant_turn [key_header "k1"] 1
    let t' := tenant_turn [key_header "k2"] 2
    let ops := [.turn t, .turn t']
    CollisionFree Sha256.digest [] (stitch_calls tenant_from_str false ops) ∧
      DifferentCredentials t t' ∧
      ¬ CredentialsIsolated Sha256.digest tenant_from_str
        (run_gateway Sha256.digest tenant_from_str idle_gateway ops) := by
  intro t t' ops
  have hcall : stitch_call tenant_from_str false t = some ⟨"", tenant_messages, 1⟩ :=
    tenant_call t.headers 1 rfl
  have hcall' : stitch_call tenant_from_str false t' = some ⟨"", tenant_messages, 2⟩ :=
    tenant_call t'.headers 2 rfl
  obtain ⟨hfree, hlen⟩ := tenants_collision_free hcall hcall'
  have hdifferent : DifferentCredentials t t' :=
    ⟨"k1", "k2", by decide +kernel, by decide +kernel, by decide⟩
  refine ⟨hfree, hdifferent, ?_⟩
  have hfresh : idle_gateway.stitcher = PrefixStitcher.with_limits 8 60000 0 [] := rfl
  have hshort : (stitch_calls tenant_from_str idle_gateway.trace_off ops).length ≤ 2 ^ 64 := by
    rw [show (stitch_calls tenant_from_str idle_gateway.trace_off ops).length = 2 from hlen]
    omega
  obtain ⟨gw', hgw'⟩ : ∃ gw', gw' = logging Sha256.digest tenant_from_str idle_gateway t :=
    ⟨_, rfl⟩
  have hlog : run_gateway Sha256.digest tenant_from_str idle_gateway ops
      = [⟨idle_gateway, t⟩, ⟨gw', t'⟩] := by
    rw [hgw']
    rfl
  have hfirst : (run_gateway Sha256.digest tenant_from_str idle_gateway ops)[0]?
      = some ⟨idle_gateway, t⟩ := by rw [hlog, List.getElem?_cons_zero]
  have hsecond : (run_gateway Sha256.digest tenant_from_str idle_gateway ops)[1]?
      = some ⟨gw', t'⟩ := by rw [hlog, List.getElem?_cons_succ, List.getElem?_cons_zero]
  refine not_isolated_of_continues hfresh hfree hshort (by omega) hfirst hsecond hdifferent ?_
  have hstep : LoggedTurn.step tenant_from_str ⟨idle_gateway, t⟩
      = some ⟨idle_gateway.stitcher, t.order, ⟨"", tenant_messages, 1⟩⟩ := by
    unfold LoggedTurn.step
    rw [show stitch_call tenant_from_str idle_gateway.trace_off t = _ from hcall]
    rfl
  have hstep' : LoggedTurn.step tenant_from_str ⟨gw', t'⟩
      = some ⟨gw'.stitcher, t'.order, ⟨"", tenant_messages, 2⟩⟩ := by
    unfold LoggedTurn.step
    have hon : gw'.trace_off = false := by
      rw [hgw', logging_trace_off]
      rfl
    rw [hon, hcall']
    rfl
  rw [← Option.bind_some ⟨idle_gateway, t⟩ (LoggedTurn.step tenant_from_str), ← hfirst] at hstep
  rw [← Option.bind_some ⟨gw', t'⟩ (LoggedTurn.step tenant_from_str), ← hsecond] at hstep'
  refine ⟨_, _, hstep, hstep', rfl, ?_⟩
  intro m s hm hm' hs _
  obtain rfl : m = 1 := by omega
  rw [hstep'] at hs
  cases hs
  -- the second call finds the chain of the first
  have hnext : gw'.stitcher = (idle_gateway.stitcher.assign Sha256.digest t.order ""
      tenant_messages 1).2 := by
    rw [hgw']
    have hcall₀ : stitch_call tenant_from_str idle_gateway.trace_off t
        = some ⟨"", tenant_messages, 1⟩ := hcall
    exact (logging_stitched Sha256.digest tenant_from_str hcall₀).2
  show gw'.stitcher.Extends Sha256.digest ⟨"", tenant_messages, 2⟩
  rw [hnext]
  exact extends_after Sha256.digest (c := ⟨"", tenant_messages, 1⟩) rfl (List.prefix_refl _)
    (by decide)

end AgentTraceGateway
