import AgentTraceGateway.Gateway.Isolation

/-! # Credentials Stay out of Records

  A record may show that two requests carried different credentials: by the
  fingerprint, and by the synthetic session the stitcher keeps for a
  credential. Nothing else in it depends on a barred header. Two turns that
  differ in the values of such headers leave the same record otherwise. -/

namespace AgentTraceGateway

/-! ### The same but for credentials -/

/-- The same header, up to the value of a barred one. -/
def SameHeader (a b : String × Bytes) : Prop :=
  a.1 = b.1 ∧ (hdr_evidence_denied a.1 = false → a.2 = b.2)

/-- Two turns that differ in the values of barred headers at most. -/
structure SameButDenied (t t' : Turn) : Prop where
  headers : List.Forall₂ SameHeader t.headers t'.headers
  rest : { t with headers := t'.headers } = t'

/-- Two records that differ in the fingerprint at most, and in the session
    where the stitcher minted it. -/
structure SameButCredential (a b : TurnRecord) : Prop where
  fields : { a with
    api_key_fp := b.api_key_fp
    session_id := b.session_id
    breakpoint := b.breakpoint } = b
  session : a.session_synthetic = false →
    a.session_id = b.session_id ∧ a.breakpoint = b.breakpoint

/-- What `logging` pushes, to the export queue and to the store. -/
def Pushes (gw gw' : Gateway) (record : Option TurnRecord) : Prop :=
  gw'.submitted = gw.submitted ++ record.toList ∧
    gw'.store = record.elim gw.store gw.store.push

/-! ### Reading headers -/

/-- Two ways to read headers that agree on those that are not barred. -/
def Agree (get get' : String → Option String) : Prop :=
  ∀ name, hdr_evidence_denied name = false → get name = get' name

theorem lookup_same {headers headers' : HeaderMap} (h : List.Forall₂ SameHeader headers headers')
    {name : String} (hname : hdr_evidence_denied name = false) :
    headers.lookup name = headers'.lookup name := by
  induction h with
  | nil => rfl
  | @cons a b headers headers' hsame hrest ih =>
    rw [List.lookup_cons, List.lookup_cons, ← hsame.1]
    by_cases ha : name = a.1
    · -- the header asked for, so its value is the same
      have hvalue := hsame.2 (ha ▸ hname)
      rw [hvalue, ih]
    · have hne : (name == a.1) = false := beq_eq_false_iff_ne.mpr ha
      simp only [hne, ih]

theorem header_get_agree {t t' : Turn} (h : SameButDenied t t') :
    Agree t.header_get t'.header_get := by
  intro name hname
  exact congrArg (Option.bind · HeaderMap.value_to_str) (lookup_same h.headers hname)

/-- The evidence map, its shared bounds included, passes barred headers by. -/
theorem collect_hdr_evidence_same {headers headers' : HeaderMap}
    (h : List.Forall₂ SameHeader headers headers') :
    collect_hdr_evidence headers = collect_hdr_evidence headers' := by
  have hfold : ∀ ev : Evidence,
      headers.foldl Evidence.collect ev = headers'.foldl Evidence.collect ev := by
    induction h with
    | nil => exact fun ev => rfl
    | @cons a b headers headers' hsame hrest ih =>
      intro ev
      have hone : ev.collect a = ev.collect b := by
        obtain ⟨name, raw⟩ := a
        obtain ⟨name', raw'⟩ := b
        obtain ⟨rfl, hvalue⟩ := hsame
        by_cases hdenied : hdr_evidence_denied name = true
        · unfold Evidence.collect
          simp only [if_pos hdenied]
        · have hraw : raw = raw' := hvalue (Bool.eq_false_iff.mpr hdenied)
          rw [hraw]
      rw [List.foldl_cons, List.foldl_cons, hone]
      exact ih (ev.collect b)
  unfold collect_hdr_evidence
  rw [hfold]

/-! ### The tables -/

/-- The header a kind of evidence looks at. -/
def IdentKind.header_name : IdentKind → Option String
  | .header_present name => some name
  | _ => none

/-- The headers a harness is recognised by, and those it mounts sessions
    on. -/
def HarnessDescriptor.header_names (h : HarnessDescriptor) : List String :=
  h.identity.filterMap (·.kind.header_name) ++ h.session_header_mounts

/-- No table names a barred header. -/
theorem header_names_allowed :
    (∀ h ∈ HARNESSES, ∀ name ∈ h.header_names, hdr_evidence_denied name = false) ∧
      ∀ d ∈ DESCRIPTORS, ∀ name ∈ d.header_sources, hdr_evidence_denied name = false := by
  have hharness : (HARNESSES.all fun h => h.header_names.all fun name =>
      !hdr_evidence_denied name) = true := by decide +kernel
  have hprotocol : (DESCRIPTORS.all fun d => d.header_sources.all fun name =>
      !hdr_evidence_denied name) = true := by decide +kernel
  constructor
  · intro h hh name hname
    exact (Bool.not_eq_true' _).mp (List.all_eq_true.mp (List.all_eq_true.mp hharness h hh) name hname)
  · intro d hd name hname
    exact (Bool.not_eq_true' _).mp (List.all_eq_true.mp (List.all_eq_true.mp hprotocol d hd) name hname)

section agree

variable {get get' : String → Option String} (hagree : Agree get get')
include hagree

theorem matched_agree {h : HarnessDescriptor} (hh : h ∈ HARNESSES) {id : Identifier}
    (hid : id ∈ h.identity) (req : Option Value) (ua : Option String) :
    id.kind.matched req ua get = id.kind.matched req ua get' := by
  cases hkind : id.kind with
  | ua_prefix pat => rfl
  | body test => rfl
  | header_present name =>
    have hname : name ∈ h.header_names :=
      List.mem_append_left _ (List.mem_filterMap.mpr ⟨id, hid, by rw [hkind]; rfl⟩)
    have hread := hagree name (header_names_allowed.1 h hh name hname)
    show header_filled get name = header_filled get' name
    unfold header_filled
    rw [hread]

theorem best_strength_agree {h : HarnessDescriptor} (hh : h ∈ HARNESSES) (req : Option Value)
    (ua : Option String) : best_strength h req ua get = best_strength h req ua get' := by
  unfold best_strength
  apply List.foldl_ext
  intro best id hid
  rw [matched_agree hagree hh hid]

variable (from_str : String → Option Value)

theorem matched_dialect_agree (req : Option Value) :
    matched_dialect from_str req get = matched_dialect from_str req get' := by
  have hshape : hdr_evidence_denied HDR_CC_SESSION = false := by decide +kernel
  have hfilled : header_filled get HDR_CC_SESSION = header_filled get' HDR_CC_SESSION := by
    unfold header_filled
    rw [hagree _ hshape]
  unfold matched_dialect DIALECTS
  simp only [List.find?_cons, List.find?_nil, ClaudeCode.DIALECT, List.any_cons, List.any_nil, hfilled]

theorem identify_agree (protocol : String) (req : Option Value) (ua : Option String) :
    identify from_str protocol req ua get = identify from_str protocol req ua get' := by
  have hhits : (HARNESSES.filterMap fun h =>
        (best_strength h req ua get).map fun strength => (h.name, strength))
      = HARNESSES.filterMap fun h =>
        (best_strength h req ua get').map fun strength => (h.name, strength) := by
    apply List.filterMap_congr
    intro h hh
    rw [best_strength_agree hagree hh]
  unfold identify
  rw [hhits, matched_dialect_agree hagree]

/-- Header mounts, those of the protocol and those of the harness. -/
theorem session_mounts_agree {d : ProtocolDescriptor} (hd : d ∈ DESCRIPTORS)
    (facts : HarnessFacts) :
    d.session_from_headers_with_source get = d.session_from_headers_with_source get' ∧
      harness_session_from_headers_with_source facts get
        = harness_session_from_headers_with_source facts get' := by
  have hmounts : ∀ names : List String, (∀ name ∈ names, hdr_evidence_denied name = false) →
      (names.findSome? fun name => ((get name).bind trimmed).map fun v => (v, name))
        = names.findSome? fun name => ((get' name).bind trimmed).map fun v => (v, name) := by
    intro names hnames
    induction names with
    | nil => rfl
    | cons name names ih =>
      rw [List.findSome?_cons, List.findSome?_cons, hagree name (hnames name List.mem_cons_self),
        ih fun n hn => hnames n (List.mem_cons_of_mem name hn)]
  constructor
  · exact hmounts d.header_sources (header_names_allowed.2 d hd)
  · unfold harness_session_from_headers_with_source
    cases facts.identity with
    | none => rfl
    | some identity =>
      cases hfound : HARNESSES.find? fun h => h.name == identity with
      | none => simp only [Option.bind_some, hfound, Option.bind_none]
      | some h =>
        have hh := List.mem_of_find?_eq_some hfound
        simp only [Option.bind_some, hfound]
        exact hmounts h.session_header_mounts
          fun name hname => header_names_allowed.1 h hh name (List.mem_append_right _ hname)

theorem turn_facts_agree (protocol : String) (req : Value) (facts : HarnessFacts) :
    turn_facts from_str protocol req get facts = turn_facts from_str protocol req get' facts := by
  unfold turn_facts
  cases hd : detect_by_name protocol with
  | none => rfl
  | some d =>
    have hmem : d ∈ DESCRIPTORS := List.mem_of_find?_eq_some hd
    obtain ⟨hprotocol, hharness⟩ := session_mounts_agree hagree hmem facts
    simp only [Option.map_some, session_with_source, hprotocol, hharness]

end agree

/-! ### Sessions the stitcher mints -/

/-- Every chain a stitcher keeps has a session id. -/
def PrefixStitcher.Named (st : PrefixStitcher) : Prop :=
  ∀ key e, st.states.lookup key = some e → e.session_id.isEmpty = false

section runs

variable (sha256 : Bytes → Digest) (from_str : String → Option Value)

/-- Whatever a call extends or opens, its session has an id. -/
theorem assign_named {st : PrefixStitcher} (hst : st.Named) (order : StitchOrder) (scope : String)
    (messages : List Value) (now : Nat) :
    (st.assign sha256 order scope messages now).1.session_id.isEmpty = false ∧
      (st.assign sha256 order scope messages now).2.Named := by
  obtain ⟨-, kept, hkept, hstates, hcase⟩ := assign_cases sha256 st order ⟨scope, messages, now⟩
  -- an extended chain keeps its id, a new one gets a minted id
  have hid : (st.assign sha256 order scope messages now).1.session_id.isEmpty = false := by
    rcases hcase with ⟨-, e, he, -, hout, -⟩ | ⟨-, hout, -⟩
    · rw [hout]
      exact hst _ e he
    · rw [hout]
      exact mint_nonempty _ _ _
  refine ⟨hid, ?_⟩
  intro key e he
  rw [hstates] at he
  -- the chain just assigned, or one that was kept
  by_cases hkey : key = AssignCall.key sha256 ⟨scope, messages, now⟩
  · rw [hkey, AList.lookup_insert] at he
    cases he
    exact hid
  · rw [AList.lookup_insert_ne hkey] at he
    exact hst key e (hkept key e he)

/-- In a run that starts with an empty table, every turn meets named
    chains. -/
theorem run_gateway_named : ∀ (ops : List GatewayOp) (gw : Gateway), gw.stitcher.Named →
    ∀ l ∈ run_gateway sha256 from_str gw ops, l.gateway.stitcher.Named := by
  intro ops
  induction ops with
  | nil => exact fun _ _ l hl => absurd hl List.not_mem_nil
  | cons op ops ih =>
    intro gw hgw l hl
    cases op with
    | reload capacity ttl_ms => exact ih ({ gw with stitcher := gw.stitcher.set_limits capacity ttl_ms }) hgw l hl
    | turn t =>
      rcases List.mem_cons.mp hl with rfl | hl
      · exact hgw
      · refine ih _ ?_ l hl
        cases hcall : stitch_call from_str gw.trace_off t with
        | none =>
          rw [(logging_unstitched sha256 from_str hcall).2]
          exact hgw
        | some c =>
          rw [(logging_stitched sha256 from_str hcall).2]
          exact (assign_named sha256 hgw t.order c.scope c.messages c.now).2

/-! ### The record -/

/-- Two sessions of one request under different credentials. -/
structure SameSession (a b : TurnSession) : Prop where
  source : a.session_source = b.session_source
  synthetic : a.synthetic = b.synthetic
  named : a.synthetic = false → a = b

/-- A session the request names is the same; one that is minted is minted
    for both. -/
theorem turn_session_same {st : PrefixStitcher} (hst : st.Named) (t t' : Turn)
    (tf : Option TurnFacts) :
    SameSession (turn_session sha256 st t tf).1 (turn_session sha256 st t' tf).1 := by
  unfold turn_session
  cases hmessages : stitch_messages tf with
  | none => exact ⟨rfl, rfl, fun _ => rfl⟩
  | some messages =>
    have hid := (assign_named sha256 hst t.order (stitch_scope t) messages t.instant).1
    have hid' := (assign_named sha256 hst t'.order (stitch_scope t') messages t'.instant).1
    dsimp only
    rw [hid, hid']
    exact ⟨rfl, rfl, fun h => absurd h Bool.noConfusion⟩

/-- What a turn is assembled from, field by field. -/
theorem assemble_eq (gw : Gateway) (d : ProtocolDescriptor) (t : Turn) :
    (assemble sha256 from_str gw d t).1 = {
      descriptor := d
      parsed_req := parse_body from_str t.ctx.req_buf
      hfacts := identify from_str d.name (parse_body from_str t.ctx.req_buf)
        (t.header_get "user-agent") t.header_get
      tf := request_facts from_str d t
      session := (turn_session sha256 gw.stitcher t (request_facts from_str d t)).1
      client_ua := ((t.header_get "user-agent").map fun u =>
        truncate_header_value u HDR_VALUE_CAP).getD ""
      hdr_evidence := (collect_hdr_evidence t.headers).1
      hdr_dropped := (collect_hdr_evidence t.headers).2
      api_key_fp := request_api_key_fp sha256 d.name t.header_get t.ctx.snap.salt
      harness_enrich := ((parse_body from_str t.ctx.req_buf).map fun req =>
        enrich from_str (identify from_str d.name (parse_body from_str t.ctx.req_buf)
          (t.header_get "user-agent") t.header_get) req).getD []
      raw_request := gw.cap.bound t.ctx.req_buf
      raw_response := raw_response gw.cap t.ctx } := rfl

/-- Two such turns are assembled alike. -/
theorem assemble_same {gw : Gateway} (hst : gw.stitcher.Named) (d : ProtocolDescriptor) {t t' : Turn}
    (hsame : SameButDenied t t') :
    { (assemble sha256 from_str gw d t).1 with
        session := (assemble sha256 from_str gw d t').1.session
        api_key_fp := (assemble sha256 from_str gw d t').1.api_key_fp }
      = (assemble sha256 from_str gw d t').1 ∧
      SameSession (assemble sha256 from_str gw d t).1.session
        (assemble sha256 from_str gw d t').1.session := by
  -- every reader of the request sees the same, the credential's apart
  have hagree := header_get_agree hsame
  have hua : t.header_get "user-agent" = t'.header_get "user-agent" :=
    hagree "user-agent" (by decide +kernel)
  have hctx : t.ctx = t'.ctx := by rw [← hsame.rest]
  have hevidence := collect_hdr_evidence_same hsame.headers
  have hfacts : ∀ parsed ua, identify from_str d.name parsed ua t.header_get
      = identify from_str d.name parsed ua t'.header_get := identify_agree hagree from_str d.name
  have htf : request_facts from_str d t = request_facts from_str d t' := by
    simp only [request_facts, hctx, hua, hfacts, turn_facts_agree hagree from_str]
  rw [assemble_eq, assemble_eq, htf, hctx, hua, hevidence, hfacts]
  exact ⟨rfl, turn_session_same sha256 hst t t' _⟩

/-- The record of either turn, if there is one. -/
theorem turn_record_same {a b : Assembly} {t t' : Turn} (hrest : { t with headers := t'.headers } = t')
    (hfields : { a with session := b.session, api_key_fp := b.api_key_fp } = b)
    (hsession : SameSession a.session b.session) :
    Option.Rel SameButCredential (turn_record from_str a t) (turn_record from_str b t') := by
  obtain ⟨session, hb⟩ : ∃ session, b.session = session := ⟨_, rfl⟩
  obtain ⟨fp, hfp⟩ : ∃ fp, b.api_key_fp = fp := ⟨_, rfl⟩
  obtain ⟨headers, ht⟩ : ∃ headers, t'.headers = headers := ⟨_, rfl⟩
  rw [hb, hfp] at hfields
  rw [hb] at hsession
  rw [ht] at hrest
  subst hfields hrest
  obtain ⟨hsource, hsynthetic, hnamed⟩ := hsession
  -- the fields of the session that a record shows but may differ in
  have hshown : a.session.synthetic = false →
      a.session.session_id = session.session_id ∧ a.session.breakpoint = session.breakpoint :=
    fun h => by rw [hnamed h]; exact ⟨rfl, rfl⟩
  unfold turn_record
  by_cases hsse : looks_like_sse t.ctx.resp_content_type = true
  · rw [if_pos hsse, if_pos hsse]
    refine .some ⟨?_, hshown⟩
    simp only [sse_record, hsource, hsynthetic]
    rfl
  · rw [if_neg hsse, if_neg hsse]
    cases hunpack : unpack_nonstreaming from_str a.descriptor.name a.parsed_req t.ctx.resp_buf with
    | some record =>
      refine .some ⟨?_, hshown⟩
      simp only [nonstreaming_record, hsource, hsynthetic]
      rfl
    | none =>
      -- the conditions of a minimal record do not look at headers
      by_cases hmin : ((http_error t).isSome || (t.ctx.relay_done && client_cancelled t)) = true
      · have hmin' : ((http_error { t with headers := headers }).isSome ||
            (t.ctx.relay_done && client_cancelled { t with headers := headers })) = true := hmin
        rw [if_pos hmin, if_pos hmin']
        refine .some ⟨?_, fun h => ⟨(hshown h).1, rfl⟩⟩
        simp only [minimal_record, hsource, hsynthetic]
        rfl
      · have hmin' : ¬ ((http_error { t with headers := headers }).isSome ||
            (t.ctx.relay_done && client_cancelled { t with headers := headers })) = true := hmin
        rw [if_neg hmin, if_neg hmin']
        exact .none

theorem logged_record_same {gw : Gateway} (hst : gw.stitcher.Named) (d : ProtocolDescriptor)
    {t t' : Turn} (hsame : SameButDenied t t') :
    Option.Rel SameButCredential (logged_record sha256 from_str gw d t)
      (logged_record sha256 from_str gw d t') := by
  unfold logged_record
  by_cases hoff : gw.trace_off = true
  · rw [if_pos hoff, if_pos hoff, ← hsame.rest]
    exact .some ⟨rfl, fun _ => ⟨rfl, rfl⟩⟩
  · rw [if_neg hoff, if_neg hoff]
    obtain ⟨hfields, hsession⟩ := assemble_same sha256 from_str hst d hsame
    exact turn_record_same from_str hsame.rest hfields hsession

/-- What `logging` pushes for a turn. -/
theorem logging_pushes (gw : Gateway) (t : Turn) :
    Pushes gw (logging sha256 from_str gw t)
      (t.matched.bind fun m => logged_record sha256 from_str gw m.descriptor t) := by
  cases hm : t.matched with
  | none =>
    obtain ⟨n, hlogging⟩ := logging_unmatched sha256 from_str gw hm
    rw [hlogging]
    exact ⟨(List.append_nil gw.submitted).symm, rfl⟩
  | some m =>
    obtain ⟨n, hlogging⟩ := logging_matched sha256 from_str gw hm
    rw [hlogging]
    exact log_turn_pushes sha256 from_str { gw with loose_path_matches := n } m.descriptor t

/-- **Credential non-interference**: in any state a run reaches, a turn and
    one that differs from it in the values of barred headers push records
    that differ in the fingerprint at most, and in a minted session. -/
theorem credential_noninterference {start gw : Gateway} {capacity ttl_ms clock : Nat} {salt : Bytes}
    (hfresh : start.stitcher = PrefixStitcher.with_limits capacity ttl_ms clock salt)
    {ops : List GatewayOp} {t t' : Turn} (hreached : ⟨gw, t⟩ ∈ run_gateway sha256 from_str start ops)
    (hsame : SameButDenied t t') :
    ∃ record record', Pushes gw (logging sha256 from_str gw t) record ∧
      Pushes gw (logging sha256 from_str gw t') record' ∧
      Option.Rel SameButCredential record record' := by
  have hstart : start.stitcher.Named := by
    rw [hfresh]
    intro key e he
    cases he
  have hst : gw.stitcher.Named := run_gateway_named sha256 from_str ops start hstart _ hreached
  have hmatched : t'.matched = t.matched := by rw [← hsame.rest]; rfl
  refine ⟨_, _, logging_pushes sha256 from_str gw t, logging_pushes sha256 from_str gw t', ?_⟩
  rw [hmatched]
  cases t.matched with
  | none => exact .none
  | some m => exact logged_record_same sha256 from_str hst m.descriptor hsame

end runs

/-- The headers of a tenant that says what its client is. -/
def tenant_headers (token key : String) : HeaderMap :=
  [("user-agent", utf8_bytes "claude-cli/1.0"), token_header token, key_header key]

theorem credential_noninterference_tenants :
    let t := tenant_turn (tenant_headers "A" "k1") 1
    let t' := tenant_turn (tenant_headers "B" "k2") 1
    ∃ record record',
      Pushes idle_gateway (logging Sha256.digest tenant_from_str idle_gateway t) record ∧
      Pushes idle_gateway (logging Sha256.digest tenant_from_str idle_gateway t') record' ∧
      Option.Rel SameButCredential record record' := by
  intro t t'
  have hfresh : idle_gateway.stitcher = PrefixStitcher.with_limits 8 60000 0 [] := rfl
  have hreached : ⟨idle_gateway, t⟩ ∈
      run_gateway Sha256.digest tenant_from_str idle_gateway [.turn t] := List.mem_cons_self
  have htoken : hdr_evidence_denied "authorization" = true := by decide +kernel
  have hkey : hdr_evidence_denied "x-api-key" = true := by decide +kernel
  have hsame : SameButDenied t t' := by
    refine ⟨.cons ⟨rfl, fun _ => rfl⟩ (.cons ⟨rfl, ?_⟩ (.cons ⟨rfl, ?_⟩ .nil)), rfl⟩
    · intro h
      exact absurd (htoken.symm.trans h) Bool.noConfusion
    · intro h
      exact absurd (hkey.symm.trans h) Bool.noConfusion
  exact credential_noninterference Sha256.digest tenant_from_str hfresh hreached hsame

end AgentTraceGateway
