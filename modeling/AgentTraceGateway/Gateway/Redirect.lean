import AgentTraceGateway.Gateway.Delivery
import AgentTraceGateway.Gateway.Forward
import AgentTraceGateway.Gateway.Upstream

/-! # Redirects on the Relay

  Neither of the relay's two HTTP clients is built with a redirect policy,
  so both have the library's own: a redirect that names a location is
  followed, up to ten times and to any host. The relay is given the last
  response only.

  The upstream is the list of the responses it gives, one to each request;
  when there are no more, the connection fails. How a location reads
  against a URL, and what becomes of method, headers and body at a redirect,
  are parameters. A request that cannot be built is not sent at all. -/

namespace AgentTraceGateway

/-! ### The client -/

/-- A request as it goes out. -/
structure SentRequest where
  method : String
  url : Url
  headers : HeaderMap
  body : Bytes
  deriving DecidableEq, Repr

/-- One upstream response: its head, its Location and its body. -/
structure UpstreamAnswer where
  head : UpstreamHead
  location : Option String
  inputs : List PumpInput

/-- Redirects that a client follows for one request. -/
def MAX_REDIRECTS : Nat := 10

/-- The headers that are not sent on to another host. -/
def SENSITIVE_HEADERS : List String :=
  ["authorization", "cookie", "proxy-authorization", "www-authenticate"]

/-- Where a response redirects to. -/
def UpstreamAnswer.redirect (answer : UpstreamAnswer) : Option String :=
  if [301, 302, 303, 307, 308].contains answer.head.status then answer.location else none

section client

variable (join : Url → String → Option Url) (redo : UInt16 → SentRequest → SentRequest)

/-- Where a client goes on to after a response; one whose location does not
    read is returned as it is. -/
def UpstreamAnswer.followed (answer : UpstreamAnswer) (url : Url) : Option Url :=
  answer.redirect.bind (join url)

/-- The request that follows a redirect. -/
def redirected (req : SentRequest) (status : UInt16) (url : Url) : SentRequest :=
  let next := redo status req
  let same_host := url.host == req.url.host && url.port == req.url.port
  let headers :=
    if same_host then next.headers
    else next.headers.filter fun h => !SENSITIVE_HEADERS.contains h.1
  { next with url := url, headers := headers }

/-- What a client without a redirect policy makes of a request: the requests
    that go out, and the response it comes back with. -/
def execute : Nat → SentRequest → List UpstreamAnswer →
    List SentRequest × Except String UpstreamAnswer
  | _, req, [] => ([req], .error "error sending request")
  | hops, req, answer :: answers =>
    match answer.followed join req.url with
    | none => ([req], .ok answer)
    | some url =>
      match hops with
      | 0 => ([req], .error "error following redirect")
      | hops + 1 =>
        let (sent, result) := execute hops (redirected redo req answer.head.status url) answers
        (req :: sent, result)

/-- `RequestBuilder::send`: what failed to build is not sent. -/
def send (request : Option SentRequest) (answers : List UpstreamAnswer) :
    List SentRequest × Except String UpstreamAnswer :=
  match request with
  | none => ([], .error "builder error")
  | some req => execute join redo MAX_REDIRECTS req answers

end client

/-! ### The relayed request -/

/-- The request that the relay builds for its upstream. -/
def relay_upstream_request (url : UrlParser) (client : ClientHeaders) (resolves : String → Bool)
    (server : Config.Server) (method : String) (path_and_query : PathAndQuery)
    (headers : HeaderMap) (req_buf : Bytes) : Option SentRequest :=
  (relay_url url resolves server path_and_query).map fun url =>
    { method := method
      url := url
      headers := relay_request_headers client (relay_target resolves server).host headers
      body := req_buf }

/-- What the relay meets once the client has uploaded its request. -/
def relay_exchange (upload : List Bytes) (result : Except String UpstreamAnswer) : Exchange where
  upload := upload
  upload_aborted := false
  sent := result.map (·.head)
  inputs :=
    match result with
    | .ok answer => answer.inputs
    | .error _ => []

/-- The status in the head that the client is sent. -/
def RelayEnd.client_status (out : RelayEnd) : UInt16 :=
  out.state.responded.getD out.state.ctx.resp_status

/-! ### The status of a relayed response -/

section status

variable (from_str : String → Option Value) (wall : Nat → UInt64)

/-- The status that a relay answers with, and the one it records. -/
structure SameStatus (s s' : RelayState) : Prop where
  recorded : s'.ctx.resp_status = s.ctx.resp_status
  responded : s'.responded = s.responded

/-- The death of a client changes no status. -/
theorem client_gone_status (d : ProtocolDescriptor) {s₀ s : RelayState} (h : SameStatus s₀ s) :
    (∃ s₁, s.client_gone from_str d = .ok s₁ ∧ SameStatus s₀ s₁) ∨
      ∃ stopped, s.client_gone from_str d = .error stopped ∧ SameStatus s₀ stopped.state := by
  obtain ⟨acc, tail, hframe⟩ := begin_drain_frame from_str d s.mark_dead.now s.mark_dead.ctx
  unfold RelayState.client_gone
  dsimp only
  by_cases hcancel : s.mark_dead.ctx.snap.on_cancel = true
  · rw [if_pos hcancel, hframe]
    cases (begin_drain from_str d s.mark_dead.now s.mark_dead.ctx).2 with
    | some deadline => exact Or.inl ⟨_, rfl, h.recorded, h.responded⟩
    | none => exact Or.inr ⟨_, rfl, h.recorded, h.responded⟩
  · rw [if_neg hcancel]
    exact Or.inr ⟨_, rfl, h.recorded, h.responded⟩

/-- Forwarding or draining a chunk leaves the head of the response alone. -/
theorem chunk_event_status (d : ProtocolDescriptor) {s₀ s : RelayState} (h : SameStatus s₀ s)
    {i : PumpItem} {bytes : Bytes} (hframe : i.frame = .chunk bytes) :
    (∃ s₁, s.take_frame from_str wall d i = .ok s₁ ∧ SameStatus s₀ s₁) ∨
      ∃ stopped, s.take_frame from_str wall d i = .error stopped ∧
        SameStatus s₀ stopped.state := by
  obtain ⟨first, hlatch⟩ := latch_frame wall s bytes
  unfold RelayState.take_frame
  rw [hframe]
  dsimp only
  rw [hlatch]
  split
  · -- Forwarded; the write may find the client gone.
    unfold RelayState.forward_chunk
    dsimp only
    split
    · exact Or.inl ⟨_, rfl, h.recorded, h.responded⟩
    · apply client_gone_status from_str d
      exact ⟨h.recorded, h.responded⟩
  · -- The client is dead: drained, or the relay stops.
    split
    · obtain ⟨buf, overflow, acc, tail, hdrain⟩ := drain_chunk_frame from_str d
        ({ s with ctx := { s.ctx with first_output_ns := first } } : RelayState) i.cap bytes
      rw [hdrain]
      exact Or.inl ⟨_, rfl, h.recorded, h.responded⟩
    · exact Or.inr ⟨_, rfl, h.recorded, h.responded⟩

/-- No event of the body changes it. -/
theorem pump_event_status (d : ProtocolDescriptor) (s : RelayState) (input : PumpInput) :
    (∃ s₁, pump_event from_str wall d s input = .ok s₁ ∧ SameStatus s s₁) ∨
      ∃ stopped, pump_event from_str wall d s input = .error stopped ∧
        SameStatus s stopped.state := by
  cases input with
  | probe time =>
    rw [pump_event]
    by_cases hdead : s.ctx.client_dead = true
    · rw [if_pos hdead]
      exact Or.inl ⟨s, rfl, rfl, rfl⟩
    · rw [if_neg hdead]
      apply client_gone_status from_str d
      exact ⟨rfl, rfl⟩
  | item i =>
    rw [pump_event]
    by_cases hlate : s.ctx.client_dead = true ∧ s.wait_limit < s.ready + i.delay
    · rw [if_pos hlate]
      exact Or.inr ⟨_, rfl, rfl, rfl⟩
    · rw [if_neg hlate]
      cases hframe : i.frame with
      | stop =>
        rw [take_frame_stop from_str wall _ hframe]
        exact Or.inr ⟨_, rfl, rfl, rfl⟩
      | failed error =>
        rw [take_frame_failed from_str wall _ hframe]
        exact Or.inr ⟨_, rfl, rfl, rfl⟩
      | chunk bytes =>
        apply chunk_event_status from_str wall d _ hframe
        exact ⟨rfl, rfl⟩

theorem pump_status (d : ProtocolDescriptor) : ∀ (inputs : List PumpInput) (s : RelayState),
    SameStatus s (pump from_str wall d s inputs).state := by
  intro inputs
  induction inputs with
  | nil =>
    intro s
    rw [pump]
    split <;> exact ⟨rfl, rfl⟩
  | cons input rest ih =>
    intro s
    rw [pump_cons]
    rcases pump_event_status from_str wall d s input with
      ⟨s₁, hstep, hsame⟩ | ⟨stopped, hstep, hsame⟩
    · rw [hstep]
      have hrest := ih s₁
      exact ⟨hrest.recorded.trans hsame.recorded, hrest.responded.trans hsame.responded⟩
    · rw [hstep]
      exact hsame

theorem relay_body_status (d : ProtocolDescriptor) (s : RelayState) (inputs : List PumpInput) :
    SameStatus s (relay_body from_str wall d s inputs).state := by
  have hpump := pump_status from_str wall d inputs s
  unfold relay_body
  split
  · exact ⟨rfl, rfl⟩
  · cases hout : pump from_str wall d s inputs with
    | returned s' =>
      rw [hout] at hpump
      exact ⟨hpump.recorded, hpump.responded⟩
    | panicked s' =>
      rw [hout] at hpump
      exact hpump
    | waiting s' =>
      rw [hout] at hpump
      exact hpump

/-- A relay that is given a response answers and records its status. -/
theorem relay_status (d : ProtocolDescriptor) (ctx : Ctx) {x : Exchange} {head : UpstreamHead}
    (hupload : x.upload_aborted = false) (hsent : x.sent = .ok head) :
    (relay from_str wall d x ctx).state.ctx.resp_status = head.status ∧
      (relay from_str wall d x ctx).state.responded = none := by
  unfold relay
  rw [if_neg (Bool.eq_false_iff.mp hupload), hsent]
  dsimp only
  cases head.build_error with
  | some e => exact ⟨rfl, rfl⟩
  | none =>
    dsimp only
    -- the head's write changes neither
    have hhead : ∀ s : RelayState, SameStatus s (s.write_head head) := by
      intro s
      unfold RelayState.write_head
      dsimp only
      split <;> exact ⟨rfl, rfl⟩
    have hwritten := hhead
      (RelayState.receive_head { ctx := { ctx with req_buf := ctx.req_buf ++ x.upload.flatten } } head)
    split
    · exact ⟨hwritten.recorded, hwritten.responded⟩
    · have hbody := relay_body_status from_str wall d
        ((RelayState.receive_head
          { ctx := { ctx with req_buf := ctx.req_buf ++ x.upload.flatten } } head).write_head head)
        x.inputs
      exact ⟨hbody.recorded.trans hwritten.recorded, hbody.responded.trans hwritten.responded⟩

end status

/-! ### Transparency -/

/-- The exchange is the one that the pump path would be: one request goes
    out, to the configured upstream, and its response, if there is one, is
    what the client gets and what the record is made from. -/
structure RedirectTransparent (from_str : String → Option Value) (wall : Nat → UInt64)
    (d : ProtocolDescriptor) (ctx : Ctx) (upload : List Bytes) (request : Option SentRequest)
    (answers : List UpstreamAnswer) (sent : List SentRequest)
    (result : Except String UpstreamAnswer) : Prop where
  one_request : ∃ req, request = some req ∧ sent = [req]
  first_answer : ∀ answer, answers.head? = some answer →
    relay from_str wall d (relay_exchange upload result) ctx
        = relay from_str wall d (relay_exchange upload (.ok answer)) ctx ∧
      (relay from_str wall d (relay_exchange upload result) ctx).state.ctx.resp_status
        = answer.head.status ∧
      (relay from_str wall d (relay_exchange upload result) ctx).client_status = answer.head.status

/-- What cannot be built is not sent: the client gets a 502, whatever the
    upstream would have answered. -/
theorem unbuilt_unsent (join : Url → String → Option Url)
    (redo : UInt16 → SentRequest → SentRequest) (from_str : String → Option Value)
    (wall : Nat → UInt64) (d : ProtocolDescriptor) (ctx : Ctx) (upload : List Bytes)
    (answers : List UpstreamAnswer) :
    (send join redo none answers).1 = [] ∧
      (relay from_str wall d (relay_exchange upload (send join redo none answers).2)
        ctx).client_status = 502 :=
  ⟨rfl, rfl⟩

/-- The first hop is always within the limit. -/
theorem execute_followed (join : Url → String → Option Url)
    (redo : UInt16 → SentRequest → SentRequest) (req : SentRequest) {answer : UpstreamAnswer}
    {url : Url} (h : answer.followed join req.url = some url) (rest : List UpstreamAnswer) :
    ∃ next sent, (execute join redo MAX_REDIRECTS req (answer :: rest)).1 = req :: next :: sent := by
  rw [MAX_REDIRECTS, execute, h]
  dsimp only
  cases rest with
  | nil => exact ⟨_, [], by rw [execute]⟩
  | cons second rest =>
    rw [execute]
    split
    · exact ⟨_, [], rfl⟩
    · exact ⟨_, _, rfl⟩

/-- **Redirects**: a relayed request is one upstream request with one
    response, if and only if it can be built and the first response does not
    redirect it. -/
theorem relay_redirect_transparent_iff (url : UrlParser) (client : ClientHeaders)
    (join : Url → String → Option Url) (redo : UInt16 → SentRequest → SentRequest)
    (from_str : String → Option Value) (wall : Nat → UInt64) (d : ProtocolDescriptor) (ctx : Ctx)
    (resolves : String → Bool) (server : Config.Server) (method : String)
    (path_and_query : PathAndQuery) (headers : HeaderMap) (upload : List Bytes)
    (answers : List UpstreamAnswer) :
    let request := relay_upstream_request url client resolves server method path_and_query headers
      upload.flatten
    let out := send join redo request answers
    RedirectTransparent from_str wall d ctx upload request answers out.1 out.2 ↔
      ∃ req, request = some req ∧
        ∀ answer, answers.head? = some answer → answer.followed join req.url = none := by
  intro request out
  cases hrequest : request with
  | none =>
    -- nothing was built, so nothing goes out and nothing can be the one request
    refine iff_of_false ?_ ?_
    · intro htransparent
      obtain ⟨req, ⟨⟩, -⟩ := htransparent.one_request
    · rintro ⟨req, ⟨⟩, -⟩
  | some req =>
    have hout : out = execute join redo MAX_REDIRECTS req answers := by
      show send join redo request answers = _
      rw [hrequest, send]
    rw [hout]
    have hsome : (∃ other, some req = some other ∧
          ∀ answer, answers.head? = some answer → answer.followed join other.url = none) ↔
        ∀ answer, answers.head? = some answer → answer.followed join req.url = none := by simp
    rw [hsome]
    cases answers with
    | nil =>
      -- the connection fails, and there is no first response to compare with
      refine iff_of_true ⟨⟨req, rfl, rfl⟩, ?_⟩ ?_
      · intro answer hfirst
        cases hfirst
      · intro answer hfirst
        cases hfirst
    | cons answer rest =>
      have hfirst : (∀ a, (answer :: rest).head? = some a → a.followed join req.url = none)
          ↔ answer.followed join req.url = none := by simp
      rw [hfirst]
      cases hfollowed : answer.followed join req.url with
      | none =>
        have hexecute : execute join redo MAX_REDIRECTS req (answer :: rest)
            = ([req], .ok answer) := by
          rw [execute, hfollowed]
        rw [hexecute]
        refine iff_of_true ⟨⟨req, rfl, rfl⟩, ?_⟩ rfl
        intro a ha
        cases ha
        obtain ⟨hrecorded, hresponded⟩ := relay_status from_str wall d ctx
          (x := relay_exchange upload (.ok answer)) rfl rfl
        refine ⟨rfl, hrecorded, ?_⟩
        unfold RelayEnd.client_status
        rw [hresponded, hrecorded]
        rfl
      | some location =>
        -- a second request goes out whatever comes of it, and one is asked for
        obtain ⟨next, sent, hsent⟩ := execute_followed join redo req hfollowed rest
        refine iff_of_false ?_ nofun
        intro htransparent
        obtain ⟨other, hsame, hone⟩ := htransparent.one_request
        cases hsame
        rw [hsent] at hone
        cases (List.cons.inj hone).2

/-- A response that sends the request on to another host. -/
def elsewhere_answer : UpstreamAnswer where
  head := {
    status := 307
    content_type := none
    build_error := none
    head_request := false
    arrived := 1
    write_ok := true
    took := 0 }
  location := some "http://203.0.113.9/collect"
  inputs := [.item ⟨1, .stop, true, 0, CaptureCap.of_max 8⟩]

/-- The answer of that host. -/
def other_answer : UpstreamAnswer where
  head := { elsewhere_answer.head with status := 200 }
  location := none
  inputs := [
    .item ⟨1, .chunk [0x21], true, 0, CaptureCap.of_max 8⟩,
    .item ⟨1, .stop, true, 0, CaptureCap.of_max 8⟩]

/-- How that location reads, against any URL. -/
def elsewhere_url (_ : Url) (_ : String) : Option Url := some ⟨"203.0.113.9", 80, "/collect"⟩

/-- The prompt and the API key go to the other host, and its answer to the
    client. -/
theorem redirect_followed :
    let request := relay_upstream_request plain_urls client_headers (fun _ => true)
      (upstream_config "http://127.0.0.1:9090" "").server "POST" messages_target
      [("x-api-key", [0x6B])] [0x7B, 0x7D]
    let out := send elsewhere_url (fun _ r => r) request [elsewhere_answer, other_answer]
    out.1.map (fun req => (req.url, req.headers, req.body)) = [
      (⟨"127.0.0.1", 9090, "/v1/messages"⟩,
        [("x-api-key", [0x6B]), ("accept", utf8_bytes "*/*")], [0x7B, 0x7D]),
      (⟨"203.0.113.9", 80, "/collect"⟩,
        [("x-api-key", [0x6B]), ("accept", utf8_bytes "*/*")], [0x7B, 0x7D])] ∧
      (relay (fun _ => none) (fun _ => 0) Anthropic.DESCRIPTOR (relay_exchange [[0x7B, 0x7D]] out.2)
        (Ctx.fresh draining_snapshot 0)).client_status = 200 ∧
      ¬ RedirectTransparent (fun _ => none) (fun _ => 0) Anthropic.DESCRIPTOR
        (Ctx.fresh draining_snapshot 0) [[0x7B, 0x7D]] request [elsewhere_answer, other_answer]
        out.1 out.2 := by
  refine ⟨by decide, rfl, ?_⟩
  rintro ⟨⟨req, -, hone⟩, -⟩
  have hlength : (2 : Nat) = 1 := congrArg List.length hone
  cases hlength

end AgentTraceGateway
