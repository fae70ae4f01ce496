import AgentTraceGateway.Protocol.Session

/-! # Harness Attribution

  Who sends a request, and how it carries its session. Identity comes from
  evidence only one client leaves (a User-Agent prefix, a header of its own,
  a body fingerprint); a dialect is a set of body and header shapes that
  several clients speak. Session extraction follows the dialect, header
  mounts of a harness follow its identity.

  The tables read JSON inside JSON strings, so they carry the parser as a
  parameter. The `dialects` column of a harness is documentation and is left
  out. -/

namespace AgentTraceGateway

/-! ### Evidence -/

/-- One kind of identification evidence. -/
inductive IdentKind where
  | ua_prefix (pat : String)
  | header_present (name : String)
  | body (test : Value → Bool)

/-- `ua_matches`: User-Agent prefixes match whatever the case. -/
def ua_matches (pat : String) (ua : Option String) : Bool :=
  match ua.bind fun u => Text.get_to pat.utf8ByteSize u.toList with
  | some s => Text.eq_ignore_ascii_case s pat.toList
  | none => false

/-- A header is there and not blank. -/
def header_filled (header_get : String → Option String) (name : String) : Bool :=
  match header_get name with
  | some v => !Text.is_blank v
  | none => false

def IdentKind.matched (kind : IdentKind) (req : Option Value) (ua : Option String)
    (header_get : String → Option String) : Bool :=
  match kind with
  | IdentKind.ua_prefix pat => ua_matches pat ua
  | .header_present name => header_filled header_get name
  | .body test => req.any test

inductive EvidenceClass where
  | identity
  | shape
  deriving DecidableEq, Repr

structure Identifier where
  kind : IdentKind
  strength : Nat
  cls : EvidenceClass

/-- A named session-extraction rule set. -/
structure Dialect where
  name : String
  body_shapes : List (Value → Bool)
  header_shapes : List String
  session_body : Option (Value → Option String)
  owner : String

structure HarnessDescriptor where
  name : String
  protocols : List String
  identity : List Identifier
  session_header_mounts : List String
  enrich : List (String × (Value → Option String))

/-- What `identify` found: the identity, the dialect (`""` is none), the
    identities tied with the winner, and whether the winner speaks a protocol
    it is not declared for. -/
structure HarnessFacts where
  identity : Option String
  dialect : String
  candidates : List String
  protocol_anomaly : Bool
  deriving DecidableEq, Repr

/-- The identity, or the dialect downgraded to `-compatible`, or nothing. -/
def HarnessFacts.harness_label (facts : HarnessFacts) : String :=
  match facts.identity with
  | some n => n
  | none => if facts.dialect.isEmpty then "" else facts.dialect ++ "-compatible"

section tables

-- The JSON parser, `serde_json::from_str`.
variable (from_str : String → Option Value)

/-! ### claude-code -/

namespace ClaudeCode

/-- The `metadata.user_id` of a request. -/
def user_id (req : Value) : Value := (req.index "metadata").index "user_id"

/-- A JSON object string with a `session_id` text. -/
def envelope_shape (req : Value) : Bool :=
  (((user_id req).as_str.bind from_str).bind (·.get "session_id")).any fun v => v.as_str.isSome

def legacy_shape (req : Value) : Bool :=
  (user_id req).as_str.any fun raw => (claude_code_legacy_parts raw).isSome

def object_shape (req : Value) : Bool :=
  (user_id req).as_object.any fun _ => ((user_id req).get "session_id").isSome

def metadata_envelope_shape (req : Value) : Bool :=
  (((req.index "metadata").as_str.bind from_str).bind (·.get "user_id")).any
    fun u => u.as_str.isSome

/-- The readers of `metadata.user_id`, then `metadata` as an envelope. -/
def dialect_session (req : Value) : Option String :=
  let from_user_id := (user_id req).as_str.bind fun raw =>
    metadata_user_id_session from_str ((from_str raw).getD (.string raw))
  match from_user_id with
  | some sid => some sid
  | none =>
    match (req.index "metadata").as_str with
    | some raw => metadata_envelope_transform from_str raw
    | none =>
      -- the object form is read without trimming here
      ((user_id req).as_object.bind fun _ =>
        ((user_id req).get "session_id").bind (·.as_str)).filter fun s => !s.isEmpty

def account (req : Value) : Option String :=
  ((user_id req).as_str.bind claude_code_legacy_parts).bind (·.2)

def DIALECT : Dialect where
  name := "claude-code"
  body_shapes :=
    [envelope_shape from_str, legacy_shape, object_shape, metadata_envelope_shape from_str]
  header_shapes := [HDR_CC_SESSION]
  session_body := some (dialect_session from_str)
  owner := "claude-code"

def DESCRIPTOR : HarnessDescriptor where
  name := "claude-code"
  protocols := ["anthropic.messages"]
  identity := [
    { kind := .body legacy_shape, strength := 3, cls := .identity },
    { kind := IdentKind.ua_prefix "claude-cli/", strength := 4, cls := .identity }]
  session_header_mounts := []
  enrich := [("cc_account", account)]

end ClaudeCode

/-! ### codex, grok, opencode, omp -/

namespace Codex

def codex_metadata_shape (req : Value) : Bool :=
  (req.index "client_metadata").as_object.any fun cm =>
    cm.any fun e => Text.starts_with e.1 "x-codex-"

def installation_id (req : Value) : Option String :=
  ((req.index "client_metadata").index "x-codex-installation-id").as_str.filter
    fun s => !s.isEmpty

def DESCRIPTOR : HarnessDescriptor where
  name := "codex"
  protocols := ["openai.responses", "openai.live"]
  identity := [
    { kind := .body codex_metadata_shape, strength := 4, cls := .identity },
    { kind := IdentKind.ua_prefix "codex", strength := 4, cls := .identity }]
  session_header_mounts := []
  enrich := [("codex_installation", installation_id)]

end Codex

def GROK_DESCRIPTOR : HarnessDescriptor where
  name := "grok"
  protocols := ["openai.responses"]
  identity := [{ kind := .header_present HDR_GROK_CONV, strength := 5, cls := .identity }]
  session_header_mounts := []
  enrich := []

def OPENCODE_DESCRIPTOR : HarnessDescriptor where
  name := "opencode"
  protocols := ["openai.responses", "openai.chat_completions", "anthropic.messages"]
  identity := [
    { kind := IdentKind.ua_prefix "opencode/", strength := 4, cls := .identity },
    { kind := .header_present HDR_OPENCODE_SESSION, strength := 4, cls := .identity }]
  session_header_mounts :=
    [HDR_SESSION, HDR_SESSION_AFFINITY, HDR_OPENCODE_SESSION, HDR_CONVERSATION_ID]
  enrich := []

def OMP_DESCRIPTOR : HarnessDescriptor where
  name := "omp"
  protocols := ["anthropic.messages", "openai.responses", "openai.chat_completions"]
  identity := [{ kind := IdentKind.ua_prefix "omp/", strength := 4, cls := .identity }]
  session_header_mounts := []
  enrich := []

/-! ### Attribution -/

def DIALECTS : List Dialect := [ClaudeCode.DIALECT from_str]

def HARNESSES : List HarnessDescriptor :=
  [ClaudeCode.DESCRIPTOR, Codex.DESCRIPTOR, GROK_DESCRIPTOR, OPENCODE_DESCRIPTOR, OMP_DESCRIPTOR]

/-- The strongest identity evidence a harness has for a request. -/
def best_strength (h : HarnessDescriptor) (req : Option Value) (ua : Option String)
    (header_get : String → Option String) : Option Nat :=
  h.identity.foldl (fun best id =>
    if id.kind.matched req ua header_get && id.cls == .identity
        && best.all (· < id.strength) then some id.strength
    else best) none

/-- The dialect whose shapes a request shows; the identity has no say. -/
def matched_dialect (req : Option Value) (header_get : String → Option String) : String :=
  let hit := (DIALECTS from_str).find? fun d =>
    d.body_shapes.any (fun test => req.any test)
      || d.header_shapes.any (header_filled header_get)
  (hit.map (·.name)).getD ""

/-- Attribute a request: strongest identity first, table order on a tie. -/
def identify (protocol : String) (req : Option Value) (ua : Option String)
    (header_get : String → Option String) : HarnessFacts :=
  let identity_hits := HARNESSES.filterMap fun h =>
    (best_strength h req ua header_get).map fun strength => (h.name, strength)
  let dialect := matched_dialect from_str req header_get
  if identity_hits.isEmpty then
    { identity := none, dialect := dialect, candidates := [], protocol_anomaly := false }
  else
    let top := ((identity_hits.map (·.2)).max?).getD 0
    let candidates := (identity_hits.filter fun h => h.2 == top).map (·.1)
    let winner := candidates.head?.getD ""
    let anomaly := (HARNESSES.find? fun h => h.name == winner).any fun d =>
      !d.protocols.isEmpty && !d.protocols.contains protocol
    { identity := some winner
      dialect := dialect
      candidates := candidates
      protocol_anomaly := anomaly }

/-! ### Sessions and enrichment -/

/-- The dialect's session value, by shape and never by identity. -/
def harness_session_from_body (facts : HarnessFacts) (req : Value) : Option String :=
  ((DIALECTS from_str).find? fun d => d.name == facts.dialect).bind fun d =>
    d.session_body.bind fun rule => rule req

/-- The header mounts of the attributed harness, with the one that won. -/
def harness_session_from_headers_with_source (facts : HarnessFacts)
    (get : String → Option String) : Option (String × String) :=
  facts.identity.bind fun name =>
    (HARNESSES.find? fun h => h.name == name).bind fun d =>
      d.session_header_mounts.findSome? fun mount =>
        ((get mount).bind trimmed).map fun v => (v, mount)

/-- Extra facts of the attributed harness, or of the dialect's owner. -/
def enrich (facts : HarnessFacts) (req : Value) : List (String × String) :=
  let owner := facts.identity.or
    (((DIALECTS from_str).find? fun d => d.name == facts.dialect).map (·.owner))
  match owner.bind fun owner => HARNESSES.find? fun h => h.name == owner with
  | none => []
  | some d => d.enrich.filterMap fun e => (e.2 req).map fun v => (e.1, v)

end tables

end AgentTraceGateway
