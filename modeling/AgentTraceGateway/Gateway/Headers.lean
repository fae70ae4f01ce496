import AgentTraceGateway.Lib.Bytes
import AgentTraceGateway.Lib.Text
import AgentTraceGateway.Trace.Prefix

/-! # Request Headers

  What the gateway takes from the headers of a request: the evidence map of
  a turn, with credentials kept out and sizes bounded, and the salted
  fingerprint of the API credential. Header names are lowercase, values are
  bytes. -/

namespace AgentTraceGateway

/-- The headers of one request, in the map's iteration order. -/
abbrev HeaderMap : Type := List (String × Bytes)

namespace HeaderMap

/-- `HeaderValue::to_str`: visible ASCII, space and tab only. -/
def value_to_str (raw : Bytes) : Option String :=
  if raw.all fun b => (0x20 ≤ b && b < 0x7F) || b == 0x09 then
    some (String.ofList (raw.map fun b => Char.ofNat b.toNat))
  else none

/-- `headers.get(name)` as text: the first value of the name, if it is text. -/
def header_get (headers : HeaderMap) (name : String) : Option String :=
  (headers.lookup name).bind value_to_str

end HeaderMap

/-! ### Evidence -/

def HDR_EVIDENCE_DENY : List String := [
  "authorization", "proxy-authorization", "x-api-key", "api-key", "x-goog-api-key",
  "cookie", "set-cookie",
  "connection", "keep-alive", "proxy-connection", "te", "trailer", "transfer-encoding",
  "upgrade"]

def HDR_EVIDENCE_DENY_MARKERS : List String := [
  "authorization", "cookie", "secret", "password", "credential", "signature", "token",
  "bearer", "api-key", "apikey", "access-key", "private-key"]

def HDR_NAME_CAP : Nat := 64
def HDR_VALUE_CAP : Nat := 256
def HDR_EVIDENCE_MAX_ENTRIES : Nat := 32
def HDR_EVIDENCE_BUDGET : Nat := 4096

/-- At most `max` characters of a value. -/
def truncate_header_value (value : String) (max : Nat) : String :=
  String.ofList (value.toList.take max)

/-- A header barred from the evidence map. -/
def hdr_evidence_denied (name : String) : Bool :=
  HDR_EVIDENCE_DENY.contains name
    || HDR_EVIDENCE_DENY_MARKERS.any fun marker => Text.contains name marker

/-- Entries kept so far, their bytes, and how many the bounds dropped. -/
structure Evidence where
  kept : List (String × String) := []
  used : Nat := 0
  dropped : UInt32 := 0
  deriving DecidableEq, Repr

/-- `saturating_add(1)` on the drop counter. -/
def Evidence.drop_one (ev : Evidence) : Evidence :=
  { ev with dropped := if ev.dropped = 0xFFFFFFFF then ev.dropped else ev.dropped + 1 }

/-- One header's turn. -/
def Evidence.collect (ev : Evidence) (header : String × Bytes) : Evidence :=
  let (name, raw) := header
  if hdr_evidence_denied name then ev
  else if HDR_NAME_CAP < Text.len name then ev.drop_one
  else
    match HeaderMap.value_to_str raw with
    -- a value that is not text is skipped, not counted
    | none => ev
    | some raw =>
      let value := truncate_header_value (Text.trim raw) HDR_VALUE_CAP
      if value.isEmpty then ev
      else
        let cost := Text.len name + Text.len value
        if HDR_EVIDENCE_MAX_ENTRIES ≤ ev.kept.length ∨ HDR_EVIDENCE_BUDGET < ev.used + cost then
          ev.drop_one
        else { ev with kept := ev.kept ++ [(name, value)], used := ev.used + cost }

/-- The evidence of one turn, and how many headers the bounds dropped. -/
def collect_hdr_evidence (headers : HeaderMap) : List (String × String) × UInt32 :=
  let ev := headers.foldl Evidence.collect {}
  (ev.kept, ev.dropped)

/-! ### The API credential -/

/-- The credential of a request: `x-api-key` for anthropic.messages, the
    Bearer token for the openai protocols. -/
def request_api_key (protocol : String) (header_get : String → Option String) :
    Option String :=
  let key :=
    if protocol = "anthropic.messages" then header_get "x-api-key"
    else
      (header_get "authorization").bind fun v =>
        ((Text.strip_prefix_chars v.toList "Bearer ".toList).map String.ofList).filter
          fun k => !k.isEmpty
  key.bind fun k => if Text.is_blank k then none else some (Text.trim k)

section fingerprint

-- The digest function, `Sha256::digest`.
variable (sha256 : Bytes → Digest)

/-- The first 16 hexadecimal digits of `sha256(salt || key)`. -/
def api_key_fp (key salt : String) : String :=
  String.ofList ((hex_chars (sha256 (utf8_bytes salt ++ utf8_bytes key)).val).take 16)

/-- The fingerprint of a request's credential, empty without one. -/
def request_api_key_fp (protocol : String) (header_get : String → Option String)
    (salt : String) : String :=
  match request_api_key protocol header_get with
  | some k => api_key_fp sha256 k salt
  | none => ""

end fingerprint

end AgentTraceGateway
