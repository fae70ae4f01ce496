import AgentTraceGateway.Protocol.Tables

/-! # Session Ids inside `metadata.user_id`

  Claude Code carries its session id inside the end-user field, in three
  shapes: a JSON envelope string, an object, or the legacy composite
  `user_<64 hex>_account_<hex>_session_<36>`. These are the readers of the
  shapes; which of them runs for a request is the harness layer's matter. -/

namespace AgentTraceGateway

/-! ### The legacy composite -/

/-- A character of the composite's classes: a hexadecimal digit, or a dash
    where dashes count. -/
def in_class (allow_dash : Bool) (c : Char) : Bool :=
  Text.is_ascii_hexdigit c || (allow_dash && c == '-')

/-- Offset of the first character past `n` bytes or outside the class. -/
def class_end (n : Nat) (allow_dash : Bool) : Nat → List Char → Nat
  | off, [] => off
  | off, c :: rest =>
    if n ≤ off ∨ !in_class allow_dash c then off
    else class_end n allow_dash (off + c.utf8Size) rest

/-- Take `n` characters of the class off a text. -/
def split_at_class (s : List Char) (n : Nat) (allow_dash : Bool) :
    Option (List Char × List Char) :=
  -- what lies before the end is ASCII, so the offset counts characters
  if class_end n allow_dash 0 s ≠ n then none else some (s.take n, s.drop n)

def split_at_hex (s : List Char) (n : Nat) : Option (List Char × List Char) :=
  split_at_class s n false

/-- The session uuid and the account token of the legacy composite; the
    account may be empty. -/
def claude_code_legacy_parts (user_id : String) : Option (String × Option String) :=
  (Text.strip_prefix_chars user_id.toList "user_".toList).bind fun rest =>
  (split_at_hex rest 64).bind fun (_, rest) =>
  (Text.strip_prefix_chars rest "_account_".toList).bind fun rest =>
  let token := rest.takeWhile (in_class true)
  let account := if token.isEmpty then none else some (String.ofList token)
  (Text.strip_prefix_chars (rest.dropWhile (in_class true)) "_session_".toList).bind fun rest =>
  (split_at_class rest 36 true).bind fun (uuid36, tail) =>
  if !tail.isEmpty || !uuid36.contains '-' then none
  else some (String.ofList (uuid36.map Text.ascii_lower), account)

def claude_code_legacy_user_id_session (user_id : String) : Option String :=
  (claude_code_legacy_parts user_id).map (·.1)

section parsing

-- The JSON parser, `serde_json::from_str`.
variable (from_str : String → Option Value)

/-! ### The three shapes -/

/-- The session id of a `metadata.user_id` value: the JSON envelope wins,
    then the composite; an object answers by its own key. -/
def metadata_user_id_session (user_id : Value) : Option String :=
  match user_id with
  | .string s =>
    let enveloped := (((from_str s).bind (·.get "session_id")).bind (·.as_str)).bind trimmed
    enveloped.or (claude_code_legacy_user_id_session s)
  | .object _ => ((user_id.get "session_id").bind (·.as_str)).bind trimmed
  | _ => none

/-- `metadata` itself as an envelope string. -/
def metadata_envelope_transform (metadata_str : String) : Option String :=
  ((from_str metadata_str).bind (·.get "user_id")).bind (·.as_str) |>.bind fun user_id =>
    let inner := (from_str user_id).getD (.string user_id)
    metadata_user_id_session from_str inner

end parsing

end AgentTraceGateway
