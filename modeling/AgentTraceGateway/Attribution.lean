import AgentTraceGateway.Harness

/-! # Extraction and Attribution

  A dialect's session rule runs for requests in which the dialect was
  detected. Its own body shapes detect it whatever the headers say, and so
  does its header. A body that the rule reads and no shape covers is read
  with the header and not without it.

  The one such body has its session in a text that is encoded twice: the
  rule takes what the first parse gives for the text it would otherwise
  read, and the shapes look no deeper than the first parse. -/

namespace AgentTraceGateway

section parsing

variable (from_str : String → Option Value)

/-! ### Bodies that only the rule reads -/

/-- The text is a JSON object with a session id that is not blank. -/
def is_envelope (text : String) : Prop :=
  ∃ parsed sid, from_str text = some parsed ∧ parsed.get "session_id" = some (.string sid) ∧
    Text.is_blank sid = false

/-- `metadata.user_id` is a JSON text `inner` in a JSON text `raw`, and the
    session is in `inner`. -/
structure EncodedTwice (req : Value) (raw inner : String) : Prop where
  text : (ClaudeCode.user_id req).as_str = some raw
  encoded : from_str raw = some (.string inner)
  no_composite : claude_code_legacy_parts raw = none
  session : is_envelope from_str inner ∨ (claude_code_legacy_parts inner).isSome = true

theorem trimmed_isSome (s : String) : (trimmed s).isSome = !Text.is_blank s := by
  unfold trimmed
  cases Text.is_blank s <;> rfl

/-- What a text is read as: an envelope, or a composite. -/
theorem text_session_isSome (text : String) :
    (metadata_user_id_session from_str (.string text)).isSome = true ↔
      is_envelope from_str text ∨ (claude_code_legacy_parts text).isSome = true := by
  have henvelope : ((((from_str text).bind (·.get "session_id")).bind (·.as_str)).bind trimmed).isSome
      = true ↔ is_envelope from_str text := by
    constructor
    · intro h
      obtain ⟨v, hv⟩ := Option.isSome_iff_exists.mp h
      obtain ⟨sid, hsid, htrimmed⟩ := Option.bind_eq_some_iff.mp hv
      obtain ⟨value, hvalue, hstr⟩ := Option.bind_eq_some_iff.mp hsid
      obtain ⟨parsed, hparsed, hget⟩ := Option.bind_eq_some_iff.mp hvalue
      have hblank := trimmed_isSome sid
      rw [htrimmed] at hblank
      cases value <;> cases hstr
      exact ⟨parsed, sid, hparsed, hget, by simpa using hblank⟩
    · rintro ⟨parsed, sid, hparsed, hget, hblank⟩
      rw [hparsed, Option.bind_some, hget, Option.bind_some]
      show (trimmed sid).isSome = true
      rw [trimmed_isSome, hblank]
      rfl
  rw [metadata_user_id_session, Option.isSome_or, Bool.or_eq_true, henvelope,
    claude_code_legacy_user_id_session, Option.isSome_map]

/-- A session that the rule finds in `metadata.user_id` is covered by a shape,
    or encoded twice. -/
theorem user_id_covered {req : Value} {raw sid : String}
    (htext : (ClaudeCode.user_id req).as_str = some raw)
    (hsession : metadata_user_id_session from_str ((from_str raw).getD (.string raw)) = some sid) :
    ClaudeCode.envelope_shape from_str req = true ∨ ClaudeCode.legacy_shape req = true ∨
      ∃ inner, EncodedTwice from_str req raw inner := by
  have hlegacy : ClaudeCode.legacy_shape req = (claude_code_legacy_parts raw).isSome := by
    rw [ClaudeCode.legacy_shape, htext]
    rfl
  have hfound := Option.isSome_of_eq_some hsession
  cases hparsed : from_str raw with
  | none =>
    -- no JSON text at all, so it is a composite
    rw [hparsed, Option.getD_none, text_session_isSome] at hfound
    rcases hfound with ⟨parsed, _, hparsed', -⟩ | hcomposite
    · rw [hparsed] at hparsed'
      cases hparsed'
    · exact Or.inr (Or.inl (hlegacy.trans hcomposite))
  | some parsed =>
    rw [hparsed, Option.getD_some] at hfound
    cases parsed with
    | string inner =>
      cases hraw : claude_code_legacy_parts raw with
      | some parts => exact Or.inr (Or.inl (by rw [hlegacy, hraw]; rfl))
      | none =>
        exact Or.inr (Or.inr ⟨inner, htext, hparsed, hraw, (text_session_isSome from_str inner).mp hfound⟩)
    | object entries =>
      refine Or.inl ?_
      rw [ClaudeCode.envelope_shape, htext, Option.bind_some, hparsed, Option.bind_some]
      rw [metadata_user_id_session] at hfound
      cases hget : (Value.object entries).get "session_id" with
      | none =>
        rw [hget] at hfound
        cases hfound
      | some v =>
        rw [hget, Option.bind_some] at hfound
        cases hstr : v.as_str with
        | none =>
          rw [hstr] at hfound
          cases hfound
        | some text => simp [hstr]
    | _ => cases hfound

/-- A text as `metadata.user_id` leaves the other two forms no place. -/
theorem text_alone {req : Value} {raw : String} (h : (ClaudeCode.user_id req).as_str = some raw) :
    (req.index "metadata").as_str = none ∧ (ClaudeCode.user_id req).as_object = none := by
  constructor
  · unfold ClaudeCode.user_id at h
    cases hv : req.index "metadata" with
    | string s =>
      rw [hv] at h
      cases h
    | _ => rfl
  · cases hv : ClaudeCode.user_id req with
    | object entries =>
      rw [hv] at h
      cases h
    | _ => rfl

/-- Some body shape of the dialect covers the body. -/
def shaped (req : Value) : Bool :=
  (ClaudeCode.DIALECT from_str).body_shapes.any fun test => test req

/-- A body that the rule reads is covered by a shape, or encoded twice. -/
theorem dialect_session_covered {req : Value} {sid : String}
    (h : ClaudeCode.dialect_session from_str req = some sid) :
    shaped from_str req = true ∨ ∃ raw inner, EncodedTwice from_str req raw inner := by
  unfold ClaudeCode.dialect_session at h
  cases htext : (ClaudeCode.user_id req).as_str with
  | some raw =>
    obtain ⟨hmeta, hobject⟩ := text_alone htext
    rw [htext, hmeta, hobject] at h
    cases hsession : metadata_user_id_session from_str ((from_str raw).getD (.string raw)) with
    | none => simp [hsession] at h
    | some found =>
      rcases user_id_covered from_str htext hsession with hshape | hshape | ⟨inner, htwice⟩
      · exact Or.inl (by simp [shaped, ClaudeCode.DIALECT, hshape])
      · exact Or.inl (by simp [shaped, ClaudeCode.DIALECT, hshape])
      · exact Or.inr ⟨raw, inner, htwice⟩
  | none =>
    rw [htext] at h
    simp only [Option.bind_none] at h
    refine Or.inl ?_
    cases hmeta : (req.index "metadata").as_str with
    | some raw =>
      rw [hmeta] at h
      have hshape : ClaudeCode.metadata_envelope_shape from_str req = true := by
        rw [ClaudeCode.metadata_envelope_shape, hmeta, Option.bind_some]
        obtain ⟨user_id, huser, -⟩ := Option.bind_eq_some_iff.mp h
        obtain ⟨v, hv, hstr⟩ := Option.bind_eq_some_iff.mp huser
        rw [hv]
        simp [hstr]
      simp [shaped, ClaudeCode.DIALECT, hshape]
    | none =>
      rw [hmeta] at h
      obtain ⟨hread, -⟩ := Option.filter_eq_some_iff.mp h
      obtain ⟨entries, hentries, hsid⟩ := Option.bind_eq_some_iff.mp hread
      obtain ⟨v, hv, -⟩ := Option.bind_eq_some_iff.mp hsid
      have hshape : ClaudeCode.object_shape req = true := by
        rw [ClaudeCode.object_shape, hentries, hv]
        rfl
      simp [shaped, ClaudeCode.DIALECT, hshape]

/-- A body that is encoded twice is read, and no shape covers it. -/
theorem encoded_twice_uncovered {req : Value} {raw inner : String}
    (h : EncodedTwice from_str req raw inner) :
    shaped from_str req = false ∧ (ClaudeCode.dialect_session from_str req).isSome = true := by
  obtain ⟨hmeta, hobject⟩ := text_alone h.text
  constructor
  · simp [shaped, ClaudeCode.DIALECT, ClaudeCode.envelope_shape, ClaudeCode.legacy_shape,
      ClaudeCode.object_shape, ClaudeCode.metadata_envelope_shape, h.text, h.encoded, h.no_composite,
      hmeta, hobject, Value.get]
  · obtain ⟨sid, hsid⟩ := Option.isSome_iff_exists.mp
      ((text_session_isSome from_str inner).mpr h.session)
    simp [ClaudeCode.dialect_session, h.text, h.encoded, hsid]

/-! ### Detection -/

theorem identify_dialect (protocol : String) (req : Option Value) (ua : Option String)
    (header_get : String → Option String) :
    (identify from_str protocol req ua header_get).dialect
      = matched_dialect from_str req header_get := by
  unfold identify
  dsimp only
  split_ifs <;> rfl

/-- The dialect is detected by a body shape, or by its header. -/
theorem matched_dialect_eq (req : Value) (header_get : String → Option String) :
    matched_dialect from_str (some req) header_get
      = if shaped from_str req || header_filled header_get HDR_CC_SESSION then "claude-code"
        else "" := by
  unfold matched_dialect DIALECTS
  rw [List.find?_cons]
  have htest : ((ClaudeCode.DIALECT from_str).body_shapes.any (fun test => (some req).any test)
      || (ClaudeCode.DIALECT from_str).header_shapes.any (header_filled header_get))
        = (shaped from_str req || header_filled header_get HDR_CC_SESSION) := by
    simp [shaped, ClaudeCode.DIALECT]
  rw [htest]
  cases shaped from_str req || header_filled header_get HDR_CC_SESSION <;> rfl

/-- The rule runs where the dialect was detected. -/
theorem harness_session_from_body_eq (facts : HarnessFacts) (req : Value) :
    harness_session_from_body from_str facts req
      = if facts.dialect = "claude-code" then ClaudeCode.dialect_session from_str req else none := by
  unfold harness_session_from_body DIALECTS
  rw [List.find?_cons]
  by_cases hdialect : facts.dialect = "claude-code"
  · rw [if_pos hdialect, hdialect]
    rfl
  · have hname : ((ClaudeCode.DIALECT from_str).name == facts.dialect) = false := by
      rw [beq_eq_false_iff_ne]
      exact fun h => hdialect h.symm
    rw [if_neg hdialect, hname]
    rfl

/-- What the rule gives for a body, attributed by these headers. -/
theorem session_identified (protocol : String) (req : Value) (ua : Option String)
    (header_get : String → Option String) :
    harness_session_from_body from_str (identify from_str protocol (some req) ua header_get) req
      = if shaped from_str req || header_filled header_get HDR_CC_SESSION then
          ClaudeCode.dialect_session from_str req else none := by
  rw [harness_session_from_body_eq, identify_dialect, matched_dialect_eq]
  cases shaped from_str req || header_filled header_get HDR_CC_SESSION
  · rw [if_neg Bool.false_ne_true, if_neg (by decide), if_neg Bool.false_ne_true]
  · rw [if_pos rfl, if_pos rfl, if_pos rfl]

/-- The session of a body does not depend on the request it came with, exactly
    where the body is not encoded twice. -/
theorem session_attribution_free_iff (req : Value) :
    (∀ (protocol : String) (ua ua' : Option String) (header_get header_get' : String → Option String),
        harness_session_from_body from_str (identify from_str protocol (some req) ua header_get) req
          = harness_session_from_body from_str
              (identify from_str protocol (some req) ua' header_get') req) ↔
      ∀ raw inner, ¬ EncodedTwice from_str req raw inner := by
  simp only [session_identified]
  constructor
  · intro hall raw inner htwice
    obtain ⟨hshaped, hread⟩ := encoded_twice_uncovered from_str htwice
    have hdiffer := hall "anthropic.messages" none none (fun _ => none) (fun _ => some "session")
    have hwithout : header_filled (fun _ => none) HDR_CC_SESSION = false := rfl
    have hwith : header_filled (fun _ => some "session") HDR_CC_SESSION = true := by decide
    rw [hshaped, hwithout, hwith, if_neg (by decide), if_pos (by decide)] at hdiffer
    rw [← hdiffer] at hread
    cases hread
  · intro hnone protocol ua ua' header_get header_get'
    cases hshaped : shaped from_str req with
    | true => simp only [Bool.true_or, if_true]
    | false =>
      have hunread : ClaudeCode.dialect_session from_str req = none := by
        cases hread : ClaudeCode.dialect_session from_str req with
        | none => rfl
        | some sid =>
          rcases dialect_session_covered from_str hread with hcovered | ⟨raw, inner, htwice⟩
          · rw [hshaped] at hcovered
            cases hcovered
          · exact absurd htwice (hnone raw inner)
      rw [hunread, ite_self, ite_self]

end parsing

/-! ### A session encoded twice -/

/-- `{"session_id":"abc"}`. -/
def envelope_text : String := "\x7b\"session_id\":\"abc\"\x7d"

/-- The same, as a JSON text. -/
def quoted_envelope : String := "\"\x7b\\\"session_id\\\":\\\"abc\\\"\x7d\""

/-- The parser on these two texts. -/
def envelope_from_str (s : String) : Option Value :=
  if s = envelope_text then some (.object [("session_id", .string "abc")])
  else if s = quoted_envelope then some (.string envelope_text)
  else none

/-- A body with the quoted text at `metadata.user_id`. -/
def twice_body : Value :=
  .object [("metadata", .object [("user_id", .string quoted_envelope)])]

/-- The session is read with the dialect's header, and not without it. -/
theorem encoded_twice_attributed :
    harness_session_from_body envelope_from_str
        (identify envelope_from_str "anthropic.messages" (some twice_body) none fun _ => none)
        twice_body = none ∧
      harness_session_from_body envelope_from_str
        (identify envelope_from_str "anthropic.messages" (some twice_body) none
          fun name => if name = HDR_CC_SESSION then some "other" else none)
        twice_body = some "abc" := by
  constructor
  · decide +kernel
  · decide +kernel

end AgentTraceGateway
