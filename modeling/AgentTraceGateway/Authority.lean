import AgentTraceGateway.Config

/-! # The Authority of an Upstream

  Two functions read the authority of `server.upstream`: the validator
  accepts it, and the relay's parser takes host and port from it. They test
  a port in two ways. The validator reads a number, and so do the brackets
  of the parser; outside of brackets the parser wants digits only. Neither
  minds what stands between a closing bracket and the end. -/

namespace AgentTraceGateway

/-- The text between the scheme and the path. -/
def authority (upstream : String) : List Char := (split_path (split_scheme upstream).2).1

def default_port (upstream : String) : Nat :=
  if (split_scheme upstream).1 = "https" then 443 else 80

/-- The port a port text means. -/
def port_value (default_port : Nat) : Option (List Char) → Option Nat
  | none => some default_port
  | some p => Text.parse_uint 65536 (String.ofList p)

/-- An authority spelled from its parts. -/
def spell_authority (bracketed : Bool) (host : List Char) (port : Option (List Char)) :
    List Char :=
  (if bracketed then '[' :: (host ++ [']']) else host) ++ (port.map (':' :: ·)).getD []

/-- An opening bracket starts the authority. -/
def is_bracketed (authority : List Char) : Bool :=
  (Text.strip_prefix_chars authority ['[']).isSome

/-- The parser returns the host and the port that the validator isolates, and
    the two make up the whole authority. -/
structure ParsedAsIsolated (upstream : String) (host : List Char) (port : Option (List Char)) :
    Prop where
  isolated : authority_parts (authority upstream) = some (host, port)
  host_kept : (parse_upstream upstream).host = String.ofList host
  port_read : port_value (default_port upstream) port = some (parse_upstream upstream).port
  whole : spell_authority (is_bracketed (authority upstream)) host port = authority upstream

/-- The port has no sign unless in brackets, and after a bracket there is a
    port or nothing. -/
def PlainlyWritten (authority : List Char) : Prop :=
  match Text.strip_prefix_chars authority ['['] with
  | some v6 => ∀ host tail, Text.split_once [']'] v6 = some (host, tail) →
      tail = [] ∨ tail.head? = some ':'
  | none => ∀ host port, Text.rsplit_once ':' authority = some (host, port) →
      port.head? ≠ some '+'

/-! ### What the validator accepts -/

/-- What the validator wants of the parts of an authority. -/
def valid_parts : Option (List Char × Option (List Char)) → Bool
  | none => false
  | some (host, port) => !(Text.trim_chars host).isEmpty &&
      match port with
      | none => true
      | some p => valid_port p

/-- With or without a scheme, the authority is what is checked. -/
theorem valid_upstream_valid_parts {upstream : String} (h : valid_upstream upstream = true) :
    valid_parts (authority_parts (authority upstream)) = true := by
  unfold valid_upstream at h
  unfold authority split_scheme
  cases hscheme : Text.split_once "://".toList upstream.toList with
  | none =>
    simp only [hscheme] at h
    exact h
  | some parts =>
    obtain ⟨scheme, rest⟩ := parts
    simp only [hscheme] at h
    split at h
    · cases h
    · rename_i rest' hrest
      split_ifs at hrest
      cases hrest
      exact h

/-- A valid upstream has parts: a host, and a port text that is a number from
    1 on, if there is any. -/
theorem valid_upstream_parts {upstream : String} (h : valid_upstream upstream = true) :
    ∃ host port, authority_parts (authority upstream) = some (host, port) ∧
      ∀ p, port = some p → valid_port p = true := by
  have hvalid := valid_upstream_valid_parts h
  cases hsplit : authority_parts (authority upstream) with
  | none =>
    rw [hsplit] at hvalid
    cases hvalid
  | some parts =>
    obtain ⟨host, port⟩ := parts
    refine ⟨host, port, rfl, ?_⟩
    rintro p rfl
    rw [hsplit, valid_parts, Bool.and_eq_true] at hvalid
    exact hvalid.2

theorem valid_port_value {p : List Char} (h : valid_port p = true) :
    ∃ n, Text.parse_uint 65536 (String.ofList p) = some n := by
  unfold valid_port at h
  cases hn : Text.parse_uint 65536 (String.ofList p) with
  | none => simp [hn] at h
  | some n => exact ⟨n, rfl⟩

/-! ### Where parser and validator agree -/

theorem parse_upstream_eq (upstream : String) :
    (parse_upstream upstream).host
        = String.ofList (split_host_port (default_port upstream) (authority upstream)).1 ∧
      (parse_upstream upstream).port
        = (split_host_port (default_port upstream) (authority upstream)).2 :=
  ⟨rfl, rfl⟩

/-- In brackets both read the same parts, and lose what follows the closing
    bracket without a colon. -/
theorem bracketed_isolated_iff {upstream : String} (hvalid : valid_upstream upstream = true)
    {v6 : List Char} (hopen : Text.strip_prefix_chars (authority upstream) ['['] = some v6) :
    (∃ host port, ParsedAsIsolated upstream host port) ↔ PlainlyWritten (authority upstream) := by
  obtain ⟨host, port, hparts, hport⟩ := valid_upstream_parts hvalid
  -- the isolated parts are what stands before and behind the closing bracket
  have hclosed := hparts
  rw [authority_parts, hopen] at hclosed
  obtain ⟨⟨h, tail⟩, hsplit, hpair⟩ := Option.map_eq_some_iff.mp hclosed
  cases hpair
  have hauthority : authority upstream = '[' :: (host ++ (']' :: tail)) := by
    rw [Text.strip_prefix_chars_eq hopen, Text.split_once_eq hsplit]
    simp
  have hplain : PlainlyWritten (authority upstream) ↔ tail = [] ∨ tail.head? = some ':' := by
    unfold PlainlyWritten
    rw [hopen]
    constructor
    · intro hall
      exact hall host tail hsplit
    · intro htail host' tail' hsplit'
      obtain ⟨rfl, rfl⟩ : host = host' ∧ tail = tail' := by simpa [hsplit] using hsplit'
      exact htail
  -- spelled out again they lack what stands behind the bracket without a colon
  have hspelled : spell_authority (is_bracketed (authority upstream)) host
        (Text.strip_prefix_chars tail [':']) = authority upstream ↔
      tail = [] ∨ tail.head? = some ':' := by
    rw [is_bracketed, hopen, hauthority]
    cases tail with
    | nil =>
      rw [Text.strip_char_eq_none (by simp)]
      simp [spell_authority]
    | cons c tail =>
      by_cases hc : c = ':'
      · subst hc
        simp [spell_authority, Text.strip_char_cons]
      · rw [Text.strip_char_eq_none (by simpa using hc)]
        simp [spell_authority, hc]
  rw [hplain]
  constructor
  · rintro ⟨host', port', hisolated, -, -, hwhole⟩
    obtain ⟨rfl, rfl⟩ : host = host' ∧ _ = port' := by simpa [hparts] using hisolated
    exact hspelled.mp hwhole
  · intro htail
    refine ⟨host, _, hparts, ?_, ?_, hspelled.mpr htail⟩
    · rw [(parse_upstream_eq upstream).1, split_host_port, hopen]
      simp only [hsplit]
    · rw [(parse_upstream_eq upstream).2, split_host_port, hopen]
      simp only [hsplit]
      cases hwritten : Text.strip_prefix_chars tail [':'] with
      | none => rfl
      | some p =>
        obtain ⟨n, hn⟩ := valid_port_value (hport p hwritten)
        simp [port_value, hn]

/-- Outside of brackets they part where the port has a sign. -/
theorem plain_isolated_iff {upstream : String} (hvalid : valid_upstream upstream = true)
    (hopen : Text.strip_prefix_chars (authority upstream) ['['] = none) :
    (∃ host port, ParsedAsIsolated upstream host port) ↔ PlainlyWritten (authority upstream) := by
  obtain ⟨host, port, hparts, hport⟩ := valid_upstream_parts hvalid
  have hplain : PlainlyWritten (authority upstream) ↔ ∀ host port,
      Text.rsplit_once ':' (authority upstream) = some (host, port) → port.head? ≠ some '+' := by
    unfold PlainlyWritten
    rw [hopen]
  rw [hplain]
  cases hsplit : Text.rsplit_once ':' (authority upstream) with
  | none =>
    -- no colon: the authority is the host, and the port is the scheme's
    refine ⟨fun _ _ _ h => (by cases h), fun _ => ⟨authority upstream, none, ?_, ?_, ?_, ?_⟩⟩
    · simp only [authority_parts, hopen, hsplit]
    · rw [(parse_upstream_eq upstream).1, split_host_port, hopen]
      simp only [hsplit]
    · rw [(parse_upstream_eq upstream).2, split_host_port, hopen]
      simp only [hsplit, port_value]
    · simp [spell_authority, is_bracketed, hopen]
  | some halves =>
    obtain ⟨h, p⟩ := halves
    have hauthority := Text.rsplit_once_eq hsplit
    have hboth : authority_parts (authority upstream) = some (h, some p) := by
      simp only [authority_parts, hopen, hsplit]
    obtain ⟨n, hn⟩ : ∃ n, Text.parse_uint 65536 (String.ofList p) = some n := by
      apply valid_port_value
      apply hport p
      rw [hboth] at hparts
      cases hparts
      rfl
    constructor
    · rintro ⟨host', port', hisolated, hkept, -, -⟩ host'' port'' hhalves hsign
      cases hhalves
      obtain ⟨rfl, rfl⟩ : h = host' ∧ some p = port' := by simpa [hboth] using hisolated
      -- the sign is no digit, so the parser takes the whole text for the host
      have hnot : (!p.isEmpty && p.all Text.is_ascii_digit) = false := by
        cases p with
        | nil => rfl
        | cons c p =>
          obtain rfl : c = '+' := by simpa using hsign
          rfl
      have hlost : (split_host_port (default_port upstream) (authority upstream)).1
          = authority upstream := by
        rw [split_host_port, hopen]
        simp only [hsplit, hnot, Bool.false_eq_true, if_false]
      rw [(parse_upstream_eq upstream).1, hlost] at hkept
      have hlen := congrArg List.length (hauthority.symm.trans (String.ofList_injective hkept))
      simp at hlen
    · intro hsign
      have hdigits := Text.parse_uint_digits hn (hsign h p rfl)
      refine ⟨h, some p, hboth, ?_, ?_, ?_⟩
      · rw [(parse_upstream_eq upstream).1, split_host_port, hopen]
        simp only [hsplit, hdigits, if_true]
      · rw [(parse_upstream_eq upstream).2, split_host_port, hopen]
        simp only [hsplit, hdigits, if_true, port_value, hn, Option.getD_some]
      · rw [is_bracketed, hopen, hauthority]
        simp [spell_authority]

/-- On what the validator accepts, the parser returns the isolated host and
    port, and all of the authority, exactly where it is plainly written. -/
theorem parse_upstream_isolated_iff {upstream : String} (hvalid : valid_upstream upstream = true) :
    (∃ host port, ParsedAsIsolated upstream host port) ↔ PlainlyWritten (authority upstream) := by
  cases hopen : Text.strip_prefix_chars (authority upstream) ['['] with
  | some v6 => exact bracketed_isolated_iff hvalid hopen
  | none => exact plain_isolated_iff hvalid hopen

/-- A port is read; one behind a bracket without a colon is lost. -/
theorem parse_upstream_isolated_iff_ports :
    (∃ host port, ParsedAsIsolated "https://h:8443/v1" host port) ∧
      ¬ ∃ host port, ParsedAsIsolated "[::1]8443" host port := by
  constructor
  · refine (@parse_upstream_isolated_iff "https://h:8443/v1" (by decide)).mpr ?_
    intro host port hsplit hsign
    cases hsplit
    cases hsign
  · intro hisolated
    have hplain := (@parse_upstream_isolated_iff "[::1]8443" (by decide)).mp hisolated
    rcases hplain "::1".toList "8443".toList (by decide) with hnil | hcolon
    · cases hnil
    · cases hcolon

/-- The validator accepts the port 8080; the parser returns port 80, and a
    host with the port in it. -/
theorem signed_port_in_host :
    valid_upstream "http://h:+8080" = true ∧
      parse_upstream "http://h:+8080" = ⟨"http", "h:+8080", 80, ""⟩ ∧
      ¬ ∃ host port, ParsedAsIsolated "http://h:+8080" host port := by
  refine ⟨by decide, by decide, ?_⟩
  rintro ⟨host, port, hisolated, hkept, -, -⟩
  have hparts : authority_parts (authority "http://h:+8080")
      = some ("h".toList, some "+8080".toList) := by decide
  rw [hparts] at hisolated
  cases hisolated
  exact absurd hkept (by decide)

end AgentTraceGateway
