import AgentTraceGateway.Attribution
import AgentTraceGateway.Lib.CutText
import AgentTraceGateway.Protocol.LegacyId
import AgentTraceGateway.Trace.Unpack

/-! # One Id for a Session

  A session id is read off a dozen mounts, and each reader trims for itself.
  An id that is written with padding is the same id, so every reader should
  give it without. Two do not: the object form of `metadata.user_id` is read
  as it is written, and a padded composite is no composite. -/

namespace AgentTraceGateway

/-! ### Clean ids -/

/-- No white space at the ends, and not empty. -/
structure Clean (sid : String) : Prop where
  nonempty : sid ≠ ""
  leading : ∀ c ∈ sid.toList.head?, Text.is_whitespace c = false
  trailing : ∀ c ∈ sid.toList.getLast?, Text.is_whitespace c = false

theorem trim_of_clean {sid : String} (h : Clean sid) : Text.trim sid = sid := by
  rw [Text.trim, Text.trim_chars_eq_self h.leading h.trailing, String.ofList_toList]

/-- What trimming leaves is clean. -/
theorem trimmed_clean {s sid : String} (h : trimmed s = some sid) : Clean sid := by
  unfold trimmed Text.is_blank at h
  split_ifs at h with hblank
  cases h
  refine ⟨?_, ?_, ?_⟩
  · intro hempty
    apply hblank
    rw [List.isEmpty_iff]
    exact String.ofList_injective hempty
  · rw [Text.trim, String.toList_ofList]
    exact Text.head_trim_chars s.toList
  · rw [Text.trim, String.toList_ofList]
    exact Text.last_trim_chars s.toList

theorem bind_trimmed_clean {o : Option String} {sid : String} (h : o.bind trimmed = some sid) :
    Clean sid := by
  obtain ⟨s, -, hs⟩ := Option.bind_eq_some_iff.mp h
  exact trimmed_clean hs

/-- Two mounts have the same text but for padding, or neither has one. -/
def SameText (o o' : Option String) : Prop := o.bind trimmed = o'.bind trimmed

/-- A character of a composite is no white space. -/
theorem in_class_no_whitespace {c : Char} (h : in_class true c = true) :
    Text.is_whitespace c = false := by
  have hall : ∀ n < 0x80, in_class true (Char.ofNat n) = true →
      Text.is_whitespace (Char.ofNat n) = false := by decide +kernel
  have hascii := (Utf8.utf8Size_eq_one_iff c).mp (utf8Size_of_in_class h)
  have := hall c.toNat hascii
  rw [Char.ofNat_toNat] at this
  exact this h

theorem lower_no_whitespace {c : Char} (h : in_class true c = true) :
    Text.is_whitespace (Text.ascii_lower c) = false := by
  have hall : ∀ n < 0x80, in_class true (Char.ofNat n) = true →
      Text.is_whitespace (Text.ascii_lower (Char.ofNat n)) = false := by decide +kernel
  have hascii := (Utf8.utf8Size_eq_one_iff c).mp (utf8Size_of_in_class h)
  have := hall c.toNat hascii
  rw [Char.ofNat_toNat] at this
  exact this h

/-- A composite has no padding, and neither has its session id. -/
theorem composite_clean {text sid : String}
    (h : claude_code_legacy_user_id_session text = some sid) : Clean text ∧ Clean sid := by
  obtain ⟨parts, hparts, rfl⟩ := Option.map_eq_some_iff.mp h
  obtain ⟨hex, account, uuid, hgrammar, htext, rfl⟩ := claude_code_legacy_parts_eq_some_iff.mp hparts
  have huuid : uuid ≠ [] := by
    rintro rfl
    exact absurd hgrammar.uuid_len (by decide)
  have hlower : ∀ c ∈ uuid.map Text.ascii_lower, Text.is_whitespace c = false := by
    intro c hc
    obtain ⟨d, hd, rfl⟩ := List.mem_map.mp hc
    exact lower_no_whitespace (hgrammar.uuid_class d hd)
  constructor
  · refine ⟨?_, ?_, ?_⟩
    · rintro rfl
      exact nomatch htext
    · intro c hc
      rw [htext] at hc
      cases hc
      decide
    · intro c hc
      -- the text ends with the id
      rw [htext, composite] at hc
      simp only [← List.append_assoc] at hc
      rw [List.getLast?_append_of_ne_nil _ huuid] at hc
      exact in_class_no_whitespace (hgrammar.uuid_class c (List.mem_of_getLast? hc))
  · refine ⟨?_, ?_, ?_⟩
    · intro hempty
      have hnil : uuid.map Text.ascii_lower = [] := String.ofList_injective hempty
      exact huuid (List.map_eq_nil_iff.mp hnil)
    · intro c hc
      rw [composite_read, String.toList_ofList] at hc
      exact hlower c (List.mem_of_head? hc)
    · intro c hc
      rw [composite_read, String.toList_ofList] at hc
      exact hlower c (List.mem_of_getLast? hc)

section parsing

variable (from_str : String → Option Value)

/-! ### The mounts of the dialect -/

/-- Where the claude-code dialect has a body's session, with the text there. -/
inductive ClaudeMount where
  | absent
  | envelope (sid : Option String)
  | composite (text : String)
  | object (sid : Option String)

/-- The `session_id` text of an object. -/
def session_text (v : Value) : Option String := (v.get "session_id").bind (·.as_str)

/-- The mount of a text: an envelope if it is JSON. -/
def text_mount (text : String) : ClaudeMount :=
  match from_str text with
  | some v => .envelope (session_text v)
  | none => .composite text

/-- The mount of a text at `user_id`, which may be encoded twice. -/
def user_id_mount (text : String) : ClaudeMount :=
  match from_str text with
  | none => .composite text
  | some (.string inner) => text_mount from_str inner
  | some (.object entries) => .envelope (session_text (.object entries))
  | some _ => .absent

/-- The mount of a body: a text at `metadata.user_id`, `metadata` as an
    envelope, or an object at `metadata.user_id`. -/
def claude_mount (req : Value) : ClaudeMount :=
  match (ClaudeCode.user_id req).as_str, (req.index "metadata").as_str with
  | some text, _ => user_id_mount from_str text
  | none, some metadata =>
    match ((from_str metadata).bind (·.get "user_id")).bind (·.as_str) with
    | some text => user_id_mount from_str text
    | none => .absent
  | none, none =>
    match ClaudeCode.user_id req with
    | .object entries => .object (session_text (.object entries))
    | _ => .absent

/-- What the rule reads there. -/
def ClaudeMount.read : ClaudeMount → Option String
  | .absent => none
  | .envelope sid => sid.bind trimmed
  | .composite text => claude_code_legacy_user_id_session text
  | .object sid => sid.filter fun s => !s.isEmpty

/-- No JSON text begins like a composite. -/
structure RejectsComposites : Prop where
  rejects : ∀ text, Text.starts_with text "user_" = true → from_str text = none

/-- So a text that parses is no composite. -/
theorem composite_unparsed (hjson : RejectsComposites from_str) {text : String} {v : Value}
    (h : from_str text = some v) : claude_code_legacy_user_id_session text = none := by
  cases hread : claude_code_legacy_user_id_session text with
  | none => rfl
  | some sid =>
    obtain ⟨parts, hparts, -⟩ := Option.map_eq_some_iff.mp hread
    obtain ⟨hex, account, uuid, -, htext, -⟩ := claude_code_legacy_parts_eq_some_iff.mp hparts
    have hstart : Text.starts_with text "user_" = true := by
      rw [Text.starts_with, htext, composite, List.isPrefixOf_iff_prefix]
      exact List.prefix_append _ _
    rw [hjson.rejects text hstart] at h
    cases h

theorem text_mount_read (hjson : RejectsComposites from_str) (text : String) :
    metadata_user_id_session from_str (.string text) = (text_mount from_str text).read := by
  unfold metadata_user_id_session text_mount
  dsimp only
  cases hparsed : from_str text with
  | none => rfl
  | some v =>
    rw [composite_unparsed from_str hjson hparsed, Option.or_none]
    rfl

theorem user_id_mount_read (hjson : RejectsComposites from_str) (text : String) :
    metadata_user_id_session from_str ((from_str text).getD (.string text))
      = (user_id_mount from_str text).read := by
  unfold user_id_mount
  cases hparsed : from_str text with
  | none =>
    rw [Option.getD_none, text_mount_read from_str hjson, text_mount, hparsed]
  | some v =>
    rw [Option.getD_some]
    cases v with
    | string inner => exact text_mount_read from_str hjson inner
    | object entries => rfl
    | _ => rfl

/-- The rule reads the mount. -/
theorem dialect_session_read (hjson : RejectsComposites from_str) (req : Value) :
    ClaudeCode.dialect_session from_str req = (claude_mount from_str req).read := by
  unfold ClaudeCode.dialect_session claude_mount
  cases htext : (ClaudeCode.user_id req).as_str with
  | some text =>
    obtain ⟨hmeta, hobject⟩ := text_alone htext
    rw [hmeta, hobject, Option.bind_some, user_id_mount_read from_str hjson]
    cases (user_id_mount from_str text).read <;> rfl
  | none =>
    rw [Option.bind_none]
    dsimp only
    cases hmeta : (req.index "metadata").as_str with
    | some metadata =>
      dsimp only
      unfold metadata_envelope_transform
      cases ((from_str metadata).bind (·.get "user_id")).bind (·.as_str) with
      | none => rfl
      | some text => exact user_id_mount_read from_str hjson text
    | none => cases ClaudeCode.user_id req <;> rfl

/-! ### The other mounts -/

/-- The text of a body source. -/
def source_text (body : Value) (src : BodySource) : Option String :=
  let v := resolve_path body src.path
  if src.two_form then v.as_str.or ((v.index "id").as_str) else v.as_str

theorem read_source_eq (body : Value) (src : BodySource) :
    read_source body src = ((source_text body src).bind trimmed).bind fun raw =>
      src.transform.elim (some raw) fun f => f raw := by
  unfold read_source source_text
  dsimp only
  congr 1
  funext raw
  cases src.transform <;> rfl

/-- The tables know one transform. -/
theorem transform_known {d : ProtocolDescriptor} (hd : d ∈ DESCRIPTORS) {src : BodySource}
    (hsrc : src ∈ d.body_sources) : src.transform = none ∨ src.transform = some pck_namespace := by
  simp only [DESCRIPTORS, List.mem_cons, List.not_mem_nil, or_false] at hd
  rcases hd with rfl | rfl | rfl | rfl
  · simp only [Anthropic.DESCRIPTOR, List.mem_cons, List.not_mem_nil, or_false] at hsrc
    rcases hsrc with rfl | rfl <;> exact Or.inl rfl
  · simp only [Responses.DESCRIPTOR, List.mem_cons, List.not_mem_nil, or_false] at hsrc
    rcases hsrc with rfl | rfl | rfl | rfl | rfl <;> first | exact Or.inl rfl | exact Or.inr rfl
  · simp only [Chat.DESCRIPTOR, List.mem_cons, List.not_mem_nil, or_false] at hsrc
    rcases hsrc with rfl | rfl | rfl <;> first | exact Or.inl rfl | exact Or.inr rfl
  · simp only [Live.DESCRIPTOR, List.mem_cons, List.not_mem_nil, or_false] at hsrc
    rcases hsrc with rfl | rfl <;> exact Or.inl rfl

/-- A namespaced id is as clean as the key. -/
theorem pck_namespace_clean {key sid : String} (hkey : Clean key)
    (h : pck_namespace key = some sid) : Clean sid := by
  cases h
  have hchars : ("pck:" ++ key).toList = 'p' :: 'c' :: 'k' :: ':' :: key.toList :=
    String.toList_append
  refine ⟨?_, ?_, ?_⟩
  · intro hempty
    rw [hempty] at hchars
    cases hchars
  · intro c hc
    rw [hchars] at hc
    cases hc
    decide
  · intro c hc
    rw [hchars] at hc
    apply hkey.trailing
    cases hlist : key.toList with
    | nil =>
      have hempty : key = "" := by rw [← String.ofList_toList (s := key), hlist]
      exact absurd hempty hkey.nonempty
    | cons d rest =>
      rw [hlist] at hc
      simpa using hc

theorem read_source_clean {d : ProtocolDescriptor} (hd : d ∈ DESCRIPTORS) {src : BodySource}
    (hsrc : src ∈ d.body_sources) {body : Value} {sid : String}
    (h : read_source body src = some sid) : Clean sid := by
  rw [read_source_eq] at h
  obtain ⟨raw, hraw, hread⟩ := Option.bind_eq_some_iff.mp h
  have hclean := bind_trimmed_clean hraw
  rcases transform_known hd hsrc with hnone | hsome
  · rw [hnone] at hread
    cases hread
    exact hclean
  · rw [hsome] at hread
    exact pck_namespace_clean hclean hread

theorem session_from_body_clean {d : ProtocolDescriptor} (hd : d ∈ DESCRIPTORS) {body : Value}
    {sid : String} (h : d.session_from_body body = some sid) : Clean sid := by
  obtain ⟨found, hfound, rfl⟩ := Option.map_eq_some_iff.mp h
  obtain ⟨src, hsrc, hread⟩ := List.exists_of_findSome?_eq_some hfound
  obtain ⟨sid, hsid, rfl⟩ := Option.map_eq_some_iff.mp hread
  exact read_source_clean hd hsrc hsid

/-- `atg_harness::session_from_headers`. -/
def harness_session_from_headers (facts : HarnessFacts) (get : String → Option String) :
    Option String :=
  (harness_session_from_headers_with_source facts get).map (·.1)

/-- The session that the headers name: at the protocol's mounts, then at the
    harness's. -/
def header_session (d : ProtocolDescriptor) (facts : HarnessFacts) (get : String → Option String) :
    Option String :=
  (d.session_from_headers get).or (harness_session_from_headers facts get)

theorem header_session_clean {d : ProtocolDescriptor} {facts : HarnessFacts}
    {get : String → Option String} {sid : String} (h : header_session d facts get = some sid) :
    Clean sid := by
  -- both readers go through a list of names
  have hlist : ∀ {names : List String} {found : String × String},
      (names.findSome? fun name => ((get name).bind trimmed).map fun v => (v, name)) = some found →
      Clean found.1 := by
    intro names found hfound
    obtain ⟨name, -, hread⟩ := List.exists_of_findSome?_eq_some hfound
    obtain ⟨v, hv, rfl⟩ := Option.map_eq_some_iff.mp hread
    exact bind_trimmed_clean hv
  rcases Option.or_eq_some_iff.mp h with hprotocol | ⟨-, hharness⟩
  · obtain ⟨found, hfound, rfl⟩ := Option.map_eq_some_iff.mp hprotocol
    exact hlist hfound
  · obtain ⟨found, hfound, rfl⟩ := Option.map_eq_some_iff.mp hharness
    obtain ⟨name, -, hname⟩ := Option.bind_eq_some_iff.mp hfound
    obtain ⟨harness, -, hmounts⟩ := Option.bind_eq_some_iff.mp hname
    exact hlist hmounts

/-- Headers that differ in padding name one session. -/
theorem header_session_same (d : ProtocolDescriptor) (facts : HarnessFacts)
    {get get' : String → Option String} (h : ∀ name, SameText (get name) (get' name)) :
    header_session d facts get = header_session d facts get' := by
  have hreader : (fun name => ((get name).bind trimmed).map fun v => (v, name))
      = fun name => ((get' name).bind trimmed).map fun v => (v, name) := by
    funext name
    rw [h name]
  unfold header_session ProtocolDescriptor.session_from_headers
    ProtocolDescriptor.session_from_headers_with_source harness_session_from_headers
    harness_session_from_headers_with_source
  rw [hreader]

theorem session_from_body_same {d : ProtocolDescriptor} {body body' : Value}
    (h : ∀ src ∈ d.body_sources, SameText (source_text body src) (source_text body' src)) :
    d.session_from_body body = d.session_from_body body' := by
  unfold ProtocolDescriptor.session_from_body ProtocolDescriptor.session_from_body_with_source
  congr 1
  generalize d.body_sources = sources at h ⊢
  induction sources with
  | nil => rfl
  | cons src rest ih =>
    have hread : read_source body src = read_source body' src := by
      rw [read_source_eq, read_source_eq, h src List.mem_cons_self]
    rw [List.findSome?_cons, List.findSome?_cons, hread,
      ih fun other hother => h other (List.mem_cons_of_mem _ hother)]

/-! ### The session of a turn -/

/-- `resolve_session`. -/
def resolve_session (protocol : String) (req : Value) (header_get : String → Option String)
    (facts : HarnessFacts) : Option String :=
  (detect_by_name protocol).bind fun d =>
    (d.session_from_body req).or
      ((harness_session_from_body from_str facts req).or
        ((d.session_from_headers header_get).or (harness_session_from_headers facts header_get)))

/-- The session of the turn's facts is the one that is resolved. -/
theorem turn_facts_session (protocol : String) (req : Value)
    (header_get : String → Option String) (facts : HarnessFacts) :
    (turn_facts from_str protocol req header_get facts).bind (·.session_id)
      = resolve_session from_str protocol req header_get facts := by
  unfold turn_facts resolve_session
  cases detect_by_name protocol with
  | none => rfl
  | some d =>
    rw [Option.map_some, Option.bind_some, Option.bind_some]
    dsimp only
    unfold session_with_source ProtocolDescriptor.session_from_body
      ProtocolDescriptor.session_from_headers harness_session_from_headers
    cases d.session_from_body_with_source req with
    | some found => rfl
    | none =>
      cases harness_session_from_body from_str facts req with
      | some sid => rfl
      | none =>
        cases d.session_from_headers_with_source header_get with
        | some found => rfl
        | none => cases harness_session_from_headers_with_source facts header_get <;> rfl

/-- Two mounts of one form, with the same text but for padding. -/
def ClaudeMount.Same : ClaudeMount → ClaudeMount → Prop
  | .absent, .absent => True
  | .envelope sid, .envelope sid' => SameText sid sid'
  | .composite text, .composite text' => Text.trim text = Text.trim text'
  | .object sid, .object sid' => SameText sid sid'
  | _, _ => False

/-- Two requests that differ in the padding of their mounts at most. -/
structure SameMounts (d : ProtocolDescriptor) (req req' : Value)
    (header_get header_get' : String → Option String) : Prop where
  body : ∀ src ∈ d.body_sources, SameText (source_text req src) (source_text req' src)
  claude : (claude_mount from_str req).Same (claude_mount from_str req')
  headers : ∀ name, SameText (header_get name) (header_get' name)

/-- The text is written without padding, if there is one. -/
def Unpadded (o : Option String) : Prop := ∀ s, o = some s → Text.trim s = s

/-- Padding makes no difference to the mounts that are read as they are
    written: an object has none, and a composite has it in both requests or
    in neither, or the headers name its session too. -/
def ClaudeMount.ReadAlike (named : Option String) : ClaudeMount → ClaudeMount → Prop
  | .object sid, .object sid' => Unpadded sid ∧ Unpadded sid'
  | .composite text, .composite text' =>
    (claude_code_legacy_parts text).isSome = (claude_code_legacy_parts text').isSome ∨
      named = (claude_code_legacy_user_id_session text).or
        (claude_code_legacy_user_id_session text')
  | _, _ => True

/-- Both ids are clean, and they are one. -/
structure OneSession (sid sid' : Option String) : Prop where
  clean : ∀ s, sid = some s → Clean s
  clean' : ∀ s, sid' = some s → Clean s
  same : sid = sid'

/-- An unpadded text is read as if it were trimmed. -/
theorem unpadded_read {sid : Option String} (h : Unpadded sid) :
    sid.filter (fun s => !s.isEmpty) = sid.bind trimmed := by
  cases sid with
  | none => rfl
  | some s =>
    have hblank : Text.is_blank s = s.isEmpty := by
      have htrim := congrArg String.toList (h s rfl)
      rw [Text.trim, String.toList_ofList] at htrim
      rw [Text.is_blank, htrim, Bool.eq_iff_iff, List.isEmpty_iff, String.isEmpty_iff]
      exact String.toList_eq_nil_iff
    rw [Option.bind_some, trimmed, hblank, h s rfl, Option.filter_some]
    cases s.isEmpty <;> rfl

/-- What an object gives is clean only if it is unpadded. -/
theorem unpadded_of_clean {sid : Option String}
    (h : ∀ s, sid.filter (fun s => !s.isEmpty) = some s → Clean s) : Unpadded sid := by
  rintro s rfl
  by_cases hempty : s = ""
  · rw [hempty]
    decide
  · apply trim_of_clean
    apply h s
    rw [Option.filter_some, if_pos]
    simpa using hempty

theorem composite_isSome (text : String) :
    (claude_code_legacy_parts text).isSome = (claude_code_legacy_user_id_session text).isSome := by
  rw [claude_code_legacy_user_id_session, Option.isSome_map]

/-- Two composites that differ in padding are one. -/
theorem composite_one_session {text text' : String} {named : Option String}
    (hsame : Text.trim text = Text.trim text') (hnamed : ∀ s, named = some s → Clean s) :
    OneSession ((ClaudeMount.composite text).read.or named)
        ((ClaudeMount.composite text').read.or named) ↔
      ClaudeMount.ReadAlike named (.composite text) (.composite text') := by
  show OneSession ((claude_code_legacy_user_id_session text).or named)
      ((claude_code_legacy_user_id_session text').or named) ↔
    (claude_code_legacy_parts text).isSome = (claude_code_legacy_parts text').isSome ∨
      named = (claude_code_legacy_user_id_session text).or
        (claude_code_legacy_user_id_session text')
  rw [composite_isSome, composite_isSome]
  cases hread : claude_code_legacy_user_id_session text with
  | none =>
    cases hread' : claude_code_legacy_user_id_session text' with
    | none => exact iff_of_true ⟨hnamed, hnamed, rfl⟩ (Or.inl rfl)
    | some sid' =>
      have hclean' := (composite_clean hread').2
      rw [Option.none_or, Option.none_or, Option.some_or]
      constructor
      · intro h
        exact Or.inr h.same
      · rintro (hsome | heq)
        · cases hsome
        · rw [heq]
          refine ⟨?_, ?_, rfl⟩ <;> rintro s hs <;> cases hs <;> exact hclean'
  | some sid =>
    have hclean := composite_clean hread
    cases hread' : claude_code_legacy_user_id_session text' with
    | none =>
      rw [Option.none_or, Option.some_or, Option.some_or]
      constructor
      · intro h
        exact Or.inr h.same.symm
      · rintro (hsome | heq)
        · cases hsome
        · rw [heq]
          refine ⟨?_, ?_, rfl⟩ <;> rintro s hs <;> cases hs <;> exact hclean.2
    | some sid' =>
      -- neither has padding, so they are the same text
      have hclean' := composite_clean hread'
      rw [trim_of_clean hclean.1, trim_of_clean hclean'.1] at hsame
      rw [hsame, hread'] at hread
      cases hread
      refine iff_of_true ⟨?_, ?_, rfl⟩ (Or.inl rfl) <;> rintro s hs <;> cases hs <;>
        exact hclean.2

/-- Of two mounts that differ in padding, and the headers behind them. -/
theorem mount_one_session {m m' : ClaudeMount} {named : Option String} (hsame : m.Same m')
    (hnamed : ∀ s, named = some s → Clean s) :
    OneSession (m.read.or named) (m'.read.or named) ↔ m.ReadAlike named m' := by
  have htrimmed : ∀ {sid : Option String} {s : String},
      (sid.bind trimmed).or named = some s → Clean s := by
    intro sid s hs
    rcases Option.or_eq_some_iff.mp hs with hfound | ⟨-, hfound⟩
    · exact bind_trimmed_clean hfound
    · exact hnamed s hfound
  cases m <;> cases m' <;> try exact hsame.elim
  case absent.absent => exact iff_of_true ⟨hnamed, hnamed, rfl⟩ trivial
  case envelope.envelope sid sid' =>
    refine iff_of_true ⟨fun _ => htrimmed, fun _ => htrimmed, ?_⟩ trivial
    exact congrArg (·.or named) hsame
  case composite.composite text text' => exact composite_one_session hsame hnamed
  case object.object sid sid' =>
    constructor
    · intro h
      constructor
      · exact unpadded_of_clean fun s hs =>
          h.clean s (by rw [ClaudeMount.read, hs, Option.some_or])
      · exact unpadded_of_clean fun s hs =>
          h.clean' s (by rw [ClaudeMount.read, hs, Option.some_or])
    · rintro ⟨hplain, hplain'⟩
      rw [ClaudeMount.read, ClaudeMount.read, unpadded_read hplain, unpadded_read hplain']
      exact ⟨fun _ => htrimmed, fun _ => htrimmed, congrArg (·.or named) hsame⟩

theorem detect_by_name_mem {protocol : String} {d : ProtocolDescriptor}
    (h : detect_by_name protocol = some d) : d ∈ DESCRIPTORS :=
  List.mem_of_find?_eq_some h

/-- The facts of a turn have the session that is resolved. Two requests that
    differ in the padding of their mounts have one session, and its id is
    clean, exactly where the dialect's rule is not reached or the padding
    makes no difference to it. -/
theorem one_session_iff (hjson : RejectsComposites from_str) {protocol : String}
    {d : ProtocolDescriptor} (hd : detect_by_name protocol = some d) {facts : HarnessFacts}
    {req req' : Value} {header_get header_get' : String → Option String}
    (h : SameMounts from_str d req req' header_get header_get') :
    (turn_facts from_str protocol req header_get facts).bind (·.session_id)
        = resolve_session from_str protocol req header_get facts ∧
      (OneSession (resolve_session from_str protocol req header_get facts)
          (resolve_session from_str protocol req' header_get' facts) ↔
        (d.session_from_body req = none → facts.dialect = "claude-code" →
          (claude_mount from_str req).ReadAlike (header_session d facts header_get)
            (claude_mount from_str req'))) := by
  refine ⟨turn_facts_session from_str protocol req header_get facts, ?_⟩
  have hresolve : ∀ req header_get, resolve_session from_str protocol req header_get facts
      = (d.session_from_body req).or
          ((harness_session_from_body from_str facts req).or (header_session d facts header_get)) := by
    intro req header_get
    rw [resolve_session, hd]
    rfl
  rw [hresolve, hresolve, ← session_from_body_same h.body, ← header_session_same d facts h.headers]
  cases hbody : d.session_from_body req with
  | some sid =>
    have hclean := session_from_body_clean (detect_by_name_mem hd) hbody
    rw [Option.some_or, Option.some_or]
    refine iff_of_true ⟨?_, ?_, rfl⟩ (fun hnone => nomatch hnone)
    · rintro s hs
      cases hs
      exact hclean
    · rintro s hs
      cases hs
      exact hclean
  | none =>
    have hnamed : ∀ s, header_session d facts header_get = some s → Clean s :=
      fun s hs => header_session_clean hs
    rw [Option.none_or, Option.none_or, harness_session_from_body_eq, harness_session_from_body_eq]
    by_cases hdialect : facts.dialect = "claude-code"
    · rw [if_pos hdialect, if_pos hdialect, dialect_session_read from_str hjson,
        dialect_session_read from_str hjson, mount_one_session h.claude hnamed]
      exact ⟨fun halike _ _ => halike, fun hall => hall rfl hdialect⟩
    · rw [if_neg hdialect, if_neg hdialect, Option.none_or]
      exact iff_of_true ⟨hnamed, hnamed, rfl⟩ (fun _ hclaude => absurd hclaude hdialect)

end parsing

/-! ### A padded id -/

/-- `{"session_id":" abc "}`. -/
def padded_envelope : String := "\x7b\"session_id\":\" abc \"\x7d"

/-- The parser on the two envelopes. -/
def padded_from_str (s : String) : Option Value :=
  if s = envelope_text then some (.object [("session_id", .string "abc")])
  else if s = padded_envelope then some (.object [("session_id", .string " abc ")])
  else none

/-- A body with a value at `metadata.user_id`. -/
def user_id_body (user_id : Value) : Value := .object [("metadata", .object [("user_id", user_id)])]

/-- Any client in the dialect. -/
def dialect_facts : HarnessFacts where
  identity := none
  dialect := "claude-code"
  candidates := []
  protocol_anomaly := false

theorem padded_from_str_rejects : RejectsComposites padded_from_str := by
  refine ⟨fun text hstart => ?_⟩
  unfold padded_from_str
  split_ifs with h h'
  · rw [h] at hstart
    exact absurd hstart (by decide)
  · rw [h'] at hstart
    exact absurd hstart (by decide)
  · rfl

theorem one_session_iff_envelope :
    OneSession
      (resolve_session padded_from_str "anthropic.messages" (user_id_body (.string padded_envelope))
        (fun _ => none) dialect_facts)
      (resolve_session padded_from_str "anthropic.messages" (user_id_body (.string envelope_text))
        (fun _ => none) dialect_facts) := by
  have hsame : SameMounts padded_from_str Anthropic.DESCRIPTOR
      (user_id_body (.string padded_envelope)) (user_id_body (.string envelope_text))
      (fun _ => none) (fun _ => none) := by
    refine ⟨?_, ?_, fun _ => rfl⟩
    · intro src hsrc
      simp only [Anthropic.DESCRIPTOR, List.mem_cons, List.not_mem_nil, or_false] at hsrc
      rcases hsrc with rfl | rfl <;> rfl
    · show (some " abc ").bind trimmed = (some "abc").bind trimmed
      decide
  exact (one_session_iff padded_from_str padded_from_str_rejects rfl hsame).2.mpr
    fun _ _ => trivial

/-- In the object form the padding stays, and there are two sessions. -/
theorem padded_object_session :
    resolve_session padded_from_str "anthropic.messages"
        (user_id_body (.object [("session_id", .string " abc ")])) (fun _ => none) dialect_facts
          = some " abc " ∧
      resolve_session padded_from_str "anthropic.messages"
        (user_id_body (.object [("session_id", .string "abc")])) (fun _ => none) dialect_facts
          = some "abc" ∧
      ¬ Clean " abc " := by
  refine ⟨by decide +kernel, by decide +kernel, fun h => ?_⟩
  exact absurd (h.leading ' ' rfl) (by decide)

end AgentTraceGateway
