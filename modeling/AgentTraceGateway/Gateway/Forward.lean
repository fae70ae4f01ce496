import AgentTraceGateway.Gateway.Headers
import Mathlib.Data.List.Nodup

/-! # Header Forwarding of the Relay

  The owned relay copies the headers of a request to the upstream and those
  of the response back, less the names on a list of its own. The request side
  appends, the response side inserts, which replaces. The HTTP client adds
  headers where the request has none of the name.

  What belongs to one hop is said by RFC 9110, 7.6.1, and that is what the
  forwarding is measured by. Header lists are in a map's iteration order, in
  which the values of one name stand together. -/

namespace AgentTraceGateway

/-! ### The headers of one hop -/

/-- The fields of one hop (RFC 9110, 7.6.1), besides those that `Connection`
    names. -/
def HOP_BY_HOP : List String :=
  ["connection", "proxy-connection", "keep-alive", "te", "transfer-encoding", "upgrade"]

/-- The relay's list. -/
def is_hop_by_hop (name : String) : Bool :=
  match name with
  | "connection" | "keep-alive" | "proxy-connection" | "transfer-encoding" | "te" | "trailer"
  | "upgrade" | "host" | "proxy-authorization" | "proxy-authenticate" => true
  | _ => false

/-- The names on the relay's list that are neither of one hop nor the Host. -/
def LISTED_ONLY : List String := ["trailer", "proxy-authorization", "proxy-authenticate"]

theorem is_hop_by_hop_iff (name : String) :
    is_hop_by_hop name = true ↔ name ∈ HOP_BY_HOP ∨ name = "host" ∨ name ∈ LISTED_ONLY := by
  unfold is_hop_by_hop
  constructor
  · intro h
    split at h <;> first | decide | cases h
  · intro h
    have hmem : name ∈ HOP_BY_HOP ++ "host" :: LISTED_ONLY := by
      rw [List.mem_append, List.mem_cons]
      exact h
    have hall : ∀ n ∈ HOP_BY_HOP ++ "host" :: LISTED_ONLY, is_hop_by_hop n = true := by decide
    exact hall name hmem

/-- The elements of a comma-separated field value, lowercase. -/
def field_elements (value : Bytes) : List String :=
  ((value.map fun b => Text.ascii_lower (Char.ofNat b.toNat)).splitOn ',').map fun element =>
    String.ofList (Text.trim_chars element)

/-- The header names that `Connection` fields nominate. -/
def connection_options (headers : HeaderMap) : List String :=
  headers.flatMap fun (name, value) => if name = "connection" then field_elements value else []

/-! ### Forwarding -/

/-- `RequestBuilder::header`. -/
def append_header (headers : HeaderMap) (name : String) (value : Bytes) : HeaderMap :=
  headers ++ [(name, value)]

/-- `ResponseHeader::insert_header`: the value replaces those of that name. -/
def insert_header : HeaderMap → String → Bytes → HeaderMap
  | [], name, value => [(name, value)]
  | header :: rest, name, value =>
    if header.1 = name then (name, value) :: rest.filter (·.1 ≠ name)
    else header :: insert_header rest name value

/-- What the HTTP client adds to a request: an `Authorization` made of the
    URL's user information, and defaults for names that the request lacks. -/
structure ClientHeaders where
  credentials : Option Bytes
  defaults : HeaderMap
  copied : ∀ h ∈ defaults, is_hop_by_hop h.1 = false ∧ h.1 ≠ "content-length"

/-- The client as the relay builds it, for a URL without user information. -/
def client_headers : ClientHeaders where
  credentials := none
  defaults := [("accept", utf8_bytes "*/*")]
  copied := by decide

/-- `send`: the defaults go into vacant entries. -/
def add_defaults (defaults out : HeaderMap) : HeaderMap :=
  defaults.foldl
    (fun out (name, value) =>
      if out.any (·.1 == name) then out else append_header out name value)
    out

/-- The headers of the upstream request: the Host override, then what the
    client sent. -/
def relay_request_headers (client : ClientHeaders) (host : Option String)
    (received : HeaderMap) : HeaderMap :=
  let out : HeaderMap :=
    match client.credentials with
    | some credentials => append_header [] "authorization" credentials
    | none => []
  let out :=
    match host with
    | some sni_host => append_header out "host" (utf8_bytes sni_host)
    | none => out
  let out := received.foldl
    (fun out (name, value) =>
      if is_hop_by_hop name || name == "content-length" then out else append_header out name value)
    out
  add_defaults client.defaults out

/-- The headers of the response to the client. -/
def relay_response_headers (no_body_status is_http2 : Bool) (received : HeaderMap) : HeaderMap :=
  let has_content_length := received.any (·.1 == "content-length")
  let head := received.foldl
    (fun head (name, value) =>
      if is_hop_by_hop name then head else insert_header head name value) []
  if !has_content_length && !no_body_status && !is_http2 then
    insert_header head "transfer-encoding" (utf8_bytes "chunked")
  else head

/-- A repeated header comes back with its last value only. -/
example : relay_response_headers false true
    [("set-cookie", [0x61]), ("vary", [0x2A]), ("set-cookie", [0x62])]
      = [("set-cookie", [0x62]), ("vary", [0x2A])] := by decide

/-! ### Transparency -/

/-- A header that goes from end to end: neither of one hop nor the Host. -/
def end_to_end (received : HeaderMap) (name : String) : Bool :=
  !HOP_BY_HOP.contains name && !(connection_options received).contains name && name != "host"

/-- The Host override. -/
def host_header (host : Option String) : HeaderMap :=
  host.toList.map fun sni_host => ("host", utf8_bytes sni_host)

/-- The request is sent on with its end-to-end headers, in order; Host and
    framing are derived anew. -/
def RequestTransparent (client : ClientHeaders) (host : Option String) (received : HeaderMap) :
    Prop :=
  relay_request_headers client host received
    = host_header host ++ received.filter fun h => end_to_end received h.1 && h.1 != "content-length"

/-- The response is sent on with its end-to-end headers, in order, and with
    a framing header if it needs one. -/
def ResponseTransparent (no_body_status is_http2 : Bool) (received : HeaderMap) : Prop :=
  relay_response_headers no_body_status is_http2 received
    = received.filter (fun h => end_to_end received h.1)
      ++ if !received.any (·.1 == "content-length") && !no_body_status && !is_http2 then
          [("transfer-encoding", utf8_bytes "chunked")]
        else []

/-- The names of a header list. -/
def names (headers : HeaderMap) : List String := headers.map Prod.fst

/-- The headers that the request side copies. -/
def copied (received : HeaderMap) : HeaderMap :=
  received.filter fun h => !(is_hop_by_hop h.1 || h.1 == "content-length")

/-- The headers that the response side inserts. -/
def inserted (received : HeaderMap) : HeaderMap := received.filter fun h => !is_hop_by_hop h.1

/-- None of the headers is named by a `Connection` field. -/
def NoneNominated (received headers : HeaderMap) : Prop :=
  ∀ h ∈ headers, h.1 ∉ connection_options received

/-- What only the relay's list names is there only if a `Connection` field
    names it too. -/
def NoneLost (received : HeaderMap) : Prop :=
  ∀ h ∈ received, h.1 ∈ LISTED_ONLY → h.1 ∈ connection_options received

/-- The client has nothing to add. -/
def NoneAdded (client : ClientHeaders) (received : HeaderMap) : Prop :=
  client.credentials = none ∧ ∀ h ∈ client.defaults, h.1 ∈ names received

/-- A name goes from end to end just where the relay's list lets it through,
    if the `Connection` fields name what the list adds and nothing else. -/
theorem end_to_end_listed_iff (received : HeaderMap) (name : String) :
    end_to_end received name = !is_hop_by_hop name ↔
      (is_hop_by_hop name = false → name ∉ connection_options received) ∧
        (name ∈ LISTED_ONLY → name ∈ connection_options received) := by
  have hlist := is_hop_by_hop_iff name
  have hapart : name ∈ LISTED_ONLY → name ∉ HOP_BY_HOP ∧ name ≠ "host" := by
    have hall : ∀ n ∈ LISTED_ONLY, n ∉ HOP_BY_HOP ∧ n ≠ "host" := by decide
    exact hall name
  have hend : end_to_end received name = true ↔
      name ∉ HOP_BY_HOP ∧ name ∉ connection_options received ∧ name ≠ "host" := by
    simp [end_to_end, and_assoc]
  rw [Bool.eq_iff_iff, hend, Bool.not_eq_true', ← Bool.not_eq_true, hlist]
  tauto

/-- A filter by name. -/
theorem mem_filter_names {p : String → Bool} {headers : HeaderMap} {x : String} :
    x ∈ names (headers.filter fun h => p h.1) ↔ x ∈ names headers ∧ p x = true := by
  unfold names
  constructor
  · intro h
    obtain ⟨header, hmem, rfl⟩ := List.mem_map.mp h
    obtain ⟨hthere, hp⟩ := List.mem_filter.mp hmem
    exact ⟨List.mem_map_of_mem hthere, hp⟩
  · rintro ⟨h, hp⟩
    obtain ⟨header, hthere, rfl⟩ := List.mem_map.mp h
    exact List.mem_map_of_mem (List.mem_filter.mpr ⟨hthere, hp⟩)

theorem filter_eq_filter_iff {α : Type} (p q : α → Bool) (l : List α) :
    l.filter p = l.filter q ↔ ∀ a ∈ l, p a = q a := by
  constructor
  · intro h a ha
    have hmem : a ∈ l.filter p ↔ a ∈ l.filter q := by rw [h]
    rw [List.mem_filter, List.mem_filter, and_iff_right ha, and_iff_right ha] at hmem
    exact Bool.eq_iff_iff.mpr hmem
  · exact List.filter_congr

/-- The inserted headers are the end-to-end ones. -/
theorem inserted_eq_iff (received : HeaderMap) :
    inserted received = received.filter (fun h => end_to_end received h.1) ↔
      NoneNominated received (inserted received) ∧ NoneLost received := by
  constructor
  · intro hsame
    have hagree := (filter_eq_filter_iff _ _ received).mp hsame.symm
    refine ⟨?_, fun h hmem => ((end_to_end_listed_iff received h.1).mp (hagree h hmem)).2⟩
    intro h hmem
    obtain ⟨hreceived, hkept⟩ := List.mem_filter.mp hmem
    rw [Bool.not_eq_true'] at hkept
    exact ((end_to_end_listed_iff received h.1).mp (hagree h hreceived)).1 hkept
  · rintro ⟨hnone, hlost⟩
    refine (List.filter_congr fun h hmem => ?_).symm
    refine (end_to_end_listed_iff received h.1).mpr ⟨fun hkept => ?_, hlost h hmem⟩
    exact hnone h (List.mem_filter.mpr ⟨hmem, by rw [hkept]; rfl⟩)

/-- A length is neither copied nor asked for. -/
theorem copied_kept_iff (received : HeaderMap) (name : String) :
    (!(is_hop_by_hop name || name == "content-length"))
        = (end_to_end received name && name != "content-length") ↔
      name = "content-length" ∨ end_to_end received name = !is_hop_by_hop name := by
  by_cases hlength : name = "content-length"
  · simp [hlength]
  · have hbeq : (name == "content-length") = false := beq_false_of_ne hlength
    simp [hlength, hbeq, bne, eq_comm]

/-- The copied headers are the end-to-end ones without a length. -/
theorem copied_eq_iff (received : HeaderMap) :
    copied received = received.filter (fun h => end_to_end received h.1 && h.1 != "content-length")
      ↔ NoneNominated received (copied received) ∧ NoneLost received := by
  have hlisted : "content-length" ∉ LISTED_ONLY := by decide
  unfold copied
  rw [filter_eq_filter_iff]
  constructor
  · intro hagree
    have hname : ∀ h ∈ received, h.1 ≠ "content-length" →
        end_to_end received h.1 = !is_hop_by_hop h.1 := fun h hmem hother =>
      ((copied_kept_iff received h.1).mp (hagree h hmem)).resolve_left hother
    refine ⟨?_, ?_⟩
    · intro h hmem
      obtain ⟨hreceived, hkept⟩ := List.mem_filter.mp hmem
      rw [Bool.not_eq_true', Bool.or_eq_false_iff] at hkept
      have hother : h.1 ≠ "content-length" := ne_of_beq_false hkept.2
      exact ((end_to_end_listed_iff received h.1).mp (hname h hreceived hother)).1 hkept.1
    · intro h hmem hmine
      have hother : h.1 ≠ "content-length" := fun heq => hlisted (heq ▸ hmine)
      exact ((end_to_end_listed_iff received h.1).mp (hname h hmem hother)).2 hmine
  · rintro ⟨hnone, hlost⟩ h hmem
    rw [copied_kept_iff]
    by_cases hlength : h.1 = "content-length"
    · exact Or.inl hlength
    · refine Or.inr ((end_to_end_listed_iff received h.1).mpr ⟨fun hkept => ?_, hlost h hmem⟩)
      have hbeq : (h.1 == "content-length") = false := beq_false_of_ne hlength
      exact hnone h (List.mem_filter.mpr ⟨hmem, by rw [hkept, hbeq]; rfl⟩)

/-! ### Requests -/

theorem any_name_iff {headers : HeaderMap} {name : String} :
    headers.any (·.1 == name) = true ↔ name ∈ names headers := by
  simp [names]

/-- A default is sent, by the client or by what was there. -/
theorem mem_add_defaults {x : String} : ∀ (defaults out : HeaderMap),
    x ∈ names (add_defaults defaults out) ↔ x ∈ names out ∨ x ∈ names defaults := by
  intro defaults
  induction defaults with
  | nil => exact fun out => by simp [add_defaults, names]
  | cons header defaults ih =>
    intro out
    show x ∈ names (add_defaults defaults
      (if out.any (·.1 == header.1) then out else append_header out header.1 header.2)) ↔ _
    rw [ih]
    split
    · rename_i hthere
      rw [any_name_iff] at hthere
      constructor
      · rintro (hout | hrest)
        · exact Or.inl hout
        · exact Or.inr (List.mem_cons_of_mem _ hrest)
      · rintro (hout | hdefault)
        · exact Or.inl hout
        · rcases List.mem_cons.mp hdefault with rfl | hrest
          · exact Or.inl hthere
          · exact Or.inr hrest
    · simp only [names, append_header, List.map_append, List.map_cons, List.map_nil,
        List.mem_append, List.mem_cons, List.not_mem_nil, or_false]
      rw [or_assoc]

theorem add_defaults_front : ∀ (defaults out : HeaderMap), out <+: add_defaults defaults out := by
  intro defaults
  induction defaults with
  | nil => exact fun out => List.prefix_refl out
  | cons header defaults ih =>
    intro out
    show out <+: add_defaults defaults
      (if out.any (·.1 == header.1) then out else append_header out header.1 header.2)
    split
    · exact ih out
    · exact (List.prefix_append out _).trans (ih _)

/-- No entry is vacant, so nothing is added. -/
theorem add_defaults_none : ∀ (defaults out : HeaderMap), (∀ h ∈ defaults, h.1 ∈ names out) →
    add_defaults defaults out = out := by
  intro defaults
  induction defaults with
  | nil => exact fun _ _ => rfl
  | cons header defaults ih =>
    intro out hthere
    show add_defaults defaults
      (if out.any (·.1 == header.1) then out else append_header out header.1 header.2) = out
    rw [if_pos (any_name_iff.mpr (hthere header List.mem_cons_self))]
    exact ih out fun h hmem => hthere h (List.mem_cons_of_mem _ hmem)

/-- The header made of the URL's user information. -/
def credentials_header (client : ClientHeaders) : HeaderMap :=
  client.credentials.toList.map fun credentials => ("authorization", credentials)

/-- Appending copies. -/
theorem relay_request_headers_eq (client : ClientHeaders) (host : Option String)
    (received : HeaderMap) :
    relay_request_headers client host received
      = add_defaults client.defaults
          (credentials_header client ++ host_header host ++ copied received) := by
  have hfold : ∀ (headers out : HeaderMap),
      headers.foldl (fun out (name, value) =>
          if is_hop_by_hop name || name == "content-length" then out
          else append_header out name value) out
        = out ++ headers.filter fun h => !(is_hop_by_hop h.1 || h.1 == "content-length") := by
    intro headers
    induction headers with
    | nil => exact fun out => (List.append_nil out).symm
    | cons header headers ih =>
      intro out
      rw [List.foldl_cons, ih, List.filter_cons]
      dsimp only
      by_cases hskip : (is_hop_by_hop header.1 || header.1 == "content-length") = true
      · rw [if_pos hskip, if_neg (by rw [hskip]; decide)]
      · rw [if_neg hskip, if_pos (by rw [Bool.eq_false_iff.mpr hskip]; decide), append_header,
          List.append_assoc]
        rfl
  unfold relay_request_headers credentials_header
  dsimp only
  rw [hfold]
  cases client.credentials <;> cases host <;> rfl

/-- Of one name, which the relay copies, a request goes out with as many
    values as came in, and one more if the client adds its own. -/
theorem authorization_count (client : ClientHeaders) (host : Option String)
    (received : HeaderMap) :
    received.countP (·.1 == "authorization") + client.credentials.toList.length
      ≤ (relay_request_headers client host received).countP (·.1 == "authorization") := by
  have hcopied : (copied received).countP (·.1 == "authorization")
      = received.countP (·.1 == "authorization") := by
    unfold copied
    rw [List.countP_filter]
    apply List.countP_congr
    intro h _
    by_cases hname : h.1 = "authorization"
    · simp [hname, is_hop_by_hop]
    · simp [hname]
  have hadded : (credentials_header client).countP (·.1 == "authorization")
      = client.credentials.toList.length := by
    unfold credentials_header
    cases client.credentials <;> rfl
  rw [relay_request_headers_eq]
  refine Nat.le_trans ?_ (add_defaults_front _ _).sublist.countP_le
  rw [List.countP_append, List.countP_append, hcopied, hadded]
  omega

theorem request_transparent_iff (client : ClientHeaders) (host : Option String)
    (received : HeaderMap) :
    RequestTransparent client host received ↔
      NoneAdded client received ∧ NoneNominated received (copied received) ∧ NoneLost received := by
  -- with nothing to add, the copied headers are all there is behind the Host
  have hsent : NoneAdded client received →
      relay_request_headers client host received = host_header host ++ copied received := by
    rintro ⟨hcredentials, hdefaults⟩
    rw [relay_request_headers_eq, credentials_header, hcredentials]
    apply add_defaults_none
    intro h hmem
    obtain ⟨hlisted, hlength⟩ := client.copied h hmem
    have hcopied : h.1 ∈ names (copied received) := by
      refine (mem_filter_names (p := fun name => !(is_hop_by_hop name || name == "content-length"))).mpr
        ⟨hdefaults h hmem, ?_⟩
      rw [hlisted, beq_false_of_ne hlength]
      rfl
    rw [names, List.map_append]
    exact List.mem_append_right _ hcopied
  rw [← copied_eq_iff]
  constructor
  · intro htransparent
    have hadded : NoneAdded client received := by
      refine ⟨?_, ?_⟩
      · -- credentials are one more authorization than was received
        have hcount := authorization_count client host received
        rw [htransparent, List.countP_append] at hcount
        have hhost : (host_header host).countP (·.1 == "authorization") = 0 := by
          cases host <;> rfl
        have hkept := (List.filter_sublist (l := received)
          (p := fun h => end_to_end received h.1 && h.1 != "content-length")).countP_le
            (p := (·.1 == "authorization"))
        cases hcredentials : client.credentials with
        | none => rfl
        | some credentials =>
          rw [hcredentials, Option.toList_some, List.length_singleton] at hcount
          omega
      · -- a default is sent under its name, so the name was received
        intro h hmem
        have hname : h.1 ∈ names (relay_request_headers client host received) := by
          rw [relay_request_headers_eq, mem_add_defaults]
          exact Or.inr (List.mem_map_of_mem hmem)
        rw [htransparent, names, List.map_append, List.mem_append] at hname
        rcases hname with hhost | hkept
        · have heq : h.1 = "host" := by
            cases host with
            | none => cases hhost
            | some sni_host => exact List.mem_singleton.mp hhost
          have hlisted := (client.copied h hmem).1
          rw [heq] at hlisted
          cases hlisted
        · exact (mem_filter_names
            (p := fun name => end_to_end received name && name != "content-length").mp hkept).1
    refine ⟨hadded, ?_⟩
    have hall := htransparent
    unfold RequestTransparent at hall
    rw [hsent hadded] at hall
    exact List.append_cancel_left hall
  · rintro ⟨hadded, hsame⟩
    unfold RequestTransparent
    rw [hsent hadded, hsame]

/-! ### Responses -/

theorem mem_insert_names {x name : String} {value : Bytes} (headers : HeaderMap) :
    x ∈ names (insert_header headers name value) ↔ x = name ∨ x ∈ names headers := by
  induction headers with
  | nil => simp [insert_header, names]
  | cons header rest ih =>
    unfold insert_header
    split
    · rename_i hname
      subst hname
      by_cases hx : x = header.1
      · simp [names, hx]
      · simp only [names, List.map_cons, List.mem_cons, hx, false_or, List.mem_map,
          List.mem_filter, decide_eq_true_eq]
        constructor
        · rintro ⟨h, ⟨hmem, _⟩, rfl⟩
          exact ⟨h, hmem, rfl⟩
        · rintro ⟨h, hmem, rfl⟩
          exact ⟨h, ⟨hmem, hx⟩, rfl⟩
    · simp only [names, List.map_cons, List.mem_cons] at ih ⊢
      rw [ih]
      exact or_left_comm

/-- Inserting keeps the names apart. -/
theorem insert_names_nodup {name : String} {value : Bytes} {headers : HeaderMap}
    (h : (names headers).Nodup) : (names (insert_header headers name value)).Nodup := by
  induction headers with
  | nil => exact List.nodup_singleton name
  | cons header rest ih =>
    obtain ⟨hfresh, hrest⟩ := List.nodup_cons.mp h
    unfold insert_header
    split
    · rename_i hname
      refine List.nodup_cons.mpr ⟨?_, hrest.sublist (List.filter_sublist.map Prod.fst)⟩
      intro hmem
      obtain ⟨other, hother, hsame⟩ := List.mem_map.mp hmem
      exact of_decide_eq_true (List.mem_filter.mp hother).2 hsame
    · rename_i hname
      refine List.nodup_cons.mpr ⟨?_, ih hrest⟩
      intro hmem
      rcases (mem_insert_names rest).mp hmem with heq | hmem
      · exact hname heq
      · exact hfresh hmem

/-- A new name goes to the end. -/
theorem insert_header_new {name : String} {value : Bytes} {headers : HeaderMap}
    (h : name ∉ names headers) :
    insert_header headers name value = headers ++ [(name, value)] := by
  induction headers with
  | nil => rfl
  | cons header rest ih =>
    obtain ⟨hne, hrest⟩ := List.ne_and_not_mem_of_not_mem_cons h
    rw [insert_header, if_neg (Ne.symm hne), ih hrest]
    rfl

/-- What the response side makes of the headers it does not skip. -/
def insert_all (headers head : HeaderMap) : HeaderMap :=
  headers.foldl (fun head h => insert_header head h.1 h.2) head

theorem mem_insert_all_names {x : String} : ∀ (headers head : HeaderMap),
    x ∈ names (insert_all headers head) ↔ x ∈ names headers ∨ x ∈ names head := by
  intro headers
  induction headers with
  | nil => intro head; simp [insert_all, names]
  | cons header headers ih =>
    intro head
    show x ∈ names (insert_all headers (insert_header head header.1 header.2)) ↔ _
    rw [ih, mem_insert_names]
    simp only [names, List.map_cons, List.mem_cons]
    rw [or_left_comm, or_assoc]

theorem insert_all_nodup : ∀ (headers head : HeaderMap), (names head).Nodup →
    (names (insert_all headers head)).Nodup := by
  intro headers
  induction headers with
  | nil => exact fun head h => h
  | cons header headers ih => exact fun head h => ih _ (insert_names_nodup h)

/-- Names that do not repeat are all kept. -/
theorem insert_all_new : ∀ (headers head : HeaderMap), (names (head ++ headers)).Nodup →
    insert_all headers head = head ++ headers := by
  intro headers
  induction headers with
  | nil => exact fun head _ => (List.append_nil head).symm
  | cons header headers ih =>
    intro head h
    have hnames : names (head ++ header :: headers)
        = names head ++ header.1 :: names headers := by
      simp [names]
    rw [hnames, List.nodup_append] at h
    have hnew : header.1 ∉ names head := by
      intro hmem
      exact h.2.2 _ hmem _ (List.mem_cons_self ..) rfl
    show insert_all headers (insert_header head header.1 header.2) = _
    rw [insert_header_new hnew, ih]
    · simp
    · rw [← List.nodup_append, ← hnames] at h
      simpa [names] using h

theorem relay_response_headers_eq (no_body_status is_http2 : Bool) (received : HeaderMap) :
    relay_response_headers no_body_status is_http2 received
      = insert_all (inserted received) []
        ++ if !received.any (·.1 == "content-length") && !no_body_status && !is_http2 then
            [("transfer-encoding", utf8_bytes "chunked")]
          else [] := by
  have hfold : ∀ (headers head : HeaderMap),
      headers.foldl (fun head (name, value) =>
          if is_hop_by_hop name then head else insert_header head name value) head
        = insert_all (headers.filter fun h => !is_hop_by_hop h.1) head := by
    intro headers
    induction headers with
    | nil => exact fun head => rfl
    | cons header headers ih =>
      intro head
      rw [List.foldl_cons, ih, List.filter_cons]
      dsimp only
      by_cases hskip : is_hop_by_hop header.1 = true
      · rw [if_pos hskip, if_neg (by rw [hskip]; decide)]
      · rw [if_neg hskip, if_pos (by rw [Bool.eq_false_iff.mpr hskip]; decide)]
        rfl
  -- the framing header is on the list, so it is new to the head
  have hframing : "transfer-encoding" ∉ names (insert_all (inserted received) []) := by
    rw [mem_insert_all_names]
    rintro (hmem | hmem)
    · obtain ⟨h, hkept, hname⟩ := List.mem_map.mp hmem
      have hlisted := (List.mem_filter.mp hkept).2
      rw [hname] at hlisted
      exact absurd hlisted (by decide)
    · cases hmem
  unfold relay_response_headers
  dsimp only
  rw [hfold]
  split
  · exact insert_header_new hframing
  · exact (List.append_nil _).symm

/-- The response comes through if the headers it inserts are the end-to-end
    ones, and no name repeats. -/
theorem response_transparent_iff (no_body_status is_http2 : Bool) (received : HeaderMap) :
    ResponseTransparent no_body_status is_http2 received ↔
      NoneNominated received (inserted received) ∧ NoneLost received ∧
        (names (inserted received)).Nodup := by
  unfold ResponseTransparent
  rw [relay_response_headers_eq, List.append_cancel_right_eq, ← and_assoc, ← inserted_eq_iff]
  constructor
  · intro hsame
    -- the heads have the same names, so the filters agree on every header
    have hnames : ∀ h ∈ received, end_to_end received h.1 = !is_hop_by_hop h.1 := by
      intro h hmem
      have hname : h.1 ∈ names received := List.mem_map_of_mem hmem
      have hnil : h.1 ∉ names [] := List.not_mem_nil
      have hmine := @mem_filter_names (!is_hop_by_hop ·) received h.1
      have htheirs := @mem_filter_names (end_to_end received) received h.1
      rw [← hsame, mem_insert_all_names, or_iff_left hnil] at htheirs
      rw [and_iff_right hname] at hmine htheirs
      exact Bool.eq_iff_iff.mpr (htheirs.symm.trans hmine)
    have hinserted : inserted received = received.filter fun h => end_to_end received h.1 :=
      (List.filter_congr hnames).symm
    refine ⟨hinserted, ?_⟩
    rw [hinserted, ← hsame]
    exact insert_all_nodup _ [] List.nodup_nil
  · rintro ⟨hinserted, hnodup⟩
    rw [← hinserted]
    exact insert_all_new (inserted received) [] hnodup

/-- **Header transparency**: both directions forward exactly the end-to-end
    headers, if and only if the client has nothing to add, a `Connection`
    field of the message names each header that only the relay's list names
    and none that is forwarded, and no header that is inserted into the
    response repeats. -/
theorem relay_headers_transparent_iff (client : ClientHeaders) (host : Option String)
    (no_body_status is_http2 : Bool) (request response : HeaderMap) :
    RequestTransparent client host request ∧
        ResponseTransparent no_body_status is_http2 response ↔
      (NoneAdded client request ∧ NoneNominated request (copied request) ∧ NoneLost request) ∧
        NoneNominated response (inserted response) ∧ NoneLost response ∧
          (names (inserted response)).Nodup := by
  rw [request_transparent_iff, response_transparent_iff]

/-- Two cookies are set and one is lost; a header that `Connection` names is
    sent on; a request without `Accept` gets one; proxy credentials are
    dropped that nothing nominates. -/
theorem relay_headers_not_transparent :
    relay_response_headers false false
        [("content-length", [0x30]), ("set-cookie", [0x61]), ("set-cookie", [0x62])]
      = [("content-length", [0x30]), ("set-cookie", [0x62])] ∧
    ¬ ResponseTransparent false false
        [("content-length", [0x30]), ("set-cookie", [0x61]), ("set-cookie", [0x62])] ∧
    relay_request_headers client_headers none
        [("accept", [0x2A]), ("connection", "close, X-Hop".toUTF8.data.toList), ("x-hop", [0x31])]
      = [("accept", [0x2A]), ("x-hop", [0x31])] ∧
    ¬ RequestTransparent client_headers none
        [("accept", [0x2A]), ("connection", "close, X-Hop".toUTF8.data.toList), ("x-hop", [0x31])] ∧
    relay_request_headers client_headers none [("x-api-key", [0x6B])]
      = [("x-api-key", [0x6B]), ("accept", utf8_bytes "*/*")] ∧
    ¬ RequestTransparent client_headers none [("x-api-key", [0x6B])] ∧
    ¬ RequestTransparent client_headers none
        [("accept", [0x2A]), ("proxy-authorization", [0x6B])] := by
  refine ⟨by decide, ?_, by decide, ?_, by decide, ?_, ?_⟩
  · unfold ResponseTransparent
    decide
  · unfold RequestTransparent
    decide
  · unfold RequestTransparent
    decide
  · unfold RequestTransparent
    decide

end AgentTraceGateway
