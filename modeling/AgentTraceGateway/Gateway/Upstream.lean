import AgentTraceGateway.Config
import AgentTraceGateway.Gateway.ClientUrl

/-! # Two Ways to the Upstream

  A request reaches the upstream on one of two paths. The pump connects to
  an address and sends the request path on as it came; the owned relay
  builds a URL from the same parsed upstream and leaves it to its client to
  read it. Both name the address the same way only for some upstreams, and
  the relay puts a base path in front of the request path.

  A socket address is given by the text it was resolved from; whether a text
  resolves is a parameter. A pinned client is taken to be built, and is the
  cached one when its pin has not changed; which hosts its pin serves is a
  parameter. -/

namespace AgentTraceGateway

/-! ### The pump -/

/-- `host:port`, with an IPv6 literal in brackets. -/
def hostport (host : String) (port : Nat) : String :=
  if host.toList.contains ':' then "[" ++ host ++ "]:" ++ toString port
  else host ++ ":" ++ toString port

/-- What the pump connects to. -/
structure HttpPeer where
  address : String
  tls : Bool
  sni : String
  deriving DecidableEq, Repr

/-- `upstream_peer`. -/
def upstream_peer (server : Config.Server) : HttpPeer :=
  let upstream := parse_upstream server.upstream
  { address := hostport upstream.host upstream.port
    tls := upstream.scheme == "https"
    sni :=
      match Text.trim server.sni with
      | "" => upstream.host
      | s => s }

theorem upstream_peer_address (server : Config.Server) :
    (upstream_peer server).address
      = hostport (parse_upstream server.upstream).host (parse_upstream server.upstream).port := by
  unfold upstream_peer
  dsimp only

/-! ### The relay -/

/-- The name that is pinned and the address it is pinned to. -/
def sni_resolve_entry (resolves : String → Bool) (upstream : String) (sni : Option String) :
    Option (String × String) :=
  let parsed := parse_upstream upstream
  if parsed.scheme ≠ "https" then none
  else sni.bind fun sni_host =>
    if sni_host = parsed.host then none
    else
      let address := hostport parsed.host parsed.port
      if resolves address then some (sni_host, address) else none

/-- The URL base, the Host override and the client's pin. -/
structure RelayTarget where
  base : String
  host : Option String
  pin : Option (String × String)
  deriving DecidableEq, Repr

def relay_target (resolves : String → Bool) (server : Config.Server) : RelayTarget :=
  let sni := Text.trim server.sni
  let sni := if sni = "" then none else some sni
  let upstream := parse_upstream server.upstream
  match sni_resolve_entry resolves server.upstream sni with
  | some (name, address) =>
    { base := upstream.scheme ++ "://" ++ name ++ ":" ++ toString upstream.port ++ upstream.path
      host := some name
      pin := some (name, address) }
  | none =>
    { base := upstream.scheme ++ "://" ++ upstream.host ++ ":" ++ toString upstream.port
        ++ upstream.path
      host := sni
      pin := none }

/-! ### Where a request goes -/

/-- Path and query of a request target: empty, an asterisk, or started by a
    slash or a question mark. -/
structure PathAndQuery where
  text : String
  shaped : text = "*" ∨ text.toList.head?.all (fun c => c == '/' || c == '?') = true
  deriving DecidableEq

def lowercase (text : String) : String := String.ofList (text.toList.map Text.ascii_lower)

/-- The address a request is sent to, and the path it asks for there. -/
structure SentTo where
  authority : String
  path : String
  deriving DecidableEq, Repr

/-- Hosts do not differ by case. -/
def SentTo.to (authority path : String) : SentTo := ⟨lowercase authority, path⟩

/-- On the pump path. -/
def pump_sends (server : Config.Server) (path_and_query : PathAndQuery) : SentTo :=
  .to (upstream_peer server).address path_and_query.text

/-- `HeaderValue::from_str`: any text without control characters but the tab. -/
def valid_header_value (text : String) : Bool :=
  (utf8_bytes text).all fun b => (0x20 ≤ b && b != 0x7F) || b == 0x09

section relay

variable (url : UrlParser) (overridden : String → String → Bool) (resolves : String → Bool)

/-- The URL of the relay's request; `none` when the builder fails: the text is
    no URL, or the Host override no header value. -/
def relay_url (server : Config.Server) (path_and_query : PathAndQuery) : Option Url :=
  let target := relay_target resolves server
  if target.host.all valid_header_value then url.parse (target.base ++ path_and_query.text)
  else none

/-- On the relay. A pin for a name overrides the address of the hosts it
    serves; a request that was not built is not sent. -/
def relay_sends (server : Config.Server) (path_and_query : PathAndQuery) : Option SentTo :=
  (relay_url url resolves server path_and_query).map fun url =>
    match (relay_target resolves server).pin with
    | some (name, address) =>
      if overridden name url.host then .to address url.path else .to url.authority url.path
    | none => .to url.authority url.path

end relay

/-! ### The relay's client -/

/-- The relay's client is pinned: https, with a name of its own for an
    address that resolves. -/
def Pinned (resolves : String → Bool) (server : Config.Server) : Prop :=
  let upstream := parse_upstream server.upstream
  upstream.scheme = "https" ∧ Text.trim server.sni ≠ "" ∧ Text.trim server.sni ≠ upstream.host ∧
    resolves (hostport upstream.host upstream.port) = true

instance (resolves : String → Bool) (server : Config.Server) :
    Decidable (Pinned resolves server) :=
  inferInstanceAs (Decidable (_ ∧ _ ∧ _ ∧ _))

section targets

variable {resolves : String → Bool} {server : Config.Server}

theorem relay_target_pinned (h : Pinned resolves server) :
    relay_target resolves server =
      { base := (parse_upstream server.upstream).scheme ++ "://" ++ Text.trim server.sni ++ ":"
          ++ toString (parse_upstream server.upstream).port ++ (parse_upstream server.upstream).path
        host := some (Text.trim server.sni)
        pin := some (Text.trim server.sni, hostport (parse_upstream server.upstream).host
          (parse_upstream server.upstream).port) } := by
  obtain ⟨hscheme, hsni, hname, hresolves⟩ := h
  have hentry : sni_resolve_entry resolves server.upstream
      (if Text.trim server.sni = "" then none else some (Text.trim server.sni))
      = some (Text.trim server.sni, hostport (parse_upstream server.upstream).host
          (parse_upstream server.upstream).port) := by
    unfold sni_resolve_entry
    dsimp only
    rw [if_neg (not_not_intro hscheme), if_neg hsni, Option.bind_some, if_neg hname,
      if_pos hresolves]
  unfold relay_target
  dsimp only
  rw [hentry]

theorem relay_target_unpinned (h : ¬ Pinned resolves server) :
    (relay_target resolves server).pin = none ∧
      (relay_target resolves server).base =
        (parse_upstream server.upstream).scheme ++ "://" ++ (parse_upstream server.upstream).host
          ++ ":" ++ toString (parse_upstream server.upstream).port
          ++ (parse_upstream server.upstream).path ∧
      (relay_target resolves server).host =
        if Text.trim server.sni = "" then none else some (Text.trim server.sni) := by
  have hentry : sni_resolve_entry resolves server.upstream
      (if Text.trim server.sni = "" then none else some (Text.trim server.sni)) = none := by
    unfold sni_resolve_entry
    dsimp only
    by_cases hscheme : (parse_upstream server.upstream).scheme = "https"
    · rw [if_neg (not_not_intro hscheme)]
      by_cases hsni : Text.trim server.sni = ""
      · rw [if_pos hsni, Option.bind_none]
      · rw [if_neg hsni, Option.bind_some]
        by_cases hname : Text.trim server.sni = (parse_upstream server.upstream).host
        · rw [if_pos hname]
        · rw [if_neg hname, if_neg]
          exact fun hresolves => h ⟨hscheme, hsni, hname, hresolves⟩
    · rw [if_pos hscheme]
  unfold relay_target
  dsimp only
  rw [hentry]
  exact ⟨rfl, rfl, rfl⟩

/-- The SNI is the Host header, pinned or not. -/
theorem relay_target_host (resolves : String → Bool) (server : Config.Server) :
    (relay_target resolves server).host.all valid_header_value
      = valid_header_value (Text.trim server.sni) := by
  have hempty : valid_header_value "" = true := by decide
  by_cases hpinned : Pinned resolves server
  · rw [relay_target_pinned hpinned]
    rfl
  · rw [(relay_target_unpinned hpinned).2.2]
    split
    · rename_i hsni
      rw [hsni]
      exact hempty.symm
    · rfl

theorem relay_url_iff {url : UrlParser} {path : PathAndQuery} {read : Url} :
    relay_url url resolves server path = some read ↔
      valid_header_value (Text.trim server.sni) = true ∧
        url.parse ((relay_target resolves server).base ++ path.text) = some read := by
  unfold relay_url
  dsimp only
  rw [relay_target_host]
  split
  · rename_i hvalid
    exact (and_iff_right hvalid).symm
  · rename_i hvalid
    exact iff_of_false nofun fun h => hvalid h.1

theorem relay_url_exists_iff {url : UrlParser} {path : PathAndQuery} {sends : Url → Prop} :
    (∃ read, relay_url url resolves server path = some read ∧ sends read) ↔
      valid_header_value (Text.trim server.sni) = true ∧
        ∃ read, url.parse ((relay_target resolves server).base ++ path.text) = some read ∧
          sends read := by
  simp only [relay_url_iff, and_assoc, exists_and_left]

end targets

/-! ### Texts -/

theorem lowercase_eq_iff {a b : String} :
    lowercase a = lowercase b ↔ a.toList.map Text.ascii_lower = b.toList.map Text.ascii_lower := by
  unfold lowercase
  exact ⟨fun h => String.ofList_injective h, congrArg String.ofList⟩

/-- Letters are not forbidden in a host, and nothing else changes case. -/
theorem ascii_lower_forbidden (c : Char) :
    is_forbidden (Text.ascii_lower c) = is_forbidden c ∧
      (is_forbidden c = true → Text.ascii_lower c = c) := by
  by_cases hupper : (0x41 ≤ c.toNat && c.toNat ≤ 0x5A) = true
  · have hletters : ∀ n ∈ List.range' 0x41 26, is_forbidden (Char.ofNat (n + 0x20)) = false ∧
        is_forbidden (Char.ofNat n) = false := by decide
    have hrange : c.toNat ∈ List.range' 0x41 26 := by
      simp only [Bool.and_eq_true, decide_eq_true_eq] at hupper
      rw [List.mem_range'_1]
      omega
    obtain ⟨hlower, hsame⟩ := hletters c.toNat hrange
    rw [Char.ofNat_toNat] at hsame
    unfold Text.ascii_lower
    rw [if_pos hupper, hlower, hsame]
    exact ⟨rfl, nofun⟩
  · unfold Text.ascii_lower
    rw [if_neg hupper]
    exact ⟨rfl, fun _ => rfl⟩

/-- Texts that differ by case have the same forbidden characters. -/
theorem forbidden_of_lowercase {a b : List Char}
    (h : a.map Text.ascii_lower = b.map Text.ascii_lower) {c : Char} (hc : c ∈ a)
    (hforbidden : is_forbidden c = true) : c ∈ b := by
  have hmem : Text.ascii_lower c ∈ b.map Text.ascii_lower := h ▸ List.mem_map_of_mem hc
  obtain ⟨d, hd, hsame⟩ := List.mem_map.mp hmem
  have hd' : is_forbidden d = true := by
    rw [← (ascii_lower_forbidden d).1, hsame, (ascii_lower_forbidden c).1]
    exact hforbidden
  rw [(ascii_lower_forbidden d).2 hd', (ascii_lower_forbidden c).2 hforbidden] at hsame
  exact hsame ▸ hd

/-- The digits of a port have no case. -/
theorem port_lowercase (port : Nat) :
    (toString port).toList.map Text.ascii_lower = (toString port).toList := by
  have hkept : ∀ c ∈ (toString port).toList, Text.ascii_lower c = id c := by
    intro c hc
    have hdigit := Text.digits_of_nat hc
    rw [Char.isDigit_iff_toNat] at hdigit
    have hnine : '9'.toNat = 0x39 := rfl
    unfold Text.ascii_lower
    rw [if_neg]
    · rfl
    · simp only [Bool.and_eq_true, decide_eq_true_eq, not_and]
      omega
  rw [List.map_congr_left hkept, List.map_id]

/-- Two addresses differ by case if their hosts do. -/
theorem address_lowercase_iff {a b : String} {m n : Nat} :
    lowercase (a ++ ":" ++ toString m) = lowercase (b ++ ":" ++ toString n) ↔
      lowercase a = lowercase b ∧ m = n := by
  have hparts : ∀ (host : String) (port : Nat),
      Text.rsplit_once ':' ((host ++ ":" ++ toString port).toList.map Text.ascii_lower)
        = some (host.toList.map Text.ascii_lower, (toString port).toList) := by
    intro host port
    have htext : (host ++ ":" ++ toString port).toList.map Text.ascii_lower
        = host.toList.map Text.ascii_lower ++ ':' :: (toString port).toList := by
      rw [String.toList_append, String.toList_append, List.map_append, List.map_append,
        port_lowercase, List.append_assoc]
      rfl
    rw [htext, Text.rsplit_once_last fun hmem => (port_digits hmem).1 rfl]
  rw [lowercase_eq_iff, lowercase_eq_iff]
  constructor
  · intro h
    have hsplit := hparts a m
    rw [h, hparts b n, Option.some.injEq, Prod.mk.injEq] at hsplit
    exact ⟨hsplit.1.symm, Text.toString_chars_inj hsplit.2.symm⟩
  · rintro ⟨h, rfl⟩
    simp only [String.toList_append, List.map_append, h]

/-! ### What the client reads -/

section read

variable {url : UrlParser} {scheme base : String}

/-- A base path and a request path follow an authority, unless there is only
    an asterisk. -/
theorem delimited_path (hbase : base.toList = [] ∨ ∃ rest, base.toList = '/' :: rest)
    (path : PathAndQuery) (hstar : base ++ path.text ≠ "*") : Delimited (base ++ path.text) := by
  unfold Delimited
  rw [String.toList_append]
  rcases hbase with hnil | ⟨rest, hcons⟩
  · have hempty := String.toList_eq_nil_iff.mp hnil
    rw [hnil, List.nil_append]
    rcases path.shaped with hall | hshaped
    · rw [hempty, hall] at hstar
      exact absurd rfl hstar
    · intro c hc
      rw [Option.mem_def.mp hc, Option.all_some] at hshaped
      rw [Bool.or_eq_true, beq_iff_eq, beq_iff_eq] at hshaped
      rcases hshaped with rfl | rfl <;> rfl
  · rw [hcons]
    rintro c ⟨⟩
    rfl

/-- What the client makes of the relay's URL. -/
theorem parse_relay_url (hscheme : IsHttp scheme)
    (hbase : base.toList = [] ∨ ∃ rest, base.toList = '/' :: rest) {host : String}
    (hhost : Undelimited host) {port : Nat} (hport : port < 65536) (path : PathAndQuery) :
    url.parse (scheme ++ "://" ++ host ++ ":" ++ toString port ++ base ++ path.text)
      = if base ++ path.text = "*" then none
        else (url.read_host host).map fun h => ⟨h, port, url.read_path (base ++ path.text)⟩ := by
  rw [String.append_assoc]
  split
  · rename_i hstar
    rw [hstar]
    exact url.star_refused hscheme hhost
  · rename_i hstar
    exact url.parse_url hscheme hhost hport (delimited_path hbase path hstar)

theorem parsed_relay_host (hscheme : IsHttp scheme) {host path : String} {port : Nat} {read : Url}
    (hread : url.parse (scheme ++ "://" ++ host ++ ":" ++ toString port ++ base ++ path)
      = some read) : HostWritten read.host := by
  have hurl : scheme ++ "://" ++ host ++ ":" ++ toString port ++ base ++ path
      = scheme ++ "://" ++ (host ++ ":" ++ toString port ++ base ++ path) := by
    simp only [String.append_assoc]
  rw [hurl] at hread
  exact url.parsed_host hscheme hread

end read

/-! ### When both paths agree -/

section agree

variable (url : UrlParser) (overridden : String → String → Bool) (resolves : String → Bool)

/-- Base path and request path together read back as the request path. -/
def PathKept (base : String) (path : PathAndQuery) : Prop :=
  base ++ path.text ≠ "*" ∧ url.read_path (base ++ path.text) = path.text

/-- A client with a pin for the SNI sends by this URL to the upstream's
    address: the pin serves its host, or it is the address itself. -/
def Reaches (server : Config.Server) (url : Url) : Prop :=
  overridden (Text.trim server.sni) url.host = true ∨
    lowercase url.authority = lowercase (upstream_peer server).address

/-- When both paths send a request to the same place. -/
def SameUpstream (server : Config.Server) (path : PathAndQuery) : Prop :=
  let upstream := parse_upstream server.upstream
  let sni := Text.trim server.sni
  valid_header_value sni = true ∧
  if Pinned resolves server then
    if Undelimited sni then
      PathKept url upstream.path path ∧ ∃ h, url.read_host sni = some h ∧
        Reaches overridden server ⟨h, upstream.port, path.text⟩
    else
      -- the SNI brings a path or a query of its own into the URL
      ∃ read, url.parse ((relay_target resolves server).base ++ path.text) = some read ∧
        read.path = path.text ∧ Reaches overridden server read
  else
    PathKept url upstream.path path ∧ ':' ∉ upstream.host.toList ∧ Undelimited upstream.host ∧
      ∃ h, url.read_host upstream.host = some h ∧ lowercase h = lowercase upstream.host

variable {url overridden resolves}

theorem sent_to_iff {a b p q : String} :
    SentTo.to a p = .to b q ↔ p = q ∧ lowercase a = lowercase b := by
  unfold SentTo.to
  rw [SentTo.mk.injEq]
  exact and_comm

/-- Where a pinned client sends. -/
theorem relay_sends_pinned {server : Config.Server} {path : PathAndQuery}
    (h : Pinned resolves server) :
    relay_sends url overridden resolves server path = some (pump_sends server path) ↔
      ∃ read, relay_url url resolves server path = some read ∧
        read.path = path.text ∧ Reaches overridden server read := by
  have haddress := upstream_peer_address server
  unfold relay_sends pump_sends
  rw [Option.map_eq_some_iff]
  refine exists_congr fun read => and_congr_right fun _ => ?_
  rw [relay_target_pinned h]
  dsimp only
  rw [← haddress]
  unfold Reaches
  by_cases hserved : overridden (Text.trim server.sni) read.host = true
  · rw [if_pos hserved, sent_to_iff]
    simp [hserved]
  · rw [if_neg hserved, sent_to_iff]
    simp [hserved]

/-- Where a client without a pin sends. -/
theorem relay_sends_unpinned {server : Config.Server} {path : PathAndQuery}
    (h : ¬ Pinned resolves server) :
    relay_sends url overridden resolves server path = some (pump_sends server path) ↔
      ∃ read, relay_url url resolves server path = some read ∧ read.path = path.text ∧
        lowercase read.authority = lowercase (upstream_peer server).address := by
  unfold relay_sends pump_sends
  rw [Option.map_eq_some_iff, (relay_target_unpinned h).1]
  exact exists_congr fun read => and_congr_right fun _ => sent_to_iff

theorem hostport_colon {host : String} {port : Nat} (h : ':' ∈ host.toList) :
    hostport host port = "[" ++ host ++ "]" ++ ":" ++ toString port := by
  have hbracket : "]:" = "]" ++ ":" := rfl
  unfold hostport
  rw [if_pos (List.contains_iff_mem.mpr h), hbracket, ← String.append_assoc]

theorem hostport_plain {host : String} {port : Nat} (h : ':' ∉ host.toList) :
    hostport host port = host ++ ":" ++ toString port := by
  unfold hostport
  rw [if_neg fun hcontains => h (List.contains_iff_mem.mp hcontains)]

/-- An IPv6 address without its brackets is no host of a URL, and with them it
    is not what the relay wrote. -/
theorem bracketed_refused {host h : String} (hwritten : HostWritten h)
    (hcolon : ':' ∈ host.toList) (hsame : lowercase h = lowercase ("[" ++ host ++ "]")) :
    Undelimited host ∧ url.read_host host = none := by
  have htexts : h.toList.map Text.ascii_lower
      = '[' :: (host.toList.map Text.ascii_lower ++ [']']) := by
    rw [lowercase_eq_iff.mp hsame, String.toList_append, String.toList_append, List.map_append,
      List.map_append]
    rfl
  cases hwritten with
  | name hname =>
    -- the bracket would be a character of the name
    have hsame : ('[' :: (host.toList ++ [']'])).map Text.ascii_lower
        = h.toList.map Text.ascii_lower := by
      rw [htexts, List.map_cons, List.map_append]
      rfl
    have hmem := forbidden_of_lowercase hsame List.mem_cons_self rfl
    exact absurd (hname '[' hmem) (by decide)
  | literal address hhost _ hchars =>
    have haddress : address.map Text.ascii_lower = host.toList.map Text.ascii_lower := by
      rw [hhost, List.map_cons, List.map_append] at htexts
      exact List.append_cancel_right (List.cons.inj htexts).2
    have hcolons : ∀ c ∈ host.toList, is_forbidden c = true → c = ':' := by
      intro c hc hforbidden
      rcases hchars c (forbidden_of_lowercase haddress.symm hc hforbidden) with hcolon | hfree
      · exact hcolon
      · rw [hfree] at hforbidden
        cases hforbidden
    refine ⟨?_, url.colon_refused hcolon ?_ ?_⟩
    · intro c hc
      by_contra hdelim
      have hforbidden : is_forbidden c = true := by
        unfold is_forbidden
        rw [Bool.not_eq_false] at hdelim
        simp [hdelim]
      rw [hcolons c hc hforbidden] at hdelim
      exact hdelim rfl
    · intro hat
      exact absurd (hcolons '@' hat rfl) (by decide)
    · intro hopen
      exact absurd (hcolons '[' hopen rfl) (by decide)

/-- A host that reads back as it is has none of the forbidden characters. -/
theorem unforbidden_of_lowercase {host h : String} (hwritten : HostWritten h)
    (hcolon : ':' ∉ host.toList) (hsame : lowercase h = lowercase host) :
    ∀ c ∈ host.toList, is_forbidden c = false := by
  have htexts := lowercase_eq_iff.mp hsame
  cases hwritten with
  | name hname =>
    intro c hc
    by_contra hforbidden
    rw [Bool.not_eq_false] at hforbidden
    have hfree := hname c (forbidden_of_lowercase htexts.symm hc hforbidden)
    rw [hfree] at hforbidden
    cases hforbidden
  | literal address hhost hmem _ =>
    refine absurd (forbidden_of_lowercase htexts ?_ rfl) hcolon
    rw [hhost]
    exact List.mem_cons_of_mem _ (List.mem_append_left _ hmem)

theorem undelimited_of_unforbidden {host : String} (h : ∀ c ∈ host.toList, is_forbidden c = false) :
    Undelimited host := by
  intro c hc
  have hfree := h c hc
  unfold is_forbidden at hfree
  simp only [Bool.or_eq_false_iff] at hfree
  exact hfree.1.1.1.1

/-- Where the client reads the relay's URL from its parts. -/
theorem parse_relay_url_iff {scheme base : String} (hscheme : IsHttp scheme)
    (hbase : base.toList = [] ∨ ∃ rest, base.toList = '/' :: rest) {host : String}
    (hhost : Undelimited host) {port : Nat} (hport : port < 65536) (path : PathAndQuery)
    (sends : Url → Prop) :
    (∃ read, url.parse (scheme ++ "://" ++ host ++ ":" ++ toString port ++ base ++ path.text)
        = some read ∧ read.path = path.text ∧ sends read) ↔
      PathKept url base path ∧ ∃ h, url.read_host host = some h ∧ sends ⟨h, port, path.text⟩ := by
  rw [parse_relay_url hscheme hbase hhost hport path]
  unfold PathKept
  by_cases hstar : base ++ path.text = "*"
  · rw [if_pos hstar]
    refine iff_of_false ?_ fun h => h.1.1 hstar
    rintro ⟨read, ⟨⟩, -⟩
  · rw [if_neg hstar]
    constructor
    · rintro ⟨read, hread, hpath, hsends⟩
      obtain ⟨h, hhost, rfl⟩ := Option.map_eq_some_iff.mp hread
      rw [show url.read_path (base ++ path.text) = path.text from hpath] at hsends
      exact ⟨⟨hstar, hpath⟩, h, hhost, hsends⟩
    · rintro ⟨⟨-, hpath⟩, h, hhost, hsends⟩
      refine ⟨_, congrArg (Option.map _) hhost, hpath, ?_⟩
      show sends ⟨h, port, url.read_path (base ++ path.text)⟩
      rw [hpath]
      exact hsends

/-- The relay sends a request where the pump would, if and only if its client
    takes the URL, the path is in normal form, and the name that the relay
    put into the URL reads as the upstream's, or as the pinned one. -/
theorem relay_sends_same_iff (url : UrlParser) (overridden : String → String → Bool)
    (resolves : String → Bool) (bench : Bool) (debug : String → String) (cfg : Config)
    (path : PathAndQuery) (h : validate bench debug cfg = .ok ()) :
    relay_sends url overridden resolves cfg.server path = some (pump_sends cfg.server path) ↔
      SameUpstream url overridden resolves cfg.server path := by
  have hscheme := parse_upstream_scheme (validate_upstream bench debug h)
  have hbase := parse_upstream_path cfg.server.upstream
  have hport := parse_upstream_port cfg.server.upstream
  unfold SameUpstream
  dsimp only
  by_cases hpinned : Pinned resolves cfg.server
  · -- The URL names the SNI.
    rw [if_pos hpinned, relay_sends_pinned hpinned, relay_url_exists_iff]
    refine and_congr_right fun _ => ?_
    split
    · rename_i hsni
      rw [relay_target_pinned hpinned]
      exact parse_relay_url_iff hscheme hbase hsni hport path _
    · exact Iff.rfl
  · -- The URL names the upstream itself, and its host is read once more.
    rw [if_neg hpinned, relay_sends_unpinned hpinned, relay_url_exists_iff,
      (relay_target_unpinned hpinned).2.1]
    refine and_congr_right fun _ => ?_
    have haddress := upstream_peer_address cfg.server
    constructor
    · rintro ⟨read, hread, hpath, hsame⟩
      have hwritten := parsed_relay_host hscheme hread
      by_cases hcolon : ':' ∈ (parse_upstream cfg.server.upstream).host.toList
      · -- no text with an IPv6 address outside of brackets is a URL
        rw [haddress, hostport_colon hcolon, Url.authority, address_lowercase_iff] at hsame
        obtain ⟨hplain, hnone⟩ : Undelimited (parse_upstream cfg.server.upstream).host ∧
            url.read_host (parse_upstream cfg.server.upstream).host = none :=
          bracketed_refused hwritten hcolon hsame.1
        obtain ⟨-, h, hhost, -⟩ := (parse_relay_url_iff hscheme hbase hplain hport path
          (fun _ => True)).mp ⟨read, hread, hpath, trivial⟩
        rw [hnone] at hhost
        cases hhost
      · rw [haddress, hostport_plain hcolon, Url.authority, address_lowercase_iff] at hsame
        have hplain := undelimited_of_unforbidden
          (unforbidden_of_lowercase hwritten hcolon hsame.1)
        obtain ⟨hkept, h, hhost, hlower⟩ := (parse_relay_url_iff hscheme hbase hplain hport path
          (fun read => lowercase read.host = lowercase (parse_upstream cfg.server.upstream).host)).mp
            ⟨read, hread, hpath, hsame.1⟩
        exact ⟨hkept, hcolon, hplain, h, hhost, hlower⟩
    · rintro ⟨hkept, hcolon, hplain, hread⟩
      obtain ⟨h, hhost, hsame⟩ := hread
      apply (parse_relay_url_iff hscheme hbase hplain hport path _).mpr
      refine ⟨hkept, h, hhost, ?_⟩
      rw [haddress, hostport_plain hcolon, Url.authority, address_lowercase_iff]
      exact ⟨hsame, rfl⟩

/-- Without a pin no request is built for an IPv6 address, whatever the
    library. -/
theorem relay_url_ipv6 {bench : Bool} {debug : String → String} {cfg : Config}
    (h : validate bench debug cfg = .ok ()) (hpinned : ¬ Pinned resolves cfg.server)
    (hhost : Undelimited (parse_upstream cfg.server.upstream).host)
    (hcolon : ':' ∈ (parse_upstream cfg.server.upstream).host.toList)
    (hat : '@' ∉ (parse_upstream cfg.server.upstream).host.toList)
    (hopen : '[' ∉ (parse_upstream cfg.server.upstream).host.toList) (path : PathAndQuery) :
    relay_url url resolves cfg.server path = none := by
  have hscheme := parse_upstream_scheme (validate_upstream bench debug h)
  have hbase := parse_upstream_path cfg.server.upstream
  have hport := parse_upstream_port cfg.server.upstream
  unfold relay_url
  dsimp only
  rw [(relay_target_unpinned hpinned).2.1, parse_relay_url hscheme hbase hhost hport path,
    url.colon_refused hcolon hat hopen, Option.map_none, ite_self, ite_self]

end agree

/-- The sample with another upstream and SNI. -/
def upstream_config (upstream sni : String) : Config :=
  { sample_config with server := { sample_config.server with upstream := upstream, sni := sni } }

/-- The path that the samples ask for. -/
def messages_target : PathAndQuery := ⟨"/v1/messages", by decide⟩

/-- A pin serves the host it is for. -/
def overridden_same (name host : String) : Bool := name == host

/-- An address with a name pinned to it, and a query. -/
theorem relay_sends_same_pinned :
    let server := (upstream_config "https://10.0.0.7:8443" "api.example.com").server
    let path : PathAndQuery := ⟨"/v1/messages?beta=true", by decide⟩
    relay_sends plain_urls overridden_same (fun _ => true) server path
      = some (pump_sends server path) := by
  intro server path
  apply (relay_sends_same_iff plain_urls overridden_same (fun _ => true) false id
    (upstream_config "https://10.0.0.7:8443" "api.example.com") path (by decide)).mpr
  unfold SameUpstream
  dsimp only
  rw [if_pos (by decide), if_pos (by decide)]
  exact ⟨by decide, ⟨by decide, by decide⟩, "api.example.com", by decide, Or.inl (by decide)⟩

/-- The relay keeps a base path that the pump drops, and writes an IPv6
    address without its brackets: its client does not take the URL. -/
theorem upstream_paths_diverge :
    validate false id (upstream_config "http://127.0.0.1:9090/llm" "") = .ok () ∧
      pump_sends (upstream_config "http://127.0.0.1:9090/llm" "").server messages_target
        = ⟨"127.0.0.1:9090", "/v1/messages"⟩ ∧
      relay_sends plain_urls overridden_same (fun _ => true)
        (upstream_config "http://127.0.0.1:9090/llm" "").server messages_target
          = some ⟨"127.0.0.1:9090", "/llm/v1/messages"⟩ ∧
      validate false id (upstream_config "http://[::1]:8443" "") = .ok () ∧
      pump_sends (upstream_config "http://[::1]:8443" "").server messages_target
        = ⟨"[::1]:8443", "/v1/messages"⟩ ∧
      relay_sends plain_urls overridden_same (fun _ => true)
        (upstream_config "http://[::1]:8443" "").server messages_target = none := by
  decide

end AgentTraceGateway
