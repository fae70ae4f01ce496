import AgentTraceGateway.Lib.Text
import Mathlib.Data.List.TakeDrop

/-! # URLs of the HTTP Client

  The relay hands its HTTP client a URL as text. The library that parses it
  is a parameter, known by what its documentation says of `http` and `https`
  URLs: the authority ends at a slash, a backslash, a question mark or a
  hash; host and path are brought into normal form, each by itself; a host or
  a port that cannot be read makes the text no URL at all. A parser of plain
  URLs shows that this can be had. -/

namespace AgentTraceGateway

/-! ### What is asked of the library -/

/-- What a request is sent by: the host in its normal form, the port, also
    where it is the scheme's own, and path and query in their normal form. -/
structure Url where
  host : String
  port : Nat
  path : String
  deriving DecidableEq, Repr

/-- `host:port`. -/
def Url.authority (url : Url) : String := url.host ++ ":" ++ toString url.port

/-- The characters that end an authority. -/
def is_delimiter (c : Char) : Bool := c == '/' || c == '\\' || c == '?' || c == '#'

def Undelimited (text : String) : Prop := ∀ c ∈ text.toList, is_delimiter c = false

instance (text : String) : Decidable (Undelimited text) :=
  decidable_of_iff (text.toList.all (fun c => !is_delimiter c) = true) (by simp [Undelimited])

/-- A text that may follow an authority. -/
def Delimited (text : String) : Prop := ∀ c ∈ text.toList.head?, is_delimiter c = true

/-- The characters that no name and no IPv4 address has. -/
def is_forbidden (c : Char) : Bool :=
  is_delimiter c || c == '@' || c == ':' || c == '[' || c == ']'

/-- A host as the client writes it: a name or an IPv4 address, or an IPv6
    address in brackets. -/
inductive HostWritten (host : String) : Prop where
  | name (h : ∀ c ∈ host.toList, is_forbidden c = false)
  | literal (address : List Char) (hhost : host.toList = '[' :: (address ++ [']']))
      (hcolon : ':' ∈ address)
      (h : ∀ c ∈ address, c = ':' ∨ is_forbidden c = false)

/-- The scheme of a URL that the client can send a request by. -/
def IsHttp (scheme : String) : Prop := scheme = "http" ∨ scheme = "https"

/-- The URL library. `read_host` reads what stands before the port, which may
    be user information and a host; `read_path` what follows the authority. -/
structure UrlParser where
  parse : String → Option Url
  read_host : String → Option String
  read_path : String → String
  parse_url : ∀ {scheme host rest : String} {port : Nat}, IsHttp scheme → Undelimited host →
    port < 65536 → Delimited rest →
      parse (scheme ++ "://" ++ host ++ ":" ++ toString port ++ rest)
        = (read_host host).map fun h => ⟨h, port, read_path rest⟩
  parsed_host : ∀ {scheme text : String} {url : Url}, IsHttp scheme →
    parse (scheme ++ "://" ++ text) = some url → HostWritten url.host
  /-- Outside of brackets a colon ends the host, and a second one the port. -/
  colon_refused : ∀ {host : String}, ':' ∈ host.toList → '@' ∉ host.toList →
    '[' ∉ host.toList → read_host host = none
  /-- An asterisk is no part of a port. -/
  star_refused : ∀ {scheme host : String} {port : Nat}, IsHttp scheme → Undelimited host →
    parse (scheme ++ "://" ++ host ++ ":" ++ toString port ++ "*") = none

/-! ### Plain URLs -/

/-- The digits of a port delimit nothing. -/
theorem port_digits {port : Nat} {c : Char} (h : c ∈ (toString port).toList) :
    c ≠ ':' ∧ is_delimiter c = false := by
  have hdigit := Text.digits_of_nat h
  constructor
  · rintro rfl
    cases hdigit
  · unfold is_delimiter
    by_contra hdelim
    simp only [Bool.not_eq_false, Bool.or_eq_true, beq_iff_eq] at hdelim
    rcases hdelim with ((rfl | rfl) | rfl) | rfl <;> cases hdigit

/-- A lowercase name or an IPv4 address. -/
def is_plain (c : Char) : Bool :=
  (0x61 ≤ c.toNat && c.toNat ≤ 0x7A) || Text.is_ascii_digit c || c == '.' || c == '-'

def read_plain_host (host : String) : Option String :=
  if host ≠ "" ∧ host.toList.all is_plain then some host else none

/-- A path without dot segments is kept. -/
def read_plain_path (rest : String) : String := if rest = "" then "/" else rest

/-- The authority behind a scheme, read from its last colon. -/
def parse_plain (text : String) : Option Url :=
  (Text.split_once "://".toList text.toList).bind fun (_, text) =>
    (Text.rsplit_once ':' (text.takeWhile (!is_delimiter ·))).bind fun (host, port) =>
      if port.all Text.is_ascii_digit then
        (Text.parse_uint 65536 (String.ofList port)).bind fun port =>
          (read_plain_host (String.ofList host)).map fun host =>
            ⟨host, port, read_plain_path (String.ofList (text.dropWhile (!is_delimiter ·)))⟩
      else none

theorem is_plain_not_forbidden {c : Char} (h : is_plain c = true) : is_forbidden c = false := by
  by_contra hforbidden
  simp only [Bool.not_eq_false, is_forbidden, is_delimiter, Bool.or_eq_true, beq_iff_eq]
    at hforbidden
  rcases hforbidden with ((((((rfl | rfl) | rfl) | rfl) | rfl) | rfl) | rfl) | rfl <;> cases h

/-- A plain host is kept as it is. -/
theorem read_plain_host_eq {host h : String} (hread : read_plain_host host = some h) :
    host = h ∧ ∀ c ∈ host.toList, is_plain c = true := by
  unfold read_plain_host at hread
  split at hread
  · rename_i hplain
    cases hread
    exact ⟨rfl, List.all_eq_true.mp hplain.2⟩
  · cases hread

theorem split_once_scheme {scheme : String} (hscheme : IsHttp scheme) (text : List Char) :
    Text.split_once "://".toList (scheme.toList ++ "://".toList ++ text)
      = some (scheme.toList, text) := by
  rcases hscheme with rfl | rfl
  · show Text.split_once [':', '/', '/']
      ('h' :: 't' :: 't' :: 'p' :: ':' :: '/' :: '/' :: text) = _
    simp [Text.split_once, Text.strip_prefix_chars, List.dropPrefix?]
  · show Text.split_once [':', '/', '/']
      ('h' :: 't' :: 't' :: 'p' :: 's' :: ':' :: '/' :: '/' :: text) = _
    simp [Text.split_once, Text.strip_prefix_chars, List.dropPrefix?]

/-- An authority ends where the text behind it starts. -/
theorem authority_span {front rest : List Char} (hfront : ∀ c ∈ front, is_delimiter c = false)
    (hrest : ∀ c ∈ rest.head?, is_delimiter c = true) :
    (front ++ rest).takeWhile (!is_delimiter ·) = front ∧
      (front ++ rest).dropWhile (!is_delimiter ·) = rest := by
  have hkept : ∀ c ∈ front, (!is_delimiter c) = true := fun c hc => by rw [hfront c hc]; rfl
  rw [List.takeWhile_append_of_pos hkept, List.dropWhile_append_of_pos hkept]
  cases rest with
  | nil => exact ⟨List.append_nil _, rfl⟩
  | cons c rest =>
    have hc : is_delimiter c = true := hrest c rfl
    simp [hc]

/-- The parts of a plain URL, whatever stands where the port should. -/
theorem parse_plain_eq {scheme host port rest : String} (hscheme : IsHttp scheme)
    (hhost : Undelimited host) (hport : ∀ c ∈ port.toList, c ≠ ':' ∧ is_delimiter c = false)
    (hrest : Delimited rest) :
    parse_plain (scheme ++ "://" ++ host ++ ":" ++ port ++ rest) =
      if port.toList.all Text.is_ascii_digit then
        (Text.parse_uint 65536 port).bind fun port =>
          (read_plain_host host).map fun h => ⟨h, port, read_plain_path rest⟩
      else none := by
  have htext : (scheme ++ "://" ++ host ++ ":" ++ port ++ rest).toList
      = scheme.toList ++ "://".toList ++ ((host.toList ++ ':' :: port.toList) ++ rest.toList) := by
    simp [String.toList_append]
  have hfront : ∀ c ∈ host.toList ++ ':' :: port.toList, is_delimiter c = false := by
    intro c hc
    rcases List.mem_append.mp hc with hc | hc
    · exact hhost c hc
    · rcases List.mem_cons.mp hc with rfl | hc
      · rfl
      · exact (hport c hc).2
  obtain ⟨htake, hdrop⟩ := authority_span hfront hrest
  unfold parse_plain
  rw [htext, split_once_scheme hscheme, Option.bind_some]
  dsimp only
  rw [htake, hdrop, Text.rsplit_once_last (fun hmem => (hport ':' hmem).1 rfl), Option.bind_some]
  dsimp only
  rw [String.ofList_toList, String.ofList_toList, String.ofList_toList]

theorem toString_all_digits (n : Nat) : (toString n).toList.all Text.is_ascii_digit = true := by
  rw [List.all_eq_true]
  intro c hc
  have hdigit := Text.digits_of_nat hc
  rw [Char.isDigit_iff_toNat] at hdigit
  simpa [Text.is_ascii_digit] using hdigit

/-- The library as far as plain URLs go. -/
def plain_urls : UrlParser where
  parse := parse_plain
  read_host := read_plain_host
  read_path := read_plain_path
  parse_url := by
    intro scheme host rest port hscheme hhost hport hrest
    rw [parse_plain_eq hscheme hhost (fun _ => port_digits) hrest, if_pos (toString_all_digits port),
      Text.parse_uint_number hport, Option.bind_some]
  parsed_host := by
    intro scheme text url _ hparse
    obtain ⟨parts, -, hparse⟩ := Option.bind_eq_some_iff.mp hparse
    obtain ⟨⟨host, port⟩, -, hparse⟩ := Option.bind_eq_some_iff.mp hparse
    dsimp only at hparse
    split at hparse
    · obtain ⟨port, -, hparse⟩ := Option.bind_eq_some_iff.mp hparse
      obtain ⟨h, hread, rfl⟩ := Option.map_eq_some_iff.mp hparse
      obtain ⟨rfl, hplain⟩ := read_plain_host_eq hread
      exact .name fun c hc => is_plain_not_forbidden (hplain c hc)
    · cases hparse
  colon_refused := by
    intro host hcolon _ _
    by_contra hsome
    obtain ⟨h, hread⟩ := Option.ne_none_iff_exists'.mp hsome
    exact absurd ((read_plain_host_eq hread).2 ':' hcolon) (by decide)
  star_refused := by
    intro scheme host port hscheme hhost
    have hport : ∀ c ∈ (toString port ++ "*").toList, c ≠ ':' ∧ is_delimiter c = false := by
      intro c hc
      rw [String.toList_append, List.mem_append] at hc
      rcases hc with hc | hc
      · exact port_digits hc
      · rw [List.mem_singleton.mp hc]
        decide
    have hempty : Delimited "" := nofun
    have hparts := parse_plain_eq hscheme hhost hport hempty
    rw [String.append_empty, ← String.append_assoc] at hparts
    rw [hparts, if_neg]
    intro hall
    have hstar : '*' ∈ (toString port ++ "*").toList := by simp [String.toList_append]
    exact absurd (List.all_eq_true.mp hall '*' hstar) (by decide)

end AgentTraceGateway
