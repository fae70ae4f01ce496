import AgentTraceGateway.Lib.Bytes
import AgentTraceGateway.Lib.Text
import Mathlib.Data.List.TakeDrop

/-! # The Configuration File

  `atg.toml`: its schema, the semantic validation of its values, and loading.
  The file is complete, so there are no defaults. Reading a file, parsing
  TOML and the `{:?}` form of a string are the world's: a load is given what
  reading returned, and `parse_toml` and `debug` stay parameters. -/

namespace AgentTraceGateway

/-- The one supported schema version. -/
def SCHEMA_VERSION : UInt32 := 1

namespace Config

structure Server where
  listen : String
  upstream : String
  sni : String
  worker_threads : UInt32
  max_ws_frame_payload : UInt64
  deriving DecidableEq, Repr

structure Trace where
  tag : String
  mode : String
  deriving DecidableEq, Repr

structure Drain where
  on_cancel : Bool
  timeout_secs : UInt64
  deriving DecidableEq, Repr

structure Capture where
  max_bytes : UInt64
  deriving DecidableEq, Repr

structure Store where
  max_records : UInt64
  max_bytes : UInt64
  deriving DecidableEq, Repr

structure Stitch where
  capacity : UInt64
  ttl_ms : UInt64
  deriving DecidableEq, Repr

structure ApiKey where
  salt : String
  deriving DecidableEq, Repr

structure Export where
  otlp_endpoint : String
  max_inflight : UInt64
  workers : UInt64
  deriving DecidableEq, Repr

end Config

structure Config where
  version : UInt32
  server : Config.Server
  trace : Config.Trace
  drain : Config.Drain
  capture : Config.Capture
  store : Config.Store
  stitch : Config.Stitch
  api_key : Config.ApiKey
  export_ : Config.Export
  deriving DecidableEq, Repr

/-- One configuration failure, with the file it was found in. -/
inductive ConfigError where
  | io (path : String) (source : String)
  | parse (path : String) (line col : Nat) (msg : String)
  | version (path : String) (found : UInt32)
  | invalid (path : String) (key : String) (reason : String)
  deriving DecidableEq, Repr

/-- Attach the file a semantic error was found in. -/
def ConfigError.at_path (path : String) : ConfigError → ConfigError
  | .version _ found => .version path found
  | .invalid _ key reason => .invalid path key reason
  | other => other

/-! ### Addresses -/

/-- The digits of a port that is not zero. -/
def valid_port (p : List Char) : Bool :=
  (Text.parse_uint 65536 (String.ofList p)).any fun v => 1 ≤ v

/-- `host:port`; an IPv6 literal is in brackets. -/
def valid_listen (listen : String) : Bool :=
  let parts :=
    match Text.strip_prefix_chars listen.toList ['['] with
    | some v6 =>
      (Text.split_once [']'] v6).bind fun (h, tail) =>
        (Text.strip_prefix_chars tail [':']).map fun p => (h, p)
    | none => Text.rsplit_once ':' listen.toList
  match parts with
  | none => false
  | some (host, port) => !(Text.trim_chars host).isEmpty && valid_port port

/-- The text before the first `/`, and the text from there on. -/
def split_path (rest : List Char) : List Char × List Char := rest.span (· != '/')

/-- The host of an authority and its port text, if there is one; `none` for a
    bracket that is not closed. -/
def authority_parts (authority : List Char) : Option (List Char × Option (List Char)) :=
  match Text.strip_prefix_chars authority ['['] with
  | some v6 =>
    (Text.split_once [']'] v6).map fun (h, tail) => (h, Text.strip_prefix_chars tail [':'])
  | none =>
    match Text.rsplit_once ':' authority with
    | some (h, p) => some (h, some p)
    | none => some (authority, none)

/-- `http(s)://...` or a bare `host[:port][/path]`. -/
def valid_upstream (upstream : String) : Bool :=
  let rest :=
    match Text.split_once "://".toList upstream.toList with
    | some (scheme, rest) =>
      if scheme = "http".toList ∨ scheme = "https".toList then some rest else none
    | none => some upstream.toList
  match rest with
  | none => false
  | some rest =>
    match authority_parts (split_path rest).1 with
    | none => false
    | some (host, port) =>
      !(Text.trim_chars host).isEmpty &&
        match port with
        | none => true
        | some p => valid_port p

/-- A parsed upstream. -/
structure Upstream where
  scheme : String
  host : String
  port : Nat
  path : String
  deriving DecidableEq, Repr

/-- The lowercase scheme and the text after it; http if there is none. -/
def split_scheme (upstream : String) : String × List Char :=
  match Text.split_once "://".toList upstream.toList with
  | some (s, r) => (String.ofList (s.map Text.ascii_lower), r)
  | none => ("http", upstream.toList)

/-- Host and port of an authority; without a usable port it is the default. -/
def split_host_port (default_port : Nat) (authority : List Char) : List Char × Nat :=
  match Text.strip_prefix_chars authority ['['] with
  | some v6 =>
    match Text.split_once [']'] v6 with
    | some (h, tail) =>
      (h, ((Text.strip_prefix_chars tail [':']).bind fun p =>
        Text.parse_uint 65536 (String.ofList p)).getD default_port)
    | none => (v6, default_port)
  | none =>
    match Text.rsplit_once ':' authority with
    | some (h, p) =>
      if !p.isEmpty && p.all Text.is_ascii_digit then
        (h, (Text.parse_uint 65536 (String.ofList p)).getD default_port)
      else (authority, default_port)
    | none => (authority, default_port)

/-- Scheme, host, port and base path. -/
def parse_upstream (upstream : String) : Upstream :=
  let (scheme, rest) := split_scheme upstream
  let (authority, path) := split_path rest
  let path := Text.trim_end_matches '/' path
  let default_port := if scheme = "https" then 443 else 80
  let (host, port) := split_host_port default_port authority
  { scheme := scheme, host := String.ofList host, port := port, path := String.ofList path }

example : parse_upstream "https://[::1]:8443/base/" = ⟨"https", "::1", 8443, "/base"⟩ := by decide

theorem split_path_eq (rest : List Char) :
    split_path rest = (rest.takeWhile (· != '/'), rest.dropWhile (· != '/')) :=
  List.span_eq_takeWhile_dropWhile _ rest

/-- A port fits its word. -/
theorem parse_upstream_port (upstream : String) : (parse_upstream upstream).port < 65536 := by
  have hparsed : ∀ (text : Option (List Char)) (default_port : Nat), default_port < 65536 →
      (text.bind fun p => Text.parse_uint 65536 (String.ofList p)).getD default_port < 65536 := by
    intro text default_port hdefault
    cases hn : text.bind fun p => Text.parse_uint 65536 (String.ofList p) with
    | none => exact hdefault
    | some n =>
      obtain ⟨p, -, hp⟩ := Option.bind_eq_some_iff.mp hn
      exact Text.parse_uint_lt hp
  have hport : ∀ (default_port : Nat) (authority : List Char), default_port < 65536 →
      (split_host_port default_port authority).2 < 65536 := by
    intro default_port authority hdefault
    unfold split_host_port
    split
    · split
      · exact hparsed _ _ hdefault
      · exact hdefault
    · split
      · rename_i p _
        split
        · exact hparsed (some p) _ hdefault
        · exact hdefault
      · exact hdefault
  show (split_host_port (if (split_scheme upstream).1 = "https" then 443 else 80)
    (split_path (split_scheme upstream).2).1).2 < 65536
  apply hport
  by_cases hscheme : (split_scheme upstream).1 = "https"
  · rw [if_pos hscheme]
    decide
  · rw [if_neg hscheme]
    decide

/-- A base path is empty or starts with a slash. -/
theorem parse_upstream_path (upstream : String) :
    (parse_upstream upstream).path.toList = [] ∨
      ∃ rest, (parse_upstream upstream).path.toList = '/' :: rest := by
  have hpath : (parse_upstream upstream).path.toList
      = ((split_scheme upstream).2.dropWhile (· != '/')).rdropWhile (· == '/') := by
    simp [parse_upstream, split_path_eq, Text.trim_end_matches]
  rw [hpath]
  cases hdrop : (split_scheme upstream).2.dropWhile (· != '/') with
  | nil => exact Or.inl rfl
  | cons c rest =>
    have hc : c = '/' := by
      have hhead := List.head_dropWhile_not (· != '/') (l := (split_scheme upstream).2)
        (by rw [hdrop]; exact List.cons_ne_nil c rest)
      simpa [hdrop] using hhead
    obtain ⟨tail, htail⟩ := List.rdropWhile_prefix (· == '/') (l := c :: rest)
    cases hleft : (c :: rest).rdropWhile (· == '/') with
    | nil => exact Or.inl rfl
    | cons c' rest' =>
      rw [hleft, List.cons_append] at htail
      rw [(List.cons.inj htail).1, hc]
      exact Or.inr ⟨rest', rfl⟩

/-- The scheme of a valid upstream. -/
theorem parse_upstream_scheme {upstream : String} (h : valid_upstream upstream = true) :
    (parse_upstream upstream).scheme = "http" ∨ (parse_upstream upstream).scheme = "https" := by
  show (split_scheme upstream).1 = "http" ∨ (split_scheme upstream).1 = "https"
  unfold split_scheme
  split
  · rename_i scheme rest hsplit
    have hscheme : scheme = "http".toList ∨ scheme = "https".toList := by
      by_contra hother
      simp only [valid_upstream, hsplit, if_neg hother] at h
      cases h
    rcases hscheme with rfl | rfl
    · exact Or.inl rfl
    · exact Or.inr rfl
  · exact Or.inl rfl

/-! ### Validation -/

/-- `trace.mode`: bench builds also know `off`. -/
def valid_trace_mode (bench : Bool) (mode : String) : Bool :=
  if bench then mode == "full" || mode == "off" else mode == "full"

/-- One check: the key it names and the reason it gives. -/
structure Check where
  ok : Bool
  key : String
  reason : String

/-- A bound from below, on a number that is reported when it fails. -/
def at_least_one (key : String) (found : Nat) : Check :=
  ⟨1 ≤ found, key, "must be >= 1 (found " ++ toString found ++ ")"⟩

section loading

-- The build variant, and the `{:?}` form of a string.
variable (bench : Bool) (debug : String → String)

/-- The checks of `validate`, in order. -/
def checks (cfg : Config) : List Check := [
  ⟨cfg.version = SCHEMA_VERSION, "version",
    "must be 1 (found " ++ toString cfg.version.toNat ++ ")"⟩,
  ⟨!Text.is_blank cfg.server.listen, "server.listen", "must be a non-empty host:port"⟩,
  ⟨valid_listen cfg.server.listen, "server.listen",
    "must be host:port with port in 1..=65535 (found " ++ debug cfg.server.listen ++ ")"⟩,
  ⟨!Text.is_blank cfg.server.upstream, "server.upstream",
    "must be non-empty (http(s)://… or host[:port][/path])"⟩,
  ⟨valid_upstream cfg.server.upstream, "server.upstream",
    "must be http(s)://… or host[:port][/path] (found " ++ debug cfg.server.upstream ++ ")"⟩,
  at_least_one "server.worker_threads" cfg.server.worker_threads.toNat,
  ⟨!Text.is_blank cfg.trace.tag, "trace.tag", "must be non-empty after trimming"⟩,
  ⟨valid_trace_mode bench cfg.trace.mode, "trace.mode",
    if bench then
      "must be \"full\" (or \"off\" in bench builds) (found " ++ debug cfg.trace.mode ++ ")"
    else "must be \"full\" (found " ++ debug cfg.trace.mode ++ ")"⟩,
  at_least_one "drain.timeout_secs" cfg.drain.timeout_secs.toNat,
  at_least_one "capture.max_bytes" cfg.capture.max_bytes.toNat,
  at_least_one "store.max_records" cfg.store.max_records.toNat,
  at_least_one "store.max_bytes" cfg.store.max_bytes.toNat,
  at_least_one "stitch.capacity" cfg.stitch.capacity.toNat,
  at_least_one "stitch.ttl_ms" cfg.stitch.ttl_ms.toNat,
  ⟨!Text.is_blank cfg.api_key.salt, "api_key.salt", "must be non-empty"⟩,
  at_least_one "export.max_inflight" cfg.export_.max_inflight.toNat,
  at_least_one "export.workers" cfg.export_.workers.toNat]

/-- The first check that fails is the error. -/
def validate (cfg : Config) : Except ConfigError Unit :=
  match (checks bench debug cfg).find? (!·.ok) with
  | some check => .error (.invalid "" check.key check.reason)
  | none => .ok ()

theorem validate_ok_iff (cfg : Config) :
    validate bench debug cfg = .ok () ↔ ∀ check ∈ checks bench debug cfg, check.ok = true := by
  unfold validate
  cases hfind : (checks bench debug cfg).find? (!·.ok) with
  | some check =>
    have hbad := List.find?_some hfind
    refine iff_of_false (fun h => by cases h) ?_
    intro hall
    rw [hall check (List.mem_of_find?_eq_some hfind)] at hbad
    cases hbad
  | none =>
    refine iff_of_true rfl ?_
    intro check hmem
    simpa using List.find?_eq_none.mp hfind check hmem

theorem validate_error {cfg : Config} {err : ConfigError}
    (h : validate bench debug cfg = .error err) :
    ∃ check : Check, err = .invalid "" check.key check.reason := by
  unfold validate at h
  split at h
  · rename_i check _
    cases h
    exact ⟨check, rfl⟩
  · cases h

/-- The bounds an accepted configuration keeps. -/
structure Config.Bounded (cfg : Config) : Prop where
  timeout_secs : 1 ≤ cfg.drain.timeout_secs.toNat
  capture : 1 ≤ cfg.capture.max_bytes.toNat
  max_records : 1 ≤ cfg.store.max_records.toNat
  max_bytes : 1 ≤ cfg.store.max_bytes.toNat
  capacity : 1 ≤ cfg.stitch.capacity.toNat
  ttl_ms : 1 ≤ cfg.stitch.ttl_ms.toNat
  max_inflight : 1 ≤ cfg.export_.max_inflight.toNat
  workers : 1 ≤ cfg.export_.workers.toNat

theorem validate_bounded {cfg : Config} (h : validate bench debug cfg = .ok ()) : cfg.Bounded := by
  have hall := (validate_ok_iff bench debug cfg).mp h
  have hbound : ∀ key n, at_least_one key n ∈ checks bench debug cfg → 1 ≤ n := by
    intro key n hmem
    exact of_decide_eq_true (hall _ hmem)
  constructor
  · exact hbound "drain.timeout_secs" _ (by simp [checks])
  · exact hbound "capture.max_bytes" _ (by simp [checks])
  · exact hbound "store.max_records" _ (by simp [checks])
  · exact hbound "store.max_bytes" _ (by simp [checks])
  · exact hbound "stitch.capacity" _ (by simp [checks])
  · exact hbound "stitch.ttl_ms" _ (by simp [checks])
  · exact hbound "export.max_inflight" _ (by simp [checks])
  · exact hbound "export.workers" _ (by simp [checks])

theorem validate_upstream {cfg : Config} (h : validate bench debug cfg = .ok ()) :
    valid_upstream cfg.server.upstream = true :=
  (validate_ok_iff bench debug cfg).mp h ⟨valid_upstream cfg.server.upstream, "server.upstream",
    "must be http(s)://… or host[:port][/path] (found " ++ debug cfg.server.upstream ++ ")"⟩
    (by simp [checks])

/-! ### Loading -/

/-- The file's configuration and what its audit lines need. -/
structure Loaded where
  config : Config
  sha256 : Digest
  path : String
  len : Nat

-- The digest, and the TOML parser with the place and text of its errors.
variable (sha256 : Bytes → Digest) (parse_toml : String → Except (Nat × Nat × String) Config)

/-- Load what reading the file at `path` returned. -/
def load (path : String) (file : Except String Bytes) : Except ConfigError Loaded :=
  match file with
  | .error source => .error (.io path source)
  | .ok bytes =>
    match utf8_strict bytes with
    | none => .error (.parse path 1 1 "file is not valid UTF-8")
    | some text =>
      match parse_toml (String.ofList text) with
      | .error (line, col, msg) => .error (.parse path line col msg)
      | .ok config =>
        if config.version ≠ SCHEMA_VERSION then .error (.version path config.version)
        else
          match validate bench debug config with
          | .error err => .error (err.at_path path)
          | .ok () =>
            .ok { config := config, sha256 := sha256 bytes, path := path, len := bytes.length }

/-- What loads is parsed and valid, and knows where it came from. -/
theorem load_ok {path : String} {file : Except String Bytes} {loaded : Loaded}
    (h : load bench debug sha256 parse_toml path file = .ok loaded) :
    validate bench debug loaded.config = .ok () ∧ loaded.path = path ∧
      ∃ text, parse_toml text = .ok loaded.config := by
  unfold load at h
  split at h
  · cases h
  · split at h
    · cases h
    · split at h
      · cases h
      · rename_i config hparsed
        split at h
        · cases h
        · split at h
          · cases h
          · rename_i hvalid
            cases h
            exact ⟨hvalid, rfl, _, hparsed⟩

/-- The file an error names (`ConfigError::path`). -/
def ConfigError.path : ConfigError → String
  | .io path _ => path
  | .parse path _ _ _ => path
  | .version path _ => path
  | .invalid path _ _ => path

/-- Every error of a load names the file. -/
theorem load_error_path {path : String} {file : Except String Bytes} {err : ConfigError}
    (h : load bench debug sha256 parse_toml path file = .error err) : err.path = path := by
  unfold load at h
  split at h
  · cases h
    rfl
  · split at h
    · cases h
      rfl
    · split at h
      · cases h
        rfl
      · split at h
        · cases h
          rfl
        · split at h
          · rename_i invalid hinvalid
            cases h
            obtain ⟨check, rfl⟩ := validate_error bench debug hinvalid
            rfl
          · cases h

end loading

/-- A valid configuration. -/
def sample_config : Config where
  version := 1
  server := ⟨"127.0.0.1:8080", "127.0.0.1:9090", "", 1, 0⟩
  trace := ⟨"gw", "full"⟩
  drain := ⟨false, 60⟩
  capture := ⟨4096⟩
  store := ⟨100, 65536⟩
  stitch := ⟨64, 60000⟩
  api_key := ⟨"salt"⟩
  export_ := ⟨"", 2, 1⟩

end AgentTraceGateway
