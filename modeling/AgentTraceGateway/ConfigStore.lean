import AgentTraceGateway.Config
import AgentTraceGateway.Export.Target
import AgentTraceGateway.Trace.Prefix
import AgentTraceGateway.Trace.Store

/-! # The Config Store

  The swap point between the file on disk and the values the gateway runs
  with. A reload loads the file, swaps the snapshot and re-seeds the running
  components through the hook; a file that does not load changes nothing but
  the failure counter. Structural keys are reported against the values the
  process started with, hot keys against the snapshot that is replaced.

  What reading the file returns and what the clocks show are given with each
  call. A reload ends in `none` when its hook panics. -/

namespace AgentTraceGateway

namespace ConfigStore

/-- One immutable configuration generation. -/
structure Snapshot where
  cfg : Config
  sha256 : Digest
  generation : UInt64
  loaded_at_ms : Nat
  path : String
  restart_required : List String

/-- The structural values the process runs with. -/
structure RunningStructural where
  listen : String
  worker_threads : UInt64
  export_workers : UInt64
  trace_mode : String
  deriving DecidableEq, Repr

/-- What one reload changed. -/
structure ReloadReport where
  generation : UInt64
  applied : List String
  restart_required : List String
  sha256 : Digest
  elapsed_ms : Nat

end ConfigStore

structure ConfigStore where
  inner : ConfigStore.Snapshot
  reload_failures : UInt64
  structural : ConfigStore.RunningStructural

/-! ### Keys -/

def HOT_KEYS : List String := [
  "server.upstream",
  "server.sni",
  "server.max_ws_frame_payload",
  "trace.tag",
  "drain.on_cancel",
  "drain.timeout_secs",
  "capture.max_bytes",
  "store.max_records",
  "store.max_bytes",
  "stitch.capacity",
  "stitch.ttl_ms",
  "api_key.salt",
  "export.otlp_endpoint",
  "export.max_inflight"]

def STRUCTURAL_KEYS : List String := [
  "server.listen",
  "server.worker_threads",
  "trace.mode",
  "export.workers"]

/-- The keys whose flag is set. -/
def changed_keys (keys : List String) (changed : List Bool) : List String :=
  ((keys.zip changed).filter (·.2)).map (·.1)

/-- The structural values of a configuration. -/
def ConfigStore.RunningStructural.of_config (cfg : Config) : ConfigStore.RunningStructural where
  listen := cfg.server.listen
  worker_threads := cfg.server.worker_threads.toUInt64
  export_workers := cfg.export_.workers
  trace_mode := cfg.trace.mode

/-- The hot keys that differ between two configurations, and the structural
    keys that differ from the running values. -/
def diff (old new : Config) (running : ConfigStore.RunningStructural) :
    List String × List String :=
  let hot_changed := [
    old.server.upstream != new.server.upstream,
    old.server.sni != new.server.sni,
    old.server.max_ws_frame_payload != new.server.max_ws_frame_payload,
    old.trace.tag != new.trace.tag,
    old.drain.on_cancel != new.drain.on_cancel,
    old.drain.timeout_secs != new.drain.timeout_secs,
    old.capture.max_bytes != new.capture.max_bytes,
    old.store.max_records != new.store.max_records,
    old.store.max_bytes != new.store.max_bytes,
    old.stitch.capacity != new.stitch.capacity,
    old.stitch.ttl_ms != new.stitch.ttl_ms,
    old.api_key.salt != new.api_key.salt,
    old.export_.otlp_endpoint != new.export_.otlp_endpoint,
    old.export_.max_inflight != new.export_.max_inflight]
  let structural_changed := [
    running.listen != new.server.listen,
    running.worker_threads != new.server.worker_threads.toUInt64,
    running.trace_mode != new.trace.mode,
    running.export_workers != new.export_.workers]
  (changed_keys HOT_KEYS hot_changed, changed_keys STRUCTURAL_KEYS structural_changed)

/-- The value at a key of the file. -/
inductive KeyValue where
  | text (value : String)
  | flag (value : Bool)
  | number (value : UInt64)
  deriving DecidableEq, Repr

@[simp] theorem KeyValue.text_beq (a b : String) : (text a == text b) = (a == b) := by
  simp [BEq.beq]

@[simp] theorem KeyValue.flag_beq (a b : Bool) : (flag a == flag b) = (a == b) := by
  simp [BEq.beq]

@[simp] theorem KeyValue.number_beq (a b : UInt64) : (number a == number b) = (a == b) := by
  simp [BEq.beq]

/-- The value a configuration has at a dotted key: what `diff` is about. -/
def Config.at_key (cfg : Config) : String → Option KeyValue
  | "server.listen" => some (.text cfg.server.listen)
  | "server.upstream" => some (.text cfg.server.upstream)
  | "server.sni" => some (.text cfg.server.sni)
  | "server.worker_threads" => some (.number cfg.server.worker_threads.toUInt64)
  | "server.max_ws_frame_payload" => some (.number cfg.server.max_ws_frame_payload)
  | "trace.tag" => some (.text cfg.trace.tag)
  | "trace.mode" => some (.text cfg.trace.mode)
  | "drain.on_cancel" => some (.flag cfg.drain.on_cancel)
  | "drain.timeout_secs" => some (.number cfg.drain.timeout_secs)
  | "capture.max_bytes" => some (.number cfg.capture.max_bytes)
  | "store.max_records" => some (.number cfg.store.max_records)
  | "store.max_bytes" => some (.number cfg.store.max_bytes)
  | "stitch.capacity" => some (.number cfg.stitch.capacity)
  | "stitch.ttl_ms" => some (.number cfg.stitch.ttl_ms)
  | "api_key.salt" => some (.text cfg.api_key.salt)
  | "export.otlp_endpoint" => some (.text cfg.export_.otlp_endpoint)
  | "export.max_inflight" => some (.number cfg.export_.max_inflight)
  | "export.workers" => some (.number cfg.export_.workers)
  | _ => none

/-- Two configurations differ at a key. -/
def Config.differ_at (old new : Config) (key : String) : Bool := old.at_key key != new.at_key key

/-- Flags that line up with their keys select by them. -/
theorem changed_keys_map (p : String → Bool) (keys : List String) :
    changed_keys keys (keys.map p) = keys.filter p := by
  unfold changed_keys
  induction keys with
  | nil => rfl
  | cons key keys ih =>
    rw [List.map_cons, List.zip_cons_cons, List.filter_cons, List.filter_cons]
    by_cases hkey : p key = true
    · rw [if_pos hkey, if_pos hkey, List.map_cons, ih]
    · rw [if_neg hkey, if_neg hkey, ih]

/-- Both zips of `diff` are aligned: it reports exactly the hot keys at which
    the two configurations differ, and exactly the structural keys at which
    the new one differs from the one the process runs with. -/
theorem diff_eq (start old new : Config) :
    diff old new (ConfigStore.RunningStructural.of_config start)
      = (HOT_KEYS.filter (old.differ_at new), STRUCTURAL_KEYS.filter (start.differ_at new)) := by
  rw [← changed_keys_map, ← changed_keys_map]
  simp [diff, ConfigStore.RunningStructural.of_config, HOT_KEYS, STRUCTURAL_KEYS, Config.differ_at,
    Config.at_key, bne]

/-! ### Hot apply -/

/-- The components a reload re-seeds. -/
structure HotApply where
  cap : CaptureCap
  store : TraceStore
  stitcher : PrefixStitcher
  exporter : Exporter

namespace HotApply

/-- The components as `run` builds them from the startup configuration. -/
def seed (cfg : Config) (clock : Nat) (salt : Bytes) : Option HotApply :=
  (Exporter.start cfg.export_.otlp_endpoint cfg.export_.max_inflight).map fun exporter =>
    { cap := CaptureCap.of_max cfg.capture.max_bytes.toNat
      store := TraceStore.with_caps cfg.store.max_records.toNat cfg.store.max_bytes.toNat
      stitcher :=
        PrefixStitcher.with_limits cfg.stitch.capacity.toNat cfg.stitch.ttl_ms.toNat clock salt
      exporter := exporter }

/-- Re-seed the components, one after the other. -/
def apply (hot : HotApply) (cfg : Config) : Option HotApply :=
  let hot := { hot with cap := CaptureCap.of_max cfg.capture.max_bytes.toNat }
  let hot := { hot with
    store := hot.store.set_caps cfg.store.max_records.toNat cfg.store.max_bytes.toNat }
  let hot := { hot with
    stitcher := hot.stitcher.set_limits cfg.stitch.capacity.toNat cfg.stitch.ttl_ms.toNat }
  (hot.exporter.apply_target cfg.export_.otlp_endpoint cfg.export_.max_inflight).map
    fun exporter => { hot with exporter := exporter }

end HotApply

/-- What one atomic write of the hook sets. The two caps of the store share
    its lock; the width is swapped and its change queued. -/
inductive HotPart where
  | max_bytes
  | caps
  | capacity
  | ttl_ms
  | target
  | enabled
  | max_inflight
  deriving DecidableEq, Repr

namespace HotPart

/-- The parts in the order the hook writes them. -/
def all : List HotPart := [.max_bytes, .caps, .capacity, .ttl_ms, .target, .enabled, .max_inflight]

theorem mem_all (part : HotPart) : part ∈ all := by
  cases part <;> decide

/-- Write one part of a configuration; `none` when building the target
    panics. -/
def write (cfg : Config) (hot : HotApply) : HotPart → Option HotApply
  | .max_bytes => some { hot with cap := CaptureCap.of_max cfg.capture.max_bytes.toNat }
  | .caps => some { hot with
      store := hot.store.set_caps cfg.store.max_records.toNat cfg.store.max_bytes.toNat }
  | .capacity => some { hot with
      stitcher := hot.stitcher.set_limits cfg.stitch.capacity.toNat hot.stitcher.ttl_ms }
  | .ttl_ms => some { hot with
      stitcher := hot.stitcher.set_limits hot.stitcher.capacity cfg.stitch.ttl_ms.toNat }
  | .target => (build_target cfg.export_.otlp_endpoint).map fun target =>
      { hot with exporter := { hot.exporter with target := target } }
  | .enabled => (build_target cfg.export_.otlp_endpoint).map fun target =>
      { hot with exporter := { hot.exporter with enabled := target.isSome } }
  | .max_inflight =>
    let new_width := max cfg.export_.max_inflight 1
    some { hot with
      exporter := { hot.exporter with
        max_inflight := new_width
        sema_delta := hot.exporter.sema_delta
          + (new_width.toInt64 - hot.exporter.max_inflight.toInt64) } }

/-- The part holds a configuration's value, raised to one where the
    component raises it. -/
def Holds (cfg : Config) (hot : HotApply) : HotPart → Prop
  | .max_bytes => hot.cap.max_bytes = max cfg.capture.max_bytes.toNat 1
  | .caps => hot.store.max_records = max cfg.store.max_records.toNat 1
      ∧ hot.store.max_bytes = max cfg.store.max_bytes.toNat 1
  | .capacity => hot.stitcher.capacity = max cfg.stitch.capacity.toNat 1
  | .ttl_ms => hot.stitcher.ttl_ms = max cfg.stitch.ttl_ms.toNat 1
  | .target => build_target cfg.export_.otlp_endpoint = some hot.exporter.target
  | .enabled => (build_target cfg.export_.otlp_endpoint).map Option.isSome
      = some hot.exporter.enabled
  | .max_inflight => hot.exporter.max_inflight = max cfg.export_.max_inflight 1

/-- A write sets its part. -/
theorem write_holds {cfg : Config} {hot hot' : HotApply} {part : HotPart}
    (h : part.write cfg hot = some hot') : part.Holds cfg hot' := by
  cases part with
  | max_bytes =>
    cases h
    rfl
  | caps =>
    cases h
    exact ⟨rfl, rfl⟩
  | capacity =>
    cases h
    rfl
  | ttl_ms =>
    cases h
    rfl
  | target =>
    obtain ⟨target, htarget, rfl⟩ := Option.map_eq_some_iff.mp h
    exact htarget
  | enabled =>
    obtain ⟨target, htarget, rfl⟩ := Option.map_eq_some_iff.mp h
    show (build_target cfg.export_.otlp_endpoint).map Option.isSome = some target.isSome
    rw [htarget, Option.map_some]
  | max_inflight =>
    cases h
    rfl

/-- A write leaves the other parts alone. -/
theorem write_frame {cfg cfg' : Config} {hot hot' : HotApply} {part other : HotPart}
    (h : part.write cfg hot = some hot') (hne : other ≠ part) :
    other.Holds cfg' hot' ↔ other.Holds cfg' hot := by
  cases part with
  | max_bytes =>
    cases h
    cases other <;> first | exact absurd rfl hne | exact Iff.rfl
  | caps =>
    cases h
    cases other <;> first | exact absurd rfl hne | exact Iff.rfl
  | capacity =>
    cases h
    -- the ttl is set to itself, and it is positive
    have httl : max hot.stitcher.ttl_ms 1 = hot.stitcher.ttl_ms :=
      Nat.max_eq_left hot.stitcher.ttl_pos
    cases other <;>
      first
      | exact absurd rfl hne
      | exact Iff.rfl
      | simp only [Holds, PrefixStitcher.set_limits, httl]
  | ttl_ms =>
    cases h
    have hcapacity : max hot.stitcher.capacity 1 = hot.stitcher.capacity :=
      Nat.max_eq_left hot.stitcher.capacity_pos
    cases other <;>
      first
      | exact absurd rfl hne
      | exact Iff.rfl
      | simp only [Holds, PrefixStitcher.set_limits, hcapacity]
  | target =>
    obtain ⟨target, _, rfl⟩ := Option.map_eq_some_iff.mp h
    cases other <;> first | exact absurd rfl hne | exact Iff.rfl
  | enabled =>
    obtain ⟨target, _, rfl⟩ := Option.map_eq_some_iff.mp h
    cases other <;> first | exact absurd rfl hne | exact Iff.rfl
  | max_inflight =>
    cases h
    cases other <;> first | exact absurd rfl hne | exact Iff.rfl

/-- Only building the target can panic. -/
theorem write_isSome {cfg : Config} (h : build_target cfg.export_.otlp_endpoint ≠ none)
    (hot : HotApply) (part : HotPart) : ∃ hot', part.write cfg hot = some hot' := by
  obtain ⟨target, htarget⟩ := Option.ne_none_iff_exists'.mp h
  cases part with
  | target => exact ⟨_, Option.map_eq_some_iff.mpr ⟨target, htarget, rfl⟩⟩
  | enabled => exact ⟨_, Option.map_eq_some_iff.mpr ⟨target, htarget, rfl⟩⟩
  | _ => exact ⟨_, rfl⟩

/-- Writing several parts of one configuration sets all of them, and keeps
    those that were already set. -/
theorem write_list_holds {cfg : Config} : ∀ (parts : List HotPart) {hot hot' : HotApply},
    parts.foldlM (write cfg) hot = some hot' →
      ∀ part, part ∈ parts ∨ part.Holds cfg hot → part.Holds cfg hot' := by
  intro parts
  induction parts with
  | nil =>
    intro hot hot' h part hpart
    cases h
    rcases hpart with hmem | hheld
    · cases hmem
    · exact hheld
  | cons first rest ih =>
    intro hot hot' h part hpart
    rw [List.foldlM_cons] at h
    obtain ⟨hot₁, hfirst, hrest⟩ := Option.bind_eq_some_iff.mp h
    apply ih hrest part
    by_cases heq : part = first
    · subst heq
      exact Or.inr (write_holds hfirst)
    · rcases hpart with hmem | hheld
      · rcases List.mem_cons.mp hmem with h₁ | h₁
        · exact absurd h₁ heq
        · exact Or.inl h₁
      · exact Or.inr ((write_frame hfirst heq).mpr hheld)

/-- Without a panic every list of parts can be written. -/
theorem write_list_isSome {cfg : Config} (h : build_target cfg.export_.otlp_endpoint ≠ none) :
    ∀ (parts : List HotPart) (hot : HotApply), ∃ hot', parts.foldlM (write cfg) hot = some hot' := by
  intro parts
  induction parts with
  | nil => exact fun hot => ⟨hot, rfl⟩
  | cons first rest ih =>
    intro hot
    obtain ⟨hot₁, hfirst⟩ := write_isSome h hot first
    obtain ⟨hot', hrest⟩ := ih hot₁
    refine ⟨hot', ?_⟩
    rw [List.foldlM_cons, hfirst]
    exact hrest

end HotPart

namespace HotApply

/-- The hook is its writes, in order. -/
theorem apply_eq_writes (hot : HotApply) (cfg : Config) :
    hot.apply cfg = HotPart.all.foldlM (HotPart.write cfg) hot := by
  have hlimits : (hot.stitcher.set_limits cfg.stitch.capacity.toNat hot.stitcher.ttl_ms).set_limits
      (hot.stitcher.set_limits cfg.stitch.capacity.toNat hot.stitcher.ttl_ms).capacity
      cfg.stitch.ttl_ms.toNat
      = hot.stitcher.set_limits cfg.stitch.capacity.toNat cfg.stitch.ttl_ms.toNat := by
    simp only [PrefixStitcher.set_limits, Nat.max_assoc, Nat.max_self]
  cases hbuild : build_target cfg.export_.otlp_endpoint with
  | none =>
    simp [apply, Exporter.apply_target, HotPart.all, HotPart.write, hbuild]
  | some target =>
    simp [apply, Exporter.apply_target_eq hbuild, HotPart.all, HotPart.write, hbuild, hlimits]

/-- The components carry a configuration's values. -/
structure Carries (hot : HotApply) (cfg : Config) : Prop where
  cap : hot.cap.max_bytes = cfg.capture.max_bytes.toNat
  max_records : hot.store.max_records = cfg.store.max_records.toNat
  max_bytes : hot.store.max_bytes = cfg.store.max_bytes.toNat
  capacity : hot.stitcher.capacity = cfg.stitch.capacity.toNat
  ttl_ms : hot.stitcher.ttl_ms = cfg.stitch.ttl_ms.toNat
  target : build_target cfg.export_.otlp_endpoint = some hot.exporter.target
  enabled : hot.exporter.enabled = hot.exporter.target.isSome
  max_inflight : hot.exporter.max_inflight = cfg.export_.max_inflight

/-- For a valid configuration no value is raised. -/
theorem carries_of_holds {hot : HotApply} {cfg : Config} (hbounded : cfg.Bounded)
    (h : ∀ part : HotPart, part.Holds cfg hot) : hot.Carries cfg := by
  have htarget : build_target cfg.export_.otlp_endpoint = some hot.exporter.target := h .target
  have henabled : (build_target cfg.export_.otlp_endpoint).map Option.isSome
      = some hot.exporter.enabled := h .enabled
  have hwidth : max cfg.export_.max_inflight 1 = cfg.export_.max_inflight := by
    have hpos := hbounded.max_inflight
    show (if cfg.export_.max_inflight ≤ 1 then 1 else cfg.export_.max_inflight) = _
    split
    · rename_i hle
      have hone : cfg.export_.max_inflight.toNat ≤ 1 := UInt64.le_iff_toNat_le.mp hle
      exact UInt64.toNat_inj.mp (Nat.le_antisymm hpos hone)
    · rfl
  constructor
  · exact (h .max_bytes).trans (Nat.max_eq_left hbounded.capture)
  · exact (h .caps).1.trans (Nat.max_eq_left hbounded.max_records)
  · exact (h .caps).2.trans (Nat.max_eq_left hbounded.max_bytes)
  · exact (h .capacity).trans (Nat.max_eq_left hbounded.capacity)
  · exact (h .ttl_ms).trans (Nat.max_eq_left hbounded.ttl_ms)
  · exact htarget
  · rw [htarget] at henabled
    exact (Option.some.inj henabled).symm
  · exact (h .max_inflight).trans hwidth

/-- The components are seeded with the startup values. -/
theorem seed_holds {cfg : Config} {clock : Nat} {salt : Bytes} {hot : HotApply}
    (h : seed cfg clock salt = some hot) (part : HotPart) : part.Holds cfg hot := by
  obtain ⟨exporter, hstart, rfl⟩ := Option.map_eq_some_iff.mp h
  unfold Exporter.start at hstart
  split at hstart
  · cases hstart
  · obtain ⟨target, htarget, rfl⟩ := Option.map_eq_some_iff.mp hstart
    cases part with
    | caps => exact ⟨rfl, rfl⟩
    | target => exact htarget
    | enabled =>
      show (build_target cfg.export_.otlp_endpoint).map Option.isSome = some target.isSome
      rw [htarget, Option.map_some]
    | _ => rfl

end HotApply

/-! ### Reloading -/

/-- `u64::saturating_add(1)`. -/
def next_generation (generation : UInt64) : UInt64 :=
  UInt64.ofNat (saturating_add generation.toNat 1)

theorem next_generation_toNat (generation : UInt64) :
    (next_generation generation).toNat = min (generation.toNat + 1) (2 ^ 64 - 1) := by
  unfold next_generation saturating_add
  rw [UInt64.toNat_ofNat']
  omega

namespace ConfigStore

/-- Adopt a freshly loaded file as generation 1. -/
def new (loaded : Loaded) (now_ms : Nat) : ConfigStore where
  inner := {
    cfg := loaded.config
    sha256 := loaded.sha256
    generation := 1
    loaded_at_ms := now_ms
    path := loaded.path
    restart_required := [] }
  reload_failures := 0
  structural := RunningStructural.of_config loaded.config

/-- The snapshot that replaces `current`, and the report about it. -/
def adopt (structural : RunningStructural) (current : Snapshot) (loaded : Loaded)
    (now_ms elapsed_ms : Nat) : Snapshot × ReloadReport :=
  let (applied, restart_required) := diff current.cfg loaded.config structural
  let snapshot : Snapshot := {
    cfg := loaded.config
    sha256 := loaded.sha256
    generation := next_generation current.generation
    loaded_at_ms := now_ms
    path := loaded.path
    restart_required := restart_required }
  (snapshot, {
    generation := snapshot.generation
    applied := applied
    restart_required := snapshot.restart_required
    sha256 := snapshot.sha256
    elapsed_ms := elapsed_ms })

/-- Count one failed reload (`fetch_add`). -/
def failed (store : ConfigStore) : ConfigStore :=
  { store with reload_failures := store.reload_failures + 1 }

end ConfigStore

/-- What one reload finds: the file as it reads, and the clocks. -/
structure ReloadCall where
  file : Except String Bytes
  now_ms : Nat
  elapsed_ms : Nat

/-- The store and the components its hook re-seeds. -/
structure Running where
  config_store : ConfigStore
  hot : HotApply

section reloading

variable (bench : Bool) (debug : String → String) (sha256 : Bytes → Digest)
  (parse_toml : String → Except (Nat × Nat × String) Config)

/-- `ConfigStore::reload` with the hook registered. -/
def reload (p : Running) (call : ReloadCall) :
    Option (Running × Except ConfigError ConfigStore.ReloadReport) :=
  let current := p.config_store.inner
  match load bench debug sha256 parse_toml current.path call.file with
  | .ok loaded =>
    let (snapshot, report) :=
      ConfigStore.adopt p.config_store.structural current loaded call.now_ms call.elapsed_ms
    let config_store := { p.config_store with inner := snapshot }
    (p.hot.apply snapshot.cfg).map fun hot =>
      ({ config_store := config_store, hot := hot }, .ok report)
  | .error err => some ({ p with config_store := p.config_store.failed }, .error err)

/-- Reloads one after the other, with what they return. -/
def reload_run : Running → List ReloadCall →
    Option (Running × List (Except ConfigError ConfigStore.ReloadReport))
  | p, [] => some (p, [])
  | p, call :: calls => do
    let (p, result) ← reload bench debug sha256 parse_toml p call
    let (p, results) ← reload_run p calls
    return (p, result :: results)

/-- The reload succeeded. -/
def reload_ok (result : Except ConfigError ConfigStore.ReloadReport) : Bool :=
  match result with
  | .ok _ => true
  | .error _ => false

/-- What a run of reloads keeps: the path and the startup values, and how
    often the file was adopted. -/
structure Reloaded (start : Loaded) (oks : Nat) (p : Running) : Prop where
  path : p.config_store.inner.path = start.path
  structural : p.config_store.structural
    = ConfigStore.RunningStructural.of_config start.config
  generation : p.config_store.inner.generation.toNat = min (1 + oks) (2 ^ 64 - 1)

/-- What a successful reload makes of the process. -/
structure Adopted (start : Config) (oks : Nat) (loaded : Loaded) (p p' : Running)
    (report : ConfigStore.ReloadReport) : Prop where
  cfg : p'.config_store.inner.cfg = loaded.config
  sha256 : p'.config_store.inner.sha256 = loaded.sha256
  generation : p'.config_store.inner.generation.toNat = min (1 + oks) (2 ^ 64 - 1)
  reload_failures : p'.config_store.reload_failures = p.config_store.reload_failures
  carries : p'.hot.Carries loaded.config
  applied : report.applied
    = HOT_KEYS.filter (p.config_store.inner.cfg.differ_at loaded.config)
  restart_required : report.restart_required = STRUCTURAL_KEYS.filter (start.differ_at loaded.config)
  reported : report.generation = p'.config_store.inner.generation
    ∧ report.sha256 = p'.config_store.inner.sha256
    ∧ report.restart_required = p'.config_store.inner.restart_required

/-- One failed reload: nothing but the failure counter changes. -/
theorem reload_error {p : Running} {call : ReloadCall} {err : ConfigError}
    (h : load bench debug sha256 parse_toml p.config_store.inner.path call.file = .error err) :
    reload bench debug sha256 parse_toml p call
      = some ({ p with config_store := p.config_store.failed }, .error err) := by
  simp only [reload, h]

/-- One successful reload. -/
theorem reload_adopts {start loaded : Loaded} {oks : Nat} {p : Running} {call : ReloadCall}
    (hkept : Reloaded start oks p)
    (h : load bench debug sha256 parse_toml start.path call.file = .ok loaded)
    (hbuild : build_target loaded.config.export_.otlp_endpoint ≠ none) :
    ∃ p' report, reload bench debug sha256 parse_toml p call = some (p', .ok report) ∧
      Reloaded start (oks + 1) p' ∧ Adopted start.config (oks + 1) loaded p p' report := by
  obtain ⟨hvalid, hpath, _⟩ := load_ok bench debug sha256 parse_toml h
  obtain ⟨hot', hwrites⟩ := HotPart.write_list_isSome hbuild HotPart.all p.hot
  have happly : p.hot.apply loaded.config = some hot' := by
    rw [HotApply.apply_eq_writes]
    exact hwrites
  have hcarries : hot'.Carries loaded.config := by
    apply HotApply.carries_of_holds (validate_bounded bench debug hvalid)
    intro part
    exact HotPart.write_list_holds HotPart.all hwrites part (Or.inl (HotPart.mem_all part))
  have hdiff := diff_eq start.config p.config_store.inner.cfg loaded.config
  have hgeneration : (next_generation p.config_store.inner.generation).toNat
      = min (1 + (oks + 1)) (2 ^ 64 - 1) := by
    rw [next_generation_toNat, hkept.generation]
    omega
  let adopted := ConfigStore.adopt p.config_store.structural p.config_store.inner loaded
    call.now_ms call.elapsed_ms
  refine ⟨⟨{ p.config_store with inner := adopted.1 }, hot'⟩, adopted.2, ?_,
    ⟨hpath, hkept.structural, hgeneration⟩, ?_⟩
  · rw [← hkept.path] at h
    simp only [reload, h]
    show (p.hot.apply loaded.config).map _ = _
    rw [happly]
    rfl
  · constructor
    · rfl
    · rfl
    · exact hgeneration
    · rfl
    · exact hcarries
    · show (diff p.config_store.inner.cfg loaded.config p.config_store.structural).1 = _
      rw [hkept.structural, hdiff]
    · show (diff p.config_store.inner.cfg loaded.config p.config_store.structural).2 = _
      rw [hkept.structural, hdiff]
    · exact ⟨rfl, rfl, rfl⟩

/-- No file of the calls has an endpoint whose target cannot be built. -/
def Buildable (path : String) (calls : List ReloadCall) : Prop :=
  ∀ call ∈ calls, ∀ loaded, load bench debug sha256 parse_toml path call.file = .ok loaded →
    build_target loaded.config.export_.otlp_endpoint ≠ none

/-- The file of the call loads. -/
def loads (path : String) (call : ReloadCall) : Bool :=
  match load bench debug sha256 parse_toml path call.file with
  | .ok _ => true
  | .error _ => false

/-- A run of reloads goes through, and a call succeeds when its file loads. -/
theorem reload_run_kept (start : Loaded) : ∀ (calls : List ReloadCall) (oks : Nat) (p : Running),
    Reloaded start oks p → Buildable bench debug sha256 parse_toml start.path calls →
      ∃ p' results, reload_run bench debug sha256 parse_toml p calls = some (p', results) ∧
        results.countP reload_ok = calls.countP (loads bench debug sha256 parse_toml start.path) ∧
        Reloaded start (oks + results.countP reload_ok) p' := by
  intro calls
  induction calls with
  | nil => exact fun oks p hkept _ => ⟨p, [], rfl, rfl, hkept⟩
  | cons call calls ih =>
    intro oks p hkept hbuild
    have hrest : Buildable bench debug sha256 parse_toml start.path calls :=
      fun c hc => hbuild c (List.mem_cons_of_mem call hc)
    cases hload : load bench debug sha256 parse_toml start.path call.file with
    | error err =>
      -- a refused file leaves the generation, and the count of accepted ones
      have hreload := reload_error bench debug sha256 parse_toml (hkept.path ▸ hload)
      have hkept' : Reloaded start oks { p with config_store := p.config_store.failed } :=
        ⟨hkept.path, hkept.structural, hkept.generation⟩
      obtain ⟨p', results, hrun, hcount, hkept''⟩ := ih oks _ hkept' hrest
      refine ⟨p', .error err :: results, ?_, ?_, ?_⟩
      · simp [reload_run, hreload, hrun]
      · rw [List.countP_cons_of_neg (by simp [reload_ok]), hcount,
          List.countP_cons_of_neg (by simp [loads, hload])]
      · rw [List.countP_cons_of_neg (by simp [reload_ok])]
        exact hkept''
    | ok loaded =>
      -- an accepted one moves both on by one
      have hendpoint := hbuild call (List.mem_cons_self ..) loaded hload
      obtain ⟨p₁, report, hreload, hkept', _⟩ :=
        reload_adopts bench debug sha256 parse_toml hkept hload hendpoint
      obtain ⟨p', results, hrun, hcount, hkept''⟩ := ih (oks + 1) p₁ hkept' hrest
      refine ⟨p', .ok report :: results, ?_, ?_, ?_⟩
      · simp [reload_run, hreload, hrun]
      · rw [List.countP_cons_of_pos (by simp [reload_ok]), hcount,
          List.countP_cons_of_pos (by simp [loads, hload])]
      · rw [List.countP_cons_of_pos (by simp [reload_ok])]
        rw [Nat.add_right_comm, Nat.add_assoc] at hkept''
        exact hkept''

/-- **Transactional reload**: after any reloads, one more either fails and
    changes nothing but the failure counter, or adopts the whole file in the
    snapshot and in every component. -/
theorem reload_transactional (start : Loaded) (now_ms : Nat) (hot : HotApply)
    (past : List ReloadCall) (call : ReloadCall)
    (hbuild : Buildable bench debug sha256 parse_toml start.path (past ++ [call])) :
    ∃ p results p' result,
      reload_run bench debug sha256 parse_toml ⟨ConfigStore.new start now_ms, hot⟩ past
        = some (p, results) ∧
      reload bench debug sha256 parse_toml p call = some (p', result) ∧
      match load bench debug sha256 parse_toml start.path call.file with
      | .error err => result = .error err ∧ p'.config_store.inner = p.config_store.inner ∧
          p'.hot = p.hot ∧
          p'.config_store.reload_failures = p.config_store.reload_failures + 1
      | .ok loaded => ∃ report, result = .ok report ∧
          Adopted start.config (results.countP reload_ok + 1) loaded p p' report := by
  have hstart : Reloaded start 0 ⟨ConfigStore.new start now_ms, hot⟩ := ⟨rfl, rfl, rfl⟩
  obtain ⟨p, results, hrun, _, hkept⟩ := reload_run_kept bench debug sha256 parse_toml start past 0
    ⟨ConfigStore.new start now_ms, hot⟩ hstart
    (fun c hc => hbuild c (List.mem_append_left _ hc))
  rw [Nat.zero_add] at hkept
  cases hload : load bench debug sha256 parse_toml start.path call.file with
  | error err =>
    have hreload := reload_error bench debug sha256 parse_toml (hkept.path ▸ hload)
    exact ⟨p, results, _, _, hrun, hreload, rfl, rfl, rfl, rfl⟩
  | ok loaded =>
    have hmem : call ∈ past ++ [call] := List.mem_append_right _ (List.mem_singleton_self call)
    obtain ⟨p', report, hreload, _, hadopted⟩ := reload_adopts bench debug sha256 parse_toml
      hkept hload (hbuild call hmem loaded hload)
    exact ⟨p, results, p', .ok report, hrun, hreload, report, rfl, hadopted⟩

end reloading

/-- The digest of a configuration that no file was read for. -/
def zero_digest : Digest := ⟨List.replicate 32 0, List.length_replicate⟩

/-- Wrap a configuration that was built in the process (`from_config`). -/
def Loaded.of_config (cfg : Config) : Loaded where
  config := cfg
  sha256 := zero_digest
  path := ""
  len := 0

/-- Components with the sample's values. -/
def sample_hot : HotApply where
  cap := CaptureCap.of_max 4096
  store := TraceStore.with_caps 100 65536
  stitcher := PrefixStitcher.with_limits 64 60000 0 []
  exporter := ⟨none, false, 2, 0⟩

/-- The sample with another capture cap. -/
def capped_config (max_bytes : UInt64) : Config := { sample_config with capture := ⟨max_bytes⟩ }

/-- The empty file stands for one cap, any other text for another. -/
def sample_toml (text : String) : Except (Nat × Nat × String) Config :=
  .ok (capped_config (if text = "" then 8192 else 16384))

def sample_digest (_ : Bytes) : Digest := zero_digest

theorem sample_load : load false id sample_digest sample_toml "" (.ok [])
    = .ok ⟨capped_config 8192, zero_digest, "", 0⟩ := rfl

theorem sample_buildable (calls : List ReloadCall) :
    Buildable false id sample_digest sample_toml "" calls := by
  intro call _ loaded hload
  obtain ⟨_, _, text, hparsed⟩ := load_ok false id sample_digest sample_toml hload
  rw [← Except.ok.inj hparsed]
  show build_target "" ≠ none
  decide

/-- A file that cannot be read, then the one with the larger cap. -/
theorem reload_transactional_sample :
    ∃ p results p' report,
      reload_run false id sample_digest sample_toml
          ⟨ConfigStore.new (Loaded.of_config sample_config) 0, sample_hot⟩
          [⟨.error "No such file or directory", 5, 1⟩] = some (p, results) ∧
      reload false id sample_digest sample_toml p ⟨.ok [], 7, 1⟩ = some (p', .ok report) ∧
      results.countP reload_ok = 0 ∧
      Adopted sample_config (results.countP reload_ok + 1)
        ⟨capped_config 8192, zero_digest, "", 0⟩ p p' report := by
  obtain ⟨p, results, p', result, hrun, hreload, hresult⟩ :=
    reload_transactional false id sample_digest sample_toml (Loaded.of_config sample_config) 0
      sample_hot [⟨.error "No such file or directory", 5, 1⟩] ⟨.ok [], 7, 1⟩ (sample_buildable _)
  rw [show (Loaded.of_config sample_config).path = "" from rfl, sample_load] at hresult
  obtain ⟨report, rfl, hadopted⟩ := hresult
  have hresults : results = [.error (.io "" "No such file or directory")] := by
    cases hrun
    rfl
  refine ⟨p, results, p', report, hrun, hreload, ?_, hadopted⟩
  rw [hresults]
  rfl

/-- The generation stops at the largest `u64`, however often a reload
    succeeds. -/
theorem reload_generation_saturates :
    ∃ p results,
      reload_run false id sample_digest sample_toml
          ⟨ConfigStore.new (Loaded.of_config sample_config) 0, sample_hot⟩
          (List.replicate (2 ^ 64 - 1) ⟨.ok [], 7, 1⟩) = some (p, results) ∧
      results.countP reload_ok = 2 ^ 64 - 1 ∧
      p.config_store.inner.generation.toNat ≠ 1 + results.countP reload_ok := by
  obtain ⟨p, results, hrun, hcount, hkept⟩ :=
    reload_run_kept false id sample_digest sample_toml (Loaded.of_config sample_config)
      (List.replicate (2 ^ 64 - 1) ⟨.ok [], 7, 1⟩) 0
      ⟨ConfigStore.new (Loaded.of_config sample_config) 0, sample_hot⟩ ⟨rfl, rfl, rfl⟩
      (sample_buildable _)
  have hloads : loads false id sample_digest sample_toml (Loaded.of_config sample_config).path
      ⟨.ok [], 7, 1⟩ = true := rfl
  rw [List.countP_replicate, if_pos hloads] at hcount
  refine ⟨p, results, hrun, hcount, ?_⟩
  rw [hkept.generation, hcount]
  decide

end AgentTraceGateway
