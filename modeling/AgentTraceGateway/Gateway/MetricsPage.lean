import AgentTraceGateway.ConfigStore
import AgentTraceGateway.Export.Pool
import AgentTraceGateway.Gateway.Gauges
import AgentTraceGateway.Gateway.Logging
import AgentTraceGateway.Lib.Prometheus
import AgentTraceGateway.Metrics
import Mathlib.Tactic.FieldSimp
import Mathlib.Tactic.Ring

/-! # The Metrics Page

  `/__atg/metrics` writes the gateway's gauges, counters and stage histograms
  as a page of the Prometheus text format. The one text on it that is not
  fixed is the trace tag of the configuration, a label of `atg_info`.

  Read with exact decimals, the page is the numbers of the gateway, whatever
  the tag, and no series is met twice. -/

namespace AgentTraceGateway

open Prometheus (Line Sample Written)

/-! ### The text -/

def escape_label_value (value : String) : String :=
  String.ofList (value.toList.flatMap fun c =>
    if c = '\\' then ['\\', '\\']
    else if c = '"' then ['\\', '"']
    else if c = '\n' then ['\\', 'n']
    else [c])

def scalar_line (name : String) (value : UInt64) : String :=
  name ++ " " ++ toString value.toNat ++ "\n"

def render_gauge (name help : String) (value : UInt64) : String :=
  render_head name help "gauge" ++ scalar_line name value

def render_counter (name help : String) (value : UInt64) : String :=
  render_head name help "counter" ++ scalar_line name value

/-- The build variant; `bench` says whether the feature is compiled in. -/
def variant_label (bench : Bool) : String := if bench then "bench" else "prod"

def trace_mode_label (trace_off : Bool) : String := if trace_off then "off" else "full"

/-- `CARGO_PKG_VERSION`. -/
def VERSION : String := "0.4.0"

/-! ### What is read -/

section exporter

variable {ρ τ : Type}

/-- A `usize` is 64 bits wide. -/
def Pool.queue_depth (s : Pool ρ τ) : UInt64 :=
  if s.enabled then .ofNat (QUEUE_CAPACITY - (QUEUE_CAPACITY - s.queue.length)) else 0

def Pool.queue_capacity (s : Pool ρ τ) : UInt64 := if s.enabled then .ofNat QUEUE_CAPACITY else 0

/-- `Exporter::max_inflight`. -/
def Pool.effective_width (s : Pool ρ τ) : UInt64 := if s.enabled then s.max_inflight else 0

/-- `Exporter::workers`, of the number the runtime was started with. -/
def Pool.effective_workers (s : Pool ρ τ) (workers : UInt64) : UInt64 :=
  if s.enabled then workers else 0

/-- The components of a running gateway as a probe reads them. The worker
    counts and the lock meters are numbers from outside the model, and a
    stage histogram is what its render reads. -/
structure Probed (ρ τ : Type) where
  gateway : Gateway
  gauges : Gauges
  pool : Pool ρ τ
  config_store : ConfigStore
  bench : Bool
  listen : String
  worker_threads : UInt64
  export_workers : UInt64
  stitch_wait_ns : UInt64
  stitch_hold_ns : UInt64
  store_wait_ns : UInt64
  store_hold_ns : UInt64
  stage_wait_upstream : Exposition
  stage_time_to_first_byte : Exposition
  stage_delivery : Exposition
  stage_finalize : Exposition

namespace Probed

variable (p : Probed ρ τ)

def trace_tag : String := p.config_store.inner.cfg.trace.tag

def gauge_table : List (String × String × UInt64) := [
  ("atg_requests_inflight",
    "Requests currently inside the gateway (accepted, not yet logged).",
    p.gauges.inflight),
  ("atg_requests_awaiting_upstream",
    "In-flight requests that have not yet seen upstream response headers (gateway queue plus upstream first-byte wait).",
    p.gauges.awaiting_upstream),
  ("atg_requests_inflight_high_water",
    "Monotonic maximum of atg_requests_inflight since startup.",
    p.gauges.inflight_high_water),
  ("atg_worker_threads",
    "Effective pingora worker-thread count at startup.",
    p.worker_threads),
  ("atg_export_queue_depth",
    "Turn records buffered in the OTLP export queue.",
    p.pool.queue_depth),
  ("atg_export_queue_capacity",
    "OTLP export queue capacity (0 = export disabled).",
    p.pool.queue_capacity),
  ("atg_export_inflight",
    "OTLP export batches currently in the flush pool (gauge; bounded by export.max_inflight).",
    p.pool.health.inflight),
  ("atg_export_max_inflight",
    "Effective flush-pool width (export.max_inflight; 0 = export disabled).",
    p.pool.effective_width),
  ("atg_export_workers",
    "Effective export-runtime worker threads (export.workers; structural, fixed at startup).",
    p.pool.effective_workers p.export_workers),
  ("atg_stitch_entries",
    "Prefix-stitch chains currently held (drives the stitcher's O(table) sweep cost — ATG#5).",
    UInt64.ofNat p.gateway.stitcher.states.entries.length),
  ("atg_stitch_capacity",
    "Configured prefix-stitch LRU capacity.",
    UInt64.ofNat p.gateway.stitcher.capacity)]

def counter_table : List (String × String × UInt64) := [
  ("atg_turns_total",
    "Requests that produced a traced turn record.",
    p.gateway.turns_total),
  ("atg_turns_with_session_total",
    "Turns carrying an observed (non-synthetic) session id.",
    p.gateway.turns_with_session),
  ("atg_turns_with_harness_total",
    "Turns attributed to a known harness identity.",
    p.gateway.turns_with_harness),
  ("atg_hdr_evidence_dropped_total",
    "Header-evidence entries dropped by the per-turn byte budget.",
    p.gateway.hdr_evidence_dropped),
  ("atg_loose_path_matches_total",
    "Requests matching a protocol path loosely (endpoint-variant detection).",
    p.gateway.loose_path_matches),
  ("atg_failed_frames_total",
    "SSE frames that failed JSON parse during unpack (fail-open).",
    p.gateway.failed_frames),
  ("atg_store_dropped_total",
    "Turn records evicted by the bounded in-process store.",
    p.gateway.store.dropped),
  ("atg_exported_total",
    "Turn records accepted by the OTLP endpoint.",
    p.pool.health.exported),
  ("atg_export_failed_total",
    "Turn records whose OTLP export attempt failed.",
    p.pool.health.failed),
  ("atg_export_dropped_total",
    "Turn records dropped because the export queue was full.",
    p.pool.health.dropped),
  ("atg_export_panicked_batches_total",
    "Export batches aborted by a panic inside the export task.",
    p.pool.health.panicked),
  ("atg_stitch_expired_total",
    "Prefix-stitch chains dropped by TTL expiry.",
    p.gateway.stitcher.expired),
  ("atg_stitch_evicted_total",
    "Prefix-stitch chains dropped by the capacity LRU.",
    p.gateway.stitcher.evicted),
  ("atg_stitch_wait_ns_total",
    "Cumulative nanoseconds blocked on the prefix-stitch lock (contention).",
    p.stitch_wait_ns),
  ("atg_stitch_hold_ns_total",
    "Cumulative nanoseconds held inside the prefix-stitch lock (critical section).",
    p.stitch_hold_ns),
  ("atg_store_wait_ns_total",
    "Cumulative nanoseconds blocked on the trace-store lock (contention).",
    p.store_wait_ns),
  ("atg_store_hold_ns_total",
    "Cumulative nanoseconds held inside the trace-store lock (per-request push).",
    p.store_hold_ns)]

def stage_table : List (String × String × Exposition) := [
  ("atg_stage_wait_upstream_seconds",
    "Request start to upstream response headers (gateway queueing plus upstream first-byte latency).",
    p.stage_wait_upstream),
  ("atg_stage_time_to_first_byte_seconds",
    "Request start to the first response body byte relayed downstream (ATG-internal TTFB).",
    p.stage_time_to_first_byte),
  ("atg_stage_delivery_seconds",
    "Upstream response headers to response body end (stream duration as seen by ATG).",
    p.stage_delivery),
  ("atg_stage_finalize_seconds",
    "Response body end to record finalized (decode/capture/encode tail).",
    p.stage_finalize)]

def render_info : String :=
  "# HELP atg_info Build and runtime identity of this gateway instance.\n"
    ++ "# TYPE atg_info gauge\n"
    ++ "atg_info\x7bversion=\"" ++ escape_label_value VERSION
    ++ "\",variant=\"" ++ variant_label p.bench
    ++ "\",trace_mode=\"" ++ trace_mode_label p.gateway.trace_off
    ++ "\",trace_tag=\"" ++ escape_label_value p.trace_tag ++ "\"\x7d 1\n"

def render_metrics : String :=
  p.render_info
    ++ String.join (p.gauge_table.map fun g => render_gauge g.1 g.2.1 g.2.2)
    ++ String.join (p.counter_table.map fun c => render_counter c.1 c.2.1 c.2.2)
    ++ String.join (p.stage_table.map fun s => s.2.2.text s.1 s.2.1)

end Probed

end exporter

/-! ### What is on the page -/

def head_lines (name help kind : String) : List Line :=
  [.help name.toList help.toList, .type name.toList kind.toList]

def sample_of (name : String) (labels : List (String × String)) (value : ℚ) : Sample where
  name := name.toList
  labels := labels.map fun l => (l.1.toList, l.2.toList)
  value := value

def scalar_lines (kind name help : String) (value : UInt64) : List Line :=
  head_lines name help kind ++ [.sample (sample_of name [] value.toNat)]

/-- The buckets with their bounds, the total, and the exact sum in seconds. -/
def Exposition.samples (e : Exposition) (name : String) : List Sample :=
  (e.buckets.zip BOUND_LABELS).map (fun b =>
      sample_of (name ++ "_bucket") [("le", b.2)] b.1.toNat)
    ++ [sample_of (name ++ "_bucket") [("le", "+Inf")] e.inf.toNat,
      sample_of (name ++ "_sum") [] (e.sum_ns.toNat / 10 ^ 9),
      sample_of (name ++ "_count") [] e.count.toNat]

def Exposition.lines (e : Exposition) (name help : String) : List Line :=
  head_lines name help "histogram" ++ (e.samples name).map .sample

/-- The identity of the gateway. -/
def Probed.info {ρ τ : Type} (p : Probed ρ τ) : Sample :=
  sample_of "atg_info" [
    ("version", VERSION),
    ("variant", variant_label p.bench),
    ("trace_mode", trace_mode_label p.gateway.trace_off),
    ("trace_tag", p.trace_tag)] 1

def Probed.lines {ρ τ : Type} (p : Probed ρ τ) : List Line :=
  head_lines "atg_info" "Build and runtime identity of this gateway instance." "gauge"
    ++ [.sample p.info]
    ++ p.gauge_table.flatMap (fun g => scalar_lines "gauge" g.1 g.2.1 g.2.2)
    ++ p.counter_table.flatMap (fun c => scalar_lines "counter" c.1 c.2.1 c.2.2)
    ++ p.stage_table.flatMap (fun s => s.2.2.lines s.1 s.2.1)

/-! ### Pieces of the page -/

open Prometheus (Page)

/-- A name of a metric and a text that needs no escape. -/
structure PlainHead (name help : String) : Prop where
  name : Prometheus.is_name name.toList = true
  unescaped : '\\' ∉ help.toList
  one_line : '\n' ∉ help.toList

instance PlainHead.decidable (name help : String) : Decidable (PlainHead name help) :=
  decidable_of_iff
    (Prometheus.is_name name.toList = true ∧ '\\' ∉ help.toList ∧ '\n' ∉ help.toList)
    ⟨fun h => ⟨h.1, h.2.1, h.2.2⟩, fun h => ⟨h.name, h.unescaped, h.one_line⟩⟩

theorem head_page {name help kind : String} (h : PlainHead name help)
    (hkind : kind.toList ∈ Prometheus.KINDS) :
    Page (render_head name help kind).toList (head_lines name help kind) := by
  have hhelp := Page.line (Prometheus.written_help h.name h.unescaped h.one_line)
  have htype := Page.line (Prometheus.written_type h.name hkind)
  have htext : (render_head name help kind).toList
      = ("# HELP ".toList ++ (name.toList ++ ' ' :: help.toList) ++ ['\n'])
        ++ ("# TYPE ".toList ++ (name.toList ++ ' ' :: kind.toList) ++ ['\n']) := by
    simp [render_head]
  rw [htext]
  exact hhelp.append htype

/-- A sample whose value is written as a text. -/
theorem sample_page {name : String} (labels : List (String × String)) {value : ℚ}
    {text : List Char} (hname : Prometheus.is_name name.toList = true)
    (hlabels : ∀ l ∈ labels, Prometheus.is_name l.1.toList = true)
    (hvalue : Prometheus.number text = some value) (hline : '\n' ∉ text) :
    Page (name.toList ++ (Prometheus.print_label_set (sample_of name labels value).labels
      ++ ' ' :: text) ++ ['\n']) [.sample (sample_of name labels value)] := by
  refine Page.line (Prometheus.written_sample (s := sample_of name labels value) hname ?_ hvalue
    hline)
  intro l hl
  obtain ⟨l', hl', rfl⟩ := List.mem_map.mp hl
  exact hlabels l' hl'

/-- The digits of a number are read as the number, on one line. -/
theorem number_nat (n : Nat) :
    Prometheus.number (toString n).toList = some (n : ℚ) ∧ '\n' ∉ (toString n).toList := by
  refine ⟨?_, fun hmem => absurd (Text.digits_of_nat hmem) (by decide)⟩
  rw [Nat.toString_eq_repr, Nat.toList_repr]
  exact Prometheus.number_whole n

/-- Nanoseconds are read as the exact seconds. -/
theorem number_seconds (ns : UInt64) :
    Prometheus.number (seconds_text ns).toList = some (ns.toNat / 10 ^ 9 : ℚ) ∧
      '\n' ∉ (seconds_text ns).toList := by
  have htext : (seconds_text ns).toList = Nat.toDigits 10 (ns.toNat / 1000000000)
      ++ '.' :: FixedWidth.digits 9 (ns.toNat % 1000000000) := by
    have hlen : (ns.toNat % 1000000000).repr.length
        = (Nat.toDigits 10 (ns.toNat % 1000000000)).length := by
      rw [← String.length_toList, Nat.toList_repr]
    simp only [seconds_text, FixedWidth.digits, Nat.toString_eq_repr, String.toList_append,
      String.toList_ofList, Nat.toList_repr, hlen, List.append_assoc]
    rfl
  -- seconds and the rest of the nanoseconds add up to the whole
  have hlt : ns.toNat % 1000000000 < 10 ^ 9 := Nat.mod_lt _ (by decide)
  have hsum : (ns.toNat / 1000000000 : ℕ) + (ns.toNat % 1000000000 : ℕ) / 10 ^ 9
      = (ns.toNat / 10 ^ 9 : ℚ) := by
    have hdiv : ((1000000000 * (ns.toNat / 1000000000) + ns.toNat % 1000000000 : ℕ) : ℚ)
        = ns.toNat := congrArg Nat.cast (Nat.div_add_mod ns.toNat 1000000000)
    rw [Nat.cast_add, Nat.cast_mul] at hdiv
    rw [← hdiv]
    push_cast
    field_simp
    ring
  have hnumber := Prometheus.number_fraction (a := ns.toNat / 1000000000) (Nat.zero_lt_succ 8) hlt
  rw [hsum] at hnumber
  rw [htext]
  refine ⟨hnumber, ?_⟩
  intro hmem
  rcases List.mem_append.mp hmem with hwhole | hfrac
  · exact absurd (Nat.isDigit_of_mem_toDigits (by decide) (by decide) hwhole) (by decide)
  · rcases List.mem_cons.mp hfrac with hpoint | hdigit
    · exact absurd hpoint (by decide)
    · exact absurd (FixedWidth.digits_isDigit _ hdigit) (by decide)

/-- A sample without labels. -/
theorem value_page {name : String} (hname : Prometheus.is_name name.toList = true)
    {text : String} {value : ℚ}
    (hvalue : Prometheus.number text.toList = some value ∧ '\n' ∉ text.toList) :
    Page (name ++ " " ++ text ++ "\n").toList [.sample (sample_of name [] value)] := by
  have hsample := sample_page [] hname (fun _ hl => absurd hl List.not_mem_nil) hvalue.1 hvalue.2
  have htext : (name ++ " " ++ text ++ "\n").toList
      = name.toList ++ ([] ++ ' ' :: text.toList) ++ ['\n'] := by
    simp
  rw [htext]
  exact hsample

theorem scalar_page {kind name help : String} (h : PlainHead name help)
    (hkind : kind.toList ∈ Prometheus.KINDS) (value : UInt64) :
    Page (render_head name help kind ++ scalar_line name value).toList
      (scalar_lines kind name help value) :=
  (head_page h hkind).append_text (value_page h.name (number_nat value.toNat))

/-- A bucket of a histogram. -/
theorem bucket_page {name : String} (hname : Prometheus.is_name name.toList = true) {le : String}
    (hle : le.toList.flatMap Prometheus.escape = le.toList) (value : Nat) :
    Page (name ++ "_bucket\x7ble=\"" ++ le ++ "\"\x7d " ++ toString value ++ "\n").toList
      [.sample (sample_of (name ++ "_bucket") [("le", le)] value)] := by
  obtain ⟨hvalue, hline⟩ := number_nat value
  have hbucket : Prometheus.is_name (name ++ "_bucket").toList = true := by
    rw [String.toList_append]
    exact Prometheus.is_name_append hname (by decide)
  have hkey : Prometheus.is_name "le".toList = true := by decide
  have hsample := sample_page [("le", le)] hbucket (List.forall_mem_singleton.mpr hkey) hvalue hline
  have htext : (name ++ "_bucket\x7ble=\"" ++ le ++ "\"\x7d " ++ toString value ++ "\n").toList
      = (name ++ "_bucket").toList ++ (Prometheus.print_label_set
          (sample_of (name ++ "_bucket") [("le", le)] value).labels
            ++ ' ' :: (toString value).toList) ++ ['\n'] := by
    simp [sample_of, Prometheus.print_label_set, Prometheus.print_labels, Prometheus.print_label,
      hle]
  rw [htext]
  exact hsample

theorem exposition_page {name help : String} (h : PlainHead name help) (e : Exposition) :
    Page (e.text name help).toList (e.lines name help) := by
  have hnames : ∀ suffix : String, suffix.toList.all Prometheus.name_char = true →
      Prometheus.is_name (name ++ suffix).toList = true := by
    intro suffix hsuffix
    rw [String.toList_append]
    exact Prometheus.is_name_append h.name hsuffix
  have hplain : ∀ bound ∈ BOUND_LABELS,
      bound.toList.flatMap Prometheus.escape = bound.toList := by decide
  have hinf_plain : "+Inf".toList.flatMap Prometheus.escape = "+Inf".toList := by decide
  have hkind : "histogram".toList ∈ Prometheus.KINDS := by decide
  have hbuckets := Page.join_text (e.buckets.zip BOUND_LABELS) fun b hb =>
    bucket_page h.name (hplain b.2 (List.of_mem_zip hb).2) b.1.toNat
  have hinf := bucket_page h.name hinf_plain e.inf.toNat
  have hsum := value_page (hnames "_sum" (by decide)) (number_seconds e.sum_ns)
  have hcount := value_page (hnames "_count" (by decide)) (number_nat e.count.toNat)
  have hall := (head_page h hkind).append_text
    (hbuckets.append_text (hinf.append_text (hsum.append_text hcount)))
  have htext : e.text name help
      = render_head name help "histogram"
        ++ (String.join ((e.buckets.zip BOUND_LABELS).map fun b =>
          name ++ "_bucket\x7ble=\"" ++ b.2 ++ "\"\x7d " ++ toString b.1.toNat ++ "\n")
        ++ (name ++ "_bucket\x7ble=\"" ++ "+Inf" ++ "\"\x7d " ++ toString e.inf.toNat ++ "\n"
        ++ (name ++ "_sum" ++ " " ++ seconds_text e.sum_ns ++ "\n"
        ++ (name ++ "_count" ++ " " ++ toString e.count.toNat ++ "\n")))) := by
    simp only [Exposition.text, String.append_assoc]
    rfl
  have hlines : e.lines name help = head_lines name help "histogram"
      ++ ((e.buckets.zip BOUND_LABELS).flatMap (fun b =>
          [.sample (sample_of (name ++ "_bucket") [("le", b.2)] b.1.toNat)])
      ++ ([.sample (sample_of (name ++ "_bucket") [("le", "+Inf")] e.inf.toNat)]
      ++ ([.sample (sample_of (name ++ "_sum") [] (e.sum_ns.toNat / 10 ^ 9))]
      ++ [.sample (sample_of (name ++ "_count") [] e.count.toNat)]))) := by
    rw [Exposition.lines, Exposition.samples, List.map_append, List.map_map, List.map_eq_flatMap]
    rfl
  rw [htext, hlines]
  exact hall

/-! ### The page -/

section page

variable {ρ τ : Type} (p : Probed ρ τ)

theorem escape_label_value_toList (value : String) :
    (escape_label_value value).toList = value.toList.flatMap Prometheus.escape :=
  String.toList_ofList

/-- The tag may hold any text. -/
theorem info_page : Page p.render_info.toList
    (head_lines "atg_info" "Build and runtime identity of this gateway instance." "gauge"
      ++ [.sample p.info]) := by
  have hplain : PlainHead "atg_info" "Build and runtime identity of this gateway instance." := by
    decide
  have hkeys : ∀ l ∈ [("version", VERSION), ("variant", variant_label p.bench),
      ("trace_mode", trace_mode_label p.gateway.trace_off), ("trace_tag", p.trace_tag)],
      Prometheus.is_name l.1.toList = true := by
    simp only [List.forall_mem_cons]
    decide
  -- variant and mode are printed as they are, and have nothing to escape
  have hvariant : (variant_label p.bench).toList.flatMap Prometheus.escape
      = (variant_label p.bench).toList := by
    cases p.bench <;> decide
  have hmode : (trace_mode_label p.gateway.trace_off).toList.flatMap Prometheus.escape
      = (trace_mode_label p.gateway.trace_off).toList := by
    cases p.gateway.trace_off <;> decide
  have hgauge : "gauge".toList ∈ Prometheus.KINDS := by decide
  have hsample := sample_page _ hplain.name hkeys (number_nat 1).1 (number_nat 1).2
  have hhead : "# HELP atg_info Build and runtime identity of this gateway instance.\n"
      ++ "# TYPE atg_info gauge\n"
      = render_head "atg_info" "Build and runtime identity of this gateway instance." "gauge" := by
    decide
  have hlabels : Prometheus.print_label_set p.info.labels
      = "\x7bversion=\"".toList ++ ((escape_label_value VERSION).toList
        ++ ("\",variant=\"".toList ++ ((variant_label p.bench).toList
        ++ ("\",trace_mode=\"".toList ++ ((trace_mode_label p.gateway.trace_off).toList
        ++ ("\",trace_tag=\"".toList ++ ((escape_label_value p.trace_tag).toList
        ++ "\"\x7d".toList))))))) := by
    simp only [Probed.info, sample_of, List.map_cons, List.map_nil, Prometheus.print_label_set,
      Prometheus.print_labels, Prometheus.print_label, hvariant, hmode, List.append_assoc,
      escape_label_value_toList]
    rfl
  have hopen : "atg_info\x7bversion=\"".toList = "atg_info".toList ++ "\x7bversion=\"".toList := by
    decide
  have hclose : "\"\x7d 1\n".toList = "\"\x7d".toList ++ (' ' :: (toString 1).toList ++ ['\n']) := by
    decide
  have htext : p.render_info
      = render_head "atg_info" "Build and runtime identity of this gateway instance." "gauge"
        ++ "atg_info\x7bversion=\"" ++ escape_label_value VERSION
        ++ "\",variant=\"" ++ variant_label p.bench
        ++ "\",trace_mode=\"" ++ trace_mode_label p.gateway.trace_off
        ++ "\",trace_tag=\"" ++ escape_label_value p.trace_tag ++ "\"\x7d 1\n" :=
    congrArg (· ++ "atg_info\x7bversion=\"" ++ escape_label_value VERSION
      ++ "\",variant=\"" ++ variant_label p.bench
      ++ "\",trace_mode=\"" ++ trace_mode_label p.gateway.trace_off
      ++ "\",trace_tag=\"" ++ escape_label_value p.trace_tag ++ "\"\x7d 1\n") hhead
  have hlist : p.render_info.toList
      = (render_head "atg_info" "Build and runtime identity of this gateway instance."
          "gauge").toList
        ++ ("atg_info".toList ++ (Prometheus.print_label_set p.info.labels
          ++ ' ' :: (toString 1).toList) ++ ['\n']) := by
    rw [htext, hlabels]
    simp only [String.toList_append, List.append_assoc, hopen, hclose, -String.reduceToList,
      List.cons_append]
  rw [hlist]
  rw [Nat.cast_one] at hsample
  exact (head_page hplain hgauge).append hsample

/-- A literal is the text of its characters. -/
theorem PlainHead.of_chars {name help : List Char} (hname : Prometheus.is_name name = true)
    (hhelp : help.all (fun c => c != '\\' && c != '\n') = true) :
    PlainHead (String.ofList name) (String.ofList help) := by
  have hchars : ∀ c ∈ help, c ≠ '\\' ∧ c ≠ '\n' := by
    simpa using hhelp
  refine ⟨?_, ?_, ?_⟩
  · rw [String.toList_ofList]
    exact hname
  · rw [String.toList_ofList]
    exact fun hmem => (hchars _ hmem).1 rfl
  · rw [String.toList_ofList]
    exact fun hmem => (hchars _ hmem).2 rfl

theorem gauge_names : ∀ g ∈ p.gauge_table, PlainHead g.1 g.2.1 := by
  simp only [Probed.gauge_table, List.forall_mem_cons]
  and_intros
  all_goals first
    | exact List.forall_mem_nil _
    | exact PlainHead.of_chars (by decide +kernel) (by decide +kernel)

theorem counter_names : ∀ c ∈ p.counter_table, PlainHead c.1 c.2.1 := by
  simp only [Probed.counter_table, List.forall_mem_cons]
  and_intros
  all_goals first
    | exact List.forall_mem_nil _
    | exact PlainHead.of_chars (by decide +kernel) (by decide +kernel)

theorem stage_names : ∀ s ∈ p.stage_table, PlainHead s.1 s.2.1 := by
  simp only [Probed.stage_table, List.forall_mem_cons]
  and_intros
  all_goals first
    | exact List.forall_mem_nil _
    | exact PlainHead.of_chars (by decide +kernel) (by decide +kernel)

theorem metrics_page : Page p.render_metrics.toList p.lines := by
  have hgauge : "gauge".toList ∈ Prometheus.KINDS := by decide
  have hcounter : "counter".toList ∈ Prometheus.KINDS := by decide
  have hgauges := Page.join_text p.gauge_table fun g hg =>
    scalar_page (gauge_names p g hg) hgauge g.2.2
  have hcounters := Page.join_text p.counter_table fun c hc =>
    scalar_page (counter_names p c hc) hcounter c.2.2
  have hstages := Page.join_text p.stage_table fun s hs => exposition_page (stage_names p s hs) s.2.2
  exact (((info_page p).append_text hgauges).append_text hcounters).append_text hstages

/-! ### The series -/

/-- The numbers of the gateway, one sample a series. -/
def Probed.samples : List Sample :=
  p.info :: (p.gauge_table.map (fun g => sample_of g.1 [] g.2.2.toNat)
    ++ p.counter_table.map (fun c => sample_of c.1 [] c.2.2.toNat))
    ++ p.stage_table.flatMap (fun s => s.2.2.samples s.1)

theorem samples_head (name help kind : String) (s : Sample) :
    Prometheus.samples (head_lines name help kind ++ [.sample s]) = [s] := rfl

theorem samples_scalars (kind : String) (l : List (String × String × UInt64)) :
    Prometheus.samples (l.flatMap fun v => scalar_lines kind v.1 v.2.1 v.2.2)
      = l.map fun v => sample_of v.1 [] v.2.2.toNat := by
  rw [Prometheus.samples_flatMap, List.map_eq_flatMap]
  rfl

theorem samples_exposition (e : Exposition) (name help : String) :
    Prometheus.samples (e.lines name help) = e.samples name := by
  rw [Exposition.lines, Prometheus.samples_append, Prometheus.samples_map]
  rfl

theorem samples_lines : Prometheus.samples p.lines = p.samples := by
  rw [Probed.lines, Prometheus.samples_append, Prometheus.samples_append,
    Prometheus.samples_append, samples_head, samples_scalars, samples_scalars,
    Prometheus.samples_flatMap]
  simp only [samples_exposition, Probed.samples, List.append_assoc, List.cons_append,
    List.nil_append]

theorem zip_snd_sublist {α β : Type} : ∀ (l : List α) (m : List β),
    ((l.zip m).map Prod.snd).Sublist m
  | [], m => List.nil_sublist m
  | _ :: _, [] => List.Sublist.refl []
  | _ :: l, b :: m => (zip_snd_sublist l m).cons_cons b

/-- The bounds of the buckets tell them apart, and the suffixes the rest. -/
theorem exposition_series (e : Exposition) (name : String) :
    ((e.samples name).map Sample.series).Nodup := by
  let bucket : String → List Char × List (List Char × List Char) :=
    fun bound => ((name ++ "_bucket").toList, [("le".toList, bound.toList)])
  have hseries : (e.samples name).map Sample.series
      = (((e.buckets.zip BOUND_LABELS).map Prod.snd ++ ["+Inf"]).map bucket)
        ++ [((name ++ "_sum").toList, []), ((name ++ "_count").toList, [])] := by
    rw [Exposition.samples, List.map_append, List.map_append, List.map_map, List.map_map,
      List.append_assoc]
    rfl
  have hbounds : ((e.buckets.zip BOUND_LABELS).map Prod.snd ++ ["+Inf"]).Nodup := by
    have hall : (BOUND_LABELS ++ ["+Inf"]).Nodup := by decide +kernel
    exact hall.sublist ((zip_snd_sublist e.buckets BOUND_LABELS).append_right ["+Inf"])
  have hbucket : Function.Injective bucket := by
    intro b c h
    have hlabels := congrArg Prod.snd h
    simp only [bucket, List.cons.injEq, Prod.mk.injEq, true_and, and_true] at hlabels
    exact String.toList_inj.mp hlabels
  have hsuffix : (name ++ "_sum").toList ≠ (name ++ "_count").toList := by
    rw [String.toList_append, String.toList_append]
    intro h
    exact absurd (List.append_cancel_left h) (by decide)
  rw [hseries]
  refine (hbounds.map hbucket).append ?_ ?_
  · refine List.nodup_cons.mpr ⟨?_, List.nodup_singleton _⟩
    intro hmem
    exact hsuffix (congrArg Prod.fst (List.mem_singleton.mp hmem))
  · -- a bucket has a label, the sum and the count have none
    intro series hleft hright
    obtain ⟨bound, -, rfl⟩ := List.mem_map.mp hleft
    simp [bucket] at hright

theorem exposition_names {e : Exposition} {name : String} :
    ∀ s ∈ e.samples name, name.toList <+: s.name := by
  have hfront : ∀ suffix : String, name.toList <+: (name ++ suffix).toList := by
    intro suffix
    rw [String.toList_append]
    exact List.prefix_append _ _
  intro s hs
  rcases List.mem_append.mp hs with hbucket | hrest
  · obtain ⟨b, -, rfl⟩ := List.mem_map.mp hbucket
    exact hfront "_bucket"
  · simp only [List.mem_cons, List.not_mem_nil, or_false] at hrest
    rcases hrest with rfl | rfl | rfl
    · exact hfront "_bucket"
    · exact hfront "_sum"
    · exact hfront "_count"

/-- The names of the series that are one number each. -/
def Probed.scalar_names : List String :=
  "atg_info" :: (p.gauge_table.map (·.1) ++ p.counter_table.map (·.1))

/-- The stages come last and under names of their own. -/
theorem series_distinct : (p.samples.map Sample.series).Nodup := by
  have hnames : p.scalar_names.Nodup := by
    simp only [Probed.scalar_names, Probed.gauge_table, Probed.counter_table, List.map_cons,
      List.map_nil]
    decide +kernel
  have hscalar : ∀ name ∈ p.scalar_names, ¬ "atg_stage_".toList <+: name.toList := by
    simp only [Probed.scalar_names, Probed.gauge_table, Probed.counter_table, List.map_cons,
      List.map_nil]
    decide +kernel
  -- the stages share a word in front that no scalar has, and none is in front of another
  have hstage : ∀ s ∈ p.stage_table, "atg_stage_".toList <+: s.1.toList := by
    simp only [Probed.stage_table, List.forall_mem_cons]
    decide +kernel
  have hapart : (p.stage_table.map fun s => s.1.toList).Pairwise
      fun b c => ¬ b <+: c ∧ ¬ c <+: b := by
    simp only [Probed.stage_table, List.map_cons, List.map_nil]
    decide +kernel
  have hscalars : ((p.info :: (p.gauge_table.map (fun g => sample_of g.1 [] g.2.2.toNat)
      ++ p.counter_table.map (fun c => sample_of c.1 [] c.2.2.toNat))).map Sample.name)
      = p.scalar_names.map String.toList := by
    simp only [Probed.scalar_names, List.map_cons, List.map_append, List.map_map]
    rfl
  rw [Probed.samples, List.map_append]
  refine List.Nodup.append ?_ ?_ ?_
  · have hmapped := hnames.map fun _ _ h => String.toList_inj.mp h
    rw [← hscalars] at hmapped
    refine List.Nodup.of_map Prod.fst ?_
    rw [List.map_map]
    exact hmapped
  · exact Prometheus.nodup_families (fun s _ => exposition_series s.2.2 s.1)
      (fun s _ => exposition_names) hapart
  · -- a scalar and a stage have different names
    intro series hleft hright
    obtain ⟨s, hs, rfl⟩ := List.mem_map.mp hleft
    obtain ⟨t, ht, hseries⟩ := List.mem_map.mp hright
    obtain ⟨stage, hmem, ht⟩ := List.mem_flatMap.mp ht
    have hname : t.name = s.name := congrArg Prod.fst hseries
    have hfront := (hstage stage hmem).trans (exposition_names t ht)
    have hin : s.name ∈ p.scalar_names.map String.toList :=
      hscalars ▸ List.mem_map_of_mem hs
    obtain ⟨name, hmem, heq⟩ := List.mem_map.mp hin
    rw [hname, ← heq] at hfront
    exact hscalar name hmem hfront

/-- The page is read as the numbers of the gateway, decimal for decimal and
    whatever the tag, and no series is met twice. -/
theorem metrics_read :
    Prometheus.read p.render_metrics.toList = some p.lines
      ∧ Prometheus.samples p.lines = p.samples
      ∧ ∀ s ∈ p.samples, Prometheus.value_of p.lines s.series = some s.value := by
  refine ⟨(metrics_page p).read, samples_lines p, fun s hs => ?_⟩
  rw [← samples_lines] at hs
  refine Prometheus.value_of_sample ?_ hs
  rw [samples_lines]
  exact series_distinct p

end page

end AgentTraceGateway
