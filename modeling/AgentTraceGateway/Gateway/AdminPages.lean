import AgentTraceGateway.Gateway.MetricsPage
import AgentTraceGateway.JsonRead

/-! # The Health and Configuration Pages

  `/__atg/health` repeats the numbers of the metrics page as a JSON object,
  with the provenance of the configuration. `/__atg/config` shows the
  configuration itself, with the salt of the key fingerprints masked.

  The health page and the metrics page of one moment agree, each read by its
  own reader. The configuration page tells everything but the salt: two
  gateways show the same page exactly when they agree in all the rest. The
  digest of the configuration file is part of the rest, and the salt stands
  in that file; beyond the digest the page tells nothing of it. -/

namespace AgentTraceGateway

open JsonText (Tree)

/-! ### The pages -/

section pages

variable {ρ τ : Type}

/-- The one value of an `ApiKey` that is serialized. -/
def REDACTED : String := "***"

/-! The sections, as their derived serializations. -/

namespace Config

def Server.json (s : Server) : Value := .of_entries [
  ("listen", .string s.listen),
  ("upstream", .string s.upstream),
  ("sni", .string s.sni),
  ("worker_threads", .number (.pos_int s.worker_threads.toUInt64)),
  ("max_ws_frame_payload", .number (.pos_int s.max_ws_frame_payload))]

def Trace.json (s : Trace) : Value := .of_entries [
  ("tag", .string s.tag),
  ("mode", .string s.mode)]

def Drain.json (s : Drain) : Value := .of_entries [
  ("on_cancel", .bool s.on_cancel),
  ("timeout_secs", .number (.pos_int s.timeout_secs))]

def Capture.json (s : Capture) : Value := .of_entries [
  ("max_bytes", .number (.pos_int s.max_bytes))]

def Store.json (s : Store) : Value := .of_entries [
  ("max_records", .number (.pos_int s.max_records)),
  ("max_bytes", .number (.pos_int s.max_bytes))]

def Stitch.json (s : Stitch) : Value := .of_entries [
  ("capacity", .number (.pos_int s.capacity)),
  ("ttl_ms", .number (.pos_int s.ttl_ms))]

/-- Whatever the salt is. -/
def ApiKey.json (_ : ApiKey) : Value := .of_entries [("salt", .string REDACTED)]

def Export.json (s : Export) : Value := .of_entries [
  ("otlp_endpoint", .string s.otlp_endpoint),
  ("max_inflight", .number (.pos_int s.max_inflight)),
  ("workers", .number (.pos_int s.workers))]

end Config

def redacted_json (cfg : Config) : Value := .of_entries [
  ("version", .number (.pos_int cfg.version.toUInt64)),
  ("server", cfg.server.json),
  ("trace", cfg.trace.json),
  ("drain", cfg.drain.json),
  ("capture", cfg.capture.json),
  ("store", cfg.store.json),
  ("stitch", cfg.stitch.json),
  ("api_key", cfg.api_key.json),
  ("export", cfg.export_.json)]

/-- `u64::try_from(ms).unwrap_or(u64::MAX)`. -/
def saturated_ms (ms : Nat) : UInt64 := .ofNat (min ms (2 ^ 64 - 1))

namespace Probed

variable (p : Probed ρ τ)

def health_entries : List (String × Value) :=
  let snap := p.config_store.inner
  [("version", .string VERSION),
  ("variant", .string (variant_label p.bench)),
  ("trace_mode", .string (trace_mode_label p.gateway.trace_off)),
  ("exported", .number (.pos_int p.pool.health.exported)),
  ("failed", .number (.pos_int p.pool.health.failed)),
  ("dropped", .number (.pos_int p.pool.health.dropped)),
  ("panicked", .number (.pos_int p.pool.health.panicked)),
  ("store_dropped", .number (.pos_int p.gateway.store.dropped)),
  ("export_queue_depth", .number (.pos_int p.pool.queue_depth)),
  ("export_inflight", .number (.pos_int p.pool.health.inflight)),
  ("export_max_inflight", .number (.pos_int p.pool.effective_width)),
  ("export_workers", .number (.pos_int (p.pool.effective_workers p.export_workers))),
  ("stitch_entries", .number (.pos_int (.ofNat p.gateway.stitcher.states.entries.length))),
  ("stitch_capacity", .number (.pos_int (.ofNat p.gateway.stitcher.capacity))),
  ("stitch_expired_total", .number (.pos_int p.gateway.stitcher.expired)),
  ("stitch_evicted_total", .number (.pos_int p.gateway.stitcher.evicted)),
  ("stitch_wait_ns_total", .number (.pos_int p.stitch_wait_ns)),
  ("stitch_hold_ns_total", .number (.pos_int p.stitch_hold_ns)),
  ("store_wait_ns_total", .number (.pos_int p.store_wait_ns)),
  ("store_hold_ns_total", .number (.pos_int p.store_hold_ns)),
  ("failed_frames", .number (.pos_int p.gateway.failed_frames)),
  ("turns_total", .number (.pos_int p.gateway.turns_total)),
  ("loose_path_matches", .number (.pos_int p.gateway.loose_path_matches)),
  ("turns_with_session", .number (.pos_int p.gateway.turns_with_session)),
  ("turns_with_harness", .number (.pos_int p.gateway.turns_with_harness)),
  ("hdr_evidence_dropped", .number (.pos_int p.gateway.hdr_evidence_dropped)),
  ("inflight", .number (.pos_int p.gauges.inflight)),
  ("inflight_high_water", .number (.pos_int p.gauges.inflight_high_water)),
  ("awaiting_upstream", .number (.pos_int p.gauges.awaiting_upstream)),
  ("worker_threads", .number (.pos_int p.worker_threads)),
  ("config_path", .string snap.path),
  ("config_sha256", .string (hex_encode snap.sha256.val)),
  ("config_generation", .number (.pos_int snap.generation)),
  ("config_loaded_at_ms", .number (.pos_int (saturated_ms snap.loaded_at_ms))),
  ("config_restart_required", .array (snap.restart_required.map .string)),
  ("config_reload_failures", .number (.pos_int p.config_store.reload_failures))]

/-- The body of `/__atg/health`. -/
def health_body : String := (Value.of_entries p.health_entries).to_string

/-- Where the configuration comes from. -/
def provenance_json : Value :=
  let snap := p.config_store.inner
  .of_entries [
    ("path", .string snap.path),
    ("sha256", .string (hex_encode snap.sha256.val)),
    ("generation", .number (.pos_int snap.generation)),
    ("loaded_at_ms", .number (.pos_int (saturated_ms snap.loaded_at_ms))),
    ("restart_required", .array (snap.restart_required.map .string)),
    ("reload_failures", .number (.pos_int p.config_store.reload_failures))]

/-- The values the process runs with, whatever the file says. -/
def structural_json : Value := .of_entries [
  ("server.listen", .string p.listen),
  ("server.worker_threads", .number (.pos_int p.worker_threads)),
  ("export.workers", .number (.pos_int (p.pool.effective_workers p.export_workers))),
  ("trace.mode", .string (trace_mode_label p.gateway.trace_off))]

def config_json : Value := .of_entries [
  ("config", p.provenance_json),
  ("effective", redacted_json p.config_store.inner.cfg),
  ("structural", p.structural_json)]

/-- The body of `/__atg/config`. -/
def config_body : String := p.config_json.to_string

end Probed

end pages

/-! ### What two probes read -/

section agreement

variable {ρ τ : Type} (p : Probed ρ τ)

/-- A number of a JSON object, by its key. -/
def health_number (body key : String) : Option Nat :=
  (JsonText.read body.toList).bind fun doc => (doc.get key).bind Tree.as_nat

/-- A number of a metrics page, by its name. -/
def metrics_number (page name : String) : Option ℚ :=
  (Prometheus.read page.toList).bind fun lines => Prometheus.value_of lines (name.toList, [])

namespace Probed

/-- The gauges on both pages: the key, the name and the number. -/
def shared_gauges : List (String × String × UInt64) := [
  ("inflight", "atg_requests_inflight", p.gauges.inflight),
  ("awaiting_upstream", "atg_requests_awaiting_upstream", p.gauges.awaiting_upstream),
  ("inflight_high_water", "atg_requests_inflight_high_water", p.gauges.inflight_high_water),
  ("worker_threads", "atg_worker_threads", p.worker_threads),
  ("export_queue_depth", "atg_export_queue_depth", p.pool.queue_depth),
  ("export_inflight", "atg_export_inflight", p.pool.health.inflight),
  ("export_max_inflight", "atg_export_max_inflight", p.pool.effective_width),
  ("export_workers", "atg_export_workers", p.pool.effective_workers p.export_workers),
  ("stitch_entries", "atg_stitch_entries", .ofNat p.gateway.stitcher.states.entries.length),
  ("stitch_capacity", "atg_stitch_capacity", .ofNat p.gateway.stitcher.capacity)]

def shared_counters : List (String × String × UInt64) := [
  ("turns_total", "atg_turns_total", p.gateway.turns_total),
  ("turns_with_session", "atg_turns_with_session_total", p.gateway.turns_with_session),
  ("turns_with_harness", "atg_turns_with_harness_total", p.gateway.turns_with_harness),
  ("hdr_evidence_dropped", "atg_hdr_evidence_dropped_total", p.gateway.hdr_evidence_dropped),
  ("loose_path_matches", "atg_loose_path_matches_total", p.gateway.loose_path_matches),
  ("failed_frames", "atg_failed_frames_total", p.gateway.failed_frames),
  ("store_dropped", "atg_store_dropped_total", p.gateway.store.dropped),
  ("exported", "atg_exported_total", p.pool.health.exported),
  ("failed", "atg_export_failed_total", p.pool.health.failed),
  ("dropped", "atg_export_dropped_total", p.pool.health.dropped),
  ("panicked", "atg_export_panicked_batches_total", p.pool.health.panicked),
  ("stitch_expired_total", "atg_stitch_expired_total", p.gateway.stitcher.expired),
  ("stitch_evicted_total", "atg_stitch_evicted_total", p.gateway.stitcher.evicted),
  ("stitch_wait_ns_total", "atg_stitch_wait_ns_total", p.stitch_wait_ns),
  ("stitch_hold_ns_total", "atg_stitch_hold_ns_total", p.stitch_hold_ns),
  ("store_wait_ns_total", "atg_store_wait_ns_total", p.store_wait_ns),
  ("store_hold_ns_total", "atg_store_hold_ns_total", p.store_hold_ns)]

end Probed

theorem health_keys : (p.health_entries.map Prod.fst).Nodup := by
  simp only [Probed.health_entries, List.map_cons, List.map_nil]
  decide +kernel

theorem health_plain : (Value.of_entries p.health_entries).Plain := by
  refine .of_entries ?_
  simp only [Probed.health_entries, List.forall_mem_cons]
  and_intros
  all_goals first
    | exact .string _
    | exact .pos_int _
    | exact .strings _
    | exact List.forall_mem_nil _

theorem health_number_entry {key : String} {n : UInt64}
    (h : (key, .number (.pos_int n)) ∈ p.health_entries) :
    health_number p.health_body key = some n.toNat := by
  have hget := Value.of_entries_tree_get (health_keys p) h
  rw [health_number, Probed.health_body, read_plain (health_plain p), Option.bind_some, hget,
    Value.pos_int_tree]
  exact JsonText.as_nat_nat n.toNat

theorem metrics_number_sample {name : String} {n : UInt64}
    (h : sample_of name [] n.toNat ∈ p.samples) :
    metrics_number p.render_metrics name = some (n.toNat : ℚ) := by
  have hdistinct := series_distinct p
  rw [← samples_lines] at h hdistinct
  have hvalue := Prometheus.value_of_sample hdistinct h
  have hread := (metrics_page p).read
  rw [metrics_number, hread]
  exact hvalue

/-- The scalars of a table, without their help texts. -/
def scalars (table : List (String × String × UInt64)) : List (String × UInt64) :=
  table.map fun v => (v.1, v.2.2)

theorem gauge_sample {name : String} {n : UInt64} (h : (name, n) ∈ scalars p.gauge_table) :
    sample_of name [] n.toNat ∈ p.samples := by
  obtain ⟨g, hg, hscalar⟩ := List.mem_map.mp h
  obtain ⟨rfl, rfl⟩ := Prod.mk.inj hscalar
  have hsample := List.mem_map_of_mem (f := fun g => sample_of g.1 [] g.2.2.toNat) hg
  exact List.mem_append_left _ (List.mem_cons_of_mem _ (List.mem_append_left _ hsample))

theorem counter_sample {name : String} {n : UInt64} (h : (name, n) ∈ scalars p.counter_table) :
    sample_of name [] n.toNat ∈ p.samples := by
  obtain ⟨c, hc, hscalar⟩ := List.mem_map.mp h
  obtain ⟨rfl, rfl⟩ := Prod.mk.inj hscalar
  have hsample := List.mem_map_of_mem (f := fun c => sample_of c.1 [] c.2.2.toNat) hc
  exact List.mem_append_left _ (List.mem_cons_of_mem _ (List.mem_append_right _ hsample))

theorem shared_gauge : ∀ e ∈ p.shared_gauges,
    (e.1, .number (.pos_int e.2.2)) ∈ p.health_entries ∧ e.2 ∈ scalars p.gauge_table := by
  simp only [Probed.shared_gauges, Probed.health_entries, Probed.gauge_table, scalars,
    List.map_cons, List.map_nil, List.forall_mem_cons]
  -- each shared number stands somewhere in both lists
  and_intros
  all_goals first
    | exact List.forall_mem_nil _
    | repeat (first | exact List.mem_cons_self | apply List.mem_cons_of_mem)

theorem shared_counter : ∀ e ∈ p.shared_counters,
    (e.1, .number (.pos_int e.2.2)) ∈ p.health_entries ∧ e.2 ∈ scalars p.counter_table := by
  simp only [Probed.shared_counters, Probed.health_entries, Probed.counter_table, scalars,
    List.map_cons, List.map_nil, List.forall_mem_cons]
  and_intros
  all_goals first
    | exact List.forall_mem_nil _
    | repeat (first | exact List.mem_cons_self | apply List.mem_cons_of_mem)

/-- The health page is read as what it was written from, and every number on
    both pages is read as the same one from each. -/
theorem health_agrees :
    JsonText.read p.health_body.toList = some (Value.of_entries p.health_entries).tree
      ∧ (∀ e ∈ p.health_entries, (Value.of_entries p.health_entries).tree.get e.1 = some e.2.tree)
      ∧ ∀ e ∈ p.shared_gauges ++ p.shared_counters,
          health_number p.health_body e.1 = some e.2.2.toNat
            ∧ metrics_number p.render_metrics e.2.1 = some (e.2.2.toNat : ℚ) := by
  refine ⟨read_plain (health_plain p), fun e he => Value.of_entries_tree_get (health_keys p) he, ?_⟩
  intro e he
  rcases List.mem_append.mp he with he | he
  · obtain ⟨hhealth, hmetrics⟩ := shared_gauge p e he
    exact ⟨health_number_entry p hhealth, metrics_number_sample p (gauge_sample p hmetrics)⟩
  · obtain ⟨hhealth, hmetrics⟩ := shared_counter p e he
    exact ⟨health_number_entry p hhealth, metrics_number_sample p (counter_sample p hmetrics)⟩

end agreement

/-! ### What the configuration page tells -/

section view

variable {ρ τ : Type}

/-- A configuration without its salt. -/
def Config.masked (cfg : Config) : Config := { cfg with api_key := ⟨REDACTED⟩ }

/-- What the configuration page tells. -/
structure ConfigView where
  path : String
  sha256 : Digest
  generation : UInt64
  loaded_at_ms : UInt64
  restart_required : List String
  reload_failures : UInt64
  effective : Config
  listen : String
  worker_threads : UInt64
  export_workers : UInt64
  trace_off : Bool

def Probed.config_view (p : Probed ρ τ) : ConfigView where
  path := p.config_store.inner.path
  sha256 := p.config_store.inner.sha256
  generation := p.config_store.inner.generation
  loaded_at_ms := saturated_ms p.config_store.inner.loaded_at_ms
  restart_required := p.config_store.inner.restart_required
  reload_failures := p.config_store.reload_failures
  effective := p.config_store.inner.cfg.masked
  listen := p.listen
  worker_threads := p.worker_threads
  export_workers := p.pool.effective_workers p.export_workers
  trace_off := p.gateway.trace_off

@[simp] theorem string_tree_inj {s t : String} :
    (Value.string s).tree = (Value.string t).tree ↔ s = t := by
  rw [Value.tree, Value.tree, JsonText.str, JsonText.str, Tree.string.injEq, String.toList_inj]

@[simp] theorem pos_int_tree_inj {m n : UInt64} :
    (Value.number (.pos_int m)).tree = (Value.number (.pos_int n)).tree ↔ m = n := by
  rw [Value.pos_int_tree, Value.pos_int_tree]
  refine ⟨fun h => ?_, fun h => by rw [h]⟩
  have hnat := congrArg Tree.as_nat h
  rw [JsonText.as_nat_nat, JsonText.as_nat_nat] at hnat
  exact UInt64.toNat_inj.mp (Option.some.inj hnat)

@[simp] theorem bool_tree_inj {a b : Bool} :
    (Value.bool a).tree = (Value.bool b).tree ↔ a = b := by
  rw [Value.tree, Value.tree, Tree.bool.injEq]

@[simp] theorem strings_tree_inj {l m : List String} :
    (Value.array (l.map .string)).tree = (Value.array (m.map .string)).tree ↔ l = m := by
  rw [Value.tree, Value.tree, Tree.array.injEq, Value.items_tree_eq, Value.items_tree_eq,
    List.map_map, List.map_map]
  refine ⟨fun h => ?_, fun h => by rw [h]⟩
  exact List.map_injective_iff.mpr (fun _ _ => string_tree_inj.mp) h

/-! A section tells its values. -/

theorem server_json_inj {s t : Config.Server} (h : s.json.tree = t.json.tree) : s = t := by
  have hvalues := Value.of_entries_tree_inj h rfl (by simp)
  cases s
  cases t
  simpa [UInt32.toUInt64_inj] using hvalues

theorem trace_json_inj {s t : Config.Trace} (h : s.json.tree = t.json.tree) : s = t := by
  have hvalues := Value.of_entries_tree_inj h rfl (by simp)
  cases s
  cases t
  simpa using hvalues

theorem drain_json_inj {s t : Config.Drain} (h : s.json.tree = t.json.tree) : s = t := by
  have hvalues := Value.of_entries_tree_inj h rfl (by simp)
  cases s
  cases t
  simpa using hvalues

theorem capture_json_inj {s t : Config.Capture} (h : s.json.tree = t.json.tree) : s = t := by
  have hvalues := Value.of_entries_tree_inj h rfl (by simp)
  cases s
  cases t
  simpa using hvalues

theorem store_json_inj {s t : Config.Store} (h : s.json.tree = t.json.tree) : s = t := by
  have hvalues := Value.of_entries_tree_inj h rfl (by simp)
  cases s
  cases t
  simpa using hvalues

theorem stitch_json_inj {s t : Config.Stitch} (h : s.json.tree = t.json.tree) : s = t := by
  have hvalues := Value.of_entries_tree_inj h rfl (by simp)
  cases s
  cases t
  simpa using hvalues

theorem export_json_inj {s t : Config.Export} (h : s.json.tree = t.json.tree) : s = t := by
  have hvalues := Value.of_entries_tree_inj h rfl (by simp)
  cases s
  cases t
  simpa using hvalues

/-- The values of two configurations are the same on the page only where they
    are, up to the salt. -/
theorem redacted_json_inj {cfg cfg' : Config}
    (h : (redacted_json cfg).tree = (redacted_json cfg').tree) : cfg.masked = cfg'.masked := by
  have hvalues := Value.of_entries_tree_inj h rfl (by simp)
  simp only [List.map_cons, List.map_nil, List.cons.injEq, and_true] at hvalues
  obtain ⟨hversion, hserver, htrace, hdrain, hcapture, hstore, hstitch, -, hexport⟩ := hvalues
  have hversion := UInt32.toUInt64_inj.mp (pos_int_tree_inj.mp hversion)
  cases cfg
  cases cfg'
  simp only [Config.masked, Config.mk.injEq, true_and]
  exact ⟨hversion, server_json_inj hserver, trace_json_inj htrace, drain_json_inj hdrain,
    capture_json_inj hcapture, store_json_inj hstore, stitch_json_inj hstitch,
    export_json_inj hexport⟩

@[simp] theorem trace_mode_label_inj {a b : Bool} :
    trace_mode_label a = trace_mode_label b ↔ a = b := by
  cases a <;> cases b <;> decide

@[simp] theorem hex_encode_inj {d d' : Digest} :
    hex_encode d.val = hex_encode d'.val ↔ d = d' := by
  rw [hex_encode, hex_encode, String.ofList_inj, Subtype.ext_iff]
  exact hex_chars_injective.eq_iff

theorem redacted_json_plain (cfg : Config) : (redacted_json cfg).Plain := by
  repeat' first
    | exact .string _
    | exact .pos_int _
    | exact .bool _
    | exact List.forall_mem_nil _
    | (refine .of_entries ?_; simp only [List.forall_mem_cons])
    | apply And.intro

theorem provenance_json_plain (p : Probed ρ τ) : p.provenance_json.Plain := by
  refine .of_entries ?_
  simp only [List.forall_mem_cons]
  and_intros
  all_goals first
    | exact .string _
    | exact .pos_int _
    | exact .strings _
    | exact List.forall_mem_nil _

theorem structural_json_plain (p : Probed ρ τ) : p.structural_json.Plain := by
  refine .of_entries ?_
  simp only [List.forall_mem_cons]
  and_intros
  all_goals first
    | exact .string _
    | exact .pos_int _
    | exact List.forall_mem_nil _

theorem config_json_plain (p : Probed ρ τ) : p.config_json.Plain := by
  refine .of_entries ?_
  simp only [List.forall_mem_cons]
  exact ⟨provenance_json_plain p, redacted_json_plain _, structural_json_plain p,
    List.forall_mem_nil _⟩

theorem redacted_json_masked (cfg : Config) : redacted_json cfg.masked = redacted_json cfg := rfl

/-- Two gateways show the same configuration page exactly when they agree in
    all that it tells. Of the salt that is the digest of the file it stands
    in, and nothing else. -/
theorem config_page_iff (p q : Probed ρ τ) :
    p.config_body = q.config_body ↔ p.config_view = q.config_view := by
  constructor
  · intro h
    have htree := plain_text_inj (config_json_plain p) (config_json_plain q) h
    -- the objects of the two pages have the same keys, so they agree value by value
    have hpage := Value.of_entries_tree_inj htree rfl (by simp)
    simp only [List.map_cons, List.map_nil, List.cons.injEq, and_true] at hpage
    obtain ⟨hprovenance, heffective, hstructural⟩ := hpage
    have hprovenance := Value.of_entries_tree_inj hprovenance rfl (by simp)
    have hstructural := Value.of_entries_tree_inj hstructural rfl (by simp)
    simp only [List.map_cons, List.map_nil, List.cons.injEq, and_true, string_tree_inj,
      pos_int_tree_inj, strings_tree_inj, hex_encode_inj] at hprovenance
    simp only [List.map_cons, List.map_nil, List.cons.injEq, and_true, string_tree_inj,
      pos_int_tree_inj, trace_mode_label_inj] at hstructural
    obtain ⟨hpath, hsha256, hgeneration, hloaded, hrestart, hfailures⟩ := hprovenance
    obtain ⟨hlisten, hthreads, hworkers, hmode⟩ := hstructural
    rw [Probed.config_view, Probed.config_view, ConfigView.mk.injEq]
    exact ⟨hpath, hsha256, hgeneration, hloaded, hrestart, hfailures,
      redacted_json_inj heffective, hlisten, hthreads, hworkers, hmode⟩
  · intro h
    rw [Probed.config_view, Probed.config_view, ConfigView.mk.injEq] at h
    obtain ⟨hpath, hsha256, hgeneration, hloaded, hrestart, hfailures, heffective, hlisten,
      hthreads, hworkers, hmode⟩ := h
    -- the page is written from the masked configuration
    have hredacted : redacted_json p.config_store.inner.cfg
        = redacted_json q.config_store.inner.cfg := by
      rw [← redacted_json_masked, heffective, redacted_json_masked]
    have hprovenance : p.provenance_json = q.provenance_json := by
      rw [Probed.provenance_json, Probed.provenance_json]
      simp only [hpath, hsha256, hgeneration, hloaded, hrestart, hfailures]
    have hstructural : p.structural_json = q.structural_json := by
      rw [Probed.structural_json, Probed.structural_json, hlisten, hthreads, hworkers, hmode]
    rw [Probed.config_body, Probed.config_body, Probed.config_json, Probed.config_json,
      hprovenance, hredacted, hstructural]

end view

end AgentTraceGateway
