import AgentTraceGateway.Export.Otlp
import AgentTraceGateway.Gateway.Counters
import AgentTraceGateway.Gateway.Evidence
import AgentTraceGateway.Gateway.Records
import Mathlib.Data.List.Nodup

/-! # The Attribute Keys of a Span

  A span's attributes share one namespace. Most keys are fixed, and an
  enrichment has a fixed key too. The header evidence of a turn is keyed by
  header name, one key for each entry, and a header may be sent more than
  once. Keys repeat exactly where the evidence repeats a name. -/

namespace AgentTraceGateway

/-! ### Fixed keys -/

/-- The key of a header's evidence. -/
def hdr_key (name : String) : String := "langfuse.trace.metadata.hdr." ++ name

/-- The keys in front of the header evidence. -/
def keys_in_front : List String := [
  "langfuse.session.id",
  "protocol", "langfuse.trace.name", "langfuse.trace.tags", ATTR_OBSERVATION_TYPE, "user_input",
  "final_output", "raw_request", "raw_response", "breakpoint",
  ATTR_OBSERVATION_INPUT, ATTR_USER_ID, ATTR_OBSERVATION_OUTPUT, ATTR_MODEL_NAME,
  ATTR_COMPLETION_START_TIME, ATTR_USAGE_DETAILS, "tool_calls",
  "langfuse.trace.metadata.harness", "langfuse.trace.metadata.dialect",
  "langfuse.trace.metadata.client_ua"]

/-- The keys of the enrichments. -/
def enrich_keys : List String := ["cc_account", "codex_installation"]

/-- The keys behind the header evidence. -/
def keys_behind : List String := [
  "langfuse.trace.metadata.cancelled", "langfuse.trace.metadata.client_key_fp",
  "langfuse.trace.metadata.harness_protocol_anomaly", "langfuse.trace.metadata.session_synthetic",
  "langfuse.trace.metadata.session_source", "langfuse.trace.metadata.harness_candidates"]
  ++ enrich_keys.map (fun key => "langfuse.trace.metadata." ++ key)
  ++ ["langfuse.trace.metadata.entry_protocol", "langfuse.trace.metadata.client_model"]

/-- Fixed keys are distinct, and none is the key of a header. -/
theorem fixed_keys_distinct :
    (keys_in_front ++ keys_behind).Nodup ∧
      ∀ key ∈ keys_in_front ++ keys_behind,
        ¬ ("langfuse.trace.metadata.hdr.".toList <+: key.toList) := by
  constructor
  · decide +kernel
  · decide +kernel

theorem prefix_append (pre name : String) : pre.toList <+: (pre ++ name).toList := by
  rw [String.toList_append]
  exact List.prefix_append _ _

theorem hdr_key_not_fixed (name : String) : hdr_key name ∉ keys_in_front ++ keys_behind :=
  fun hmem => fixed_keys_distinct.2 _ hmem (prefix_append _ name)

/-! ### The attributes around the evidence -/

/-- The attributes in front of the header evidence. -/
def attributes_in_front (r : TurnRecord) : List Attr :=
  push_if (!r.session_id.isEmpty) (attr "langfuse.session.id" r.session_id)
  ++ [attr "protocol" r.protocol,
      attr "langfuse.trace.name" LANGFUSE_TRACE_NAME,
      attr_array "langfuse.trace.tags" (tags r),
      attr ATTR_OBSERVATION_TYPE OBSERVATION_TYPE_GENERATION,
      attr "user_input" r.user_input,
      attr "final_output" r.final_output,
      attr "raw_request" r.raw_request,
      attr "raw_response" r.raw_response,
      attr "breakpoint" (if r.breakpoint then "true" else "false")]
  ++ push_if (!r.user_input.isEmpty) (attr ATTR_OBSERVATION_INPUT r.user_input)
  ++ push_if (!r.user_id.isEmpty) (attr ATTR_USER_ID r.user_id)
  ++ push_if (!r.final_output.isEmpty) (attr ATTR_OBSERVATION_OUTPUT r.final_output)
  ++ push_if (!r.model_name.isEmpty) (attr ATTR_MODEL_NAME r.model_name)
  ++ r.completion_start_ns.toList.map (fun ns => attr ATTR_COMPLETION_START_TIME (iso8601_z ns))
  ++ (usage_details r).toList.map (fun details => attr ATTR_USAGE_DETAILS details)
  ++ push_if (!r.tool_calls.isEmpty) (attr "tool_calls" (tool_calls_json r.tool_calls))
  ++ push_if (!r.harness.isEmpty) (attr "langfuse.trace.metadata.harness" r.harness)
  ++ push_if (!r.dialect.isEmpty) (attr "langfuse.trace.metadata.dialect" r.dialect)
  ++ push_if (!r.client_ua.isEmpty) (attr "langfuse.trace.metadata.client_ua" r.client_ua)

/-- The attributes of the evidence. -/
def evidence_attributes (r : TurnRecord) : List Attr :=
  r.hdr_evidence.map fun h => attr ("langfuse.trace.metadata.hdr." ++ h.1) h.2

/-- The attributes behind the header evidence. -/
def attributes_behind (r : TurnRecord) : List Attr :=
  push_if r.cancelled (attr "langfuse.trace.metadata.cancelled" "true")
  ++ push_if (!r.api_key_fp.isEmpty) (attr "langfuse.trace.metadata.client_key_fp" r.api_key_fp)
  ++ push_if r.harness_anomaly (attr "langfuse.trace.metadata.harness_protocol_anomaly" "true")
  ++ push_if r.session_synthetic (attr "langfuse.trace.metadata.session_synthetic" "true")
  ++ push_if (!r.session_source.isEmpty)
      (attr "langfuse.trace.metadata.session_source" r.session_source)
  ++ push_if (decide (1 < r.harness_candidates.length))
      (attr "langfuse.trace.metadata.harness_candidates" (Text.join "," r.harness_candidates))
  ++ r.harness_enrich.map (fun e => attr ("langfuse.trace.metadata." ++ e.1) e.2)
  ++ [attr "langfuse.trace.metadata.entry_protocol" r.protocol]
  ++ push_if (!r.model_name.isEmpty) (attr "langfuse.trace.metadata.client_model" r.model_name)

theorem span_attributes_eq (r : TurnRecord) :
    span_attributes r
      = attributes_in_front r ++ (evidence_attributes r ++ attributes_behind r) := by
  simp only [span_attributes, trace_extra, attributes_in_front, evidence_attributes,
    attributes_behind, List.append_assoc]

/-! ### The keys of a record -/

theorem push_if_keys (cond : Bool) (a : Attr) :
    List.Sublist ((push_if cond a).map (·.key)) [a.key] := by
  cases cond
  · exact List.nil_sublist _
  · exact List.Sublist.refl _

theorem option_keys {α : Type} (o : Option α) (key : String) (value : α → String) :
    List.Sublist ((o.toList.map fun v => attr key (value v)).map (·.key)) [key] := by
  cases o
  · exact List.nil_sublist _
  · exact List.Sublist.refl _

/-- The enrichments of a record are among the known ones, in order. -/
def Enriched (r : TurnRecord) : Prop := (r.harness_enrich.map (·.1)).Sublist enrich_keys

/-- The keys of the evidence. -/
def evidence_keys (r : TurnRecord) : List String := r.hdr_evidence.map fun e => hdr_key e.1

theorem evidence_attributes_keys (r : TurnRecord) :
    (evidence_attributes r).map (·.key) = evidence_keys r := by
  rw [evidence_attributes, List.map_map]
  rfl

theorem enrich_keys_sublist {r : TurnRecord} (h : Enriched r) :
    List.Sublist
      ((r.harness_enrich.map fun e => attr ("langfuse.trace.metadata." ++ e.1) e.2).map (·.key))
      (enrich_keys.map fun key => "langfuse.trace.metadata." ++ key) := by
  have hkeys := h.map fun key => "langfuse.trace.metadata." ++ key
  rw [List.map_map] at hkeys ⊢
  exact hkeys

theorem keys_in_front_sublist (r : TurnRecord) :
    List.Sublist ((attributes_in_front r).map (·.key)) keys_in_front := by
  simp only [attributes_in_front, List.map_append, List.append_assoc]
  show List.Sublist _
    (["langfuse.session.id"] ++
      (["protocol", "langfuse.trace.name", "langfuse.trace.tags", ATTR_OBSERVATION_TYPE,
        "user_input", "final_output", "raw_request", "raw_response", "breakpoint"] ++
        ([ATTR_OBSERVATION_INPUT] ++ ([ATTR_USER_ID] ++ ([ATTR_OBSERVATION_OUTPUT] ++
          ([ATTR_MODEL_NAME] ++ ([ATTR_COMPLETION_START_TIME] ++ ([ATTR_USAGE_DETAILS] ++
            (["tool_calls"] ++ (["langfuse.trace.metadata.harness"] ++
              (["langfuse.trace.metadata.dialect"] ++
                ["langfuse.trace.metadata.client_ua"])))))))))))
  refine (push_if_keys _ _).append ?_
  refine (List.Sublist.refl _).append ?_
  refine (push_if_keys _ _).append ?_
  refine (push_if_keys _ _).append ?_
  refine (push_if_keys _ _).append ?_
  refine (push_if_keys _ _).append ?_
  refine (option_keys _ _ _).append ?_
  refine (option_keys _ _ fun details => details).append ?_
  refine (push_if_keys _ _).append ?_
  refine (push_if_keys _ _).append ?_
  exact (push_if_keys _ _).append (push_if_keys _ _)

theorem keys_behind_sublist {r : TurnRecord} (h : Enriched r) :
    List.Sublist ((attributes_behind r).map (·.key)) keys_behind := by
  simp only [attributes_behind, List.map_append, List.append_assoc]
  show List.Sublist _
    (["langfuse.trace.metadata.cancelled"] ++ (["langfuse.trace.metadata.client_key_fp"] ++
      (["langfuse.trace.metadata.harness_protocol_anomaly"] ++
        (["langfuse.trace.metadata.session_synthetic"] ++
          (["langfuse.trace.metadata.session_source"] ++
            (["langfuse.trace.metadata.harness_candidates"] ++
              (enrich_keys.map (fun key => "langfuse.trace.metadata." ++ key) ++
                (["langfuse.trace.metadata.entry_protocol"] ++
                  ["langfuse.trace.metadata.client_model"]))))))))
  refine (push_if_keys _ _).append ?_
  refine (push_if_keys _ _).append ?_
  refine (push_if_keys _ _).append ?_
  refine (push_if_keys _ _).append ?_
  refine (push_if_keys _ _).append ?_
  refine (push_if_keys _ _).append ?_
  refine (enrich_keys_sublist h).append ?_
  exact (List.Sublist.refl _).append (push_if_keys _ _)

/-- Leaving out what is empty, the keys are the fixed ones around those of the
    evidence. -/
theorem span_keys_sublist {r : TurnRecord} (h : Enriched r) :
    List.Sublist ((span_attributes r).map (·.key))
      (keys_in_front ++ (evidence_keys r ++ keys_behind)) := by
  rw [span_attributes_eq, List.map_append, List.map_append, evidence_attributes_keys]
  exact (keys_in_front_sublist r).append ((List.Sublist.refl _).append (keys_behind_sublist h))

/-- Of the evidence no key is left out. -/
theorem evidence_keys_sublist (r : TurnRecord) :
    (evidence_keys r).Sublist ((span_attributes r).map (·.key)) := by
  rw [span_attributes_eq, List.map_append, List.map_append, evidence_attributes_keys]
  exact (List.sublist_append_left _ _).trans (List.sublist_append_right _ _)

/-- The keys of a span are distinct exactly where the evidence has no name
    twice. -/
theorem span_attributes_nodup_iff {r : TurnRecord} (h : Enriched r) :
    ((span_attributes r).map (·.key)).Nodup ↔ (r.hdr_evidence.map (·.1)).Nodup := by
  have hnames : (evidence_keys r).Nodup ↔ (r.hdr_evidence.map (·.1)).Nodup := by
    have hmap : evidence_keys r = (r.hdr_evidence.map (·.1)).map hdr_key := by
      rw [List.map_map]
      rfl
    rw [hmap]
    exact List.nodup_map_iff fun _ _ heq => (String.append_right_inj _).mp heq
  rw [← hnames]
  constructor
  · intro hkeys
    exact hkeys.sublist (evidence_keys_sublist r)
  · intro hevidence
    refine List.Nodup.sublist (span_keys_sublist h) ?_
    -- the order does not matter, and the keys of headers are no fixed keys
    rw [(List.perm_append_comm_assoc keys_in_front (evidence_keys r) keys_behind).nodup_iff]
    refine List.nodup_append.mpr ⟨hevidence, fixed_keys_distinct.1, ?_⟩
    intro key hkey other hother heq
    obtain ⟨e, -, rfl⟩ := List.mem_map.mp hkey
    rw [heq] at hkey
    exact hdr_key_not_fixed e.1 (heq ▸ hother)

/-! ### The records of the gateway -/

section records

variable (sha256 : Bytes → Digest) (from_str : String → Option Value)

/-- A record that the gateway pushes, with the headers it took as evidence: at
    the end of a request, or for a payload on an upgraded connection. A
    gateway that captures nothing takes none. -/
inductive Built : HeaderMap → TurnRecord → Prop
  | turn (gw : Gateway) (t : Turn) (record : TurnRecord)
      (pushed : Pushed gw (logging sha256 from_str gw t) record) :
      Built (if gw.trace_off then [] else t.headers) record
  | live (gw : Gateway) (tap : LiveTap) (output_ns end_ns : UInt64) (payload : Bytes)
      (record : TurnRecord)
      (pushed : Pushed gw (gw.server_payload from_str tap output_ns end_ns payload).1 record) :
      Built tap.headers record

/-- What is extracted has the keys of a harness's table. -/
theorem enrich_sublist (facts : HarnessFacts) (req : Value) :
    ((enrich from_str facts req).map (·.1)).Sublist enrich_keys := by
  have htables : ∀ d ∈ HARNESSES, (d.enrich.map (·.1)).Sublist enrich_keys := by
    have hkeys : ∀ d ∈ HARNESSES, d.enrich.map (·.1) = [] ∨ d.enrich.map (·.1) = ["cc_account"] ∨
        d.enrich.map (·.1) = ["codex_installation"] := by
      intro d hd
      simp only [HARNESSES, List.mem_cons, List.not_mem_nil, or_false] at hd
      rcases hd with rfl | rfl | rfl | rfl | rfl
      · exact Or.inr (Or.inl rfl)
      · exact Or.inr (Or.inr rfl)
      · exact Or.inl rfl
      · exact Or.inl rfl
      · exact Or.inl rfl
    intro d hd
    rcases hkeys d hd with h | h | h <;> rw [h] <;> decide
  have hkept : ∀ (table : List (String × (Value → Option String))),
      ((table.filterMap fun e => (e.2 req).map fun v => (e.1, v)).map (·.1)).Sublist
        (table.map (·.1)) := by
    intro table
    induction table with
    | nil => exact List.Sublist.refl _
    | cons e table ih =>
      rw [List.filterMap_cons, List.map_cons]
      cases e.2 req with
      | none => exact ih.cons _
      | some v => exact ih.cons_cons _
  unfold enrich
  dsimp only
  split
  · exact List.nil_sublist _
  · rename_i d hfound
    obtain ⟨owner, -, hd⟩ := Option.bind_eq_some_iff.mp hfound
    exact (hkept d.enrich).trans (htables d (List.mem_of_find?_eq_some hd))

/-- The evidence and the enrichments of a turn's record. -/
theorem logged_evidence {gw : Gateway} {d : ProtocolDescriptor} {t : Turn} {record : TurnRecord}
    (h : logged_record sha256 from_str gw d t = some record) :
    Enriched record ∧
      record.hdr_evidence = (collect_hdr_evidence (if gw.trace_off then [] else t.headers)).1 := by
  have hassembled : ((assemble sha256 from_str gw d t).1.harness_enrich.map (·.1)).Sublist
      enrich_keys := by
    show (((parse_body from_str t.ctx.req_buf).map fun req =>
      enrich from_str _ req).getD [] |>.map (·.1)).Sublist enrich_keys
    cases parse_body from_str t.ctx.req_buf with
    | none => exact List.nil_sublist _
    | some req => exact enrich_sublist from_str _ req
  rcases logged_record_cases sha256 from_str h with ⟨hoff, rfl⟩ | ⟨hon, hrecorded⟩
  · rw [if_pos hoff]
    exact ⟨List.nil_sublist _, rfl⟩
  · rw [hon, if_neg Bool.false_ne_true]
    cases hrecorded with
    | streamed hsse => exact ⟨hassembled, rfl⟩
    | unpacked hrest hinner => exact ⟨hassembled, rfl⟩
    | minimal hrest hnone hdue => exact ⟨hassembled, rfl⟩

/-- The record of a live turn is enriched with nothing. -/
theorem apply_server_frame_enrich {s : WsTurnState} {payload : Bytes} {record : TurnRecord}
    (h : (s.apply_server_frame from_str payload).2 = some record) : record.harness_enrich = [] := by
  unfold WsTurnState.apply_server_frame at h
  dsimp only at h
  split at h
  · cases h
  · split at h
    · cases h
    · split at h
      · split at h <;> cases h
      · split at h
        · cases h
          rfl
        · cases h

/-- Every record of the gateway has the evidence of its headers. -/
theorem Built.evidence {headers : HeaderMap} {record : TurnRecord}
    (h : Built sha256 from_str headers record) :
    Enriched record ∧ record.hdr_evidence = (collect_hdr_evidence headers).1 := by
  cases h with
  | turn gw t record pushed =>
    obtain ⟨m, -, hlogged⟩ := (pushed_iff_logged sha256 from_str gw t record).mp pushed
    exact logged_evidence sha256 from_str hlogged
  | live gw tap output_ns end_ns payload record pushed =>
    unfold Gateway.server_payload at pushed
    dsimp only at pushed
    cases hframe : (tap.turn.apply_server_frame from_str payload).2 with
    | none =>
      rw [hframe] at pushed
      exact absurd pushed (not_pushed_nothing gw record)
    | some taken =>
      rw [hframe] at pushed
      have hone := List.append_cancel_left pushed.1
      cases hone
      refine ⟨?_, rfl⟩
      rw [Enriched, apply_server_frame_enrich from_str hframe]
      exact List.nil_sublist _

/-- The keys of the span of any record the gateway builds are distinct exactly
    where the evidence of the headers has no name twice. -/
theorem span_keys_distinct_iff {σ : Type} (random_bytes : Nat → σ → Bytes × σ) (s : σ)
    {headers : HeaderMap} {record : TurnRecord} (h : Built sha256 from_str headers record) :
    ((span_json random_bytes record s).1.attributes.map (·.key)).Nodup ↔
      ((collect_hdr_evidence headers).1.map (·.1)).Nodup := by
  obtain ⟨henriched, hevidence⟩ := h.evidence sha256 from_str
  rw [← hevidence]
  exact span_attributes_nodup_iff henriched

end records

/-- The entries that are kept have the names of their headers, none barred. -/
theorem kept_names {kept : List (String × String)} {picked : HeaderMap}
    (h : List.Forall₂ KeptFrom kept picked) :
    kept.map (·.1) = picked.map (·.1) ∧
      picked.filter (fun header => !hdr_evidence_denied header.1) = picked := by
  induction h with
  | nil => exact ⟨rfl, rfl⟩
  | cons hentry _ ih =>
    constructor
    · rw [List.map_cons, List.map_cons, hentry.name, ih.1]
    · rw [List.filter_cons_of_pos (by simp [hentry.allowed]), ih.2]

/-- So they are where no header that may be kept is sent twice. -/
theorem evidence_names_nodup {headers : HeaderMap}
    (h : ((headers.filter fun header => !hdr_evidence_denied header.1).map (·.1)).Nodup) :
    ((collect_hdr_evidence headers).1.map (·.1)).Nodup := by
  obtain ⟨picked, hsublist, hkept⟩ := (evidence_inv headers).picked
  obtain ⟨hnames, hallowed⟩ := kept_names hkept
  have hfiltered := hsublist.filter fun header => !hdr_evidence_denied header.1
  rw [hallowed] at hfiltered
  show ((headers.foldl Evidence.collect {}).kept.map (·.1)).Nodup
  rw [hnames]
  exact h.sublist (hfiltered.map _)

/-! ### A header sent twice -/

/-- A streamed turn with these headers. -/
def header_turn (headers : HeaderMap) : Turn where
  path := "/v1/messages"
  headers := headers
  error := none
  ctx := {
    snap := ⟨"salt", "tag", false, 30, half_minute_pos⟩
    resp_content_type := "text/event-stream"
    resp_status := 200
    response_complete := true }
  now_ns := 1
  instant := 1
  order := Lru.IterOrder.stored

/-- The record of such a turn. -/
def header_record (headers : HeaderMap) : TurnRecord :=
  sse_record (assemble Sha256.digest (fun _ => none) idle_gateway Anthropic.DESCRIPTOR
      (header_turn headers)).1 (header_turn headers)
    (stream_outcome (fun _ => none) Anthropic.DESCRIPTOR (header_turn headers).ctx)

theorem header_record_built (headers : HeaderMap) :
    Built Sha256.digest (fun _ => none) headers (header_record headers) := by
  have hsse : looks_like_sse (header_turn headers).ctx.resp_content_type = true := by
    show looks_like_sse "text/event-stream" = true
    decide
  exact .turn idle_gateway (header_turn headers) _
    (stream_pushed Sha256.digest (fun _ => none) messages_path rfl hsse)

def sent_once : HeaderMap := [("x-one", [0x31]), ("x-two", [0x32])]

def sent_twice : HeaderMap := [("x-one", [0x31]), ("x-one", [0x32])]

/-- A source of random bytes that is not random. -/
def zero_bytes (n : Nat) (s : Unit) : Bytes × Unit := (List.replicate n 0, s)

theorem span_keys_distinct_iff_once :
    ((span_json zero_bytes (header_record sent_once) ()).1.attributes.map (·.key)).Nodup :=
  (span_keys_distinct_iff Sha256.digest (fun _ => none) zero_bytes () (header_record_built sent_once)).mpr
    (by decide +kernel)

/-- The span of a turn with a header that was sent twice has its key twice. -/
theorem span_keys_repeated :
    Built Sha256.digest (fun _ => none) sent_twice (header_record sent_twice) ∧
      ¬ ((span_json zero_bytes (header_record sent_twice) ()).1.attributes.map (·.key)).Nodup := by
  have hbuilt := header_record_built sent_twice
  obtain ⟨henriched, hevidence⟩ := hbuilt.evidence Sha256.digest (fun _ => none)
  refine ⟨hbuilt, fun hkeys => ?_⟩
  have hnames := (span_attributes_nodup_iff henriched).mp hkeys
  rw [hevidence] at hnames
  exact absurd hnames (by decide +kernel)

end AgentTraceGateway
