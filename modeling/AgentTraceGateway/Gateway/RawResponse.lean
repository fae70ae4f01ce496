import AgentTraceGateway.Gateway.Intake
import AgentTraceGateway.Gateway.Records
import AgentTraceGateway.Trace.Bound

/-! # The Raw Response of a Relayed Turn

  A relayed body is bounded three times over: never while the client lives,
  by the cap in force at each drained chunk, and by the cap in force at the
  record. The drain and the record each put a marker behind what they cut.

  The three agree when the drained part stops between two characters, within
  the cap of the record, and nothing is kept behind the gap. Then the record
  holds a verbatim prefix of the body and one marker that counts the bytes.
  Otherwise it holds two markers, a replaced character, or bytes from behind
  the gap. -/

namespace AgentTraceGateway

/-! ### What is recorded -/

section records

variable (sha256 : Bytes → Digest) (from_str : String → Option Value)

/-- A record holds the bounded response, or nothing where the gateway
    captures nothing. -/
theorem logged_raw_response {gw : Gateway} {d : ProtocolDescriptor} {t : Turn}
    {record : TurnRecord} (h : logged_record sha256 from_str gw d t = some record) :
    record.raw_response = if gw.trace_off then "" else raw_response gw.cap t.ctx := by
  have hassembled : (assemble sha256 from_str gw d t).1.raw_response
      = raw_response gw.cap t.ctx := rfl
  rcases logged_record_cases sha256 from_str h with ⟨hoff, rfl⟩ | ⟨hon, hrecorded⟩
  · rw [if_pos hoff]
    rfl
  · rw [hon, if_neg Bool.false_ne_true, ← hassembled]
    -- every record is made of the assembled one, and keeps its raw response
    cases hrecorded with
    | streamed hsse => rfl
    | unpacked hrest hinner => rfl
    | minimal hrest hnone hdue => rfl

/-- Any record that `logging` pushes is the turn's. -/
theorem pushed_raw_response {gw : Gateway} {t : Turn} {record : TurnRecord}
    (h : Pushed gw (logging sha256 from_str gw t) record) :
    record.raw_response = if gw.trace_off then "" else raw_response gw.cap t.ctx := by
  obtain ⟨m, -, hrecord⟩ := (pushed_iff_logged sha256 from_str gw t record).mp h
  exact logged_raw_response sha256 from_str hrecord

end records

/-! ### Verbatim captures -/

/-- A recorded response as it should be: text from the front of the bytes
    that came in, and one marker behind it exactly when bytes are missing. -/
def Verbatim (received : Bytes) (raw : String) : Prop :=
  ∃ kept : String, utf8_bytes kept <+: received ∧
    raw = if (utf8_bytes kept).length < received.length then
        kept ++ CaptureCap.truncation_marker received.length (utf8_bytes kept).length
      else kept

/-- A drain that stops keeping bytes in time: between two characters and
    within the cap of the record. What is kept behind the gap must be what
    the gap left out; as a rule that is nothing. -/
structure AlignedCut (cap : CaptureCap) (intake : List Intake) (p : Nat) (rest : List Intake) :
    Prop where
  contiguous : captured p rest <+: (received intake).drop p
  whole : Whole ((received intake).take (p + (captured p rest).length))
  bounded : p + (captured p rest).length ≤ cap.max_bytes
  counted : (received intake).length < 2 ^ 64

/-- The intakes a gateway records verbatim. Without a cut the bound at the
    end is the only one; it stops between two characters by itself. -/
def Aligned (gw : Gateway) (intake : List Intake) : Prop :=
  if gw.trace_off then received intake = []
  else
    match first_cut 0 intake with
    | none => Whole (received intake) ∨ gw.cap.max_bytes < (received intake).length
    | some (p, rest) => AlignedCut gw.cap intake p rest

/-- A body that spells neither a truncation marker nor a replacement. -/
structure Unmarked (body : String) : Prop where
  marker : Text.contains body "[truncated:original_bytes=" = false
  replacement : Utf8.replacement ∉ body.toList

namespace CaptureCap

/-! ### Markers and bounds -/

/-- A marker behind its opening bracket. -/
def marker_tail (original captured : Nat) : List Char :=
  "truncated:original_bytes=".toList ++ ((toString original).toList
    ++ ([','] ++ ("captured_bytes=".toList ++ ((toString captured).toList ++ [']']))))

theorem truncation_marker_chars (original captured : Nat) :
    (truncation_marker original captured).toList = '[' :: marker_tail original captured := by
  have hopen : "[truncated:original_bytes=".toList = '[' :: "truncated:original_bytes=".toList := by
    decide
  have hcomma : ",captured_bytes=".toList = [','] ++ "captured_bytes=".toList := by decide
  have hclose : "]".toList = [']'] := by decide
  unfold truncation_marker marker_tail
  rw [String.toList_append, String.toList_append, String.toList_append, String.toList_append,
    hopen, hcomma, hclose]
  simp only [List.cons_append, List.append_assoc]

theorem marker_tail_bracket (original captured : Nat) : '[' ∉ marker_tail original captured := by
  have hdigits : ∀ n : Nat, '[' ∉ (toString n).toList := by
    intro n hmem
    cases Text.digits_of_nat hmem
  unfold marker_tail
  simp only [List.mem_append, not_or]
  exact ⟨by decide, hdigits original, by decide, by decide, hdigits captured, by decide⟩

theorem marker_tail_inj {a b a' b' : Nat} (h : marker_tail a b = marker_tail a' b') :
    a = a' ∧ b = b' := by
  have hcomma : ∀ n : Nat, ',' ∉ (toString n).toList := by
    intro n hmem
    cases Text.digits_of_nat hmem
  have hsplit := congrArg (Text.split_once [',']) (List.append_cancel_left h)
  rw [Text.split_once_first [] (hcomma a), Text.split_once_first [] (hcomma a')] at hsplit
  obtain ⟨hfirst, hsecond⟩ := Prod.mk.inj (Option.some.inj hsplit)
  exact ⟨Text.toString_chars_inj hfirst,
    Text.toString_chars_inj (List.append_cancel_right (List.append_cancel_left hsecond))⟩

/-- A text that ends in a marker ends in one marker only. -/
theorem marker_inj {x y : String} {a b a' b' : Nat}
    (h : x ++ truncation_marker a b = y ++ truncation_marker a' b') :
    x = y ∧ a = a' ∧ b = b' := by
  have hsplit := congrArg (fun s : String => Text.rsplit_once '[' s.toList) h
  simp only [String.toList_append, truncation_marker_chars] at hsplit
  rw [Text.rsplit_once_last (marker_tail_bracket a b),
    Text.rsplit_once_last (marker_tail_bracket a' b')] at hsplit
  obtain ⟨hfirst, hsecond⟩ := Prod.mk.inj (Option.some.inj hsplit)
  exact ⟨String.toList_inj.mp hfirst, marker_tail_inj hsecond⟩

theorem append_marker_chars (x : String) (a b : Nat) :
    (x ++ truncation_marker a b).toList = x.toList ++ '[' :: marker_tail a b := by
  rw [String.toList_append, truncation_marker_chars]

/-- A marker ends in a bracket. -/
theorem marker_last (x : String) (a b : Nat) :
    ∃ front, (x ++ truncation_marker a b).toList = front ++ [']'] := by
  refine ⟨x.toList ++ '[' :: ("truncated:original_bytes=".toList ++ ((toString a).toList
    ++ ([','] ++ ("captured_bytes=".toList ++ (toString b).toList)))), ?_⟩
  rw [append_marker_chars]
  unfold marker_tail
  simp only [List.append_assoc, List.cons_append]

/-- An unmarked body holds no marker. -/
theorem marker_not_kept {body : String} (h : Unmarked body) {x : String} {a b : Nat}
    {y : List Char} : ¬ (x ++ truncation_marker a b).toList ++ y <+: body.toList := by
  rintro ⟨z, hz⟩
  have hopen : "[truncated:original_bytes=".toList = '[' :: "truncated:original_bytes=".toList := by
    decide
  have hinfix : "[truncated:original_bytes=".toList <:+: body.toList := by
    refine ⟨x.toList, (toString a).toList ++ ([','] ++ ("captured_bytes=".toList
      ++ ((toString b).toList ++ [']']))) ++ (y ++ z), ?_⟩
    rw [← hz, append_marker_chars, hopen]
    unfold marker_tail
    simp only [List.cons_append, List.append_assoc]
  have hmarker := h.marker
  unfold Text.contains at hmarker
  rw [decide_eq_true hinfix] at hmarker
  cases hmarker

end CaptureCap

/-! ### The raw response -/

section verbatim

variable {cap : CaptureCap} {intake : List Intake} {ctx : Ctx} {snap : Snapshot}
  {start_ns : UInt64} {body : String}

/-- Where nothing is cut the record bounds the whole body. -/
theorem raw_response_uncut (h : Captures intake (Ctx.fresh snap start_ns) ctx)
    (hcut : first_cut 0 intake = none) : raw_response cap ctx = cap.bound (received intake) := by
  have hkept : ctx.resp_buf = captured 0 intake := h.kept
  have hcounted : ctx.drain_overflow
      = 0 + ((received intake).length - (captured 0 intake).length) := h.counted
  rw [captured_of_uncut intake 0 hcut] at hkept hcounted
  unfold raw_response
  rw [hkept, hcounted, Nat.sub_self, if_neg (Nat.lt_irrefl 0)]

/-- What a cut keeps. -/
theorem captured_of_first_cut {p : Nat} {rest : List Intake}
    (hcut : first_cut 0 intake = some (p, rest)) :
    (captured 0 intake).length < (received intake).length ∧ p ≤ (received intake).length ∧
      captured 0 intake = (received intake).take p ++ captured p rest := by
  obtain ⟨head, lost, hlost, hp, hreceived, hcaptured⟩ := captured_of_cut intake 0 p rest hcut
  rw [Nat.zero_add] at hp
  have hlater := length_captured_le rest p
  have hpos := List.length_pos_iff.mpr hlost
  refine ⟨?_, ?_, ?_⟩
  · rw [hreceived, hcaptured, List.length_append, List.length_append, List.length_append]
    omega
  · rw [hreceived, List.length_append]
    omega
  · rw [hreceived, hcaptured, ← hp, List.take_left]

/-- Where something is cut the record bounds what was kept, and puts its own
    marker behind. -/
theorem raw_response_cut (h : Captures intake (Ctx.fresh snap start_ns) ctx)
    (hcut : (captured 0 intake).length < (received intake).length) :
    raw_response cap ctx = cap.bound (captured 0 intake)
      ++ CaptureCap.truncation_marker (min (received intake).length (2 ^ 64 - 1))
        (captured 0 intake).length := by
  have hkept : ctx.resp_buf = captured 0 intake := h.kept
  have hcounted : ctx.drain_overflow
      = 0 + ((received intake).length - (captured 0 intake).length) := h.counted
  unfold raw_response
  rw [hkept, hcounted, if_pos (by omega), saturating_add, Nat.zero_add,
    Nat.add_sub_cancel' (Nat.le_of_lt hcut)]

/-- An aligned cut keeps a text from the front of the body, within the cap
    of the record. -/
theorem aligned_cut_iff {p : Nat} {rest : List Intake}
    (hcut : first_cut 0 intake = some (p, rest)) :
    AlignedCut cap intake p rest ↔
      captured 0 intake <+: received intake ∧ Whole (captured 0 intake) ∧
        (captured 0 intake).length ≤ cap.max_bytes ∧ (received intake).length < 2 ^ 64 := by
  obtain ⟨-, hp, hcaptured⟩ := captured_of_first_cut hcut
  have hlen : (captured 0 intake).length = p + (captured p rest).length := by
    rw [hcaptured, List.length_append, List.length_take, Nat.min_eq_left hp]
  -- up to the gap all is kept, so only what comes behind it matters
  have hfits : captured p rest <+: (received intake).drop p ↔
      captured 0 intake <+: received intake := by
    have hparts := @List.prefix_append_right_inj _ (captured p rest) ((received intake).drop p)
      ((received intake).take p)
    rw [List.take_append_drop] at hparts
    rw [hcaptured, hparts]
  have htake : captured 0 intake <+: received intake →
      (received intake).take (p + (captured p rest).length) = captured 0 intake := by
    intro h
    rw [← hlen, ← List.prefix_iff_eq_take.mp h]
  constructor
  · rintro ⟨hcontiguous, hwhole, hbounded, hcounted⟩
    have hfront := hfits.mp hcontiguous
    rw [htake hfront] at hwhole
    exact ⟨hfront, hwhole, by omega, hcounted⟩
  · rintro ⟨hfront, hwhole, hbounded, hcounted⟩
    refine ⟨hfits.mpr hfront, ?_, by omega, hcounted⟩
    rw [htake hfront]
    exact hwhole

/-- Text in front of the bytes that came in, with the marker that is due. -/
theorem verbatim_of_kept {bytes kept : Bytes} (hfront : kept <+: bytes) (hwhole : Whole kept)
    (hshort : kept.length < bytes.length) :
    Verbatim bytes (String.ofList (utf8_lossy kept)
      ++ CaptureCap.truncation_marker bytes.length kept.length) := by
  have hkept := hwhole.lossy
  refine ⟨String.ofList (utf8_lossy kept), by rw [hkept]; exact hfront, ?_⟩
  rw [hkept, if_pos hshort]

theorem uncut_verbatim (h : Captures intake (Ctx.fresh snap start_ns) ctx)
    (hbody : received intake <+: utf8_bytes body) (hcut : first_cut 0 intake = none)
    (haligned : Whole (received intake) ∨ cap.max_bytes < (received intake).length) :
    Verbatim (received intake) (raw_response cap ctx) := by
  rw [raw_response_uncut h hcut]
  by_cases hle : (received intake).length ≤ cap.max_bytes
  · have hwhole := haligned.resolve_right (Nat.not_lt_of_le hle)
    have hkept := hwhole.lossy
    refine ⟨String.ofList (utf8_lossy (received intake)), by rw [hkept], ?_⟩
    rw [hkept, if_neg (Nat.lt_irrefl _)]
    exact if_pos hle
  · obtain ⟨kept, hfront, hshort, hbound⟩ :=
      CaptureCap.bound_beyond hbody (Nat.lt_of_not_le hle)
    exact ⟨kept, hfront, by rw [if_pos hshort, hbound]⟩

theorem AlignedCut.verbatim {p : Nat} {rest : List Intake}
    (h : Captures intake (Ctx.fresh snap start_ns) ctx)
    (hcut : first_cut 0 intake = some (p, rest)) (haligned : AlignedCut cap intake p rest) :
    Verbatim (received intake) (raw_response cap ctx) := by
  obtain ⟨hshort, -, -⟩ := captured_of_first_cut hcut
  obtain ⟨hfront, hwhole, hbounded, hcounted⟩ := (aligned_cut_iff hcut).mp haligned
  rw [raw_response_cut h hshort, Nat.min_eq_left (by omega)]
  unfold CaptureCap.bound
  rw [if_pos hbounded]
  exact verbatim_of_kept hfront hwhole hshort

/-- A verbatim body without a cut is whole, or beyond the cap. -/
theorem Verbatim.uncut (h : Captures intake (Ctx.fresh snap start_ns) ctx)
    (hbody : received intake <+: utf8_bytes body) (hcut : first_cut 0 intake = none)
    (hraw : Verbatim (received intake) (raw_response cap ctx)) :
    Whole (received intake) ∨ cap.max_bytes < (received intake).length := by
  rw [raw_response_uncut h hcut] at hraw
  by_cases hle : (received intake).length ≤ cap.max_bytes
  · refine Or.inl ?_
    rcases whole_or_cut hbody with hwhole | hinside
    · exact hwhole
    · -- the record ends in a replacement, so in no marker
      obtain ⟨kept, hfront, hkept⟩ := hraw
      obtain ⟨chars, hchars⟩ := hinside.replaced
      unfold CaptureCap.bound at hkept
      rw [if_pos hle, hchars] at hkept
      by_cases hshort : (utf8_bytes kept).length < (received intake).length
      · rw [if_pos hshort] at hkept
        obtain ⟨front, hmarker⟩ := CaptureCap.marker_last kept (received intake).length
          (utf8_bytes kept).length
        rw [← hkept, String.toList_ofList] at hmarker
        have hlast := (List.append_inj' hmarker rfl).2
        exact absurd (List.cons.inj hlast).1 (by decide)
      · exact ⟨kept, hfront.eq_of_length_le (Nat.le_of_not_lt hshort)⟩
  · exact Or.inr (Nat.lt_of_not_le hle)

/-- A verbatim body with a cut is cut in alignment. -/
theorem Verbatim.aligned_cut {p : Nat} {rest : List Intake} (hunmarked : Unmarked body)
    (h : Captures intake (Ctx.fresh snap start_ns) ctx)
    (hbody : received intake <+: utf8_bytes body) (hcut : first_cut 0 intake = some (p, rest))
    (hraw : Verbatim (received intake) (raw_response cap ctx)) : AlignedCut cap intake p rest := by
  obtain ⟨hlost, -, -⟩ := captured_of_first_cut hcut
  obtain ⟨kept, hfront, hkept⟩ := hraw
  have hchars : kept.toList <+: body.toList := chars_of_bytes (hfront.trans hbody)
  rw [raw_response_cut h hlost] at hkept
  by_cases hshort : (utf8_bytes kept).length < (received intake).length
  · rw [if_pos hshort] at hkept
    obtain ⟨hbound, horiginal, hlen⟩ := CaptureCap.marker_inj hkept
    have hbounded : (captured 0 intake).length ≤ cap.max_bytes := by
      by_contra hbeyond
      -- the bound has put a marker of its own
      unfold CaptureCap.bound at hbound
      rw [if_neg hbeyond] at hbound
      rw [← hbound, ← List.append_nil (String.toList _)] at hchars
      exact CaptureCap.marker_not_kept hunmarked hchars
    unfold CaptureCap.bound at hbound
    rw [if_pos hbounded] at hbound
    have hread : utf8_lossy (captured 0 intake) = kept.toList := by
      rw [← hbound, String.toList_ofList]
    have hwhole : Whole (captured 0 intake) := by
      refine whole_of_unreplaced fun hmem => ?_
      rw [hread] at hmem
      exact hunmarked.replacement (hchars.subset hmem)
    have hbytes : utf8_bytes kept = captured 0 intake := by
      rw [← hwhole.lossy, hbound]
    rw [hbytes] at hfront
    exact (aligned_cut_iff hcut).mpr ⟨hfront, hwhole, hbounded, by omega⟩
  · -- a body without a marker cannot end in one
    rw [if_neg hshort] at hkept
    rw [← hkept, ← List.append_nil (String.toList _)] at hchars
    exact absurd hchars (CaptureCap.marker_not_kept hunmarked)

/-- A gateway that captures nothing records nothing. -/
theorem verbatim_empty_iff (bytes : Bytes) : Verbatim bytes "" ↔ bytes = [] := by
  constructor
  · rintro ⟨kept, hfront, hkept⟩
    by_cases hshort : (utf8_bytes kept).length < bytes.length
    · rw [if_pos hshort] at hkept
      obtain ⟨front, hmarker⟩ := CaptureCap.marker_last kept bytes.length (utf8_bytes kept).length
      rw [← hkept] at hmarker
      exact absurd hmarker (by simp)
    · rw [if_neg hshort] at hkept
      rw [← hkept] at hfront hshort
      exact (hfront.eq_of_length_le (Nat.le_of_not_lt hshort)).symm
  · rintro rfl
    exact ⟨"", List.nil_prefix, rfl⟩

end verbatim

section relayed

variable (sha256 : Bytes → Digest) (from_str : String → Option Value)

/-- A relay that returns without its client leaves a record. -/
theorem lost_client_recorded {gw : Gateway} {r : RelayedRequest} {s : RelayState}
    {d : ProtocolDescriptor} (hpath : detect_path r.path = some ⟨d, false⟩)
    (hout : r.outcome from_str = .returned s) (hdone : s.ctx.relay_done = true)
    (hdead : s.ctx.client_dead = true) : PushedOne gw (r.after sha256 from_str gw) := by
  have hpath : detect_path (r.turn s).path = some ⟨d, false⟩ := hpath
  have hcancelled : client_cancelled (r.turn s) = true := by
    unfold client_cancelled
    rw [show (r.turn s).ctx.client_dead = true from hdead, Bool.true_or]
  unfold RelayedRequest.after
  rw [hout]
  refine (exact_pushed_one_iff sha256 from_str hpath).mpr ?_
  rw [logged_record_isSome_iff sha256 from_str hpath]
  exact Or.inr (Or.inr (Or.inr (Or.inr ⟨hdone, hcancelled⟩)))

/-- Whatever the chunks, the moment of the death and the caps, a recorded
    response is verbatim when the capture is aligned. On a body that spells
    neither a marker nor a replacement it is verbatim only then. -/
theorem raw_response_verbatim_iff {gw : Gateway} {r : RelayedRequest} {record : TurnRecord}
    {body : String} (hbody : sent_body r.exchange.inputs <+: utf8_bytes body)
    (hpushed : Pushed gw (r.after sha256 from_str gw) record) :
    (Aligned gw (r.intake from_str) →
      Verbatim (received (r.intake from_str)) record.raw_response) ∧
    (Unmarked body → Verbatim (received (r.intake from_str)) record.raw_response →
      Aligned gw (r.intake from_str)) := by
  have hcaptures := relay_captures from_str r
  have hreceived := (intake_sent from_str r).trans hbody
  unfold RelayedRequest.after at hpushed
  cases hout : r.outcome from_str with
  | panicked s =>
    rw [hout] at hpushed
    exact absurd hpushed (not_pushed_nothing gw record)
  | waiting s =>
    rw [hout] at hpushed
    exact absurd hpushed (not_pushed_nothing gw record)
  | returned s =>
    rw [hout] at hpushed hcaptures
    have hcaptures : Captures (r.intake from_str) (Ctx.fresh r.snap r.start_ns) s.ctx := hcaptures
    have hraw := pushed_raw_response sha256 from_str hpushed
    rw [show (r.turn s).ctx = s.ctx from rfl] at hraw
    unfold Aligned
    rw [hraw]
    -- nothing is captured where no trace is kept
    by_cases hoff : gw.trace_off = true
    · rw [if_pos hoff, if_pos hoff, verbatim_empty_iff]
      exact ⟨id, fun _ => id⟩
    · rw [if_neg hoff, if_neg hoff]
      -- without a gap the cap of the record alone decides
      cases hcut : first_cut 0 (r.intake from_str) with
      | none =>
        exact ⟨uncut_verbatim hcaptures hreceived hcut,
          fun _ => Verbatim.uncut hcaptures hreceived hcut⟩
      | some cut =>
        obtain ⟨p, rest⟩ := cut
        exact ⟨AlignedCut.verbatim hcaptures hcut,
          fun hunmarked => Verbatim.aligned_cut hunmarked hcaptures hreceived hcut⟩

end relayed

/-! ### A client that dies over the cap -/

/-- A dead client's upstream is drained. -/
def dying_snapshot : Snapshot := ⟨"salt", "tag", true, 30, half_minute_pos⟩

theorem dying_snapshot_drains : dying_snapshot.on_cancel = true := rfl

/-- A relayed body of two chunks under one cap. The client is lost on the
    first; the second is drained. -/
def dying_request (cap : CaptureCap) (first second : String) : RelayedRequest where
  path := "/v1/messages"
  headers := []
  matched := ⟨Anthropic.DESCRIPTOR, false⟩
  detected := messages_path
  snap := dying_snapshot
  gated := dying_snapshot_drains
  exchange := {
    upload := []
    upload_aborted := false
    sent := .ok ⟨200, none, none, false, 1, true, 0⟩
    inputs := [
      .item ⟨1, .chunk (utf8_bytes first), false, 0, cap⟩,
      .item ⟨1, .chunk (utf8_bytes second), true, 0, cap⟩,
      .item ⟨1, .stop, true, 0, cap⟩] }
  start_ns := 0
  wall := fun now => UInt64.ofNat now
  now_ns := 10
  instant := 10
  order := Lru.IterOrder.stored

/-- The cap falls inside the second chunk. -/
def capped_request : RelayedRequest := dying_request (CaptureCap.of_max 4) "ab" "cdef"

/-- The first chunk is over the cap already. -/
def overrun_request : RelayedRequest := dying_request (CaptureCap.of_max 2) "abcd" "ef"

theorem raw_response_verbatim_iff_capped :
    ∃ record, Pushed idle_gateway
        (capped_request.after Sha256.digest (fun _ => none) idle_gateway) record ∧
      Verbatim (received (capped_request.intake fun _ => none)) record.raw_response := by
  have hintake : capped_request.intake (fun _ => none)
      = [.live (utf8_bytes "ab"), .drained (CaptureCap.of_max 4) (utf8_bytes "cdef")] := rfl
  have hout : capped_request.outcome (fun _ => none)
      = .returned (capped_request.outcome fun _ => none).state := rfl
  obtain ⟨record, hpushed⟩ := @lost_client_recorded Sha256.digest (fun _ => none) idle_gateway
    capped_request _ _ messages_path hout rfl rfl
  have hsent : sent_body capped_request.exchange.inputs <+: utf8_bytes "abcdef" := by decide
  refine ⟨record, hpushed, ?_⟩
  refine (raw_response_verbatim_iff Sha256.digest (fun _ => none) hsent hpushed).1 ?_
  rw [hintake]
  show AlignedCut idle_gateway.cap _ 4 []
  exact ⟨by decide, ⟨"abcd", by decide⟩, by decide, by decide⟩

/-- The client dies with four bytes captured under a cap of two: the bound
    and the drain each put a marker behind the text. -/
theorem two_markers_recorded :
    let gw := { idle_gateway with cap := CaptureCap.of_max 2 }
    sent_body overrun_request.exchange.inputs = utf8_bytes "abcdef" ∧
      ∃ record, Pushed gw (overrun_request.after Sha256.digest (fun _ => none) gw) record ∧
        record.raw_response = "ab[truncated:original_bytes=4,captured_bytes=2]"
          ++ "[truncated:original_bytes=6,captured_bytes=4]" ∧
        ¬ Verbatim (received (overrun_request.intake fun _ => none)) record.raw_response := by
  intro gw
  have hintake : overrun_request.intake (fun _ => none)
      = [.live (utf8_bytes "abcd"), .drained (CaptureCap.of_max 2) (utf8_bytes "ef")] := rfl
  have hout : overrun_request.outcome (fun _ => none)
      = .returned (overrun_request.outcome fun _ => none).state := rfl
  obtain ⟨record, hpushed⟩ := @lost_client_recorded Sha256.digest (fun _ => none) gw
    overrun_request _ _ messages_path hout rfl rfl
  have hcaptures := relay_captures (fun _ => none) overrun_request
  have hraw : record.raw_response
      = raw_response gw.cap (overrun_request.outcome fun _ => none).state.ctx := by
    unfold RelayedRequest.after at hpushed
    rw [hout] at hpushed
    exact pushed_raw_response Sha256.digest (fun _ => none) hpushed
  refine ⟨by decide, record, hpushed, ?_, ?_⟩
  · rw [hraw]
    decide
  · rw [hraw]
    rw [hintake] at hcaptures ⊢
    intro hverbatim
    have hcut : first_cut 0 [.live (utf8_bytes "abcd"),
        .drained (CaptureCap.of_max 2) (utf8_bytes "ef")] = some (4, []) := rfl
    have hreceived : received [.live (utf8_bytes "abcd"),
        .drained (CaptureCap.of_max 2) (utf8_bytes "ef")] <+: utf8_bytes "abcdef" := by decide
    have haligned := Verbatim.aligned_cut ⟨by decide, by decide⟩ hcaptures hreceived hcut hverbatim
    exact absurd haligned.bounded (by decide)

end AgentTraceGateway
