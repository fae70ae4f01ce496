import AgentTraceGateway.Engine
import AgentTraceGateway.Lib.Chunked

/-! # Incremental Parsing Equals Whole-Body Parsing

  The drain parser consumes a body chunk by chunk and keeps only the bytes
  after the last blank line. The retained accumulator and tail determine
  what the whole body would have given: a blank line ends every frame, so
  decoding, line splitting and the pending frame all start afresh there. -/

namespace AgentTraceGateway

/-! ### Frame boundaries in text -/

theorem frame_line_nil (st : FrameAcc) : frame_line st [] = st.flush := by
  simp [frame_line, Text.strip_suffix_chars, List.dropSuffix?]

theorem frame_line_cr (st : FrameAcc) : frame_line st ['\r'] = st.flush := by
  have hcr : Text.strip_suffix_chars ['\r'] ['\r'] = some [] := by decide
  simp [frame_line, hcr]

/-- A blank line as the splitter sees it: empty, or a lone carriage return. -/
def BlankLine (line : List Char) : Prop := line = [] ∨ line = ['\r']

theorem frame_line_blank {line : List Char} (h : BlankLine line) (st : FrameAcc) :
    frame_line st line = st.flush := by
  rcases h with rfl | rfl
  · exact frame_line_nil st
  · exact frame_line_cr st

/-- Finished frames put in front stay in front. -/
def FrameAcc.prepend (pre : List (List Char)) (st : FrameAcc) : FrameAcc :=
  { st with out := pre ++ st.out }

theorem flush_prepend (pre : List (List Char)) (st : FrameAcc) :
    (st.prepend pre).flush = (st.flush).prepend pre := by
  simp [FrameAcc.prepend, FrameAcc.flush]

theorem frame_line_prepend (pre : List (List Char)) (st : FrameAcc) (raw : List Char) :
    frame_line (st.prepend pre) raw = (frame_line st raw).prepend pre := by
  unfold frame_line
  simp only [flush_prepend]
  split
  · rfl
  · split
    · rfl
    · cases hdata : st.data <;> simp [FrameAcc.prepend, hdata]

theorem frame_lines_prepend (pre : List (List Char)) :
    ∀ (lines : List (List Char)) (st : FrameAcc),
      lines.foldl frame_line (st.prepend pre) = (lines.foldl frame_line st).prepend pre := by
  intro lines
  induction lines with
  | nil => intro st; rfl
  | cons line rest ih =>
    intro st
    simp only [List.foldl_cons, frame_line_prepend]
    exact ih (frame_line st line)

/-- After a flush nothing is pending: the state is its output in front of
    the initial state. -/
theorem flush_eq_prepend (st : FrameAcc) :
    st.flush = ({} : FrameAcc).prepend st.flush.out := by
  simp [FrameAcc.flush, FrameAcc.prepend]

/-- A text cut behind a blank line is split piece by piece. -/
theorem collect_frames_append {line : List Char} (hblank : BlankLine line)
    (t rest : List Char) :
    collect_frames (t ++ '\n' :: (line ++ '\n' :: rest))
      = collect_frames (t ++ '\n' :: (line ++ ['\n'])) ++ collect_frames rest := by
  have hline : line.splitOn '\n' = [line] := by
    rcases hblank with rfl | rfl <;> decide
  have hnil : List.splitOn '\n' ([] : List Char) = [[]] := by decide
  -- the state behind the blank line, and what the rest adds to it
  obtain ⟨st, hst⟩ : ∃ st, (t.splitOn '\n').foldl frame_line {} = st := ⟨_, rfl⟩
  simp only [collect_frames, List.splitOn_append_cons_self, hline, hnil, List.foldl_append,
    List.foldl_cons, List.foldl_nil, hst, frame_line_blank hblank, frame_line_nil]
  have hflush : st.flush.flush = st.flush := by simp [FrameAcc.flush]
  rw [hflush, hflush, flush_eq_prepend st, frame_lines_prepend, flush_prepend]
  simp [FrameAcc.prepend]

/-! ### Frame boundaries in bytes -/

theorem rposition_prefix (pat : Bytes) :
    ∀ (body : Bytes) (p : Nat), rposition pat body = some p → pat <+: body.drop p := by
  intro body
  induction body with
  | nil => intro p h; simp [rposition] at h
  | cons b bs ih =>
    intro p h
    simp only [rposition] at h
    split at h
    · rename_i q hq
      obtain rfl : q + 1 = p := by simpa using h
      simpa using ih q hq
    · split_ifs at h with hpre
      obtain rfl : 0 = p := by simpa using h
      simpa using hpre

/-- The bytes up to an occurrence's end are the bytes before it and the
    pattern. -/
theorem take_end_of {pat body : Bytes} {cut : Nat} (h : end_of pat body = some cut) :
    ∃ before, body.take cut = before ++ pat := by
  obtain ⟨p, hp, rfl⟩ := Option.map_eq_some_iff.mp h
  obtain ⟨rest, hrest⟩ := rposition_prefix pat body p hp
  refine ⟨body.take p, ?_⟩
  rw [List.take_add, ← hrest, List.take_left]

/-- A cut point is always the end of one of the two blank-line forms. -/
theorem last_frame_boundary_cases {body : Bytes} {cut : Nat}
    (h : last_frame_boundary body = some cut) :
    end_of [0x0A, 0x0D, 0x0A] body = some cut ∨ end_of [0x0A, 0x0A] body = some cut := by
  unfold last_frame_boundary at h
  cases hcrlf : end_of [0x0A, 0x0D, 0x0A] body with
  | none =>
    cases hlf : end_of [0x0A, 0x0A] body with
    | none => simp [hcrlf, hlf] at h
    | some b => simp [hcrlf, hlf] at h; simp [h]
  | some a =>
    cases hlf : end_of [0x0A, 0x0A] body with
    | none => simp [hcrlf, hlf] at h; simp [h]
    | some b =>
      simp only [hcrlf, hlf, Option.some.injEq] at h
      rcases Nat.le_total a b with hab | hab
      · right; rw [← h, Nat.max_eq_right hab]
      · left; rw [← h, Nat.max_eq_left hab]

/-- What is parsed early ends in a blank line, decoded text included. -/
theorem utf8_lossy_boundary {body : Bytes} {cut : Nat}
    (h : last_frame_boundary body = some cut) :
    ∃ t line, BlankLine line ∧ ∀ rest,
      utf8_lossy (body.take cut ++ rest) = t ++ '\n' :: (line ++ '\n' :: utf8_lossy rest) := by
  have hlf : (0x0A : UInt8) < 0x80 := by decide
  rcases last_frame_boundary_cases h with hend | hend
  · obtain ⟨before, htake⟩ := take_end_of hend
    refine ⟨utf8_lossy before, ['\r'], Or.inr rfl, ?_⟩
    intro rest
    have hcr : (0x0D : UInt8) < 0x80 := by decide
    have hsplit : body.take cut ++ rest = before ++ 0x0A :: ([] ++ 0x0D :: ([] ++ 0x0A :: rest)) := by
      rw [htake]; simp
    rw [hsplit, utf8_lossy_append_ascii hlf, utf8_lossy_append_ascii hcr,
      utf8_lossy_append_ascii hlf]
    rfl
  · obtain ⟨before, htake⟩ := take_end_of hend
    refine ⟨utf8_lossy before, [], Or.inl rfl, ?_⟩
    intro rest
    have hsplit : body.take cut ++ rest = before ++ 0x0A :: ([] ++ 0x0A :: rest) := by
      rw [htake]; simp
    rw [hsplit, utf8_lossy_append_ascii hlf, utf8_lossy_append_ascii hlf]
    rfl

/-- The frames of a body are the frames of its complete part and the frames
    of the remainder. -/
theorem collect_frames_boundary {body : Bytes} {cut : Nat}
    (h : last_frame_boundary body = some cut) (rest : Bytes) :
    collect_frames (utf8_lossy (body.take cut ++ rest))
      = collect_frames (utf8_lossy (body.take cut)) ++ collect_frames (utf8_lossy rest) := by
  obtain ⟨t, line, hblank, hlossy⟩ := utf8_lossy_boundary h
  have hwhole := hlossy []
  rw [List.append_nil] at hwhole
  rw [hlossy rest, hwhole]
  exact collect_frames_append hblank t (utf8_lossy rest)

theorem sse_data_frames_eq (body : Bytes) :
    sse_data_frames body = collect_frames (utf8_lossy body) := by
  unfold sse_data_frames
  split
  · rename_i text h
    rw [utf8_lossy_of_strict h]
  · rfl

/-! ### Chunks -/

section drain

variable (from_str : String → Option Value)

theorem feed_frames_append (d : ProtocolDescriptor) (acc : SseAccum)
    (xs ys : List (List Char)) :
    feed_frames from_str d acc (xs ++ ys)
      = feed_frames from_str d (feed_frames from_str d acc xs) ys := by
  simp [feed_frames]

/-- What the drain parser will answer when `rest` is all that still comes. -/
def drain_outcome (d : ProtocolDescriptor) (st : SseAccum × Bytes) (rest : Bytes) :
    SseOutcome :=
  drain_finish from_str d (st.1, st.2 ++ rest)

/-- Parsing a chunk early does not change the answer. -/
theorem drain_feed_outcome (d : ProtocolDescriptor) (st : SseAccum × Bytes)
    (chunk rest : Bytes) :
    drain_outcome from_str d (drain_feed from_str d st chunk) rest
      = drain_outcome from_str d st (chunk ++ rest) := by
  obtain ⟨acc, buf⟩ := st
  simp only [drain_outcome, drain_feed]
  cases hcut : last_frame_boundary (buf ++ chunk) with
  | none => simp [List.append_assoc]
  | some cut =>
    have hbody : buf ++ (chunk ++ rest)
        = (buf ++ chunk).take cut ++ ((buf ++ chunk).drop cut ++ rest) := by
      rw [← List.append_assoc, ← List.append_assoc, List.take_append_drop]
    simp only [drain_finish]
    rw [hbody, collect_frames_boundary hcut, feed_frames_append]

theorem drain_chunk_invariant (d : ProtocolDescriptor) :
    ChunkInvariant (drain_feed from_str d) (drain_outcome from_str d) (fun _ _ => True) where
  keep := fun _ _ _ _ => trivial
  same := fun st chunk rest _ => drain_feed_outcome from_str d st chunk rest

/-- Nothing parsed yet: the answer is the whole-body one. -/
theorem drain_outcome_initial (d : ProtocolDescriptor) (body : Bytes) :
    drain_outcome from_str d ({}, []) body = stream_response from_str d body := by
  simp [drain_outcome, drain_finish, stream_response, sse_data_frames_eq]

/-- The drain parser that has read some chunks finishes as the whole-body
    parser does on their concatenation. -/
theorem drain_chunks_finish (d : ProtocolDescriptor) (chunks : List Bytes) :
    drain_finish from_str d (chunks.foldl (drain_feed from_str d) ({}, []))
      = stream_response from_str d chunks.flatten := by
  have h := (drain_chunk_invariant from_str d).foldl_flatten_eq ({}, []) chunks trivial
  rw [drain_outcome_initial] at h
  simpa [drain_outcome] using h

/-- For every descriptor, every body and every way of cutting it, feeding
    the pieces and finishing gives the outcome of one pass over the body. -/
theorem drain_matches_stream_response (d : ProtocolDescriptor) (body : Bytes)
    (chunks : List Bytes) (hcut : chunks.flatten = body) :
    drain_finish from_str d (chunks.foldl (drain_feed from_str d) ({}, []))
      = stream_response from_str d body := by
  rw [← hcut]
  exact drain_chunks_finish from_str d chunks

end drain

/-- A body cut inside its `CRLF CRLF` and inside its second frame. -/
theorem drain_matches_stream_response_split :
    let from_str : String → Option Value := fun s =>
      if s = "[1]" then some (.array [.number (.pos_int 1)]) else none
    let chunks := [utf8_bytes "data: [1]\r\n", utf8_bytes "\r\ndata: oo", utf8_bytes "ps"]
    let body := utf8_bytes "data: [1]\r\n\r\ndata: oops"
    chunks.flatten = body ∧
    drain_finish from_str Chat.DESCRIPTOR
        (chunks.foldl (drain_feed from_str Chat.DESCRIPTOR) ({}, []))
      = stream_response from_str Chat.DESCRIPTOR body := by
  intro from_str chunks body
  have hcut : chunks.flatten = body := by decide
  exact ⟨hcut, drain_matches_stream_response from_str Chat.DESCRIPTOR body chunks hcut⟩

end AgentTraceGateway
