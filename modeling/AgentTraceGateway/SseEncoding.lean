import AgentTraceGateway.Drain

/-! # Event Streams Read Back

  A sender spells a list of payloads as an event stream: one data line for
  each line of a payload, other lines anywhere between them, blank lines
  behind a frame. It chooses each line's end and the space behind `data:` on
  its own. The splitter finds the payloads whatever the choices were. -/

namespace AgentTraceGateway

/-! ### Spelling -/

/-- A line that carries no data: a comment, or a field the splitter skips. -/
inductive FurnitureLine : List Char → Prop where
  | comment {text : List Char} (h : '\n' ∉ text) : FurnitureLine (':' :: text)
  | event {value : List Char} (h : '\n' ∉ value) : FurnitureLine ("event:".toList ++ value)
  | id {value : List Char} (h : '\n' ∉ value) : FurnitureLine ("id:".toList ++ value)
  | retry {value : List Char} (h : '\n' ∉ value) : FurnitureLine ("retry:".toList ++ value)

/-- A data line. The space behind the colon is the sender's choice, unless
    the content begins with one. -/
inductive DataLine (content : List Char) : List Char → Prop where
  | spaced : DataLine content ("data: ".toList ++ content)
  | bare (h : content.head? ≠ some ' ') : DataLine content ("data:".toList ++ content)

/-- The lines of one frame, with the contents of its data lines in order. -/
inductive FrameLines : List (List Char) → List (List Char) → Prop where
  | done : FrameLines [] []
  | data {content line contents lines} : DataLine content line → FrameLines contents lines →
      FrameLines (content :: contents) (line :: lines)
  | furniture {line contents lines} : FurnitureLine line → FrameLines contents lines →
      FrameLines contents (line :: lines)

/-- The lines of a stream of payloads. A frame may carry no data, and the
    last one may lack its blank line. -/
inductive StreamLines : List (List Char) → List (List Char) → Prop where
  | trailing {lines} : FrameLines [] lines → StreamLines [] lines
  | last {payload lines} : FrameLines (payload.splitOn '\n') lines → StreamLines [payload] lines
  | skip {lines payloads rest} : FrameLines [] lines → StreamLines payloads rest →
      StreamLines payloads (lines ++ [] :: rest)
  | frame {payload lines payloads rest} : FrameLines (payload.splitOn '\n') lines →
      StreamLines payloads rest → StreamLines (payload :: payloads) (lines ++ [] :: rest)

/-- Lines with their ends, each LF or CRLF; the last may have none. -/
inductive Written : List (List Char) → List Char → Prop where
  | done : Written [] []
  | unended {line} : Written [line] line
  | lf {line lines text} : Written lines text → Written (line :: lines) (line ++ '\n' :: text)
  | crlf {line lines text} : Written lines text →
      Written (line :: lines) (line ++ '\r' :: '\n' :: text)

/-! ### One line -/

/-- A line as it may stand in the body, its LF taken off. -/
def LineEnded (raw line : List Char) : Prop := raw = line ∨ raw = line ++ ['\r']

/-- The content of a data line opens the frame or is joined to it. -/
def FrameAcc.extend (st : FrameAcc) (content : List Char) : FrameAcc :=
  match st.data with
  | some d => { st with data := some (d ++ '\n' :: content) }
  | none => { st with data := some content }

/-- The carriage return of a CRLF is not part of the line. -/
theorem strip_line_end {line raw : List Char} (hcr : '\r' ∉ line) (hraw : LineEnded raw line) :
    (Text.strip_suffix_chars raw ['\r']).getD raw = line := by
  rcases hraw with rfl | rfl
  · have hnone : Text.strip_suffix_chars raw ['\r'] = none := by
      apply Option.eq_none_iff_forall_ne_some.mpr
      intro front hfront
      obtain ⟨back, heq, hback⟩ := List.dropSuffix?_eq_some_iff.mp hfront
      apply hcr
      rw [heq, eq_of_beq hback]
      simp
    rw [hnone]
    rfl
  · have hsome : Text.strip_suffix_chars (line ++ ['\r']) ['\r'] = some line :=
      List.dropSuffix?_eq_some_iff.mpr ⟨['\r'], rfl, beq_self_eq_true _⟩
    rw [hsome]
    rfl

/-- A line with another first letter than `data:` is skipped, whatever ends
    it. -/
theorem frame_line_skip {c : Char} (hd : c ≠ 'd') (hcr : c ≠ '\r') (st : FrameAcc)
    (rest : List Char) : frame_line st (c :: rest) = st := by
  -- taking a carriage return off the end leaves the first letter in place
  obtain ⟨rest', hline⟩ : ∃ rest',
      (Text.strip_suffix_chars (c :: rest) ['\r']).getD (c :: rest) = c :: rest' := by
    cases hfront : Text.strip_suffix_chars (c :: rest) ['\r'] with
    | none => exact ⟨rest, rfl⟩
    | some front =>
      obtain ⟨back, heq, hback⟩ := List.dropSuffix?_eq_some_iff.mp hfront
      obtain rfl := eq_of_beq hback
      cases front with
      | nil => exact absurd (List.cons.inj heq).1 hcr
      | cons c' front =>
        rw [(List.cons.inj heq).1]
        exact ⟨front, rfl⟩
  have hprefix : Text.strip_prefix_chars (c :: rest') "data:".toList = none := by
    apply Option.eq_none_iff_forall_ne_some.mpr
    intro back hback
    have hsame := Text.strip_prefix_chars_eq hback
    exact hd (List.cons.inj hsame).1
  unfold frame_line
  rw [hline]
  simp only [List.isEmpty_cons, Bool.false_eq_true, if_false, hprefix]

/-- A data line contributes its content. -/
theorem frame_line_content {content line raw : List Char} (h : DataLine content line)
    (hcr : '\r' ∉ content) (hraw : LineEnded raw line) (st : FrameAcc) :
    frame_line st raw = st.extend content := by
  have hlead : '\r' ∉ "data: ".toList := by decide
  have hbare : '\r' ∉ "data:".toList := by decide
  -- the rest behind the colon, with the space or without
  obtain ⟨rest, hline, hrest⟩ : ∃ rest, line = "data:".toList ++ rest ∧
      (Text.strip_prefix_chars rest [' ']).getD rest = content := by
    cases h with
    | spaced =>
      refine ⟨' ' :: content, rfl, ?_⟩
      have hspace : Text.strip_prefix_chars (' ' :: content) [' '] = some content := by
        rw [← List.singleton_append]
        exact List.dropPrefix?_append_of_beq _ (beq_self_eq_true _)
      rw [hspace]
      rfl
    | bare hhead =>
      refine ⟨content, rfl, ?_⟩
      have hnone : Text.strip_prefix_chars content [' '] = none := by
        apply Option.eq_none_iff_forall_ne_some.mpr
        intro back hback
        apply hhead
        rw [Text.strip_prefix_chars_eq hback]
        rfl
      rw [hnone]
      rfl
  -- so that what is taken off the end is the sender's line end
  have hnocr : '\r' ∉ line := by
    cases h with
    | spaced => exact fun hmem => (List.mem_append.mp hmem).elim hlead hcr
    | bare hhead => exact fun hmem => (List.mem_append.mp hmem).elim hbare hcr
  have hempty : line.isEmpty = false := by
    rw [hline]
    rfl
  have hprefix : Text.strip_prefix_chars line "data:".toList = some rest := by
    rw [hline]
    exact List.dropPrefix?_append_of_beq _ (beq_self_eq_true _)
  unfold frame_line
  rw [strip_line_end hnocr hraw]
  simp only [hempty, Bool.false_eq_true, if_false, hprefix, hrest]
  rfl

/-! ### The lines of a frame -/

theorem frame_line_furniture {line raw : List Char} (h : FurnitureLine line)
    (hraw : LineEnded raw line) (st : FrameAcc) : frame_line st raw = st := by
  -- neither a colon nor the names of the other fields begin with a d
  have hskip : ∀ c rest, line = c :: rest → c ≠ 'd' → c ≠ '\r' → frame_line st raw = st := by
    intro c rest hline hd hcr
    rcases hraw with rfl | rfl
    · rw [hline]
      exact frame_line_skip hd hcr st rest
    · rw [hline]
      exact frame_line_skip hd hcr st (rest ++ ['\r'])
  cases h with
  | comment h => exact hskip _ _ rfl (by decide) (by decide)
  | event h => exact hskip _ _ rfl (by decide) (by decide)
  | id h => exact hskip _ _ rfl (by decide) (by decide)
  | retry h => exact hskip _ _ rfl (by decide) (by decide)

/-- Furniture anywhere, the data lines contribute in order. -/
theorem foldl_frame_line {contents lines : List (List Char)} (h : FrameLines contents lines) :
    (∀ content ∈ contents, '\r' ∉ content) → ∀ {raws : List (List Char)},
      List.Forall₂ LineEnded raws lines → ∀ st : FrameAcc,
        raws.foldl frame_line st = contents.foldl FrameAcc.extend st := by
  induction h with
  | done =>
    intro _ raws hraws st
    cases hraws
    rfl
  | @data content line contents lines hline hrest ih =>
    intro hcr raws hraws st
    cases hraws with
    | cons hraw hraws =>
      rw [List.foldl_cons, List.foldl_cons,
        frame_line_content hline (hcr content List.mem_cons_self) hraw]
      exact ih (fun c hc => hcr c (List.mem_cons_of_mem content hc)) hraws _
  | furniture hline hrest ih =>
    intro hcr raws hraws st
    cases hraws with
    | cons hraw hraws =>
      rw [List.foldl_cons, frame_line_furniture hline hraw]
      exact ih hcr hraws st

/-- Contents joined to an open frame. -/
theorem foldl_extend_open : ∀ (contents : List (List Char)) (out : List (List Char))
    (d : List Char), contents.foldl FrameAcc.extend ⟨out, some d⟩
      = ⟨out, some (['\n'].intercalate (d :: contents))⟩ := by
  intro contents
  induction contents with
  | nil =>
    intro out d
    simp [List.intercalate]
  | cons content contents ih =>
    intro out d
    have hjoin : ['\n'].intercalate ((d ++ '\n' :: content) :: contents)
        = ['\n'].intercalate (d :: content :: contents) := by
      cases contents <;> simp [List.intercalate, List.intersperse]
    rw [List.foldl_cons, FrameAcc.extend, ih, hjoin]

/-- The lines of a payload put it together again. -/
theorem foldl_extend_payload (payload : List Char) (out : List (List Char)) :
    (payload.splitOn '\n').foldl FrameAcc.extend ⟨out, none⟩ = ⟨out, some payload⟩ := by
  have hjoin : ['\n'].intercalate (payload.splitOn '\n') = payload := List.intercalate_splitOn '\n'
  cases hlines : payload.splitOn '\n' with
  | nil => exact absurd hlines (List.splitOn_ne_nil '\n' payload)
  | cons first rest =>
    rw [hlines] at hjoin
    rw [List.foldl_cons, FrameAcc.extend, foldl_extend_open, hjoin]

/-! ### The lines of a stream -/

theorem FurnitureLine.one_line {line : List Char} (h : FurnitureLine line) : '\n' ∉ line := by
  have hlead : ∀ {name value : List Char}, '\n' ∉ name → '\n' ∉ value → '\n' ∉ name ++ value :=
    fun hname hvalue hmem => (List.mem_append.mp hmem).elim hname hvalue
  cases h with
  | comment h => exact List.not_mem_cons_of_ne_of_not_mem (by decide) h
  | event h => exact hlead (by decide) h
  | id h => exact hlead (by decide) h
  | retry h => exact hlead (by decide) h

theorem DataLine.one_line {content line : List Char} (h : DataLine content line)
    (hcontent : '\n' ∉ content) : '\n' ∉ line := by
  cases h with
  | spaced => exact fun hmem => (List.mem_append.mp hmem).elim (by decide) hcontent
  | bare hhead => exact fun hmem => (List.mem_append.mp hmem).elim (by decide) hcontent

theorem FrameLines.one_line {contents lines : List (List Char)} (h : FrameLines contents lines) :
    (∀ content ∈ contents, '\n' ∉ content) → ∀ line ∈ lines, '\n' ∉ line := by
  induction h with
  | done => exact fun _ _ hmem => absurd hmem List.not_mem_nil
  | @data content line contents lines hline hrest ih =>
    intro hcontents line' hmem
    rcases List.mem_cons.mp hmem with rfl | hmem
    · exact hline.one_line (hcontents content List.mem_cons_self)
    · exact ih (fun c hc => hcontents c (List.mem_cons_of_mem content hc)) line' hmem
  | furniture hline hrest ih =>
    intro hcontents line' hmem
    rcases List.mem_cons.mp hmem with rfl | hmem
    · exact hline.one_line
    · exact ih hcontents line' hmem

theorem StreamLines.one_line {payloads lines : List (List Char)} (h : StreamLines payloads lines) :
    ∀ line ∈ lines, '\n' ∉ line := by
  have hnone : ∀ content ∈ ([] : List (List Char)), '\n' ∉ content :=
    fun _ hmem => absurd hmem List.not_mem_nil
  have hpieces : ∀ payload : List Char, ∀ content ∈ payload.splitOn '\n', '\n' ∉ content :=
    fun payload content hmem => (Text.splitOn_pieces '\n' payload content hmem).1
  have hblank : ∀ {front rest : List (List Char)}, (∀ line ∈ front, '\n' ∉ line) →
      (∀ line ∈ rest, '\n' ∉ line) → ∀ line ∈ front ++ [] :: rest, '\n' ∉ line := by
    intro front rest hfront hrest line hmem
    rcases List.mem_append.mp hmem with hmem | hmem
    · exact hfront line hmem
    · rcases List.mem_cons.mp hmem with rfl | hmem
      · exact List.not_mem_nil
      · exact hrest line hmem
  induction h with
  | trailing hframe => exact hframe.one_line hnone
  | last hframe => exact hframe.one_line (hpieces _)
  | skip hframe hrest ih => exact hblank (hframe.one_line hnone) ih
  | frame hframe hrest ih => exact hblank (hframe.one_line (hpieces _)) ih

/-- Splitting a body at its LFs gives the lines back, up to their ends. -/
theorem Written.split {lines : List (List Char)} {text : List Char} (h : Written lines text) :
    (∀ line ∈ lines, '\n' ∉ line) → ∃ raws, List.Forall₂ LineEnded raws lines ∧
      ∀ st, ((text.splitOn '\n').foldl frame_line st).flush = (raws.foldl frame_line st).flush := by
  induction h with
  | done =>
    intro _
    refine ⟨[], List.Forall₂.nil, fun st => ?_⟩
    have hnil : List.splitOn '\n' ([] : List Char) = [[]] := by decide
    -- an empty body is one blank line
    rw [hnil, List.foldl_cons, List.foldl_nil, frame_line_nil]
    simp [FrameAcc.flush]
  | @unended line =>
    -- the splitter reads a last line without an end like any other
    intro hlines
    refine ⟨[line], List.Forall₂.cons (Or.inl rfl) List.Forall₂.nil, fun st => ?_⟩
    rw [List.splitOn_eq_singleton (hlines line List.mem_cons_self)]
  | @lf line lines text hrest ih =>
    intro hlines
    obtain ⟨raws, hraws, hfold⟩ := ih fun l hl => hlines l (List.mem_cons_of_mem line hl)
    refine ⟨line :: raws, List.Forall₂.cons (Or.inl rfl) hraws, fun st => ?_⟩
    rw [List.splitOn_append_cons_self_of_not_mem (hlines line List.mem_cons_self)]
    exact hfold (frame_line st line)
  | @crlf line lines text hrest ih =>
    intro hlines
    obtain ⟨raws, hraws, hfold⟩ := ih fun l hl => hlines l (List.mem_cons_of_mem line hl)
    refine ⟨(line ++ ['\r']) :: raws, List.Forall₂.cons (Or.inr rfl) hraws, fun st => ?_⟩
    -- the cut is at the LF, so the carriage return stays with the line
    have hline : '\n' ∉ line ++ ['\r'] := by
      intro hmem
      rcases List.mem_append.mp hmem with hmem | hmem
      · exact hlines line List.mem_cons_self hmem
      · exact absurd hmem (by decide)
    have hcut : line ++ '\r' :: '\n' :: text = (line ++ ['\r']) ++ '\n' :: text := by simp
    rw [hcut, List.splitOn_append_cons_self_of_not_mem hline]
    exact hfold (frame_line st (line ++ ['\r']))

theorem frame_line_ended_blank {raw : List Char} (h : LineEnded raw []) (st : FrameAcc) :
    frame_line st raw = st.flush := frame_line_blank h st

/-- Between frames the splitter has finished the payloads so far. -/
theorem StreamLines.frames {payloads lines : List (List Char)} (h : StreamLines payloads lines) :
    (∀ payload ∈ payloads, '\r' ∉ payload) → ∀ {raws : List (List Char)},
      List.Forall₂ LineEnded raws lines → ∀ out,
        (raws.foldl frame_line ⟨out, none⟩).flush.out = out ++ payloads := by
  have hcontents : ∀ {payload : List Char}, '\r' ∉ payload →
      ∀ content ∈ payload.splitOn '\n', '\r' ∉ content :=
    fun hcr content hmem hin => hcr ((Text.splitOn_pieces '\n' _ content hmem).2 hin)
  have hnone : ∀ content ∈ ([] : List (List Char)), '\r' ∉ content :=
    fun _ hmem => absurd hmem List.not_mem_nil
  -- a block and the blank line behind it
  have hblock : ∀ {raws front rest : List (List Char)} {st st' : FrameAcc},
      List.Forall₂ LineEnded raws (front ++ [] :: rest) →
      (∀ {raws}, List.Forall₂ LineEnded raws front → raws.foldl frame_line st = st') →
      ∃ raws', List.Forall₂ LineEnded raws' rest ∧
        raws.foldl frame_line st = raws'.foldl frame_line st'.flush := by
    intro raws front rest st st' hraws hfront
    have hback := List.forall₂_drop_append raws front _ hraws
    obtain ⟨blank, raws', hended, hrest, hdrop⟩ := List.forall₂_cons_right_iff.mp hback
    refine ⟨raws', hrest, ?_⟩
    conv_lhs => rw [← List.take_append_drop front.length raws]
    rw [List.foldl_append, hfront (List.forall₂_take_append raws front _ hraws), hdrop,
      List.foldl_cons, frame_line_ended_blank hended]
  induction h with
  | trailing hframe =>
    intro _ raws hraws out
    rw [foldl_frame_line hframe hnone hraws]
    rfl
  | @last payload lines hframe =>
    intro hcr raws hraws out
    rw [foldl_frame_line hframe (hcontents (hcr payload List.mem_cons_self)) hraws,
      foldl_extend_payload]
    rfl
  | skip hframe hrest ih =>
    intro hcr raws hraws out
    obtain ⟨raws', hraws', hfold⟩ := hblock hraws fun hraws =>
      foldl_frame_line hframe hnone hraws ⟨out, none⟩
    rw [hfold]
    -- a blank line with no frame open finishes nothing
    have hsame : (⟨out, none⟩ : FrameAcc).flush = ⟨out, none⟩ := by simp [FrameAcc.flush]
    rw [List.foldl_nil, hsame]
    exact ih hcr hraws' out
  | @frame payload lines payloads rest hframe hrest ih =>
    intro hcr raws hraws out
    obtain ⟨raws', hraws', hfold⟩ := hblock hraws fun hraws =>
      foldl_frame_line hframe (hcontents (hcr payload List.mem_cons_self)) hraws ⟨out, none⟩
    rw [hfold, foldl_extend_payload]
    have hnext : (⟨out, some payload⟩ : FrameAcc).flush = ⟨out ++ [payload], none⟩ := rfl
    rw [hnext, ih (fun p hp => hcr p (List.mem_cons_of_mem payload hp)) hraws']
    simp

/-- However a stream of payloads is spelled, its frames are the payloads. -/
theorem collect_frames_written {payloads lines : List (List Char)} {text : List Char}
    (hcr : ∀ payload ∈ payloads, '\r' ∉ payload) (hlines : StreamLines payloads lines)
    (htext : Written lines text) : collect_frames text = payloads := by
  obtain ⟨raws, hraws, hfold⟩ := htext.split hlines.one_line
  rw [collect_frames, hfold, hlines.frames hcr hraws]
  rfl

/-- **Event stream round trip**: the data frames of the encoded bytes are
    exactly the payloads, whatever the sender chose for the line ends, the
    spaces, the furniture and the blank lines. -/
theorem sse_frames_round_trip {payloads lines : List (List Char)} {text : List Char}
    (hcr : ∀ payload ∈ payloads, '\r' ∉ payload) (hlines : StreamLines payloads lines)
    (htext : Written lines text) : sse_data_frames (utf8_bytes (String.ofList text)) = payloads := by
  rw [sse_data_frames_eq, utf8_lossy_utf8_bytes, String.toList_ofList]
  exact collect_frames_written hcr hlines htext

/-- A payload of two lines and an empty one: a blank line and a comment in
    front, LF and CRLF mixed, and no end behind the last line. -/
theorem sse_frames_round_trip_mixed :
    sse_data_frames (utf8_bytes (String.ofList
        "\n: hi\r\ndata:a\r\nid: 7\ndata:  b\n\r\ndata:".toList)) = ["a\n b".toList, []] := by
  have hfirst : FrameLines ("a\n b".toList.splitOn '\n')
      [":".toList ++ " hi".toList, "data:".toList ++ ['a'], "id:".toList ++ " 7".toList,
        "data: ".toList ++ " b".toList] := by
    have hsplit : "a\n b".toList.splitOn '\n' = [['a'], " b".toList] := by decide
    rw [hsplit]
    exact .furniture (.comment (by decide)) (.data (.bare (by decide))
      (.furniture (.id (by decide)) (.data .spaced .done)))
  have hsecond : FrameLines (List.splitOn '\n' []) ["data:".toList] := by
    have hsplit : List.splitOn '\n' ([] : List Char) = [[]] := by decide
    rw [hsplit]
    exact .data (.bare (by decide)) .done
  exact sse_frames_round_trip (by decide) (.skip .done (.frame hfirst (.last hsecond)))
    (.lf (.crlf (.crlf (.lf (.lf (.crlf .unended))))))

end AgentTraceGateway
