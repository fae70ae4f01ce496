import AgentTraceGateway.Protocol.Live

/-! # Refused Frames

  Under a cap the parser refuses a frame that declares more: it drops its
  buffer and starts afresh with the next push. A push that meets a refusal
  returns the texts before it. What the later pushes return are texts of the
  stream if the refusing push ends with a frame; where it ends inside one,
  the rest of that frame is read as frames.

  The stream may end anywhere: what arrives is a prefix of whole frames. -/

namespace AgentTraceGateway

/-! ### Positions in the stream -/

/-- The chunk `c` brings the last length byte of the frame behind `done`. -/
def HeadArrives (done : List WsFrame) (h : WsHead) (pre : List Bytes) (c : Bytes) : Prop :=
  pre.flatten.length < (wire_bytes done).length + h.length_bytes.length ∧
    (wire_bytes done).length + h.length_bytes.length ≤ pre.flatten.length + c.length

/-- The stream's first `n` bytes are whole frames. -/
def FrameBoundary (fs : List WsFrame) (n : Nat) : Prop :=
  ∃ done, done <+: fs ∧ (wire_bytes done).length = n

/-- A push that brings the last length byte of an oversized frame ends with a
    frame. -/
def RefusalsAligned (max_payload : Nat) (fs : List WsFrame) (chunks : List Bytes) : Prop :=
  ∀ pre c post, chunks = pre ++ c :: post → ∀ done f rest, fs = done ++ f :: rest →
    max_payload < f.head.len → HeadArrives done f.head pre c →
      FrameBoundary fs (pre.flatten.length + c.length)

theorem text_payloads_append (fs gs : List WsFrame) :
    text_payloads (fs ++ gs) = text_payloads fs ++ text_payloads gs := by
  simp only [text_payloads, List.filter_append, List.map_append]

theorem wire_bytes_mono {fs gs : List WsFrame} (h : fs <+: gs) : wire_bytes fs <+: wire_bytes gs := by
  obtain ⟨more, rfl⟩ := h
  exact ⟨wire_bytes more, (wire_bytes_append fs more).symm⟩

theorem text_payloads_sublist {fs gs : List WsFrame} (h : fs <+: gs) :
    (text_payloads fs).Sublist (text_payloads gs) := by
  obtain ⟨more, rfl⟩ := h
  rw [text_payloads_append]
  exact List.sublist_append_left _ _

/-! ### One scan -/

theorem read_head_short {buf : Bytes} {h : HeadRead} (hread : read_head buf = some h) :
    h.hdr ≤ buf.length := by
  unfold read_head at hread
  split at hread
  · rename_i b0 b1 more
    have htwo : 2 ≤ (b0 :: b1 :: more).length := by
      rw [List.length_cons, List.length_cons]
      omega
    dsimp only at hread
    split_ifs at hread <;> simp only [Option.some.injEq] at hread <;> subst hread <;>
      (try dsimp only) <;> omega
  · cases hread

/-- The parser waits for a header to be there. -/
theorem next_frame_short {max_payload : Nat} {h : WsHead} {buf rest : Bytes}
    (hbuf : buf <+: h.length_bytes ++ rest) (hshort : buf.length < h.length_bytes.length) :
    next_frame max_payload buf = .wait := by
  have hread : read_head buf = none := by
    rw [Option.eq_none_iff_forall_ne_some]
    intro head hread
    -- a header read here is the frame's, and longer than the buffer
    obtain ⟨more, hmore⟩ := hbuf
    have hwhole := read_head_append more hread
    rw [hmore, read_head_length_bytes] at hwhole
    obtain rfl : h.read = head := Option.some.inj hwhole
    have hhdr : h.length_bytes.length ≤ buf.length := read_head_short hread
    omega
  simp only [next_frame, hread]

/-- And for an allowed frame to be there to its last byte. -/
theorem next_frame_partial {max_payload : Nat} {f : WsFrame} (hf : f.head.len ≤ max_payload)
    {buf more : Bytes} (hbuf : buf <+: f.wire ++ more) (hshort : buf.length < f.wire.length) :
    next_frame max_payload buf = .wait := by
  have hinside : buf <+: f.wire :=
    List.prefix_of_prefix_length_le hbuf (List.prefix_append _ more) (by omega)
  have hincomplete : Incomplete f.head buf :=
    ⟨f.body, body_length f, hinside, by rw [← wire_length]; exact hshort⟩
  exact next_frame_incomplete (frame_total_lt f) (Or.inr hf) hincomplete

/-- The length bytes of an oversized frame are enough to refuse it. -/
theorem next_frame_over {max_payload : Nat} (hcap : 0 < max_payload) {h : WsHead}
    (hover : max_payload < h.len) (rest : Bytes) :
    next_frame max_payload (h.length_bytes ++ rest) = .refuse := by
  have hboth : 0 < max_payload ∧ max_payload < h.read.len := ⟨hcap, hover⟩
  unfold next_frame
  rw [read_head_length_bytes]
  cases htotal : h.read.total with
  | none => simp only [htotal]
  | some total => simp only [htotal, hboth, and_self, if_true]

theorem scan_over {max_payload : Nat} (hcap : 0 < max_payload) {done : List WsFrame}
    (hallowed : ∀ g ∈ done, g.head.len ≤ max_payload) {h : WsHead} (hover : max_payload < h.len)
    (rest : Bytes) :
    (WsFrameParser.scanner max_payload).scan (wire_bytes done ++ (h.length_bytes ++ rest))
      = (text_payloads done, none) := by
  have hrefused : (WsFrameParser.scanner max_payload).scan (h.length_bytes ++ rest) = ([], none) :=
    Scanner.scan_refuse _ (next_frame_over hcap hover rest)
  rw [scan_wire_bytes _ done (Or.inr hallowed), hrefused, List.append_nil]

/-- What one scan makes of the stream up to some point: it takes frames off,
    then waits inside the next one or refuses it. -/
theorem scan_stream {max_payload : Nat} (hcap : 0 < max_payload) :
    ∀ (fs : List WsFrame) (sent : Bytes), sent <+: wire_bytes fs →
      ∃ done rest left, fs = done ++ rest ∧ sent = wire_bytes done ++ left ∧
        (∀ g ∈ done, g.head.len ≤ max_payload) ∧
        ((WsFrameParser.scanner max_payload).scan sent = (text_payloads done, some left) ∨
          (WsFrameParser.scanner max_payload).scan sent = (text_payloads done, none) ∧
            ∃ f more, rest = f :: more ∧ max_payload < f.head.len ∧
              f.head.length_bytes.length ≤ left.length) := by
  intro fs
  induction fs with
  | nil =>
    intro sent hsent
    have hnil : sent = [] := List.prefix_nil.mp hsent
    have hwait : (WsFrameParser.scanner max_payload).scan [] = ([], some []) :=
      Scanner.scan_wait _ rfl
    rw [hnil]
    exact ⟨[], [], [], rfl, rfl, by simp, Or.inl hwait⟩
  | cons f fs ih =>
    intro sent hsent
    have hstream : wire_bytes (f :: fs)
        = f.head.length_bytes ++ (f.head.key_bytes ++ (f.body ++ wire_bytes fs)) := by
      simp [wire_bytes_cons, WsFrame.wire, WsHead.bytes]
    by_cases hhead : f.head.length_bytes.length ≤ sent.length
    · obtain ⟨after, rfl⟩ : f.head.length_bytes <+: sent :=
        List.prefix_of_prefix_length_le ⟨_, hstream.symm⟩ hsent hhead
      by_cases hover : max_payload < f.head.len
      · -- refused on its length
        refine ⟨[], f :: fs, _, rfl, rfl, by simp, Or.inr ⟨?_, f, fs, rfl, hover, hhead⟩⟩
        exact Scanner.scan_refuse _ (next_frame_over hcap hover after)
      · have hf : f.head.len ≤ max_payload := by omega
        by_cases hwhole : f.wire.length ≤ (f.head.length_bytes ++ after).length
        · -- a whole frame is taken off, and the scan goes on behind it
          rw [wire_bytes_cons] at hsent
          obtain ⟨behind, hbehind⟩ : f.wire <+: f.head.length_bytes ++ after :=
            List.prefix_of_prefix_length_le ⟨_, rfl⟩ hsent hwhole
          rw [← hbehind] at hsent ⊢
          obtain ⟨done, rest, left, rfl, rfl, hallowed, hscan⟩ :=
            ih behind ((List.prefix_append_right_inj _).mp hsent)
          have hstep := Scanner.scan_item (WsFrameParser.scanner max_payload)
            (next_frame_wire f (Or.inr hf) (wire_bytes done ++ left))
          refine ⟨f :: done, rest, left, rfl, ?_, ?_, ?_⟩
          · rw [wire_bytes_cons, List.append_assoc]
          · intro g hg
            rcases List.mem_cons.mp hg with rfl | hg
            · exact hf
            · exact hallowed g hg
          · rw [hstep]
            rcases hscan with hscan | ⟨hscan, hrefused⟩
            · exact Or.inl (by rw [hscan, text_payloads_cons])
            · exact Or.inr ⟨by rw [hscan, text_payloads_cons], hrefused⟩
        · -- an allowed frame that is not there yet
          rw [wire_bytes_cons] at hsent
          refine ⟨[], f :: fs, _, rfl, rfl, by simp, Or.inl (Scanner.scan_wait _ ?_)⟩
          exact next_frame_partial hf hsent (by omega)
    · -- not even the length is there
      rw [hstream] at hsent
      refine ⟨[], f :: fs, sent, rfl, rfl, by simp, Or.inl (Scanner.scan_wait _ ?_)⟩
      exact next_frame_short hsent (by omega)

/-! ### Push by push -/

/-- The parser stands between two frames of the stream: whole frames have
    gone, all it returned is their texts, and its buffer waits inside the
    next frame. -/
structure InStep (max_payload : Nat) (fs : List WsFrame) (sent : Bytes)
    (st : List Bytes × Bytes) (done : List WsFrame) : Prop where
  front : done <+: fs
  split : sent = wire_bytes done ++ st.2
  found : st.1.Sublist (text_payloads done)
  waits : (WsFrameParser.scanner max_payload).scan st.2 = ([], some st.2)

theorem wire_bytes_head (done : List WsFrame) (f : WsFrame) (rest : List WsFrame) :
    wire_bytes done ++ f.head.length_bytes <+: wire_bytes (done ++ f :: rest) := by
  refine ⟨f.head.key_bytes ++ (f.body ++ wire_bytes rest), ?_⟩
  simp [wire_bytes_append, wire_bytes_cons, WsFrame.wire, WsHead.bytes]

/-- A buffer that waits does not hold the length of an oversized frame. -/
theorem waiting_short {max_payload : Nat} (hcap : 0 < max_payload) {buf : Bytes}
    (hwaits : (WsFrameParser.scanner max_payload).scan buf = ([], some buf))
    {done : List WsFrame} (hallowed : ∀ g ∈ done, g.head.len ≤ max_payload) {f : WsFrame}
    (hover : max_payload < f.head.len) {rest : List WsFrame}
    (hbuf : buf <+: wire_bytes (done ++ f :: rest)) :
    buf.length < (wire_bytes done).length + f.head.length_bytes.length := by
  by_contra hge
  -- otherwise the buffer starts with the frames and that length, and is refused
  have hfits : (wire_bytes done ++ f.head.length_bytes).length ≤ buf.length := by
    rw [List.length_append]
    omega
  obtain ⟨after, rfl⟩ := List.prefix_of_prefix_length_le (wire_bytes_head done f rest) hbuf hfits
  rw [List.append_assoc, scan_over hcap hallowed hover after] at hwaits
  exact absurd (congrArg Prod.snd hwaits) (by simp)

/-- Frames that end before the position of a boundary are among the frames
    before it. -/
theorem boundary_behind {done through rest : List WsFrame} (hthrough : through <+: done ++ rest)
    (hlt : (wire_bytes done).length < (wire_bytes through).length) : done <+: through := by
  rcases List.prefix_or_prefix_of_prefix (List.prefix_append done rest) hthrough with h | h
  · exact h
  · have hle := (wire_bytes_mono h).length_le
    omega

/-- What has been sent up to a boundary is the frames before it. -/
theorem boundary_sent {fs through : List WsFrame} {sent : Bytes} (hsent : sent <+: wire_bytes fs)
    (hthrough : through <+: fs) (hlen : sent.length = (wire_bytes through).length) :
    sent = wire_bytes through := by
  have hfront := List.prefix_of_prefix_length_le hsent (wire_bytes_mono hthrough) (by omega)
  exact hfront.eq_of_length hlen

/-- One push. If it is refused, then because the length of an oversized frame
    arrives, and it ends with a frame. -/
theorem InStep.push {max_payload : Nat} (hcap : 0 < max_payload) {fs : List WsFrame}
    {pre : List Bytes} {st : List Bytes × Bytes} {done : List WsFrame}
    (h : InStep max_payload fs pre.flatten st done) {c : Bytes}
    (hsent : pre.flatten ++ c <+: wire_bytes fs)
    (haligned : ∀ done f rest, fs = done ++ f :: rest → max_payload < f.head.len →
      HeadArrives done f.head pre c → FrameBoundary fs (pre.flatten.length + c.length)) :
    ∃ done', InStep max_payload fs (pre.flatten ++ c)
      ((WsFrameParser.scanner max_payload).feed st c) done' := by
  obtain ⟨⟨rest, rfl⟩, hsplit, hfound, hwaits⟩ := h
  have hbuf : st.2 ++ c <+: wire_bytes rest := by
    rw [hsplit, wire_bytes_append, List.append_assoc] at hsent
    exact (List.prefix_append_right_inj _).mp hsent
  obtain ⟨more, rest', left, rfl, hleft, hallowed, hscan⟩ := scan_stream hcap rest _ hbuf
  have hgone : pre.flatten ++ c = wire_bytes (done ++ more) ++ left := by
    rw [hsplit, List.append_assoc, hleft, wire_bytes_append, List.append_assoc]
  have hfound' : (st.1 ++ text_payloads more).Sublist (text_payloads (done ++ more)) := by
    rw [text_payloads_append]
    exact List.Sublist.append_right hfound _
  rcases hscan with hscan | ⟨hscan, f, behind, rfl, hover, hhead⟩
  · -- nothing refused
    have hfeed : (WsFrameParser.scanner max_payload).feed st c
        = (st.1 ++ text_payloads more, left) := by
      simp only [Scanner.feed, Scanner.push, hscan, Option.getD_some]
    have hnext : (WsFrameParser.scanner max_payload).next left = .wait :=
      Scanner.scan_remainder _ _ _ (congrArg Prod.snd hscan)
    rw [hfeed]
    refine ⟨done ++ more, ⟨rest', ?_⟩, hgone, hfound', Scanner.scan_wait _ hnext⟩
    rw [List.append_assoc]
  · -- an oversized frame, whose length was not in the buffer before
    have hbefore := waiting_short hcap hwaits hallowed hover ((List.prefix_append _ c).trans hbuf)
    have hpre := congrArg List.length hsplit
    have hend := congrArg List.length hgone
    have hmore : wire_bytes (done ++ more) = wire_bytes done ++ wire_bytes more :=
      wire_bytes_append done more
    have htwo := (length_bytes_length f.head).1
    simp only [List.length_append] at hpre hend
    have harrives : HeadArrives (done ++ more) f.head pre c := by
      unfold HeadArrives
      rw [hmore, List.length_append] at hend ⊢
      omega
    obtain ⟨through, hthrough, hlen⟩ :=
      haligned (done ++ more) f behind (List.append_assoc _ _ _).symm hover harrives
    -- so the push ends with a frame, behind those it returned the texts of
    have hsame : pre.flatten ++ c = wire_bytes through :=
      boundary_sent hsent hthrough (by rw [List.length_append, hlen])
    have hbehind : done ++ more <+: through := by
      rw [← List.append_assoc] at hthrough
      exact boundary_behind hthrough (by omega)
    have hfeed : (WsFrameParser.scanner max_payload).feed st c
        = (st.1 ++ text_payloads more, []) := by
      simp only [Scanner.feed, Scanner.push, hscan, Option.getD_none]
    have hempty : wire_bytes through ++ [] = wire_bytes through := List.append_nil _
    rw [hfeed]
    exact ⟨through, hthrough, hsame.trans hempty.symm,
      hfound'.trans (text_payloads_sublist hbehind), Scanner.scan_wait _ rfl⟩

/-- Where refusing pushes end with frames, the parser stays in step. -/
theorem push_all_in_step {max_payload : Nat} (hcap : 0 < max_payload) {fs : List WsFrame}
    (chunks : List Bytes) (hsent : chunks.flatten <+: wire_bytes fs)
    (haligned : RefusalsAligned max_payload fs chunks) :
    ∃ done, InStep max_payload fs chunks.flatten
      ((WsFrameParser.scanner max_payload).push_all chunks) done := by
  induction chunks using List.reverseRecOn with
  | nil => exact ⟨[], List.nil_prefix, rfl, List.Sublist.refl _, Scanner.scan_wait _ rfl⟩
  | append_singleton pre c ih =>
    have hflat : (pre ++ [c]).flatten = pre.flatten ++ c := by
      rw [List.flatten_append, List.flatten_singleton]
    rw [hflat] at hsent
    -- what the last push brings is not asked of the earlier ones
    have hearlier : RefusalsAligned max_payload fs pre := by
      intro pre' c' post hpre
      refine haligned pre' c' (post ++ [c]) ?_
      rw [hpre, List.append_assoc, List.cons_append]
    obtain ⟨done, hdone⟩ := ih ((List.prefix_append _ c).trans hsent) hearlier
    have hstep := hdone.push hcap hsent (haligned pre c [] rfl)
    rw [hflat]
    unfold Scanner.push_all at hstep ⊢
    rw [List.foldl_append, List.foldl_cons, List.foldl_nil]
    exact hstep

/-- A piece of the stream that ends before the last length byte of a frame is
    not refused, if the frames before it are allowed. -/
theorem scan_before_head {max_payload : Nat} {done : List WsFrame}
    (hallowed : ∀ g ∈ done, g.head.len ≤ max_payload) {f : WsFrame} {rest : List WsFrame}
    {sent : Bytes} (hsent : sent <+: wire_bytes (done ++ f :: rest))
    (hbefore : sent.length < (wire_bytes done).length + f.head.length_bytes.length) :
    ((WsFrameParser.scanner max_payload).scan sent).2 ≠ none := by
  intro hnone
  have htwo := (length_bytes_length f.head).1
  have hall : (f.head.length_bytes.dropLast).length = f.head.length_bytes.length - 1 :=
    List.length_dropLast
  have hlast : wire_bytes done ++ f.head.length_bytes.dropLast <+: wire_bytes (done ++ f :: rest) :=
    ((List.prefix_append_right_inj _).mpr (List.dropLast_prefix _)).trans (wire_bytes_head done f rest)
  obtain ⟨more, hmore⟩ := List.prefix_of_prefix_length_le hsent hlast
    (by rw [List.length_append]; omega)
  have hfront : f.head.length_bytes.dropLast <+: f.head.length_bytes ++ [] :=
    (List.dropLast_prefix _).trans (List.prefix_append _ [])
  have hwait : next_frame max_payload f.head.length_bytes.dropLast = .wait :=
    next_frame_short hfront (by omega)
  -- a refusal would still stand with all but the last length byte there
  have hscan := Scanner.scan_refused_append _ more hnone
  rw [hmore, scan_wire_bytes _ done (Or.inr hallowed), Scanner.scan_wait _ hwait] at hscan
  cases hscan

/-- The first push that is refused returns the texts before the oversized
    frame, and the later ones what a new parser returns. -/
theorem push_all_over {max_payload : Nat} (hcap : 0 < max_payload) {pre post : List Bytes}
    {c : Bytes} {done : List WsFrame} {f : WsFrame} {rest : List WsFrame}
    (hsent : (pre ++ c :: post).flatten <+: wire_bytes (done ++ f :: rest))
    (hallowed : ∀ g ∈ done, g.head.len ≤ max_payload) (hover : max_payload < f.head.len)
    (harrives : HeadArrives done f.head pre c) :
    WsFrameParser.push_all max_payload (pre ++ c :: post)
      = (text_payloads done ++ (WsFrameParser.push_all max_payload post).1,
          (WsFrameParser.push_all max_payload post).2) := by
  obtain ⟨hbefore, hafter⟩ := harrives
  have hhead := wire_bytes_head done f rest
  have hflat : (pre ++ c :: post).flatten = pre.flatten ++ c ++ post.flatten := by
    rw [List.flatten_append, List.flatten_cons, List.append_assoc]
  rw [hflat] at hsent
  have hseen := (List.prefix_append _ post.flatten).trans hsent
  have hrefused : (WsFrameParser.scanner max_payload).scan (pre.flatten ++ c)
      = (text_payloads done, none) := by
    obtain ⟨after, hsplit⟩ := List.prefix_of_prefix_length_le hhead hseen
      (by rw [List.length_append, List.length_append]; exact hafter)
    rw [← hsplit, List.append_assoc]
    exact scan_over hcap hallowed hover after
  -- the earlier pushes stop short of the last length byte
  have hclean := scan_before_head hallowed ((List.prefix_append _ c).trans hseen) hbefore
  have hall := Scanner.push_all_refused _ post hclean (by rw [hrefused])
  rw [hrefused] at hall
  exact hall

/-- A push that brings the length of the first oversized frame returns the
    texts before that frame, and with the next push the parser starts afresh.
    What it returns are texts of the stream, in order, and its buffer begins
    with a frame of the stream, if the pushes that bring the length of an
    oversized frame end with a frame. -/
theorem ws_refusal_restarts {max_payload : Nat} (hcap : 0 < max_payload) {fs : List WsFrame}
    {chunks : List Bytes} (hsent : chunks.flatten <+: wire_bytes fs) :
    (∀ pre c post, chunks = pre ++ c :: post → ∀ done f rest, fs = done ++ f :: rest →
      (∀ g ∈ done, g.head.len ≤ max_payload) → max_payload < f.head.len →
      HeadArrives done f.head pre c →
        WsFrameParser.push_all max_payload chunks
          = (text_payloads done ++ (WsFrameParser.push_all max_payload post).1,
              (WsFrameParser.push_all max_payload post).2)) ∧
    (RefusalsAligned max_payload fs chunks →
      (WsFrameParser.push_all max_payload chunks).1.Sublist (text_payloads fs) ∧
      ∃ done, done <+: fs ∧
        chunks.flatten = wire_bytes done ++ (WsFrameParser.push_all max_payload chunks).2) := by
  constructor
  · rintro pre c post rfl done f rest rfl hallowed hover harrives
    exact push_all_over hcap hsent hallowed hover harrives
  · intro haligned
    obtain ⟨done, hdone⟩ := push_all_in_step hcap chunks hsent haligned
    rw [← WsFrameParser.push_all_eq] at hdone
    exact ⟨hdone.found.trans (text_payloads_sublist hdone.front), done, hdone.front, hdone.split⟩

/-- A text frame whose payload reads as a text frame. -/
def nested_frame : WsFrame where
  head := ⟨0x81, none, .seven, 3, by decide⟩
  payload := text_x
  fills := rfl
  in_memory := by decide

/-- The frame in it. -/
def inner_frame : WsFrame where
  head := ⟨0x81, none, .seven, 1, by decide⟩
  payload := [0x78]
  fills := rfl
  in_memory := by decide

/-- Both frames, each in a push of its own, under a cap of one byte. -/
theorem ws_refusal_restarts_aligned :
    (WsFrameParser.push_all 1 [nested_frame.wire, inner_frame.wire]).1.Sublist
      (text_payloads [nested_frame, inner_frame]) := by
  have haligned : RefusalsAligned 1 [nested_frame, inner_frame]
      [nested_frame.wire, inner_frame.wire] := by
    intro pre c post hsplit _ _ _ _ _ _
    -- both pushes end with a frame, whatever arrives in them
    match pre, hsplit with
    | [], hsplit =>
      obtain rfl := (List.cons.inj hsplit).1
      exact ⟨[nested_frame], ⟨[inner_frame], rfl⟩, rfl⟩
    | [first], hsplit =>
      obtain rfl := (List.cons.inj hsplit).1
      obtain rfl := (List.cons.inj (List.cons.inj hsplit).2).1
      exact ⟨[nested_frame, inner_frame], List.prefix_refl _, rfl⟩
    | _ :: _ :: _, hsplit => simp at hsplit
  have hsent : [nested_frame.wire, inner_frame.wire].flatten
      <+: wire_bytes [nested_frame, inner_frame] := List.prefix_refl _
  exact ((ws_refusal_restarts Nat.one_pos hsent).2 haligned).1

/-- The frame cut behind its header: what it carries is read as a frame, and
    returned as no text frame of the stream has it. -/
theorem ws_refusal_misread :
    [nested_frame.head.bytes, text_x].flatten = wire_bytes [nested_frame] ∧
      (WsFrameParser.push_all 1 [nested_frame.head.bytes, text_x]).1 = [[0x78]] ∧
      text_payloads [nested_frame] = [text_x] := by
  have hsent : [nested_frame.head.bytes, text_x].flatten <+: wire_bytes ([] ++ [nested_frame]) :=
    List.prefix_refl _
  have harrives : HeadArrives [] nested_frame.head [] nested_frame.head.bytes := by
    constructor <;> decide
  have hall := push_all_over Nat.one_pos hsent (by simp) (by decide) harrives
  rw [List.nil_append, push_all_text_x] at hall
  exact ⟨rfl, by rw [hall]; rfl, rfl⟩

end AgentTraceGateway
