import AgentTraceGateway.Lib.Bytes
import AgentTraceGateway.Lib.Scanner

/-! # WebSocket Frame Parsing

  Upgraded connections carry WebSocket frames. `WsFrameParser` buffers what
  arrives and returns the payloads of the text frames it completes. Frames
  are modelled from the sender's side as a head (flags, optional mask key,
  declared length in one of three forms) and a payload, and the parser is
  compared with them. -/

namespace AgentTraceGateway

/-! ### The parser -/

/-- A read frame header. -/
structure HeadRead where
  opcode : UInt8
  masked : Bool
  len : Nat
  hdr : Nat
  deriving DecidableEq, Repr

/-- The header at the front of the buffer, if all its length bytes are
    there. -/
def read_head (buf : Bytes) : Option HeadRead :=
  match buf with
  | b0 :: b1 :: _ =>
    let opcode := b0 &&& 0x0f
    let masked := b1 &&& 0x80 != 0
    let len := (b1 &&& 0x7f).toNat
    if len = 126 then
      if buf.length < 4 then none
      else some ⟨opcode, masked, be_nat ((buf.drop 2).take 2), 4⟩
    else if len = 127 then
      if buf.length < 10 then none
      else some ⟨opcode, masked, be_nat ((buf.drop 2).take 8), 10⟩
    else some ⟨opcode, masked, len, 2⟩
  | _ => none

/-- `u64::checked_add`. -/
def checked_add (a b : Nat) : Option Nat := if a + b < 2 ^ 64 then some (a + b) else none

def HeadRead.mask_len (h : HeadRead) : Nat := if h.masked then 4 else 0

/-- Length of the whole frame, `none` when it is not a `u64`. -/
def HeadRead.total (h : HeadRead) : Option Nat :=
  (checked_add h.hdr h.mask_len).bind fun t => checked_add t h.len

/-- The payload of a frame that is there to its last byte, unmasked. -/
def HeadRead.payload (h : HeadRead) (total : Nat) (buf : Bytes) : Bytes :=
  let payload_bytes := (buf.take total).drop (h.hdr + h.mask_len)
  if h.masked then xor_mask ((buf.drop h.hdr).take 4) payload_bytes else payload_bytes

/-- One turn of the loop in `WsFrameParser::push`. `refuse` is the arm that
    clears the buffer and returns. -/
def next_frame (max_payload : Nat) (buf : Bytes) : ScanStep UInt8 Bytes :=
  match read_head buf with
  | none => .wait
  | some h =>
    match h.total with
    | none => .refuse
    | some total =>
      if 0 < max_payload ∧ max_payload < h.len then .refuse
      else if buf.length < total then .wait
      else .item (if h.opcode = 0x1 then some (h.payload total buf) else none) (buf.drop total)

theorem read_head_hdr {buf : Bytes} {h : HeadRead} (hread : read_head buf = some h) :
    2 ≤ h.hdr := by
  unfold read_head at hread
  split at hread
  · dsimp only at hread
    split_ifs at hread <;> simp only [Option.some.injEq] at hread <;> subst hread <;> simp
  · cases hread

/-- A header once complete is not reread. -/
theorem read_head_append {buf : Bytes} {h : HeadRead} (more : Bytes)
    (hread : read_head buf = some h) : read_head (buf ++ more) = some h := by
  unfold read_head at hread ⊢
  match buf with
  | [] => cases hread
  | [_] => cases hread
  | b0 :: b1 :: rest =>
    simp only [List.cons_append, List.length_cons, List.drop_succ_cons, List.drop_zero,
      List.length_append] at hread ⊢
    split_ifs at hread ⊢ with h126 hshort hshort' h127
    · omega
    · rw [List.take_append_of_le_length (by omega)]
      exact hread
    · omega
    · rw [List.take_append_of_le_length (by omega)]
      exact hread
    · exact hread

theorem HeadRead.total_eq_some {h : HeadRead} {total : Nat} :
    h.total = some total ↔ h.hdr + h.mask_len + h.len = total ∧ total < 2 ^ 64 := by
  unfold HeadRead.total checked_add
  split_ifs with hsum
  · simp only [Option.bind_some, Option.ite_none_right_eq_some, Option.some.injEq]
    omega
  · simp only [Option.bind_none, reduceCtorEq, false_iff]
    omega

theorem HeadRead.total_eq_none {h : HeadRead} :
    h.total = none ↔ 2 ^ 64 ≤ h.hdr + h.mask_len + h.len := by
  unfold HeadRead.total checked_add
  split_ifs with hsum
  · simp only [Option.bind_some, ite_eq_right_iff, reduceCtorEq, imp_false]
    omega
  · simp only [Option.bind_none, true_iff]
    omega

/-- Later bytes are not part of a payload that is already there. -/
theorem HeadRead.payload_append {h : HeadRead} {total : Nat} {buf : Bytes} (more : Bytes)
    (htotal : h.total = some total) (hle : total ≤ buf.length) :
    h.payload total (buf ++ more) = h.payload total buf := by
  have hsum := (HeadRead.total_eq_some.mp htotal).1
  unfold HeadRead.payload
  rw [List.take_append_of_le_length hle]
  cases hmasked : h.masked with
  | false => rfl
  | true =>
    have h4 : h.hdr + 4 ≤ buf.length := by
      simp only [HeadRead.mask_len, hmasked, if_true] at hsum
      omega
    rw [List.drop_append_of_le_length (by omega),
      List.take_append_of_le_length (by rw [List.length_drop]; omega)]

/-- The three ways one turn of the loop can go. -/
theorem next_frame_item {max_payload : Nat} {buf rest : Bytes} {emitted : Option Bytes}
    (h : next_frame max_payload buf = .item emitted rest) :
    ∃ head total, read_head buf = some head ∧ head.total = some total ∧
      ¬ (0 < max_payload ∧ max_payload < head.len) ∧ total ≤ buf.length ∧
      emitted = (if head.opcode = 0x1 then some (head.payload total buf) else none) ∧
      rest = buf.drop total := by
  unfold next_frame at h
  split at h
  · cases h
  · rename_i head hread
    split at h
    · cases h
    · rename_i total htotal
      split at h
      · cases h
      · rename_i hcap
        split at h
        · cases h
        · rename_i hlen
          cases h
          exact ⟨head, total, hread, htotal, hcap, by omega, rfl, rfl⟩

theorem next_frame_refuse {max_payload : Nat} {buf : Bytes}
    (h : next_frame max_payload buf = .refuse) :
    ∃ head, read_head buf = some head ∧
      (head.total = none ∨ 0 < max_payload ∧ max_payload < head.len) := by
  unfold next_frame at h
  split at h
  · cases h
  · rename_i head hread
    refine ⟨head, hread, ?_⟩
    split at h
    · rename_i hnone
      exact Or.inl hnone
    · split at h
      · rename_i hcap
        exact Or.inr hcap
      · split at h <;> cases h

theorem next_frame_progress {max_payload : Nat} {buf rest : Bytes} {emitted : Option Bytes}
    (h : next_frame max_payload buf = .item emitted rest) : rest.length < buf.length := by
  obtain ⟨head, total, hread, htotal, -, hle, -, rfl⟩ := next_frame_item h
  have hhdr := read_head_hdr hread
  have hsum := (HeadRead.total_eq_some.mp htotal).1
  rw [List.length_drop]
  omega

theorem next_frame_item_append {max_payload : Nat} {buf rest : Bytes}
    {emitted : Option Bytes} (more : Bytes)
    (h : next_frame max_payload buf = .item emitted rest) :
    next_frame max_payload (buf ++ more) = .item emitted (rest ++ more) := by
  obtain ⟨head, total, hread, htotal, hcap, hle, rfl, rfl⟩ := next_frame_item h
  have hlen : ¬ (buf ++ more).length < total := by
    rw [List.length_append]
    omega
  simp only [next_frame, read_head_append more hread, htotal, hcap, hlen, if_false,
    HeadRead.payload_append more htotal hle, List.drop_append_of_le_length hle]

theorem next_frame_refuse_append {max_payload : Nat} {buf : Bytes} (more : Bytes)
    (h : next_frame max_payload buf = .refuse) :
    next_frame max_payload (buf ++ more) = .refuse := by
  obtain ⟨head, hread, hwhy⟩ := next_frame_refuse h
  simp only [next_frame, read_head_append more hread]
  cases htotal : head.total with
  | none => rfl
  | some total =>
    rcases hwhy with hnone | hcap
    · rw [htotal] at hnone; cases hnone
    · simp only [hcap, and_self, if_true]

namespace WsFrameParser

/-- The parser's loop as a scanner over its buffer. -/
def scanner (max_payload : Nat) : Scanner UInt8 Bytes where
  next := next_frame max_payload
  progress := next_frame_progress
  item_stable := next_frame_item_append
  refuse_stable := next_frame_refuse_append

/-- `WsFrameParser::push`: the completed text payloads, and the buffer. -/
def push (max_payload : Nat) (buf data : Bytes) : List Bytes × Bytes :=
  (scanner max_payload).push buf data

/-- A fresh parser fed piece by piece: all it returned, and its buffer. -/
def push_all (max_payload : Nat) (chunks : List Bytes) : List Bytes × Bytes :=
  chunks.foldl
    (fun st chunk =>
      let found := push max_payload st.2 chunk
      (st.1 ++ found.1, found.2))
    ([], [])

theorem push_all_eq (max_payload : Nat) (chunks : List Bytes) :
    push_all max_payload chunks = (scanner max_payload).push_all chunks := rfl

end WsFrameParser

/-! ### Frames -/

/-- Where a frame's length is written: in the second byte, or in two or
    eight bytes behind it. -/
inductive LenForm where
  | seven
  | sixteen
  | sixty_four
  deriving DecidableEq, Repr

def LenForm.Holds : LenForm → Nat → Prop
  | .seven, len => len ≤ 125
  | .sixteen, len => len < 2 ^ 16
  | .sixty_four, len => len < 2 ^ 64

instance (form : LenForm) (len : Nat) : Decidable (form.Holds len) :=
  match form with
  | .seven => Nat.decLe len 125
  | .sixteen => Nat.decLt len (2 ^ 16)
  | .sixty_four => Nat.decLt len (2 ^ 64)

/-- The seven length bits of the second byte. -/
def LenForm.code (form : LenForm) (len : Nat) : Nat :=
  match form with
  | .seven => len
  | .sixteen => 126
  | .sixty_four => 127

/-- The length bytes behind the second byte. -/
def LenForm.extension (form : LenForm) (len : Nat) : Bytes :=
  match form with
  | .seven => []
  | .sixteen => be_bytes 2 len
  | .sixty_four => be_bytes 8 len

/-- A frame head: FIN, RSV and opcode bits, the mask key of a masked frame,
    and a length its form can hold. -/
structure WsHead where
  b0 : UInt8
  key : Option { key : Bytes // key.length = 4 }
  form : LenForm
  len : Nat
  holds : form.Holds len

/-- The bytes of a mask key, none for an unmasked frame. -/
def WsHead.key_bytes (h : WsHead) : Bytes :=
  match h.key with
  | some key => key.val
  | none => []

/-- The head on the wire up to the mask key. -/
def WsHead.length_bytes (h : WsHead) : Bytes :=
  h.b0 :: UInt8.ofNat (h.form.code h.len + if h.key.isSome then 128 else 0)
    :: h.form.extension h.len

def WsHead.bytes (h : WsHead) : Bytes := h.length_bytes ++ h.key_bytes

/-- Length of the whole frame on the wire. -/
def WsHead.total (h : WsHead) : Nat := h.bytes.length + h.len

/-- A whole frame. Its payload is a byte vector, which never exceeds
    `isize::MAX` bytes. -/
structure WsFrame where
  head : WsHead
  payload : Bytes
  fills : payload.length = head.len
  in_memory : head.len < 2 ^ 63

def WsFrame.body (f : WsFrame) : Bytes :=
  match f.head.key with
  | some key => xor_mask key.val f.payload
  | none => f.payload

def WsFrame.wire (f : WsFrame) : Bytes := f.head.bytes ++ f.body

def wire_bytes (fs : List WsFrame) : Bytes := fs.flatMap WsFrame.wire

/-- What the opcode-1 frames say. -/
def text_payloads (fs : List WsFrame) : List Bytes :=
  (fs.filter fun f => f.head.b0 &&& 0x0f = 0x1).map (·.payload)

/-- A proper prefix of a frame with the given head. -/
def Incomplete (h : WsHead) (tail : Bytes) : Prop :=
  ∃ body : Bytes, body.length = h.len ∧ tail <+: h.bytes ++ body ∧ tail.length < h.total

/-- The cap refuses none of the frames. -/
def CapAllows (max_payload : Nat) (fs : List WsFrame) (h : WsHead) : Prop :=
  max_payload = 0 ∨ (∀ f ∈ fs, f.head.len ≤ max_payload) ∧ h.len ≤ max_payload

/-! ### The parser reads what the frames wrote -/

private theorem second_byte (code : Nat) (hcode : code < 128) (masked : Bool) :
    let b1 := UInt8.ofNat (code + if masked then 128 else 0)
    (b1 &&& 0x80 != 0) = masked ∧ (b1 &&& 0x7f).toNat = code := by
  revert masked
  revert code
  decide

theorem code_lt (h : WsHead) : h.form.code h.len < 128 := by
  have hholds := h.holds
  cases hform : h.form <;> (simp_all [LenForm.code, LenForm.Holds]; try omega)

theorem length_bytes_length (h : WsHead) :
    2 ≤ h.length_bytes.length ∧ h.length_bytes.length ≤ 10 := by
  cases hform : h.form <;> simp [WsHead.length_bytes, LenForm.extension, hform]

theorem key_bytes_length (h : WsHead) :
    h.key_bytes.length = if h.key.isSome then 4 else 0 := by
  unfold WsHead.key_bytes
  cases hkey : h.key with
  | none => simp
  | some key => simpa using key.property

theorem total_eq (h : WsHead) :
    h.total = h.length_bytes.length + (if h.key.isSome then 4 else 0) + h.len := by
  simp [WsHead.total, WsHead.bytes, key_bytes_length]

/-- What the parser makes of a head. -/
def WsHead.read (h : WsHead) : HeadRead :=
  ⟨h.b0 &&& 0x0f, h.key.isSome, h.len, h.length_bytes.length⟩

theorem read_total_eq (h : WsHead) :
    h.read.hdr + h.read.mask_len + h.read.len = h.total :=
  (total_eq h).symm

theorem read_head_length_bytes (h : WsHead) (rest : Bytes) :
    read_head (h.length_bytes ++ rest) = some h.read := by
  have hholds := h.holds
  obtain ⟨hmasked, hlen⟩ := second_byte (h.form.code h.len) (code_lt h) h.key.isSome
  unfold read_head
  simp only [WsHead.read, WsHead.length_bytes, List.cons_append, hmasked, hlen]
  cases hform : h.form with
  | seven =>
    have h125 : h.len ≤ 125 := by simpa [hform, LenForm.Holds] using hholds
    rw [if_neg (by simp [LenForm.code]; omega), if_neg (by simp [LenForm.code]; omega)]
    simp [LenForm.extension, LenForm.code]
  | sixteen =>
    have h16 : h.len < 256 ^ 2 := by simpa [hform, LenForm.Holds] using hholds
    have htake : (be_bytes 2 h.len ++ rest).take 2 = be_bytes 2 h.len := by simp
    simp [LenForm.extension, LenForm.code, htake, be_nat_be_bytes 2 h.len h16]
  | sixty_four =>
    have h64 : h.len < 256 ^ 8 := by simpa [hform, LenForm.Holds] using hholds
    have htake : (be_bytes 8 h.len ++ rest).take 8 = be_bytes 8 h.len := by simp
    simp [LenForm.extension, LenForm.code, htake, be_nat_be_bytes 8 h.len h64]

/-- With the declared length representable and allowed, the parser waits for
    exactly the frame's bytes. -/
theorem next_frame_incomplete {max_payload : Nat} {h : WsHead} (htotal : h.total < 2 ^ 64)
    (hcap : max_payload = 0 ∨ h.len ≤ max_payload) {tail : Bytes}
    (htail : Incomplete h tail) : next_frame max_payload tail = .wait := by
  obtain ⟨body, -, ⟨more, hmore⟩, hshort⟩ := htail
  unfold next_frame
  cases hread : read_head tail with
  | none => rfl
  | some head =>
    have hwhole := read_head_append more hread
    rw [hmore, WsHead.bytes, List.append_assoc, read_head_length_bytes] at hwhole
    obtain rfl : h.read = head := by simpa using hwhole
    have hsum := HeadRead.total_eq_some.mpr ⟨read_total_eq h, htotal⟩
    have hallowed : ¬ (0 < max_payload ∧ max_payload < h.read.len) := by
      show ¬ (0 < max_payload ∧ max_payload < h.len)
      omega
    simp only [hsum, hallowed, hshort, if_false, if_true]

/-- A declared length that does not fit the total is refused as soon as the
    header is there. -/
theorem next_frame_oversized {h : WsHead} (htotal : 2 ^ 64 ≤ h.total) (max_payload : Nat) :
    next_frame max_payload h.bytes = .refuse := by
  have hnone : h.read.total = none := by
    rw [HeadRead.total_eq_none, read_total_eq]
    exact htotal
  simp only [next_frame, WsHead.bytes, read_head_length_bytes, hnone]

theorem body_length (f : WsFrame) : f.body.length = f.head.len := by
  rw [← f.fills, WsFrame.body]
  split <;> simp

theorem wire_length (f : WsFrame) : f.wire.length = f.head.total := by
  rw [WsFrame.wire, List.length_append, body_length, WsHead.total]

theorem frame_total_lt (f : WsFrame) : f.head.total < 2 ^ 64 := by
  have hin := f.in_memory
  have hhead := length_bytes_length f.head
  rw [total_eq]
  split_ifs <;> omega

theorem wire_bytes_cons (f : WsFrame) (fs : List WsFrame) :
    wire_bytes (f :: fs) = f.wire ++ wire_bytes fs :=
  List.flatMap_cons

theorem wire_bytes_append (fs gs : List WsFrame) :
    wire_bytes (fs ++ gs) = wire_bytes fs ++ wire_bytes gs :=
  List.flatMap_append

theorem text_payloads_cons (f : WsFrame) (fs : List WsFrame) :
    text_payloads (f :: fs)
      = (if f.head.b0 &&& 0x0f = 0x1 then some f.payload else none).toList ++ text_payloads fs := by
  by_cases hop : f.head.b0 &&& 0x0f = 0x1 <;> simp [text_payloads, hop]

/-- The parser's slice of a whole frame, unmasked, is the payload. -/
theorem read_payload_wire (f : WsFrame) (rest : Bytes) :
    f.head.read.payload f.wire.length (f.wire ++ rest) = f.payload := by
  have hstart : f.head.read.hdr + f.head.read.mask_len = f.head.bytes.length := by
    rw [WsHead.bytes, List.length_append, key_bytes_length]
    rfl
  have hbody : f.wire.drop f.head.bytes.length = f.body := by
    rw [WsFrame.wire, List.drop_left]
  simp only [HeadRead.payload, List.take_left, hstart, hbody]
  cases hkey : f.head.key with
  | none => simp [WsHead.read, WsFrame.body, hkey]
  | some key =>
    have hsplit : f.wire ++ rest = f.head.length_bytes ++ (key.val ++ (f.body ++ rest)) := by
      simp [WsFrame.wire, WsHead.bytes, WsHead.key_bytes, hkey]
    have h4 : ((f.wire ++ rest).drop f.head.read.hdr).take 4 = key.val := by
      rw [hsplit, WsHead.read, List.drop_left]
      exact List.take_left' key.property
    rw [h4]
    simp [WsHead.read, WsFrame.body, hkey]

/-- A whole frame at the front is taken off, unmasked. -/
theorem next_frame_wire {max_payload : Nat} (f : WsFrame)
    (hcap : max_payload = 0 ∨ f.head.len ≤ max_payload) (rest : Bytes) :
    next_frame max_payload (f.wire ++ rest)
      = .item (if f.head.b0 &&& 0x0f = 0x1 then some f.payload else none) rest := by
  have hread : read_head (f.wire ++ rest) = some f.head.read := by
    have h := read_head_length_bytes f.head (f.head.key_bytes ++ (f.body ++ rest))
    simpa [WsFrame.wire, WsHead.bytes] using h
  have hsum := HeadRead.total_eq_some.mpr ⟨read_total_eq f.head, frame_total_lt f⟩
  have hallowed : ¬ (0 < max_payload ∧ max_payload < f.head.read.len) := by
    show ¬ (0 < max_payload ∧ max_payload < f.head.len)
    omega
  have hlen : ¬ (f.wire ++ rest).length < f.wire.length := by simp
  rw [← wire_length] at hsum
  simp only [next_frame, hread, hsum, hallowed, hlen, if_false, List.drop_left,
    read_payload_wire f rest]
  rfl

/-- One scan over whole frames and whatever follows them. -/
theorem scan_wire_bytes {max_payload : Nat} (tail : Bytes) :
    ∀ fs : List WsFrame, (max_payload = 0 ∨ ∀ f ∈ fs, f.head.len ≤ max_payload) →
      (WsFrameParser.scanner max_payload).scan (wire_bytes fs ++ tail)
        = (text_payloads fs ++ ((WsFrameParser.scanner max_payload).scan tail).1,
            ((WsFrameParser.scanner max_payload).scan tail).2) := by
  intro fs
  induction fs with
  | nil => intro _; rfl
  | cons f fs ih =>
    intro hcap
    have hf : max_payload = 0 ∨ f.head.len ≤ max_payload :=
      hcap.imp_right fun h => h f List.mem_cons_self
    have hfs := ih (hcap.imp_right fun h g hg => h g (List.mem_cons_of_mem f hg))
    have hstep := next_frame_wire f hf (wire_bytes fs ++ tail)
    rw [wire_bytes_cons, List.append_assoc, Scanner.scan_item _ hstep, hfs, text_payloads_cons,
      List.append_assoc]

/-! ### Every cut -/

/-- Frames and an incomplete one whose length is representable: every cut
    returns the frames' texts. -/
theorem push_all_wire_bytes {max_payload : Nat} {fs : List WsFrame} {h : WsHead}
    (hcap : CapAllows max_payload fs h) (htotal : h.total < 2 ^ 64) {tail : Bytes}
    (htail : Incomplete h tail) {chunks : List Bytes}
    (hcut : chunks.flatten = wire_bytes fs ++ tail) :
    (WsFrameParser.push_all max_payload chunks).1 = text_payloads fs := by
  have hwait := next_frame_incomplete htotal (hcap.imp_right (·.2)) htail
  have hscan := scan_wire_bytes tail fs (hcap.imp_right (·.1))
  have hrest : (WsFrameParser.scanner max_payload).scan tail = ([], some tail) :=
    Scanner.scan_wait _ hwait
  rw [hrest, List.append_nil] at hscan
  rw [WsFrameParser.push_all_eq, Scanner.push_all_eq_scan, hcut, hscan]
  simp [hcut, hscan]

/-- A one-byte text frame. -/
def text_x : Bytes := [0x81, 0x01, 0x78]

theorem scan_text_x (max_payload : Nat) :
    (WsFrameParser.scanner max_payload).scan text_x = ([[0x78]], some []) := by
  have hstep : next_frame max_payload text_x = .item (some [0x78]) [] := by
    have hone : ¬ (0 < max_payload ∧ max_payload < 1) := by omega
    have hread : read_head text_x = some ⟨1, false, 1, 2⟩ := by decide
    have htotal : HeadRead.total ⟨1, false, 1, 2⟩ = some 3 := by decide
    simp only [next_frame, hread, htotal, hone, if_false]
    rfl
  have hwait : next_frame max_payload [] = .wait := rfl
  rw [Scanner.scan_item _ hstep, Scanner.scan_wait _ hwait]
  rfl

theorem push_all_text_x (max_payload : Nat) :
    WsFrameParser.push_all max_payload [text_x] = ([[0x78]], []) := by
  have hscan : (WsFrameParser.scanner max_payload).scan [text_x].flatten = ([[0x78]], some []) :=
    scan_text_x max_payload
  rw [WsFrameParser.push_all_eq, Scanner.push_all_clean _ [text_x] (congrArg Prod.snd hscan), hscan]

/-- Frames, then an unrepresentable head at the end of a chunk: what the
    frame goes on with is read as a frame of its own. -/
theorem push_all_oversized {max_payload : Nat} {fs : List WsFrame} {h : WsHead}
    (hcap : max_payload = 0 ∨ ∀ f ∈ fs, f.head.len ≤ max_payload)
    (htotal : 2 ^ 64 ≤ h.total) :
    (WsFrameParser.push_all max_payload [wire_bytes fs ++ h.bytes, text_x]).1
      = text_payloads fs ++ [[0x78]] := by
  have hscan := scan_wire_bytes h.bytes fs hcap
  have hrefused : (WsFrameParser.scanner max_payload).scan h.bytes = ([], none) :=
    Scanner.scan_refuse _ (next_frame_oversized htotal max_payload)
  rw [hrefused, List.append_nil] at hscan
  have hclean : ((WsFrameParser.scanner max_payload).scan ([] : List Bytes).flatten).2 ≠ none := by
    rw [List.flatten_nil, Scanner.scan_wait _ rfl]
    simp
  have hwhole : (WsFrameParser.scanner max_payload).scan
      (([] : List Bytes).flatten ++ (wire_bytes fs ++ h.bytes)) = (text_payloads fs, none) := by
    rw [List.flatten_nil, List.nil_append, hscan]
  have hall := Scanner.push_all_refused _ [text_x] hclean (by rw [hwhole])
  rw [hwhole, List.nil_append, ← WsFrameParser.push_all_eq, ← WsFrameParser.push_all_eq,
    push_all_text_x] at hall
  exact congrArg Prod.fst hall

/-- A head and the start of its payload, if the payload is that long. -/
theorem incomplete_text_x {h : WsHead} (hlen : 3 < h.len) :
    Incomplete h (h.bytes ++ text_x) := by
  have hx : text_x.length = 3 := rfl
  refine ⟨text_x ++ List.replicate (h.len - 3) 0, ?_, ?_, ?_⟩
  · rw [List.length_append, List.length_replicate, hx]
    omega
  · exact ⟨List.replicate (h.len - 3) 0, by rw [List.append_assoc]⟩
  · rw [WsHead.total, List.length_append, hx]
    omega

theorem len_of_oversized {h : WsHead} (htotal : 2 ^ 64 ≤ h.total) : 3 < h.len := by
  have hhead := length_bytes_length h
  rw [total_eq] at htotal
  split_ifs at htotal <;> omega

/-- The largest declarable length. -/
def absurd_head : WsHead where
  b0 := 0x81
  key := none
  form := .sixty_four
  len := 2 ^ 64 - 1
  holds := Nat.lt_succ_self (2 ^ 64 - 1)

theorem absurd_head_total : 2 ^ 64 ≤ absurd_head.total := by
  rw [total_eq]
  show 2 ^ 64 ≤ absurd_head.length_bytes.length + 0 + (2 ^ 64 - 1)
  have hhead := length_bytes_length absurd_head
  omega

/-- The bytes of an absurd head and the start of its payload, cut between
    them: the payload's bytes are returned as a text frame, although no frame
    was ever completed. -/
theorem ws_push_absurd_length :
    let tail := absurd_head.bytes ++ text_x
    let chunks := [absurd_head.bytes, text_x]
    Incomplete absurd_head tail ∧ chunks.flatten = wire_bytes [] ++ tail ∧
      (WsFrameParser.push_all 0 chunks).1 = [[0x78]] ∧ text_payloads [] = [] := by
  refine ⟨incomplete_text_x (len_of_oversized absurd_head_total), ?_, ?_, rfl⟩
  · simp [wire_bytes]
  · have hnone : ∀ f ∈ ([] : List WsFrame), f.head.len ≤ 0 := by simp
    exact push_all_oversized (Or.inr hnone) absurd_head_total

/-- The parser returns the text payloads of the complete frames, whatever
    has arrived of an incomplete frame behind them and wherever the bytes
    are cut, exactly when the incomplete frame's length on the wire is a
    64-bit number. -/
theorem ws_push_texts_iff (max_payload : Nat) (fs : List WsFrame) (h : WsHead)
    (hcap : CapAllows max_payload fs h) :
    (∀ tail, Incomplete h tail → ∀ chunks : List Bytes,
        chunks.flatten = wire_bytes fs ++ tail →
          (WsFrameParser.push_all max_payload chunks).1 = text_payloads fs) ↔
      h.total < 2 ^ 64 := by
  constructor
  · intro hall
    by_contra hbig
    have htotal : 2 ^ 64 ≤ h.total := by omega
    have htail := incomplete_text_x (len_of_oversized htotal)
    have hcut : [wire_bytes fs ++ h.bytes, text_x].flatten
        = wire_bytes fs ++ (h.bytes ++ text_x) := by simp
    have hright := hall _ htail _ hcut
    rw [push_all_oversized (hcap.imp_right (·.1)) htotal] at hright
    simp at hright
  · intro htotal tail htail chunks hcut
    exact push_all_wire_bytes hcap htotal htail hcut

/-- A masked text frame and a binary one, under a cap of their own size. -/
theorem ws_push_texts_iff_capped :
    let hello : WsFrame := {
      head := ⟨0x81, some ⟨[1, 2, 3, 4], rfl⟩, .sixteen, 2, by decide⟩
      payload := [0x68, 0x69]
      fills := rfl
      in_memory := by decide }
    let binary : WsHead := ⟨0x82, none, .seven, 2, by decide⟩
    CapAllows 2 [hello] binary ∧
      ((∀ tail, Incomplete binary tail → ∀ chunks : List Bytes,
          chunks.flatten = wire_bytes [hello] ++ tail →
            (WsFrameParser.push_all 2 chunks).1 = text_payloads [hello]) ↔
        binary.total < 2 ^ 64) := by
  intro hello binary
  have hcap : CapAllows 2 [hello] binary := Or.inr ⟨by simp [hello], by decide⟩
  exact ⟨hcap, ws_push_texts_iff 2 [hello] binary hcap⟩

end AgentTraceGateway
