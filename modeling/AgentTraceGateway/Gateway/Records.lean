import AgentTraceGateway.Gateway.Logging
import AgentTraceGateway.Lib.Sha256

/-! # Which Turns Are Recorded

  The logging hook pushes at most one record, to the store and to the export
  queue alike. On an exact path that record is a function of the turn alone,
  so whether a turn is recorded can be read off its delivery: a stream is
  always recorded, a response at rest only when request and response unpack,
  and a turn that unpacks to nothing only when it failed or was relayed to a
  client that went away.

  Unpacking needs the text of the last user message. A tool loop's last user
  message holds tool results and may hold no text: such a turn is recorded
  when it is streamed and lost when it is not. -/

namespace AgentTraceGateway

section records

variable (sha256 : Bytes → Digest) (from_str : String → Option Value)

/-! ### One push at most -/

/-- Exactly this record was pushed, to the store and to the export queue. -/
def Pushed (gw gw' : Gateway) (record : TurnRecord) : Prop :=
  gw'.submitted = gw.submitted ++ [record] ∧ gw'.store = gw.store.push record

/-- Exactly one record was pushed. -/
def PushedOne (gw gw' : Gateway) : Prop := ∃ record, Pushed gw gw' record

/-- A gateway that stays as it is has pushed nothing. -/
theorem not_pushed_nothing (gw : Gateway) (record : TurnRecord) : ¬ Pushed gw gw record := by
  rintro ⟨hsubmitted, -⟩
  have hlen := congrArg List.length hsubmitted
  simp at hlen

/-- The record of a turn on an exact path. -/
def logged_record (gw : Gateway) (d : ProtocolDescriptor) (t : Turn) : Option TurnRecord :=
  if gw.trace_off then some (shell_record d t)
  else turn_record from_str (assemble sha256 from_str gw d t).1 t

theorem push_option_submitted (gw : Gateway) (record : Option TurnRecord) :
    (gw.push_option record).submitted = gw.submitted ++ record.toList := by
  cases record with
  | none => exact (List.append_nil gw.submitted).symm
  | some r => rfl

theorem push_option_store (gw : Gateway) (record : Option TurnRecord) :
    (gw.push_option record).store = record.elim gw.store gw.store.push := by
  cases record <;> rfl

/-- The hook pushes the turn's record and nothing else. -/
theorem log_turn_pushes (gw : Gateway) (d : ProtocolDescriptor) (t : Turn) :
    (gw.log_turn sha256 from_str d t).submitted
        = gw.submitted ++ (logged_record sha256 from_str gw d t).toList ∧
      (gw.log_turn sha256 from_str d t).store
        = (logged_record sha256 from_str gw d t).elim gw.store gw.store.push := by
  unfold Gateway.log_turn logged_record
  by_cases hoff : gw.trace_off = true
  · rw [if_pos hoff, if_pos hoff]
    exact ⟨rfl, rfl⟩
  · rw [if_neg hoff, if_neg hoff]
    exact ⟨push_option_submitted _ _, push_option_store _ _⟩

/-- The match a turn is logged under: a loose one needs a 2xx answer. -/
def Turn.matched (t : Turn) : Option PathMatch :=
  (detect_path t.path).filter fun m => !m.loose || is_success t.ctx.resp_status

/-- A matched turn goes to the hook; of the gateway only the loose-match
    counter may have moved before. -/
theorem logging_matched (gw : Gateway) {t : Turn} {m : PathMatch} (h : t.matched = some m) :
    ∃ n, logging sha256 from_str gw t
      = ({ gw with loose_path_matches := n } : Gateway).log_turn sha256 from_str m.descriptor t := by
  obtain ⟨hpath, hdue⟩ := Option.filter_eq_some_iff.mp h
  unfold logging
  rw [hpath]
  dsimp only
  by_cases hloose : m.loose = true
  · have hstatus : is_success t.ctx.resp_status = true := by simpa [hloose] using hdue
    rw [if_pos hloose, if_pos hstatus]
    exact ⟨gw.loose_path_matches + 1, rfl⟩
  · rw [if_neg hloose]
    exact ⟨gw.loose_path_matches, rfl⟩

/-- Any other turn moves the loose-match counter at most. -/
theorem logging_unmatched (gw : Gateway) {t : Turn} (h : t.matched = none) :
    ∃ n, logging sha256 from_str gw t = { gw with loose_path_matches := n } := by
  unfold logging
  cases hpath : detect_path t.path with
  | none => exact ⟨gw.loose_path_matches, rfl⟩
  | some m =>
    have hnot : (!m.loose || is_success t.ctx.resp_status) = false := by
      simpa [Turn.matched, hpath, Option.filter] using h
    obtain ⟨hloose, hstatus⟩ := Bool.or_eq_false_iff.mp hnot
    rw [Bool.not_eq_false'] at hloose
    dsimp only
    rw [if_pos hloose, if_neg (Bool.eq_false_iff.mp hstatus)]
    exact ⟨gw.loose_path_matches + 1, rfl⟩

/-- The hook moves the stitcher as the assembly does. -/
theorem log_turn_stitcher (gw : Gateway) (d : ProtocolDescriptor) (t : Turn) :
    (gw.log_turn sha256 from_str d t).stitcher
      = if gw.trace_off then gw.stitcher else (assemble sha256 from_str gw d t).2 := by
  unfold Gateway.log_turn
  by_cases hoff : gw.trace_off = true
  · rw [if_pos hoff, if_pos hoff]
    rfl
  · rw [if_neg hoff, if_neg hoff]
    dsimp only
    cases turn_record from_str (assemble sha256 from_str gw d t).1 t <;> rfl

/-- Whether a gateway captures never changes. -/
theorem logging_trace_off (gw : Gateway) (t : Turn) :
    (logging sha256 from_str gw t).trace_off = gw.trace_off := by
  have hlog_turn : ∀ (gw : Gateway) (d : ProtocolDescriptor),
      (gw.log_turn sha256 from_str d t).trace_off = gw.trace_off := by
    intro gw d
    unfold Gateway.log_turn
    split
    · rfl
    · dsimp only
      cases turn_record from_str (assemble sha256 from_str gw d t).1 t <;> rfl
  cases hm : t.matched with
  | none =>
    obtain ⟨n, hlogging⟩ := logging_unmatched sha256 from_str gw hm
    rw [hlogging]
  | some m =>
    obtain ⟨n, hlogging⟩ := logging_matched sha256 from_str gw hm
    rw [hlogging]
    exact hlog_turn { gw with loose_path_matches := n } m.descriptor

/-- An exact match is logged as it is. -/
theorem logging_exact {gw : Gateway} {d : ProtocolDescriptor} {t : Turn}
    (h : detect_path t.path = some ⟨d, false⟩) :
    logging sha256 from_str gw t = gw.log_turn sha256 from_str d t := by
  unfold logging
  rw [h]
  rfl

theorem log_turn_pushed_iff (gw : Gateway) (d : ProtocolDescriptor) (t : Turn)
    (record : TurnRecord) :
    Pushed gw (gw.log_turn sha256 from_str d t) record
      ↔ logged_record sha256 from_str gw d t = some record := by
  obtain ⟨hsubmitted, hstore⟩ := log_turn_pushes sha256 from_str gw d t
  unfold Pushed
  rw [hsubmitted, hstore]
  cases hrecord : logged_record sha256 from_str gw d t with
  | none => simp
  | some r =>
    constructor
    · intro h
      have hr : r = record := by simpa using h.1
      rw [hr]
    · intro h
      cases h
      exact ⟨rfl, rfl⟩

/-- What `logging` pushes is the record of a matched turn. -/
theorem pushed_iff_logged (gw : Gateway) (t : Turn) (record : TurnRecord) :
    Pushed gw (logging sha256 from_str gw t) record ↔
      ∃ m, t.matched = some m ∧ logged_record sha256 from_str gw m.descriptor t = some record := by
  cases hm : t.matched with
  | none =>
    obtain ⟨n, hlogging⟩ := logging_unmatched sha256 from_str gw hm
    rw [hlogging]
    refine iff_of_false (not_pushed_nothing { gw with loose_path_matches := n } record) ?_
    rintro ⟨m, hsome, -⟩
    cases hsome
  | some m =>
    obtain ⟨n, hlogging⟩ := logging_matched sha256 from_str gw hm
    rw [hlogging]
    -- the loose-match counter is not part of a push, nor of the record
    have hpushed := log_turn_pushed_iff sha256 from_str { gw with loose_path_matches := n }
      m.descriptor t record
    refine hpushed.trans ⟨fun h => ⟨m, rfl, h⟩, ?_⟩
    rintro ⟨m', hsome, h⟩
    cases hsome
    exact h

theorem exact_matched {d : ProtocolDescriptor} {t : Turn}
    (h : detect_path t.path = some ⟨d, false⟩) : t.matched = some ⟨d, false⟩ := by
  rw [Turn.matched, h]
  rfl

theorem stream_logged {gw : Gateway} {d : ProtocolDescriptor} {t : Turn}
    (hon : gw.trace_off = false) (hsse : looks_like_sse t.ctx.resp_content_type = true) :
    logged_record sha256 from_str gw d t = some
      (sse_record (assemble sha256 from_str gw d t).1 t (stream_outcome from_str d t.ctx)) := by
  rw [logged_record, if_neg (by rw [hon]; exact Bool.false_ne_true), turn_record, if_pos hsse]
  rfl

/-- What is pushed of a stream on an exact path. -/
theorem stream_pushed {gw : Gateway} {d : ProtocolDescriptor} {t : Turn}
    (h : detect_path t.path = some ⟨d, false⟩) (hon : gw.trace_off = false)
    (hsse : looks_like_sse t.ctx.resp_content_type = true) :
    Pushed gw (logging sha256 from_str gw t)
      (sse_record (assemble sha256 from_str gw d t).1 t (stream_outcome from_str d t.ctx)) :=
  (pushed_iff_logged sha256 from_str gw t _).mpr
    ⟨_, exact_matched h, stream_logged sha256 from_str hon hsse⟩

/-- A turn on an exact path is recorded once when it has a record. -/
theorem exact_pushed_one_iff {gw : Gateway} {d : ProtocolDescriptor} {t : Turn}
    (h : detect_path t.path = some ⟨d, false⟩) :
    PushedOne gw (logging sha256 from_str gw t)
      ↔ (logged_record sha256 from_str gw d t).isSome := by
  unfold PushedOne
  rw [logging_exact sha256 from_str h, Option.isSome_iff_exists]
  exact exists_congr fun record => log_turn_pushed_iff sha256 from_str gw d t record

/-! ### When there is a record -/

/-- What unpacking a response at rest needs. -/
theorem unpack_isSome_iff {d : ProtocolDescriptor} (hd : d ∈ DESCRIPTORS) (req : Option Value)
    (resp_buf : Bytes) :
    (unpack_nonstreaming from_str d.name req resp_buf).isSome ↔
      (∃ r, req = some r ∧ (d.user_input r).isSome) ∧ (from_slice from_str resp_buf).isSome := by
  unfold unpack_nonstreaming
  rw [detect_by_name_self hd]
  cases req with
  | none => simp
  | some r =>
    cases hresp : from_slice from_str resp_buf with
    | none => simp
    | some resp => simp [nonstreaming]

/-- The record of a turn that is captured: streamed, unpacked, or minimal. -/
theorem turn_record_isSome_iff (a : Assembly) (t : Turn) :
    (turn_record from_str a t).isSome ↔
      looks_like_sse t.ctx.resp_content_type ∨
      (unpack_nonstreaming from_str a.descriptor.name a.parsed_req t.ctx.resp_buf).isSome ∨
      (http_error t).isSome ∨ (t.ctx.relay_done ∧ client_cancelled t) := by
  unfold turn_record
  by_cases hsse : looks_like_sse t.ctx.resp_content_type = true
  · simp [hsse]
  · rw [if_neg hsse]
    cases hunpack : unpack_nonstreaming from_str a.descriptor.name a.parsed_req t.ctx.resp_buf with
    | some r => simp
    | none =>
      simp only [hsse, Option.isSome_none, Bool.false_eq_true, false_or]
      by_cases hmin : ((http_error t).isSome || (t.ctx.relay_done && client_cancelled t)) = true
      · rw [if_pos hmin]
        simpa using hmin
      · rw [if_neg hmin]
        simpa using hmin

/-- How the record of a captured turn is made. -/
inductive Recorded (a : Assembly) (t : Turn) : TurnRecord → Prop where
  | streamed (hsse : looks_like_sse t.ctx.resp_content_type = true) :
      Recorded a t (sse_record a t (stream_outcome from_str a.descriptor t.ctx))
  | unpacked {inner : TurnRecord} (hrest : looks_like_sse t.ctx.resp_content_type = false)
      (hinner : unpack_nonstreaming from_str a.descriptor.name a.parsed_req t.ctx.resp_buf
        = some inner) :
      Recorded a t (nonstreaming_record a t inner)
  | minimal (hrest : looks_like_sse t.ctx.resp_content_type = false)
      (hnone : unpack_nonstreaming from_str a.descriptor.name a.parsed_req t.ctx.resp_buf = none)
      (hdue : ((http_error t).isSome || (t.ctx.relay_done && client_cancelled t)) = true) :
      Recorded a t (minimal_record a t)

theorem turn_record_cases {a : Assembly} {t : Turn} {record : TurnRecord}
    (h : turn_record from_str a t = some record) : Recorded from_str a t record := by
  unfold turn_record at h
  by_cases hsse : looks_like_sse t.ctx.resp_content_type = true
  · rw [if_pos hsse] at h
    cases h
    exact .streamed hsse
  · rw [if_neg hsse] at h
    rw [Bool.not_eq_true] at hsse
    cases hunpack : unpack_nonstreaming from_str a.descriptor.name a.parsed_req t.ctx.resp_buf with
    | some inner =>
      rw [hunpack] at h
      cases h
      exact .unpacked hsse hunpack
    | none =>
      rw [hunpack] at h
      dsimp only at h
      split at h
      · rename_i hdue
        cases h
        exact .minimal hsse hunpack hdue
      · cases h

/-- A record is a shell, or made from what was captured. -/
theorem logged_record_cases {gw : Gateway} {d : ProtocolDescriptor} {t : Turn}
    {record : TurnRecord} (h : logged_record sha256 from_str gw d t = some record) :
    (gw.trace_off = true ∧ record = shell_record d t) ∨
      (gw.trace_off = false ∧ Recorded from_str (assemble sha256 from_str gw d t).1 t record) := by
  unfold logged_record at h
  by_cases hoff : gw.trace_off = true
  · rw [if_pos hoff] at h
    cases h
    exact Or.inl ⟨hoff, rfl⟩
  · rw [if_neg hoff] at h
    rw [Bool.not_eq_true] at hoff
    exact Or.inr ⟨hoff, turn_record_cases from_str h⟩

/-- Every record of a turn says whether the client went away. -/
theorem logged_record_cancelled {gw : Gateway} {d : ProtocolDescriptor} {t : Turn}
    {record : TurnRecord} (h : logged_record sha256 from_str gw d t = some record) :
    record.cancelled = client_cancelled t := by
  rcases logged_record_cases sha256 from_str h with ⟨-, rfl⟩ | ⟨-, hrecorded⟩
  · rfl
  · cases hrecorded with
    | streamed hsse => rfl
    | unpacked hrest hinner => rfl
    | minimal hrest hnone hdue => rfl

/-! ### The last user message -/

/-- A block that counts as text: any block with a text, or one of a type. -/
def text_block (ty : Option String) (b : Value) : Bool :=
  ty.all ((b.index "type").is_str ·) && (b.index "text").as_str.isSome

/-- A non-empty string, or a block list with a text block. -/
def holds_text (ty : Option String) (content : Value) : Bool :=
  match content with
  | .string s => !s.isEmpty
  | .array blocks => blocks.any (text_block ty)
  | _ => false

/-- The messages or input items of a request. -/
def turn_items (d : ProtocolDescriptor) (req : Value) : List Value :=
  match d.input_shape with
  | .messages => ((req.index "messages").as_array).getD []
  | .responses => ((req.index "input").as_array).getD []

/-- A user-role message or item with a string or a block list as content. -/
def has_user_turn (d : ProtocolDescriptor) (req : Value) : Bool :=
  (turn_items d req).any fun i =>
    (i.index "role").is_str "user" &&
      ((i.index "content").as_str.isSome || (i.index "content").as_array.isSome)

/-- The last user message holds text. A responses request may also carry its
    text as the bare input. -/
def last_user_text (d : ProtocolDescriptor) (req : Value) : Bool :=
  match d.input_shape with
  | .messages =>
    ((turn_items d req).reverse.find? fun m => (m.index "role").is_str "user").any
      fun m => holds_text none (m.index "content")
  | .responses =>
    (match req.index "input" with
      | .string s => !s.isEmpty
      | _ => false) ||
    ((turn_items d req).reverse.find? Responses.is_user_item).any
      fun m => holds_text (some "input_text") (m.index "content")

theorem block_texts_nonempty (blocks : List Value) :
    (!(block_texts blocks).isEmpty) = blocks.any (text_block none) := by
  induction blocks with
  | nil => rfl
  | cons b blocks ih =>
    unfold block_texts at ih ⊢
    cases htext : (b.index "text").as_str with
    | none => simpa [text_block, htext] using ih
    | some t => simp [text_block, htext]

theorem typed_texts_nonempty (ty : String) (blocks : List Value) :
    (!(Responses.typed_texts ty blocks).isEmpty) = blocks.any (text_block (some ty)) := by
  induction blocks with
  | nil => rfl
  | cons b blocks ih =>
    unfold Responses.typed_texts at ih ⊢
    by_cases hty : (b.index "type").is_str ty = true
    · cases htext : (b.index "text").as_str with
      | none => simpa [text_block, htext, hty] using ih
      | some t => simp [text_block, htext, hty]
    · simpa [text_block, hty] using ih

theorem content_text_isSome (content : Value) :
    (content_text content).isSome = holds_text none content := by
  cases content with
  | string s =>
    show (if s.isEmpty then none else some s).isSome = !s.isEmpty
    cases s.isEmpty <;> rfl
  | array blocks =>
    show (if (block_texts blocks).isEmpty then none
      else some (Text.join "\n" (block_texts blocks))).isSome = blocks.any (text_block none)
    rw [← block_texts_nonempty]
    cases (block_texts blocks).isEmpty <;> rfl
  | null => rfl
  | bool b => rfl
  | number n => rfl
  | object entries => rfl

/-- The text of a user item of the responses protocol. -/
theorem responses_item_isSome (content : Value) :
    (match content.as_str with
      | some s => if s.isEmpty then none else some s
      | none =>
        content.as_array.bind fun blocks =>
          let out := Responses.typed_texts "input_text" blocks
          if out.isEmpty then none else some (Text.join "\n" out)).isSome
      = holds_text (some "input_text") content := by
  cases content with
  | string s =>
    show (if s.isEmpty then none else some s).isSome = !s.isEmpty
    cases s.isEmpty <;> rfl
  | array blocks =>
    show (if (Responses.typed_texts "input_text" blocks).isEmpty then none
      else some (Text.join "\n" (Responses.typed_texts "input_text" blocks))).isSome
        = blocks.any (text_block (some "input_text"))
    rw [← typed_texts_nonempty]
    cases (Responses.typed_texts "input_text" blocks).isEmpty <;> rfl
  | null => rfl
  | bool b => rfl
  | number n => rfl
  | object entries => rfl

theorem any_isSome_bind {α β : Type} (o : Option α) (f : α → Option β) :
    (o.bind f).isSome = o.any fun a => (f a).isSome := by
  cases o <;> rfl

theorem responses_user_input_isSome (input : Value) :
    (Responses.responses_user_input input).isSome
      = ((match input with
          | .string s => !s.isEmpty
          | _ => false) ||
        (((input.as_array).getD []).reverse.find? Responses.is_user_item).any
          fun m => holds_text (some "input_text") (m.index "content")) := by
  cases input with
  | string s =>
    show (if s.isEmpty then none else some s).isSome = (!s.isEmpty || false)
    cases s.isEmpty <;> rfl
  | array items =>
    show (((items.reverse.find? Responses.is_user_item).bind _).isSome)
      = (items.reverse.find? Responses.is_user_item).any _
    rw [any_isSome_bind]
    exact congrArg (Option.any · _) (funext fun item => responses_item_isSome _)
  | null => rfl
  | bool b => rfl
  | number n => rfl
  | object entries => rfl

/-- The protocols an exact path can name. -/
theorem detect_path_exact {path : String} {d : ProtocolDescriptor}
    (h : detect_path path = some ⟨d, false⟩) :
    d = Anthropic.DESCRIPTOR ∨ d = Responses.DESCRIPTOR ∨ d = Chat.DESCRIPTOR := by
  have hdetect : detect path = some d := by
    unfold detect_path at h
    split at h
    · cases h
      assumption
    · obtain ⟨_, _, hloose⟩ := Option.map_eq_some_iff.mp h
      cases hloose
  have hmem := max_by_key_mem _ _ hdetect
  obtain ⟨hd, hpath⟩ := List.mem_filter.mp hmem
  simp only [DESCRIPTORS, List.mem_cons, List.not_mem_nil, or_false] at hd
  rcases hd with rfl | rfl | rfl | rfl
  · exact Or.inl rfl
  · exact Or.inr (Or.inl rfl)
  · exact Or.inr (Or.inr rfl)
  · -- the live table has no path
    cases hpath

/-- A request has a user text exactly when its last user message holds text. -/
theorem user_input_isSome {path : String} {d : ProtocolDescriptor}
    (h : detect_path path = some ⟨d, false⟩) (req : Value) :
    (d.user_input req).isSome = last_user_text d req := by
  have hmessages : ∀ items : Option (List Value),
      ((items.bind fun items =>
        (items.reverse.find? fun m => (m.index "role").is_str "user").bind fun item =>
          content_text (item.index "content")).isSome)
        = (((items.getD []).reverse.find? fun m => (m.index "role").is_str "user").any
          fun m => holds_text none (m.index "content")) := by
    intro items
    cases items with
    | none => rfl
    | some items =>
      show (((items.reverse.find? _).bind _).isSome) = (items.reverse.find? _).any _
      rw [any_isSome_bind]
      exact congrArg (Option.any · _) (funext fun item => content_text_isSome _)
  rcases detect_path_exact h with rfl | rfl | rfl
  · exact hmessages _
  · exact responses_user_input_isSome _
  · exact hmessages _

/-! ### Answered turns -/

/-- A failure that logging marks on a 2xx exchange: an error of the session
    that is not the client's doing, or the relay's own. -/
def failed_exchange (t : Turn) : Prop :=
  t.error_class = some .proxy_error ∨ (t.error = none ∧ t.ctx.relay_error.isSome)

/-- A relayed turn whose client went away. -/
def relay_cancelled (t : Turn) : Prop := t.ctx.relay_done ∧ client_cancelled t

theorem http_error_isSome_iff (t : Turn) :
    (http_error t).isSome ↔
      failed_exchange t ∨ (t.error = none ∧ t.ctx.relay_error = none ∧ 400 ≤ t.ctx.resp_status) := by
  unfold http_error failed_exchange Turn.error_class
  cases t.error with
  | some e =>
    simp only [Option.map_some, Option.some.injEq]
    generalize classify_session_error e.err_text e.downstream_sourced t.ctx.resp_status
      t.ctx.response_complete = cls
    cases cls <;> simp
  | none =>
    cases t.ctx.relay_error with
    | some marker => simp
    | none => by_cases hstatus : 400 ≤ t.ctx.resp_status <;> simp [hstatus]

theorem success_below_400 {status : UInt16} (h : is_success status = true) : ¬ 400 ≤ status := by
  simp only [is_success, Bool.and_eq_true, decide_eq_true_eq] at h
  intro h400
  have hlt := UInt16.lt_iff_toNat_lt.mp h.2
  have hle := UInt16.le_iff_toNat_le.mp h400
  have h300 : (300 : UInt16).toNat = 300 := rfl
  have h400' : (400 : UInt16).toNat = 400 := rfl
  omega

/-- A turn on an exact path with a user message in a parsed request and a
    2xx answer, streamed or parsed. -/
structure AnsweredTurn (d : ProtocolDescriptor) (req : Value) (t : Turn) : Prop where
  exact_path : detect_path t.path = some ⟨d, false⟩
  parsed : parse_body from_str t.ctx.req_buf = some req
  user_turn : has_user_turn d req = true
  success : is_success t.ctx.resp_status = true
  answered : looks_like_sse t.ctx.resp_content_type = true ∨
    (from_slice from_str t.ctx.resp_buf).isSome

/-- The record of an exact turn, by what it needs. -/
theorem logged_record_isSome_iff {gw : Gateway} {d : ProtocolDescriptor} {t : Turn}
    (hpath : detect_path t.path = some ⟨d, false⟩) :
    (logged_record sha256 from_str gw d t).isSome ↔
      gw.trace_off = true ∨ looks_like_sse t.ctx.resp_content_type = true ∨
      ((∃ req, parse_body from_str t.ctx.req_buf = some req ∧ last_user_text d req = true) ∧
        (from_slice from_str t.ctx.resp_buf).isSome) ∨
      (http_error t).isSome ∨ relay_cancelled t := by
  have hd := detect_path_mem hpath
  unfold logged_record
  by_cases hoff : gw.trace_off = true
  · simp [hoff]
  · rw [if_neg hoff, turn_record_isSome_iff]
    -- the assembly carries the descriptor and the one parse
    show _ ∨ (unpack_nonstreaming from_str d.name (parse_body from_str t.ctx.req_buf)
      t.ctx.resp_buf).isSome ∨ _ ↔ _
    rw [unpack_isSome_iff from_str hd]
    simp only [user_input_isSome hpath, hoff, Bool.false_eq_true, false_or, relay_cancelled]

/-- An answered turn is recorded exactly once if and only if it is streamed,
    its last user message holds text, the exchange failed, it was relayed to
    a client that went away, or the gateway captures nothing. -/
theorem answered_turn_recorded_iff {gw : Gateway} {d : ProtocolDescriptor} {req : Value}
    {t : Turn} (h : AnsweredTurn from_str d req t) :
    PushedOne gw (logging sha256 from_str gw t) ↔
      gw.trace_off = true ∨ looks_like_sse t.ctx.resp_content_type = true ∨
      last_user_text d req = true ∨ failed_exchange t ∨ relay_cancelled t := by
  have hstatus := success_below_400 h.success
  rw [exact_pushed_one_iff sha256 from_str h.exact_path,
    logged_record_isSome_iff sha256 from_str h.exact_path, http_error_isSome_iff]
  simp only [h.parsed, Option.some.injEq, exists_eq_left', hstatus, and_false, or_false]
  rcases h.answered with hsse | hresp
  · simp [hsse]
  · simp [hresp]

end records

/-! ### A tool loop turn -/

/-- A request whose only user message is a tool result. -/
def tool_result_text : String :=
  "\x7b\"messages\":[\x7b\"role\":\"user\",\"content\":[\x7b\"type\":\"tool_result\",\"content\":\"ok\"\x7d]\x7d]\x7d"

def tool_result_request : Value :=
  .object [("messages", .array [.object [
    ("content", .array [.object [("content", .string "ok"), ("type", .string "tool_result")]]),
    ("role", .string "user")]])]

/-- The parser on the texts of this turn. -/
def tool_turn_from_str (s : String) : Option Value :=
  if s = tool_result_text then some tool_result_request
  else if s = "\x7b\x7d" then some (.object [])
  else none

/-- The turn, with a response of a content type. -/
def tool_turn (content_type : String) : Turn where
  path := "/v1/messages"
  headers := []
  error := none
  ctx := {
    snap := ⟨"salt", "tag", false, 30, half_minute_pos⟩
    req_buf := utf8_bytes tool_result_text
    resp_buf := utf8_bytes "\x7b\x7d"
    resp_content_type := content_type
    resp_status := 200
    response_complete := true }
  now_ns := 1
  instant := 1
  order := Lru.IterOrder.stored

theorem messages_path : detect_path "/v1/messages" = some ⟨Anthropic.DESCRIPTOR, false⟩ := rfl

/-- A gateway that has seen nothing. -/
def idle_gateway : Gateway where
  trace_off := false
  cap := CaptureCap.of_max 1024
  stitcher := PrefixStitcher.with_limits 8 60000 0 []
  store := TraceStore.with_caps 10 4096

theorem answered_turn_recorded_iff_streamed :
    let t := tool_turn "text/event-stream"
    PushedOne idle_gateway (logging Sha256.digest tool_turn_from_str idle_gateway t) := by
  intro t
  have hturn : AnsweredTurn tool_turn_from_str Anthropic.DESCRIPTOR tool_result_request t :=
    ⟨messages_path, rfl, by decide, by decide, Or.inl (by decide)⟩
  exact (answered_turn_recorded_iff Sha256.digest tool_turn_from_str hturn).mpr
    (Or.inr (Or.inl (by decide)))

/-- At rest, what the tool loop turn says does not unpack. -/
theorem tool_turn_unrecorded :
    logged_record Sha256.digest tool_turn_from_str idle_gateway Anthropic.DESCRIPTOR
      (tool_turn "application/json") = none := by
  have hpath : detect_path (tool_turn "application/json").path = some ⟨Anthropic.DESCRIPTOR, false⟩ :=
    messages_path
  have hparsed : parse_body tool_turn_from_str (tool_turn "application/json").ctx.req_buf
      = some tool_result_request := rfl
  have hmute : last_user_text Anthropic.DESCRIPTOR tool_result_request = false := by decide
  rw [← Option.not_isSome_iff_eq_none, logged_record_isSome_iff Sha256.digest tool_turn_from_str hpath]
  rintro (hoff | hsse | ⟨⟨req, hreq, htext⟩, -⟩ | herror | ⟨hrelay, -⟩)
  · cases hoff
  · exact absurd hsse (by decide)
  · rw [hparsed] at hreq
    cases hreq
    rw [hmute] at htext
    cases htext
  · exact absurd herror (by decide)
  · cases hrelay

/-- The same turn answered with a JSON body leaves no record. -/
theorem tool_result_turn_lost :
    let t := tool_turn "application/json"
    AnsweredTurn tool_turn_from_str Anthropic.DESCRIPTOR tool_result_request t ∧
      ¬ PushedOne idle_gateway (logging Sha256.digest tool_turn_from_str idle_gateway t) := by
  intro t
  have hpath : detect_path t.path = some ⟨Anthropic.DESCRIPTOR, false⟩ := messages_path
  refine ⟨⟨hpath, rfl, by decide, by decide, Or.inr (by decide)⟩, ?_⟩
  rw [exact_pushed_one_iff Sha256.digest tool_turn_from_str hpath, tool_turn_unrecorded]
  exact Bool.false_ne_true

end AgentTraceGateway
