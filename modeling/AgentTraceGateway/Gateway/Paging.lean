import AgentTraceGateway.Gateway.Counters
import AgentTraceGateway.Trace.RecordsPage

/-! # Paging Through a Live Store

  Whoever wants all records asks for one page after the other, from the
  newest end back, each page of the size he likes. Meanwhile turns end, live
  turns close, and a reload may shrink the store. A request counts its offset from the newest end at its
  own time, so pages overlap when the store has grown in between.

  The store is a log of which a suffix is kept, whatever the gateway does,
  and a log is paged through without a miss. -/

namespace AgentTraceGateway

open Pages RecordsPage

/-! ### The store as a log -/

/-- The loop drops from the front, whether its sums saturate or not. -/
theorem make_room_suffix (max_records max_bytes size : Nat) :
    ∀ (records : List TurnRecord) (bytes : Nat) (dropped : UInt64),
      (TraceStore.make_room max_records max_bytes size records bytes dropped).1 <:+ records := by
  intro records
  induction records with
  | nil => exact fun _ _ => List.suffix_refl _
  | cons old rest ih =>
    intro bytes dropped
    unfold TraceStore.make_room
    split_ifs
    · exact (ih _ _).trans (List.suffix_cons old rest)
    · exact List.suffix_refl _

/-- A push leaves a suffix, and its own record. -/
theorem push_keeps (store : TraceStore) (record : TurnRecord) :
    ∃ kept, kept <:+ store.deque ∧ (store.push record).deque = kept ++ [record] :=
  ⟨_, make_room_suffix _ _ _ _ _ _, rfl⟩

/-- The store holds the last of the records that were pushed. -/
def Gateway.Kept (gw : Gateway) : Prop := gw.store.deque <:+ gw.submitted

def Gateway.log (gw : Gateway) (h : gw.Kept) : Log TurnRecord := ⟨gw.submitted, gw.store.deque, h⟩

/-- How many of the records that were pushed the store has dropped. -/
def Gateway.gone (gw : Gateway) : Nat := gw.submitted.length - gw.store.deque.length

/-- From one gateway to another the log moves on. -/
def Grows (gw gw' : Gateway) : Prop := ∀ h : gw.Kept, ∃ h' : gw'.Kept, (gw.log h).Later (gw'.log h')

theorem Grows.trans {a b c : Gateway} (hab : Grows a b) (hbc : Grows b c) : Grows a c := fun h =>
  let ⟨h', hlater⟩ := hab h
  let ⟨h'', hlater'⟩ := hbc h'
  ⟨h'', hlater.trans hlater'⟩

/-- Neither the store's records nor the queue changes. -/
theorem Grows.same {gw gw' : Gateway} (hstore : gw'.store.deque = gw.store.deque)
    (hsubmitted : gw'.submitted = gw.submitted) : Grows gw gw' := by
  intro h
  refine ⟨?_, ⟨[], ?_⟩, ?_⟩
  · rw [Gateway.Kept, hstore, hsubmitted]
    exact h
  · show gw.submitted ++ [] = gw'.submitted
    rw [hsubmitted, List.append_nil]
  · show gw.submitted.length - gw.store.deque.length ≤ gw'.submitted.length - gw'.store.deque.length
    rw [hstore, hsubmitted]

theorem Grows.push {gw gw' : Gateway} {record : TurnRecord}
    (hstore : gw'.store = gw.store.push record)
    (hsubmitted : gw'.submitted = gw.submitted ++ [record]) : Grows gw gw' := by
  intro h
  obtain ⟨kept, hkept, hdeque⟩ := push_keeps gw.store record
  have hdeque' : gw'.store.deque = kept ++ [record] := by rw [hstore, hdeque]
  have hkept' : gw'.Kept := by
    rw [Gateway.Kept, hdeque', hsubmitted]
    obtain ⟨front, hfront⟩ := hkept.trans h
    exact ⟨front, by rw [← List.append_assoc, hfront]⟩
  exact ⟨hkept', Log.later_push (gw.log h) (gw'.log hkept') hkept hsubmitted hdeque'⟩

section steps

variable (sha256 : Bytes → Digest) (from_str : String → Option Value)

theorem logging_grows (gw : Gateway) (t : Turn) : Grows gw (logging sha256 from_str gw t) := by
  obtain ⟨hsubmitted, hstore⟩ := logging_pushes sha256 from_str gw t
  cases hrecord : t.matched.bind fun m => logged_record sha256 from_str gw m.descriptor t with
  | none =>
    rw [hrecord] at hsubmitted hstore
    exact .same (congrArg TraceStore.deque hstore) (hsubmitted.trans (List.append_nil _))
  | some record =>
    rw [hrecord] at hsubmitted hstore
    exact .push hstore hsubmitted

theorem server_payload_grows (gw : Gateway) (tap : LiveTap) (output_ns end_ns : UInt64)
    (payload : Bytes) : Grows gw (gw.server_payload from_str tap output_ns end_ns payload).1 := by
  unfold Gateway.server_payload
  dsimp only
  split
  · exact .same rfl rfl
  · exact .push rfl rfl

theorem server_payloads_grows : ∀ (payloads : List Bytes) (gw : Gateway) (tap : LiveTap)
    (clock : Nat → UInt64), Grows gw (gw.server_payloads from_str tap clock payloads).1 := by
  intro payloads
  induction payloads with
  | nil => exact fun _ _ _ => .same rfl rfl
  | cons payload payloads ih =>
    exact fun gw tap clock => (server_payload_grows from_str gw tap _ _ payload).trans (ih _ _ _)

/-- Whatever hook runs, the log moves on. -/
theorem hook_op_grows {s s' : LiveGateway} {op : HookOp}
    (h : hook_op sha256 from_str s op = some s') : Grows s.gateway s'.gateway := by
  cases op with
  | turn t =>
    cases h
    exact logging_grows sha256 from_str s.gateway t
  | reload capacity ttl_ms =>
    cases h
    exact .same rfl rfl
  | upgrade headers max_payload trace_tag start_ns =>
    cases h
    exact .same rfl rfl
  | client_chunk i data =>
    obtain ⟨tap, -, rfl⟩ := Option.map_eq_some_iff.mp h
    exact .same rfl rfl
  | server_chunk i data clock =>
    obtain ⟨tap, -, rfl⟩ := Option.map_eq_some_iff.mp h
    exact server_payloads_grows from_str _ _ _ _

/-! ### Paging -/

/-- A gateway, and someone who pages through its records. `begun` lists the
    records that had been pushed when the reading began. -/
structure Paging where
  live : LiveGateway
  begun : List TurnRecord := []
  reader : Reader TurnRecord := {}

/-- A hook runs, a reload re-seeds the caps of the store, the reading begins,
    or it goes on with a page of some limit (zero asks for everything). -/
inductive PagingEvent where
  | hook (op : HookOp)
  | set_caps (max_records max_bytes : Nat)
  | begin_reading
  | read (limit : Nat)

/-- A page is asked for over HTTP, and its body is read as JSON. -/
def fetch (gw : Gateway) (limit offset : Nat) : Option (List TurnRecord) :=
  read_records (records_body gw.store (some (page_query limit offset)))

def paging_step (s : Paging) : PagingEvent → Option Paging
  | .hook op => (hook_op sha256 from_str s.live op).map fun live => { s with live := live }
  | .set_caps max_records max_bytes =>
    let gw := s.live.gateway
    some { s with
      live := { s.live with gateway := { gw with store := gw.store.set_caps max_records max_bytes } } }
  | .begin_reading => some { s with begun := s.live.gateway.submitted, reader := {} }
  | .read limit =>
    if s.reader.finished then none
    else (fetch s.live.gateway limit s.reader.offset).map fun page =>
      { s with reader := s.reader.take limit page }

/-- Positions in the log are machine words. -/
def LogFits (s : Paging) (_ : PagingEvent) : Prop := s.live.gateway.submitted.length < 2 ^ 64

/-- The store is a log, and the reader covers what it should. -/
structure PagingInv (s : Paging) : Prop where
  kept : s.live.gateway.Kept
  begun : s.begun <+: s.live.gateway.submitted
  covers : Reader.Covers s.begun.length (s.live.gateway.log kept) s.reader

theorem fetch_eq (gw : Gateway) (limit : Nat) {offset : Nat} (hoffset : offset < 2 ^ 64) :
    fetch gw limit offset = some (page (word_or_zero limit) offset gw.store.deque) := by
  rw [fetch, records_body, parse_page_query, read_records_text, snapshot_bounded_page,
    word_or_zero_of_lt hoffset]

theorem read_step {s : Paging} (limit : Nat) (hfinished : s.reader.finished = false)
    (hoffset : s.reader.offset < 2 ^ 64) :
    paging_step sha256 from_str s (.read limit)
      = some { s with
          reader := s.reader.take limit
            (page (word_or_zero limit) s.reader.offset s.live.gateway.store.deque) } := by
  rw [paging_step, hfinished, if_neg Bool.false_ne_true, fetch_eq _ limit hoffset]
  rfl

/-- A limit beyond a machine word is served as none, and a page of all that is
    kept is shorter than it. -/
theorem fetch_serves (log : Log TurnRecord) (limit offset : Nat) (hfits : log.all.length < 2 ^ 64) :
    Reader.Serves limit (word_or_zero limit) (page (word_or_zero limit) offset log.kept) := by
  unfold word_or_zero
  split_ifs with hword
  · exact Or.inl rfl
  · have hkept := log.suffix.length_le
    have hpage := page_length 0 offset log.kept
    refine Or.inr ⟨rfl, ?_⟩
    omega

theorem paging_grows {s : Paging} {gw : Gateway} {taps : List LiveTap} (hinv : PagingInv s)
    (hgrows : Grows s.live.gateway gw) : PagingInv { s with live := ⟨gw, taps⟩ } := by
  obtain ⟨hkept, hlater⟩ := hgrows hinv.kept
  exact ⟨hkept, hinv.begun.trans hlater.grows, hinv.covers.later hlater⟩

/-- One step. -/
theorem paging_step_inv {s s' : Paging} {event : PagingEvent} (hinv : PagingInv s)
    (hfits : LogFits s event) (hstep : paging_step sha256 from_str s event = some s') :
    PagingInv s' := by
  cases event with
  | hook op =>
    obtain ⟨live, hlive, rfl⟩ := Option.map_eq_some_iff.mp hstep
    exact paging_grows hinv (hook_op_grows sha256 from_str hlive)
  | set_caps max_records max_bytes =>
    cases hstep
    exact paging_grows hinv (.same rfl rfl)
  | begin_reading =>
    cases hstep
    exact ⟨hinv.kept, List.prefix_refl _, Reader.covers_start (Nat.le_refl _)⟩
  | read limit =>
    have hfinished : s.reader.finished = false := by
      unfold paging_step at hstep
      split_ifs at hstep with hfinished
      exact Bool.eq_false_iff.mpr hfinished
    have hoffset : s.reader.offset < 2 ^ 64 := Nat.lt_of_le_of_lt (hinv.covers.behind hfinished) hfits
    rw [read_step sha256 from_str limit hfinished hoffset] at hstep
    cases hstep
    have hserves := fetch_serves (s.live.gateway.log hinv.kept) limit s.reader.offset hfits
    exact ⟨hinv.kept, hinv.begun, hinv.covers.take hfinished hserves⟩

/-- **No record is missed**: however turns, reloads and the requests of a
    reader interleave, and whatever limits its pages have, a reader that has
    come to a page that is not full, or has asked for everything, has found,
    in order, every record that was pushed before it began and that the store
    still holds. What it was shown was always a piece of what was pushed. -/
theorem paging_complete {gw : Gateway} {taps : List LiveTap} (hempty : gw.store.deque = [])
    {events : List PagingEvent} {s : Paging}
    (hfits : Guarded (paging_step sha256 from_str) LogFits ⟨⟨gw, taps⟩, [], {}⟩ events)
    (hrun : run (paging_step sha256 from_str) ⟨⟨gw, taps⟩, [], {}⟩ events = some s)
    (hfinished : s.reader.finished = true) :
    (s.begun.drop s.live.gateway.gone).Sublist s.reader.found ∧
      ∀ page ∈ s.reader.pages, page <:+: s.live.gateway.submitted := by
  have hkept : gw.Kept := by
    rw [Gateway.Kept, hempty]
    exact List.nil_suffix
  have hstart : PagingInv ⟨⟨gw, taps⟩, [], {}⟩ :=
    ⟨hkept, List.nil_prefix, Reader.covers_start (Nat.zero_le _)⟩
  have hinv := run_invariant (fun _ _ _ hinv hfits hstep =>
    paging_step_inv sha256 from_str hinv hfits hstep) events _ s hstart hfits hrun
  have hfound := hinv.covers.finished hfinished
  have hbegun : s.live.gateway.submitted.take s.begun.length = s.begun :=
    (List.prefix_iff_eq_take.mp hinv.begun).symm
  refine ⟨?_, hinv.covers.pieces⟩
  rw [← hbegun]
  exact hfound

end steps

/-! ### Two pages, and a turn between them -/

/-- So many streamed turns have ended. -/
def turns_ended : Nat → Gateway
  | 0 => idle_gateway
  | n + 1 => logging Sha256.digest tool_turn_from_str (turns_ended n) (tool_turn "text/event-stream")

/-- Each of them leaves its record. -/
theorem turns_ended_pushed (n : Nat) : PushedOne (turns_ended n) (turns_ended (n + 1)) :=
  (exact_pushed_one_iff Sha256.digest tool_turn_from_str messages_path).mpr
    ((logged_record_isSome_iff Sha256.digest tool_turn_from_str messages_path).mpr
      (Or.inr (Or.inl (by decide))))

theorem turns_ended_submitted (n : Nat) : (turns_ended n).submitted.length = n := by
  induction n with
  | zero => rfl
  | succ n ih =>
    obtain ⟨record, hsubmitted, -⟩ := turns_ended_pushed n
    rw [hsubmitted, List.length_append, List.length_singleton, ih]

theorem turns_ended_stored (n : Nat) : 0 < (turns_ended (n + 1)).store.deque.length := by
  obtain ⟨record, -, hstore⟩ := turns_ended_pushed n
  obtain ⟨kept, -, hdeque⟩ := push_keeps (turns_ended n).store record
  rw [hstore, hdeque, List.length_append]
  exact Nat.lt_add_left _ Nat.one_pos

theorem turns_ended_kept (n : Nat) : (turns_ended n).Kept := by
  induction n with
  | zero => exact List.suffix_refl _
  | succ n ih => exact (logging_grows Sha256.digest tool_turn_from_str _ _ ih).1

def ended : PagingEvent := .hook (.turn (tool_turn "text/event-stream"))

def paged_twice_events : List PagingEvent :=
  [ended, ended, .begin_reading, .read 1, ended, .read 5]

/-- The reader has taken one record. -/
def first_page : Reader TurnRecord := Reader.take 1 {} (page 1 0 (turns_ended 2).store.deque)

/-- It has taken up to five more, of the store as it was then. -/
def second_page : Reader TurnRecord := first_page.take 5 (page 5 1 (turns_ended 3).store.deque)

/-- The first page is full. -/
theorem first_page_goes_on : first_page.finished = false := by
  have hstored : 0 < (turns_ended 2).store.deque.length := turns_ended_stored 1
  have hwidth : width 1 (turns_ended 2).store.deque = 1 := rfl
  rw [first_page, Bool.eq_false_iff, Ne, Reader.take_finished_iff, page_length, hwidth]
  omega

/-- The second is not. -/
theorem second_page_finished : second_page.finished = true := by
  have hstored := (turns_ended_kept 3).length_le
  rw [turns_ended_submitted] at hstored
  rw [second_page, Reader.take_finished_iff, page_length]
  omega

section paged_twice

variable {begun : List TurnRecord} {reader : Reader TurnRecord}

theorem ended_step (n : Nat) :
    paging_step Sha256.digest tool_turn_from_str ⟨⟨turns_ended n, []⟩, begun, reader⟩ ended
      = some ⟨⟨turns_ended (n + 1), []⟩, begun, reader⟩ := rfl

theorem first_page_step :
    paging_step Sha256.digest tool_turn_from_str ⟨⟨turns_ended 2, []⟩, begun, {}⟩ (.read 1)
      = some ⟨⟨turns_ended 2, []⟩, begun, first_page⟩ :=
  read_step Sha256.digest tool_turn_from_str 1 rfl (show 0 < 2 ^ 64 by decide)

theorem second_page_step :
    paging_step Sha256.digest tool_turn_from_str ⟨⟨turns_ended 3, []⟩, begun, first_page⟩ (.read 5)
      = some ⟨⟨turns_ended 3, []⟩, begun, second_page⟩ :=
  read_step Sha256.digest tool_turn_from_str 5 first_page_goes_on (show 1 < 2 ^ 64 by decide)

theorem turns_ended_fits {n : Nat} (hn : n < 2 ^ 64) (event : PagingEvent) :
    LogFits ⟨⟨turns_ended n, []⟩, begun, reader⟩ event := by
  rw [LogFits, turns_ended_submitted]
  exact hn

end paged_twice

theorem paged_twice_run :
    run (paging_step Sha256.digest tool_turn_from_str) ⟨⟨turns_ended 0, []⟩, [], {}⟩
      paged_twice_events
        = some ⟨⟨turns_ended 3, []⟩, (turns_ended 2).submitted, second_page⟩ := by
  rw [paged_twice_events, run_cons (ended_step 0), run_cons (ended_step 1), run_cons rfl,
    run_cons first_page_step, run_cons (ended_step 2), run_cons second_page_step, run]

theorem paged_twice_fits :
    Guarded (paging_step Sha256.digest tool_turn_from_str) LogFits ⟨⟨turns_ended 0, []⟩, [], {}⟩
      paged_twice_events :=
  .cons (turns_ended_fits (by decide) _) (ended_step 0)
    (.cons (turns_ended_fits (by decide) _) (ended_step 1)
      (.cons (turns_ended_fits (by decide) _) rfl
        (.cons (turns_ended_fits (by decide) _) first_page_step
          (.cons (turns_ended_fits (by decide) _) (ended_step 2)
            (.cons (turns_ended_fits (by decide) _) second_page_step trivial)))))

theorem paging_complete_twice :
    let begun := (turns_ended 2).submitted
    begun.length = 2 ∧ second_page.pages.length = 2 ∧
      (begun.drop (turns_ended 3).gone).Sublist second_page.found ∧
      ∀ page ∈ second_page.pages, page <:+: (turns_ended 3).submitted :=
  ⟨turns_ended_submitted 2, rfl,
    paging_complete Sha256.digest tool_turn_from_str rfl paged_twice_fits paged_twice_run
      second_page_finished⟩

end AgentTraceGateway
