import AgentTraceGateway.Lib.Recency
import AgentTraceGateway.Trace.Occupancy

/-! # The Stitcher Without Its Table

  What the stitcher answers can be read off the requests before: a request
  is recalled when the last one of its key is not idle for the TTL and fewer
  other keys than the capacity have been used since. The table, its
  amortized sweep, the check on lookup and the eviction loop are a way to
  compute that, in bounded memory and in whatever order the table lists its
  entries. -/

namespace AgentTraceGateway

open Recency

variable (sha256 : Bytes → Digest)

/-! ### Answers from a log -/

/-- What the calls of a history left, newest first. -/
abbrev StitchLog : Type := List (StitchKey × ChainState)

/-- The chain that a request meets: its key was last used within the TTL, and
    fewer other keys than the capacity since. -/
def recalled (capacity ttl : Nat) (log : StitchLog) (c : AssignCall) : Option ChainState :=
  recollect capacity (ChainState.idle_below ttl c.now) log (c.key sha256)

/-- The answer to a call after so many ids have been minted. -/
def answer_from_log (capacity ttl : Nat) (salt : Bytes) (log : StitchLog) (mints : Nat)
    (c : AssignCall) : Assigned × Nat :=
  let minted := mint sha256 salt (fps_concat (c.fps sha256)) (UInt64.ofNat mints)
  match recalled sha256 capacity ttl log c with
  | some e =>
    if e.chain <+: c.fps sha256 then (⟨e.session_id, false⟩, mints) else (⟨minted, true⟩, mints + 1)
  | none => (⟨minted, false⟩, mints + 1)

/-- What a call leaves. -/
def AssignCall.left (c : AssignCall) (answer : Assigned) : StitchKey × ChainState :=
  (c.key sha256, ⟨c.fps sha256, answer.session_id, c.now⟩)

/-- The calls with their answers. -/
def run_from_log (capacity ttl : Nat) (salt : Bytes) : StitchLog → Nat → List AssignCall →
    List (AssignCall × Assigned)
  | _, _, [] => []
  | log, mints, c :: calls =>
    let answer := answer_from_log sha256 capacity ttl salt log mints c
    (c, answer.1) :: run_from_log capacity ttl salt (c.left sha256 answer.1 :: log) answer.2 calls

/-! ### One call -/

/-- The stitcher after a log, when the next call comes at `next` or later: its
    table holds what the log tells. -/
structure AfterLog (st : PrefixStitcher) (next : Nat) (log : StitchLog) (mints : Nat) : Prop where
  holds : Holds ChainState.last_used st.capacity (ChainState.idle_below st.ttl (next - 1)) log st.states
  nonce : st.next_nonce = UInt64.ofNat mints
  past : ∀ e ∈ log, e.2.last_used < next

/-- What is used later is idle later. -/
theorem idle_below_later {ttl now : Nat} (e e' : ChainState) (h : e.last_used < e'.last_used)
    (hlive : e.idle_below ttl now = true) : e'.idle_below ttl now = true := by
  simp only [ChainState.idle_below, decide_eq_true_eq] at hlive ⊢
  omega

/-- A call leaves the limits and the salt. -/
structure SameLimits (st st' : PrefixStitcher) : Prop where
  capacity : st'.capacity = st.capacity
  ttl : st'.ttl = st.ttl
  salt : st'.salt = st.salt

variable {st : PrefixStitcher} {next : Nat} {log : StitchLog} {mints : Nat} {c : AssignCall}

/-- Once expired chains are out of the way. -/
theorem AfterLog.ready (h : AfterLog st next log mints) (hnext : next ≤ c.now) :
    Holds ChainState.last_used st.capacity (ChainState.idle_below st.ttl c.now) log
      (st.ready sha256 c).states :=
  have hexpires := ready_expires sha256 st c
  h.holds.expire (fun _ => idle_below_mono ((Nat.sub_le next 1).trans hnext)) hexpires.sub hexpires.live

/-- The chain a call finds is the one that the log recalls. -/
theorem AfterLog.ready_lookup (h : AfterLog st next log mints) (hnext : next ≤ c.now) :
    (st.ready sha256 c).states.lookup (c.key sha256)
      = recalled sha256 st.capacity st.ttl log c := by
  have hlive : ∀ e, (st.ready sha256 c).states.lookup (c.key sha256) = some e →
      e.idle_below st.ttl c.now = true := by
    intro e he
    rw [(sweep_settings st c.now).ttl]
    exact drop_expired_live he
  rw [recalled, ← (h.ready sha256 hnext).lookup_live]
  cases hfound : (st.ready sha256 c).states.lookup (c.key sha256) with
  | none => rfl
  | some e => rw [Option.filter_some_pos (hlive e hfound)]

theorem chain_prefix_iff (chain fps : List Digest) :
    chain.length ≤ fps.length ∧ fps.take chain.length = chain ↔ chain <+: fps := by
  constructor
  · rintro ⟨-, htake⟩
    rw [← htake]
    exact List.take_prefix _ _
  · exact fun h => ⟨h.length_le, (List.prefix_iff_eq_take.mp h).symm⟩

/-- The table once a call has written its chain. -/
theorem AfterLog.written (h : AfterLog st next log mints) (hnext : next ≤ c.now) {st' : PrefixStitcher}
    {answer : Assigned} {mints' : Nat} (hcapacity : st'.capacity = st.capacity)
    (httl : st'.ttl = st.ttl) (hnonce : st'.next_nonce = UInt64.ofNat mints')
    (hholds : (∀ e ∈ log, e.2.last_used < (c.left sha256 answer).2.last_used) →
      Holds ChainState.last_used st.capacity (ChainState.idle_below st.ttl c.now)
        (c.left sha256 answer :: log) st'.states) :
    AfterLog st' (c.now + 1) (c.left sha256 answer :: log) mints' where
  holds := by
    rw [hcapacity, httl]
    exact hholds fun e he => Nat.lt_of_lt_of_le (h.past e he) hnext
  nonce := hnonce
  past := fun e he => by
    rcases List.mem_cons.mp he with rfl | he
    · exact Nat.lt_succ_self _
    · exact Nat.lt_succ_of_lt (Nat.lt_of_lt_of_le (h.past e he) hnext)

/-- One call. -/
theorem AfterLog.assign (h : AfterLog st next log mints) (order : StitchOrder) (hnext : next ≤ c.now) :
    let out := st.assign sha256 order c.scope c.messages c.now
    let answer := answer_from_log sha256 st.capacity st.ttl st.salt log mints c
    out.1 = answer.1 ∧ AfterLog out.2 (c.now + 1) (c.left sha256 answer.1 :: log) answer.2 ∧
      SameLimits st out.2 := by
  intro out answer
  have hsettings := ready_settings sha256 st c
  have hready := h.ready sha256 hnext
  have hrecalled := h.ready_lookup sha256 hnext
  have hnonce : UInt64.ofNat mints + 1 = UInt64.ofNat (mints + 1) := (UInt64.ofNat_add mints 1).symm
  have hout : out = (st.ready sha256 c).classify sha256 order (c.key sha256) (c.fps sha256) c.now := rfl
  have hanswer : answer = answer_from_log sha256 st.capacity st.ttl st.salt log mints c := rfl
  unfold PrefixStitcher.classify at hout
  unfold answer_from_log at hanswer
  dsimp only at hanswer
  rw [← hrecalled] at hanswer
  cases hfound : (st.ready sha256 c).states.lookup (c.key sha256) with
  | some e =>
    -- the chain is written again, under its id or under a new one
    have hlive : e.idle_below st.ttl c.now = true := by
      rw [hrecalled] at hfound
      exact (Bool.and_eq_true _ _ ▸ (Option.filter_eq_some_iff.mp hfound).2).1
    simp only [hfound, chain_prefix_iff] at hout hanswer
    split_ifs at hout hanswer with hextends
    · rw [hout, hanswer]
      exact ⟨rfl, h.written sha256 hnext hsettings.capacity.symm hsettings.ttl.symm
        (hsettings.next_nonce.symm.trans h.nonce) fun hnew => hready.use hnew hfound hlive,
        hsettings.capacity.symm, hsettings.ttl.symm, hsettings.salt.symm⟩
    · simp only [PrefixStitcher.new_session_id, ← hsettings.salt, ← hsettings.next_nonce,
        h.nonce, hnonce] at hout
      rw [hout, hanswer]
      exact ⟨rfl, h.written sha256 hnext hsettings.capacity.symm hsettings.ttl.symm rfl
        fun hnew => hready.use hnew hfound hlive,
        hsettings.capacity.symm, hsettings.ttl.symm, rfl⟩
  | none =>
    simp only [hfound] at hout hanswer
    have hroom := fun hnew => hready.use_new (w := (c.left sha256 answer.1).2) hnew idle_below_later
      st.capacity_pos order hfound
    simp only [PrefixStitcher.new_session_id, PrefixStitcher.evict_to_capacity, ← hsettings.salt,
      ← hsettings.next_nonce, ← hsettings.capacity, h.nonce, hnonce] at hout
    rw [hanswer] at hroom
    rw [hout, hanswer]
    exact ⟨rfl, h.written sha256 hnext rfl hsettings.ttl.symm rfl hroom,
      rfl, hsettings.ttl.symm, rfl⟩

/-! ### Whole histories -/

/-- A fresh stitcher has an empty log. -/
theorem fresh_after_log (capacity ttl_ms clock : Nat) (salt : Bytes) :
    AfterLog (PrefixStitcher.with_limits capacity ttl_ms clock salt) 0 [] 0 :=
  ⟨holds_nil, rfl, fun _ he => absurd he List.not_mem_nil⟩

theorem with_limits_ttl (capacity ttl_ms clock : Nat) (salt : Bytes) :
    (PrefixStitcher.with_limits capacity ttl_ms clock salt).ttl = 1000000 * max ttl_ms 1 := by
  simp [PrefixStitcher.with_limits, PrefixStitcher.ttl]

/-- Every call is answered from the log of the calls before it. -/
theorem run_from_log_eq : ∀ (calls : List AssignCall) (order : Nat → StitchOrder)
    (st : PrefixStitcher) (next : Nat) (log : StitchLog) (mints : Nat), AfterLog st next log mints →
    (∀ c ∈ calls, next ≤ c.now) → calls.Pairwise (fun a b => a.now < b.now) →
    run_stitcher sha256 order st (calls.map .assign)
      = run_from_log sha256 st.capacity st.ttl st.salt log mints calls := by
  intro calls
  induction calls with
  | nil => exact fun _ _ _ _ _ _ _ _ => rfl
  | cons c calls ih =>
    intro order st next log mints h hnext htimes
    obtain ⟨hlater, hrest⟩ := List.pairwise_cons.mp htimes
    obtain ⟨hanswer, hafter, hlimits⟩ := h.assign sha256 (order 0) (hnext c List.mem_cons_self)
    have htail := ih (fun n => order (n + 1)) _ (c.now + 1) _ _ hafter hlater hrest
    rw [hlimits.capacity, hlimits.ttl, hlimits.salt] at htail
    show (c, _) :: run_stitcher sha256 _ _ (calls.map .assign)
      = (c, _) :: run_from_log sha256 _ _ _ _ _ calls
    rw [hanswer, htail]

/-- **The stitcher without its table**: at strictly increasing times, and as
    long as the limits stay, the session id and the mark of every call are
    what the log of the calls before it says, whatever the iteration order of
    the table. -/
theorem stitcher_recalls (capacity ttl_ms clock : Nat) (salt : Bytes) (order : Nat → StitchOrder)
    {calls : List AssignCall} (htimes : calls.Pairwise fun a b => a.now < b.now) :
    run_stitcher sha256 order (PrefixStitcher.with_limits capacity ttl_ms clock salt)
        (calls.map .assign)
      = run_from_log sha256 (max capacity 1) (1000000 * max ttl_ms 1) salt [] 0 calls := by
  rw [run_from_log_eq sha256 calls order _ 0 [] 0 (fresh_after_log capacity ttl_ms clock salt)
    (fun c _ => Nat.zero_le c.now) htimes, with_limits_ttl]
  rfl

/-- With room for one conversation the second one costs the first its place. -/
theorem stitcher_recalls_crowded :
    let first : AssignCall := ⟨"scope", [.string "sys", .string "head-1"], 0⟩
    let second : AssignCall := ⟨"scope", [.string "sys", .string "head-2"], 1⟩
    let again : AssignCall := ⟨"scope", [.string "sys", .string "head-1", .string "more"], 2⟩
    run_stitcher Sha256.digest (fun _ => Lru.IterOrder.stored)
        (PrefixStitcher.with_limits 1 20 0 []) ([first, second, again].map .assign)
      = run_from_log Sha256.digest 1 20000000 [] [] 0 [first, second, again] :=
  stitcher_recalls Sha256.digest 1 20 0 [] (fun _ => Lru.IterOrder.stored) (by decide)

/-! ### One conversation, one session -/

/-- Each call of the conversation, after those before (newest first), repeats
    the messages of the last one, comes within the TTL, and fewer other
    conversations than the capacity have spoken in between. -/
def Steady (capacity ttl : Nat) (key : StitchKey) : List AssignCall → List AssignCall → Prop
  | _, [] => True
  | before, c :: calls =>
    (c.key sha256 = key → ∀ p ∈ before.find? fun p => p.key sha256 = key,
      p.fps sha256 <+: c.fps sha256 ∧ c.now - p.now < ttl ∧
        depth (before.map (·.key sha256)) key < capacity) ∧
    Steady capacity ttl key (c :: before) calls

instance Steady.decidable (capacity ttl : Nat) (key : StitchKey) : ∀ before calls : List AssignCall,
    Decidable (Steady sha256 capacity ttl key before calls)
  | _, [] => isTrue trivial
  | before, c :: calls =>
    have : Decidable (Steady sha256 capacity ttl key (c :: before) calls) :=
      Steady.decidable capacity ttl key (c :: before) calls
    inferInstanceAs (Decidable (_ ∧ _))

/-- The log of the calls before. -/
def LogOf (log : StitchLog) (before : List AssignCall) : Prop :=
  List.Forall₂ (fun e p => ∃ answer, e = AssignCall.left sha256 p answer) log before

theorem LogOf.keys_eq {log : StitchLog} {before : List AssignCall} (h : LogOf sha256 log before) :
    keys log = before.map (·.key sha256) := by
  induction h with
  | nil => rfl
  | cons he _ ih =>
    obtain ⟨answer, rfl⟩ := he
    show _ :: keys _ = _ :: List.map _ _
    rw [ih]
    rfl

/-- The last call of a key left its messages and its time. -/
theorem LogOf.last_call {log : StitchLog} {before : List AssignCall} (h : LogOf sha256 log before)
    {key : StitchKey} {e : ChainState} (he : last log key = some e) :
    ∃ p, before.find? (fun p => p.key sha256 = key) = some p ∧
      e.chain = p.fps sha256 ∧ e.last_used = p.now := by
  induction h with
  | nil => cases he
  | @cons entry p log before hentry _ ih =>
    obtain ⟨answer, rfl⟩ := hentry
    by_cases hkey : p.key sha256 = key
    · subst hkey
      rw [AssignCall.left, last_cons_self] at he
      cases he
      exact ⟨p, List.find?_cons_of_pos (by simp), rfl, rfl⟩
    · rw [AssignCall.left, last_cons_ne (Ne.symm hkey)] at he
      obtain ⟨q, hq, hchain, hnow⟩ := ih he
      exact ⟨q, by rw [List.find?_cons_of_neg (by simpa using hkey), hq], hchain, hnow⟩

section steady

variable {capacity ttl : Nat} {key : StitchKey} (salt : Bytes)

/-- A call of a steady conversation goes on in its session, or opens one. -/
theorem steady_answer {log : StitchLog} {before : List AssignCall} (hlog : LogOf sha256 log before)
    (mints : Nat) {c : AssignCall} {calls : List AssignCall} (hkey : c.key sha256 = key)
    (hsteady : Steady sha256 capacity ttl key before (c :: calls)) :
    let answer := (answer_from_log sha256 capacity ttl salt log mints c).1
    answer.breakpoint = false ∧ ∀ e, last log key = some e → answer.session_id = e.session_id := by
  intro answer
  have hanswer : answer = (answer_from_log sha256 capacity ttl salt log mints c).1 := rfl
  unfold answer_from_log recalled at hanswer
  dsimp only at hanswer
  rw [hkey] at hanswer
  cases hlast : last log key with
  | none =>
    have hnone : recollect capacity (ChainState.idle_below ttl c.now) log key = none := by
      rw [recollect, hlast]
      rfl
    rw [hnone] at hanswer
    rw [hanswer]
    exact ⟨rfl, fun _ he => by cases he⟩
  | some e =>
    obtain ⟨p, hp, hchain, hused⟩ := hlog.last_call sha256 hlast
    obtain ⟨hextends, hidle, hdepth⟩ := hsteady.1 hkey p hp
    have hsome : recollect capacity (ChainState.idle_below ttl c.now) log key = some e := by
      refine recollect_some hlast (decide_eq_true ?_) ?_
      · rw [hused]
        exact hidle
      · rw [hlog.keys_eq]
        exact hdepth
    rw [hsome] at hanswer
    dsimp only at hanswer
    rw [hchain, if_pos hextends] at hanswer
    rw [hanswer]
    exact ⟨rfl, fun e' he' => congrArg ChainState.session_id (Option.some.inj he')⟩

/-- The rest of a steady conversation stays in one session: the one it is in,
    if it has begun. -/
theorem steady_run : ∀ (calls before : List AssignCall) (log : StitchLog) (mints : Nat),
    LogOf sha256 log before → Steady sha256 capacity ttl key before calls →
    ∃ id, (∀ e, last log key = some e → e.session_id = id) ∧
      ∀ entry ∈ run_from_log sha256 capacity ttl salt log mints calls,
        entry.1.key sha256 = key → entry.2 = ⟨id, false⟩ := by
  intro calls
  induction calls with
  | nil =>
    intro before log mints _ _
    cases hlast : last log key with
    | none => exact ⟨"", fun _ he => (by cases he), fun _ hmem => absurd hmem List.not_mem_nil⟩
    | some e =>
      exact ⟨e.session_id, fun _ he => congrArg ChainState.session_id (Option.some.inj he).symm,
        fun _ hmem => absurd hmem List.not_mem_nil⟩
  | cons c calls ih =>
    intro before log mints hlog hsteady
    let answer := answer_from_log sha256 capacity ttl salt log mints c
    obtain ⟨id, hid, hrest⟩ := ih (c :: before) (c.left sha256 answer.1 :: log) answer.2
      (.cons ⟨answer.1, rfl⟩ hlog) hsteady.2
    by_cases hkey : c.key sha256 = key
    · -- what it leaves now carries the id
      obtain ⟨hmark, hsame⟩ := steady_answer sha256 salt hlog mints hkey hsteady
      have hleft : answer.1.session_id = id := by
        refine hid (c.left sha256 answer.1).2 ?_
        rw [← hkey]
        exact last_cons_self log _ _
      refine ⟨id, fun e he => (hsame e he).symm.trans hleft, fun entry hmem hentry => ?_⟩
      rcases List.mem_cons.mp hmem with rfl | hmem
      · show answer.1 = ⟨id, false⟩
        rw [← hleft, ← hmark]
      · exact hrest entry hmem hentry
    · refine ⟨id, fun e he => hid e ?_, fun entry hmem hentry => ?_⟩
      · rw [AssignCall.left, last_cons_ne (Ne.symm hkey)]
        exact he
      · rcases List.mem_cons.mp hmem with rfl | hmem
        · exact absurd hentry hkey
        · exact hrest entry hmem hentry

variable {salt}

/-- **One conversation, one session**: a client that sends its messages again
    with every request, whose pauses stay below the TTL and which is never
    crowded out by as many other conversations as the table holds, is given
    one session id from its first request to its last, and no breakpoint. -/
theorem steady_one_session {capacity ttl_ms clock : Nat} {order : Nat → StitchOrder}
    {calls : List AssignCall} (htimes : calls.Pairwise fun a b => a.now < b.now)
    (hsteady : Steady sha256 (max capacity 1) (1000000 * max ttl_ms 1) key [] calls) :
    ∃ id, ∀ entry ∈ run_stitcher sha256 order
        (PrefixStitcher.with_limits capacity ttl_ms clock salt) (calls.map .assign),
      entry.1.key sha256 = key → entry.2 = ⟨id, false⟩ := by
  have hrun := run_from_log_eq sha256 calls order _ 0 [] 0
    (fresh_after_log capacity ttl_ms clock salt) (fun c _ => Nat.zero_le c.now) htimes
  obtain ⟨id, -, hall⟩ := steady_run sha256 salt calls [] [] 0 .nil hsteady
  rw [with_limits_ttl] at hrun
  rw [hrun]
  exact ⟨id, hall⟩

end steady

/-- A conversation with another one in between, and a table for two. -/
theorem steady_one_session_shared :
    let first : AssignCall := ⟨"scope", [.string "sys", .string "head-1"], 0⟩
    let other : AssignCall := ⟨"scope", [.string "sys", .string "head-2"], 1⟩
    let again : AssignCall := ⟨"scope", [.string "sys", .string "head-1", .string "more"], 2⟩
    ∃ id, ∀ entry ∈ run_stitcher Sha256.digest (fun _ => Lru.IterOrder.stored)
        (PrefixStitcher.with_limits 2 20 0 []) ([first, other, again].map .assign),
      entry.1.key Sha256.digest = first.key Sha256.digest → entry.2 = ⟨id, false⟩ :=
  steady_one_session Sha256.digest (by decide) (by decide +kernel)

end AgentTraceGateway
