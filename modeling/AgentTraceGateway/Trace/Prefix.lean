import AgentTraceGateway.Json
import AgentTraceGateway.Lib.Lru

/-! # Prefix Stitching

  Requests without a session id are stitched into synthetic sessions. The
  stitcher keeps one chain of message fingerprints for each credential scope
  and conversation head. A request that extends its chain stays in the
  session; one that diverges from it opens a new segment with a breakpoint
  mark; a head without a chain opens a new session.

  Chains leave the table by expiry, swept at most once in an interval and
  checked on every lookup, and by eviction of the least recently used one.
  The iteration order of the table is a parameter of each call, times are
  nanoseconds and SHA-256 is a parameter. The lock-metering counters are not
  modelled. -/

namespace AgentTraceGateway

def FINGERPRINT_KIND : String := "pfx"

def SWEEP_INTERVAL_MS : Nat := 30000

/-- One stitched conversation. -/
structure ChainState where
  chain : List Digest
  session_id : String
  last_used : Nat
  deriving DecidableEq

/-- Used within the last `ttl` nanoseconds (`Instant::duration_since`
    saturates). -/
def ChainState.idle_below (ttl now : Nat) (entry : ChainState) : Bool :=
  now - entry.last_used < ttl

/-- Credential scope and conversation head. -/
abbrev StitchKey : Type := String × String

abbrev StitchOrder : Type := Lru.IterOrder StitchKey ChainState

/-- The stitcher. Both bounds are at least one, whichever way they are set. -/
structure PrefixStitcher where
  states : Lru.Table StitchKey ChainState
  capacity : Nat
  ttl_ms : Nat
  next_nonce : UInt64
  expired : UInt64
  evicted : UInt64
  clock : Nat
  last_sweep_ms : Nat
  sweeps : UInt64
  salt : Bytes
  capacity_pos : 1 ≤ capacity
  ttl_pos : 1 ≤ ttl_ms

/-- What `assign` answers: the session id and the breakpoint mark. -/
structure Assigned where
  session_id : String
  breakpoint : Bool
  deriving DecidableEq, Repr

namespace PrefixStitcher

def with_limits (capacity ttl_ms clock : Nat) (salt : Bytes) : PrefixStitcher where
  states := ∅
  capacity := max capacity 1
  ttl_ms := max ttl_ms 1
  next_nonce := 0
  expired := 0
  evicted := 0
  clock := clock
  last_sweep_ms := 0
  sweeps := 0
  salt := salt
  capacity_pos := raised_pos capacity
  ttl_pos := raised_pos ttl_ms

/-- Re-seed the bounds. The table is trimmed by the next insert only. -/
def set_limits (st : PrefixStitcher) (capacity ttl_ms : Nat) : PrefixStitcher :=
  { st with
    capacity := max capacity 1
    ttl_ms := max ttl_ms 1
    capacity_pos := raised_pos capacity
    ttl_pos := raised_pos ttl_ms }

/-- The TTL in nanoseconds. -/
def ttl (st : PrefixStitcher) : Nat := 1000000 * max st.ttl_ms 1

/-- Idle for less than the TTL. -/
def is_live (st : PrefixStitcher) (now : Nat) (entry : ChainState) : Bool :=
  entry.idle_below st.ttl now

/-- Milliseconds since the clock anchor. -/
def now_ms (st : PrefixStitcher) (now : Nat) : Nat := ((now - st.clock) / 1000000) % 2 ^ 64

/-- The table-wide expiry pass, at most once in an interval. -/
def sweep_if_due (st : PrefixStitcher) (now : Nat) : PrefixStitcher :=
  if SWEEP_INTERVAL_MS ≤ st.now_ms now - st.last_sweep_ms then
    let kept := Lru.retain (st.is_live now) st.states
    { st with
      states := kept
      expired := st.expired + UInt64.ofNat (st.states.entries.length - kept.entries.length)
      last_sweep_ms := st.now_ms now
      sweeps := st.sweeps + 1 }
  else st

/-- An expired chain is dead to the request that looks it up. -/
def drop_expired (st : PrefixStitcher) (key : StitchKey) (now : Nat) : PrefixStitcher :=
  if (st.states.lookup key).any fun entry => !st.is_live now entry then
    { st with states := st.states.erase key }
  else st

/-- Evict down to the capacity before an insert. -/
def evict_to_capacity (st : PrefixStitcher) (order : StitchOrder) : PrefixStitcher :=
  let kept := Lru.evict ChainState.last_used order st.capacity st.states
  { st with
    states := kept
    evicted := st.evicted + UInt64.ofNat (st.states.entries.length - kept.entries.length) }

end PrefixStitcher

section stitching

-- The digest function, `Sha256::digest`.
variable (sha256 : Bytes → Digest)

def message_fingerprint (m : Value) : Digest := sha256 (utf8_bytes m.to_string)

/-- Fingerprints of the first two messages, as one hexadecimal digest. -/
def head_key (messages : List Value) : String :=
  hex_encode (sha256 ((messages.take 2).flatMap fun m => (message_fingerprint sha256 m).val)).val

def fps_concat (fps : List Digest) : Bytes := fps.flatMap (·.val)

/-- What is hashed into a session id. -/
def mint_input (salt seed : Bytes) (nonce : UInt64) : Bytes :=
  utf8_bytes FINGERPRINT_KIND ++ salt ++ seed ++ be_bytes 8 nonce.toNat

/-- The first 32 hexadecimal characters of a digest. -/
def short_digest (input : Bytes) : String :=
  String.ofList ((hex_chars (sha256 input).val).take 32)

/-- The session id a nonce gives. -/
def mint (salt seed : Bytes) (nonce : UInt64) : String :=
  FINGERPRINT_KIND ++ ":" ++ short_digest sha256 (mint_input salt seed nonce)

namespace PrefixStitcher

/-- A new session id; the nonce moves on. -/
def new_session_id (st : PrefixStitcher) (seed : Bytes) : String × PrefixStitcher :=
  (mint sha256 st.salt seed st.next_nonce, { st with next_nonce := st.next_nonce + 1 })

/-- Extend, break or open: what happens to a request once expired chains are
    out of the way. -/
def classify (st : PrefixStitcher) (order : StitchOrder) (key : StitchKey)
    (fps : List Digest) (now : Nat) : Assigned × PrefixStitcher :=
  match st.states.lookup key with
  | some entry =>
    if entry.chain.length ≤ fps.length ∧ fps.take entry.chain.length = entry.chain then
      (⟨entry.session_id, false⟩,
        { st with states := st.states.insert key ⟨fps, entry.session_id, now⟩ })
    else
      let (new_session, st) := st.new_session_id sha256 (fps_concat fps)
      (⟨new_session, true⟩, { st with states := st.states.insert key ⟨fps, new_session, now⟩ })
  | none =>
    let st := st.evict_to_capacity order
    let (session_id, st) := st.new_session_id sha256 (fps_concat fps)
    (⟨session_id, false⟩, { st with states := st.states.insert key ⟨fps, session_id, now⟩ })

/-- The critical section of `assign`. -/
def assign_locked (st : PrefixStitcher) (order : StitchOrder) (scope head : String)
    (fps : List Digest) (now : Nat) : Assigned × PrefixStitcher :=
  let st := st.sweep_if_due now
  let key := (scope, head)
  let st := st.drop_expired key now
  st.classify sha256 order key fps now

/-- Classify one credential-scoped request into a synthetic session. -/
def assign (st : PrefixStitcher) (order : StitchOrder) (scope : String)
    (messages : List Value) (now : Nat) : Assigned × PrefixStitcher :=
  st.assign_locked sha256 order scope (head_key sha256 messages)
    (messages.map (message_fingerprint sha256)) now

end PrefixStitcher

/-! ### Histories -/

/-- One request as `assign` sees it. -/
structure AssignCall where
  scope : String
  messages : List Value
  now : Nat

def AssignCall.key (c : AssignCall) : StitchKey := (c.scope, head_key sha256 c.messages)

def AssignCall.fps (c : AssignCall) : List Digest := c.messages.map (message_fingerprint sha256)

/-- The messages as `serde_json` prints them. -/
def AssignCall.texts (c : AssignCall) : List String := c.messages.map Value.to_string

/-- What can happen to a stitcher. -/
inductive StitchOp where
  | assign (c : AssignCall)
  | set_limits (capacity ttl_ms : Nat)

/-- Run a history through a request handler. `order n` is the table's
    iteration order during the `n`-th operation; the result lists each call
    with its answer. -/
def run_history (handle : PrefixStitcher → StitchOrder → AssignCall → Assigned × PrefixStitcher) :
    (Nat → StitchOrder) → PrefixStitcher → List StitchOp → List (AssignCall × Assigned)
  | _, _, [] => []
  | order, st, .assign c :: ops =>
    let answer := handle st (order 0) c
    (c, answer.1) :: run_history handle (fun n => order (n + 1)) answer.2 ops
  | order, st, .set_limits capacity ttl_ms :: ops =>
    run_history handle (fun n => order (n + 1)) (st.set_limits capacity ttl_ms) ops

/-- A stitcher's history. -/
def run_stitcher : (Nat → StitchOrder) → PrefixStitcher → List StitchOp →
    List (AssignCall × Assigned) :=
  run_history fun st order c => st.assign sha256 order c.scope c.messages c.now

end stitching

end AgentTraceGateway
