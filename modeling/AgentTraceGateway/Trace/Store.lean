import AgentTraceGateway.Lib.Bytes
import AgentTraceGateway.Model

/-! # Capture and the Record Store

  Captured bodies are bounded before they enter a record, and records wait in
  a bounded in-process store: over budget the oldest go first. The lock
  meters of the store are not modelled. -/

namespace AgentTraceGateway

/-! ### Capture caps -/

/-- The cap on verbatim content. -/
structure CaptureCap where
  max_bytes : Nat
  pos : 1 ≤ max_bytes

namespace CaptureCap

/-- `new` and `set_max`: a cap is at least one byte. -/
def of_max (max_bytes : Nat) : CaptureCap := ⟨max max_bytes 1, raised_pos max_bytes⟩

/-- A UTF-8 continuation byte. -/
def is_continuation (b : UInt8) : Bool := b &&& 0xC0 == 0x80

/-- Back up from an offset to a character boundary. -/
def char_boundary (data : Bytes) : Nat → Nat
  | 0 => 0
  | n + 1 => if (data[n + 1]?).any is_continuation then char_boundary data n else n + 1

/-- Where the marker tells how much was cut. -/
def truncation_marker (original captured : Nat) : String :=
  "[truncated:original_bytes=" ++ toString original ++ ",captured_bytes=" ++ toString captured ++ "]"

/-- Bound captured content: verbatim up to the cap, then the marker. -/
def bound (cap : CaptureCap) (data : Bytes) : String :=
  if data.length ≤ cap.max_bytes then String.ofList (utf8_lossy data)
  else
    let stop := char_boundary data cap.max_bytes
    String.ofList (utf8_lossy (data.take stop)) ++ truncation_marker data.length stop

end CaptureCap

/-! ### The store -/

/-- `usize` addition that stops at the largest value. -/
def saturating_add (a b : Nat) : Nat := min (a + b) (2 ^ 64 - 1)

/-- Payload bytes of a record, as the budget counts them. -/
def estimate (record : TurnRecord) : Nat :=
  Text.len record.raw_request + Text.len record.raw_response + Text.len record.user_input
    + Text.len record.final_output

/-- The store: at most `max_records` records and `max_bytes` payload bytes. -/
structure TraceStore where
  deque : List TurnRecord
  estimated_bytes : Nat
  dropped : UInt64
  max_records : Nat
  max_bytes : Nat
  records_pos : 1 ≤ max_records
  bytes_pos : 1 ≤ max_bytes

namespace TraceStore

def with_caps (max_records max_bytes : Nat) : TraceStore where
  deque := []
  estimated_bytes := 0
  dropped := 0
  max_records := max max_records 1
  max_bytes := max max_bytes 1
  records_pos := raised_pos max_records
  bytes_pos := raised_pos max_bytes

def set_caps (store : TraceStore) (max_records max_bytes : Nat) : TraceStore :=
  { store with
    max_records := max max_records 1
    max_bytes := max max_bytes 1
    records_pos := raised_pos max_records
    bytes_pos := raised_pos max_bytes }

/-- Drop the oldest records until one of `size` bytes fits, or none is left. -/
def make_room (max_records max_bytes size : Nat) :
    List TurnRecord → Nat → UInt64 → List TurnRecord × Nat × UInt64
  | [], bytes, dropped => ([], bytes, dropped)
  | old :: rest, bytes, dropped =>
    if max_records ≤ (old :: rest).length ∨ max_bytes < saturating_add bytes size then
      make_room max_records max_bytes size rest (bytes - estimate old) (dropped + 1)
    else (old :: rest, bytes, dropped)

def push (store : TraceStore) (record : TurnRecord) : TraceStore :=
  let size := estimate record
  let (deque, bytes, dropped) := make_room store.max_records store.max_bytes size
    store.deque store.estimated_bytes store.dropped
  { store with
    deque := deque ++ [record]
    estimated_bytes := saturating_add bytes size
    dropped := dropped }

end TraceStore

example : (CaptureCap.of_max 4).bound "1234567890".toUTF8.data.toList
    = "1234[truncated:original_bytes=10,captured_bytes=4]" := by decide

end AgentTraceGateway
