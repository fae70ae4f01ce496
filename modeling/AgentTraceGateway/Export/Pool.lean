import AgentTraceGateway.Lib.Run
import Mathlib.Algebra.Group.Nat.Defs
import Mathlib.Data.List.Count

/-! # The Export Pool

  Finished turns are queued by `submit`, collected into batches by one
  batcher task and flushed by a bounded pool of flush tasks. Every record
  that reaches the queue, or is refused by it, is meant to end in exactly one
  of three counters.

  The model is a step function over one state: submitters, reloads, the
  batcher and the flush tasks take turns in any order. A step is one atomic
  operation, or a drop of a task's bracket with the permit it holds. Time and
  the network are events: a receive may tick at any moment, a flush decision
  sees the interval as elapsed or not, and a flush task answers, fails or
  panics. Machine arithmetic wraps, as in a release build. The ledger records which records each counter was moved for; the
  code has only the counters. -/

namespace AgentTraceGateway

def QUEUE_CAPACITY : Nat := 1024

def BATCH_MAX : Nat := 32

/-- `Semaphore::MAX_PERMITS`. -/
def MAX_PERMITS : Nat := 2 ^ 61 - 1

/-! ### State -/

/-- Where a flush task stands. `exported` and `failed`: the batch is booked
    and the task has not ended. -/
inductive FlushPhase where
  | sending
  | exported
  | failed
  | ended
  deriving DecidableEq, Repr

/-- A batch inside the flush pool. -/
structure FlushTask (ρ : Type) where
  batch : List ρ
  phase : FlushPhase
  deriving DecidableEq, Repr

/-- Where the batcher stands in `export_loop`. A batch in hand is on its way
    to a target or a permit; `tail` is the one shipped after the channel
    closed. -/
inductive BatcherPc (ρ : Type) where
  | recv
  | settle
  | decide_flush
  | load_target (batch : List ρ) (tail : Bool)
  | acquire (batch : List ρ) (tail : Bool)
  | reap
  | join
  | returned
  | died
  deriving DecidableEq, Repr

structure ExportHealth where
  exported : UInt64 := 0
  failed : UInt64 := 0
  dropped : UInt64 := 0
  panicked : UInt64 := 0
  inflight : UInt64 := 0
  deriving DecidableEq, Repr

/-- The records behind the counters, and those `submit` took or refused. -/
structure Ledger (ρ : Type) where
  submitted : List ρ := []
  exported : List ρ := []
  failed : List ρ := []
  dropped : List ρ := []
  deriving DecidableEq, Repr

/-- How far an `apply_target` has come. -/
inductive ReloadPhase where
  | write
  | enable (now_enabled : Bool)
  | swap
  | queue_delta (delta : Int64)
  deriving DecidableEq, Repr

/-- An `apply_target` in progress. -/
structure Reload (τ : Type) where
  new_target : Option τ
  new_width : UInt64
  phase : ReloadPhase
  deriving DecidableEq, Repr

/-- The exporter, its batcher and its flush pool. `checked` holds the records
    of submitters past the `enabled` check. -/
structure Pool (ρ τ : Type) where
  checked : List ρ := []
  reloads : List (Reload τ) := []
  queue : List ρ := []
  senders_gone : Bool := false
  enabled : Bool
  target : Option τ
  max_inflight : UInt64
  sema_delta : Int64 := 0
  permits : Nat
  pending_forget : UInt64 := 0
  buf : List ρ := []
  pc : BatcherPc ρ := .recv
  tasks : List (FlushTask ρ) := []
  health : ExportHealth := {}
  ledger : Ledger ρ := {}
  deriving DecidableEq, Repr

variable {ρ τ : Type}

/-- `Exporter::start`; `Semaphore::new` panics beyond its limit. -/
def Pool.start (target : Option τ) (max_inflight : UInt64) : Option (Pool ρ τ) :=
  let width := max max_inflight 1
  if MAX_PERMITS < width.toNat then none
  else some {
    enabled := target.isSome
    target := target
    max_inflight := width
    permits := width.toNat }

namespace Pool

/-! ### Booking -/

def book_exported (s : Pool ρ τ) (batch : List ρ) : Pool ρ τ :=
  { s with
    health := { s.health with exported := s.health.exported + UInt64.ofNat batch.length }
    ledger := { s.ledger with exported := s.ledger.exported ++ batch } }

def book_failed (s : Pool ρ τ) (batch : List ρ) : Pool ρ τ :=
  { s with
    health := { s.health with failed := s.health.failed + UInt64.ofNat batch.length }
    ledger := { s.ledger with failed := s.ledger.failed ++ batch } }

def book_dropped (s : Pool ρ τ) (batch : List ρ) : Pool ρ τ :=
  { s with
    health := { s.health with dropped := s.health.dropped + UInt64.ofNat batch.length }
    ledger := { s.ledger with dropped := s.ledger.dropped ++ batch } }

def set_phase (s : Pool ρ τ) (i : Nat) (t : FlushTask ρ) (phase : FlushPhase) : Pool ρ τ :=
  { s with tasks := s.tasks.set i { t with phase := phase } }

/-- A flush task is gone: the gauge falls and its permit is free again. -/
def release (s : Pool ρ τ) : Pool ρ τ :=
  { s with
    permits := s.permits + 1
    health := { s.health with inflight := s.health.inflight - 1 } }

/-- `Drop for FlushBooking` while unwinding. -/
def booking_drop (s : Pool ρ τ) (batch : List ρ) : Pool ρ τ :=
  let s := (s.release).book_failed batch
  { s with health := { s.health with panicked := s.health.panicked + 1 } }

/-! ### Submitters and reloads -/

/-- `submit`, first half: a disabled exporter takes nothing. -/
def submit_check (s : Pool ρ τ) (r : ρ) : Option (Pool ρ τ) :=
  if s.senders_gone then none
  else if s.enabled then some { s with checked := s.checked ++ [r] }
  else some s

/-- The batcher's receiver is gone, so the channel is closed to senders. -/
def rx_gone (s : Pool ρ τ) : Bool :=
  match s.pc with
  | .returned => true
  | .died => true
  | _ => false

/-- `submit`, second half, of submitter `i`: `try_send`. -/
def submit_send (s : Pool ρ τ) (i : Nat) : Option (Pool ρ τ) :=
  match s.checked[i]? with
  | none => none
  | some r =>
    let s := { s with
      checked := s.checked.eraseIdx i
      ledger := { s.ledger with submitted := s.ledger.submitted ++ [r] } }
    -- `Full` and `Closed` both count as dropped
    if s.rx_gone ∨ QUEUE_CAPACITY ≤ s.queue.length then
      some (s.book_dropped [r])
    else some { s with queue := s.queue ++ [r] }

/-- The next operation of reload `i`. -/
def reload_step (s : Pool ρ τ) (i : Nat) : Option (Pool ρ τ) :=
  match s.reloads[i]? with
  | none => none
  | some reload =>
    match reload.phase with
    | .write =>
      let phase := ReloadPhase.enable reload.new_target.isSome
      some { s with
        target := reload.new_target
        reloads := s.reloads.set i { reload with phase := phase } }
    | .enable now_enabled =>
      some { s with
        enabled := now_enabled
        reloads := s.reloads.set i { reload with phase := .swap } }
    | .swap =>
      let new_width := max reload.new_width 1
      let phase := ReloadPhase.queue_delta (new_width.toInt64 - s.max_inflight.toInt64)
      some { s with
        max_inflight := new_width
        reloads := s.reloads.set i { reload with phase := phase } }
    | .queue_delta delta =>
      some { s with
        sema_delta := s.sema_delta + delta
        reloads := s.reloads.eraseIdx i }

/-- Every exporter handle is dropped: no submitter and no reload is left. -/
def shutdown (s : Pool ρ τ) : Option (Pool ρ τ) :=
  if s.checked.isEmpty ∧ s.reloads.isEmpty then some { s with senders_gone := true } else none

/-! ### The batcher -/

/-- The receive ends: a record, a closed channel, or the tick. -/
def recv_record (s : Pool ρ τ) : Option (Pool ρ τ) :=
  match s.pc, s.queue with
  | .recv, r :: queue => some { s with queue := queue, buf := s.buf ++ [r], pc := .settle }
  | _, _ => none

def recv_closed (s : Pool ρ τ) : Option (Pool ρ τ) :=
  match s.pc, s.queue with
  | .recv, [] =>
    if s.senders_gone then
      -- the tail batch, if there is one, takes the same bounded path
      if s.buf.isEmpty then some { s with pc := .join }
      else some { s with buf := [], pc := .load_target s.buf true }
    else none
  | _, _ => none

def recv_tick (s : Pool ρ τ) : Option (Pool ρ τ) :=
  match s.pc with
  | .recv => some { s with pc := .settle }
  | _ => none

/-- `forget_permits` as far as permits are free. -/
def forget (s : Pool ρ τ) : Pool ρ τ :=
  let n := min s.permits s.pending_forget.toNat
  { s with permits := s.permits - n, pending_forget := s.pending_forget - UInt64.ofNat n }

/-- The batcher panics: its receiver, buffer and flush tasks go with it. -/
def die (s : Pool ρ τ) : Pool ρ τ :=
  let running := s.tasks.filter fun t => t.phase ≠ .ended
  running.foldl (fun s t => s.booking_drop t.batch)
    { s with queue := [], buf := [], tasks := [], pc := .died }

/-- Apply the queued width change. `add_permits` panics beyond the limit: it
    asserts it of the growth, adds the permits, and asserts it of the sum. -/
def settle (s : Pool ρ τ) : Option (Pool ρ τ) :=
  match s.pc with
  | .settle =>
    let delta := s.sema_delta
    let s := { s with sema_delta := 0, pc := .decide_flush }
    if 0 < delta then
      if MAX_PERMITS < delta.toUInt64.toNat then some s.die
      else
        let s := { s with permits := s.permits + delta.toUInt64.toNat }
        if MAX_PERMITS < s.permits then some s.die else some s.forget
    else if delta < 0 then
      some ({ s with pending_forget := s.pending_forget + (-delta).toUInt64 } : Pool ρ τ).forget
    else some s.forget
  | _ => none

/-- Take the buffer as a batch, unless there is nothing to flush yet. -/
def decide_flush (s : Pool ρ τ) (elapsed : Bool) : Option (Pool ρ τ) :=
  match s.pc with
  | .decide_flush =>
    if s.buf.isEmpty ∨ elapsed = false ∧ s.buf.length < BATCH_MAX then some { s with pc := .recv }
    else some { s with buf := [], pc := .load_target s.buf false }
  | _ => none

/-- Where the batcher goes once a batch is off its hands. -/
def after_batch (tail : Bool) : BatcherPc ρ := if tail then .join else .reap

/-- Load the target once for the batch; without one the batch is dropped. -/
def load_target (s : Pool ρ τ) : Option (Pool ρ τ) :=
  match s.pc with
  | .load_target batch tail =>
    match s.target with
    | some _ => some { s with pc := .acquire batch tail }
    | none => some { s.book_dropped batch with pc := after_batch tail }
  | _ => none

/-- `dispatch_batch`: a permit is free, the batch becomes a flush task. The
    semaphore is never closed. -/
def acquire (s : Pool ρ τ) : Option (Pool ρ τ) :=
  match s.pc with
  | .acquire batch tail =>
    if 0 < s.permits then
      some { s with
        permits := s.permits - 1
        pc := after_batch tail
        tasks := s.tasks ++ [⟨batch, .sending⟩]
        health := { s.health with inflight := s.health.inflight + 1 } }
    else none
  | _ => none

/-- Drop the outputs of finished tasks. -/
def reap (s : Pool ρ τ) : Option (Pool ρ τ) :=
  match s.pc with
  | .reap => some { s with pc := .recv, tasks := s.tasks.filter fun t => t.phase ≠ .ended }
  | _ => none

/-- `join_next` until the pool is empty; then the loop returns. -/
def join (s : Pool ρ τ) : Option (Pool ρ τ) :=
  match s.pc with
  | .join =>
    if s.tasks.all fun t => t.phase = .ended then some { s with pc := .returned, tasks := [] }
    else none
  | _ => none

/-! ### Flush tasks -/

/-- The answer is a 2xx, or anything else. -/
def flush_answer (s : Pool ρ τ) (i : Nat) (success : Bool) : Option (Pool ρ τ) :=
  match s.tasks[i]? with
  | some t =>
    match t.phase with
    | .sending =>
      if success then some ((s.set_phase i t .exported).book_exported t.batch)
      else some ((s.set_phase i t .failed).book_failed t.batch)
    | _ => none
  | none => none

/-- The end of `flush_batch`: the booking is disarmed. -/
def flush_end (s : Pool ρ τ) (i : Nat) : Option (Pool ρ τ) :=
  match s.tasks[i]? with
  | some t =>
    if t.phase = .exported ∨ t.phase = .failed then some (s.set_phase i t .ended).release
    else none
  | none => none

/-- A panic in `flush_batch`: before the answer, or after the booking, as in
    the `eprintln!` of the failure arm when stderr cannot be written. -/
def flush_panic (s : Pool ρ τ) (i : Nat) : Option (Pool ρ τ) :=
  match s.tasks[i]? with
  | some t =>
    if t.phase = .ended then none else some ((s.set_phase i t .ended).booking_drop t.batch)
  | none => none

end Pool

/-! ### Events -/

inductive ExportEvent (ρ τ : Type) where
  | submit_check (r : ρ)
  | submit_send (i : Nat)
  | apply_target (new_target : Option τ) (max_inflight : UInt64)
  | reload_step (i : Nat)
  | shutdown
  | recv_record
  | recv_closed
  | recv_tick
  | settle
  | decide_flush (elapsed : Bool)
  | load_target
  | acquire
  | reap
  | join
  | flush_answer (i : Nat) (success : Bool)
  | flush_end (i : Nat)
  | flush_panic (i : Nat)
  deriving DecidableEq, Repr

/-- One step of the whole exporter. -/
def export_step (s : Pool ρ τ) : ExportEvent ρ τ → Option (Pool ρ τ)
  | .submit_check r => s.submit_check r
  | .submit_send i => s.submit_send i
  | .apply_target new_target max_inflight =>
    if s.senders_gone then none
    else some { s with reloads := s.reloads ++ [⟨new_target, max_inflight, .write⟩] }
  | .reload_step i => s.reload_step i
  | .shutdown => s.shutdown
  | .recv_record => s.recv_record
  | .recv_closed => s.recv_closed
  | .recv_tick => s.recv_tick
  | .settle => s.settle
  | .decide_flush elapsed => s.decide_flush elapsed
  | .load_target => s.load_target
  | .acquire => s.acquire
  | .reap => s.reap
  | .join => s.join
  | .flush_answer i success => s.flush_answer i success
  | .flush_end i => s.flush_end i
  | .flush_panic i => s.flush_panic i

/-! ### The contract -/

/-- The records a task still owes a booking for. -/
def FlushTask.unbooked (t : FlushTask ρ) : List ρ :=
  match t.phase with
  | .sending => t.batch
  | _ => []

/-- The batch in the batcher's hand. -/
def BatcherPc.batch : BatcherPc ρ → List ρ
  | .load_target batch _ => batch
  | .acquire batch _ => batch
  | _ => []

/-- Everywhere a record can be: the queue, the batcher's buffer and hand, an
    in-flight batch, and the three counters. -/
def Pool.places (s : Pool ρ τ) : List ρ :=
  s.queue ++ s.buf ++ s.pc.batch ++ s.tasks.flatMap FlushTask.unbooked
    ++ s.ledger.exported ++ s.ledger.failed ++ s.ledger.dropped

/-- Every submitted record is in exactly one place, the counters count it,
    and once the loop has returned they account for every submit. -/
structure Conserved (s : Pool ρ τ) : Prop where
  one_place : s.places.Perm s.ledger.submitted
  exported : s.health.exported = UInt64.ofNat s.ledger.exported.length
  failed : s.health.failed = UInt64.ofNat s.ledger.failed.length
  dropped : s.health.dropped = UInt64.ofNat s.ledger.dropped.length
  returned : s.pc = .returned →
    s.health.exported + s.health.failed + s.health.dropped
        = UInt64.ofNat s.ledger.submitted.length ∧
      s.health.inflight = 0

/-- The semaphore takes the queued growth. -/
def Pool.TakesGrowth (s : Pool ρ τ) : Prop :=
  0 < s.sema_delta → s.permits + s.sema_delta.toUInt64.toNat ≤ MAX_PERMITS

instance (s : Pool ρ τ) : Decidable s.TakesGrowth := by
  unfold Pool.TakesGrowth
  infer_instance

/-- The steps that go as the booking intends: no flush task panics once its
    batch is booked, and the semaphore takes the queued width change. -/
def BookedOnce (s : Pool ρ τ) : ExportEvent ρ τ → Prop
  | .flush_panic i => ∀ t, s.tasks[i]? = some t → t.phase = .sending
  | .settle => s.TakesGrowth
  | _ => True

instance (s : Pool ρ τ) (e : ExportEvent ρ τ) : Decidable (BookedOnce s e) :=
  match e with
  | .flush_panic i =>
    decidable_of_iff (∀ t ∈ s.tasks[i]?, t.phase = .sending) (by simp [BookedOnce])
  | .settle => inferInstanceAs (Decidable s.TakesGrowth)
  | .submit_check _ | .submit_send _ | .apply_target _ _ | .reload_step _ | .shutdown
  | .recv_record | .recv_closed | .recv_tick | .decide_flush _ | .load_target | .acquire
  | .reap | .join | .flush_answer _ _ | .flush_end _ => isTrue trivial

/-! ### A pass over the queued delta -/

/-- What the batcher's pass can do to the width. -/
inductive Settles (s : Pool ρ τ) : Pool ρ τ → Prop where
  | refused : 0 < s.sema_delta → MAX_PERMITS < s.sema_delta.toUInt64.toNat →
      Settles s (Pool.die { s with sema_delta := 0, pc := .decide_flush })
  | overfull : 0 < s.sema_delta → s.sema_delta.toUInt64.toNat ≤ MAX_PERMITS →
      MAX_PERMITS < s.permits + s.sema_delta.toUInt64.toNat →
      Settles s (Pool.die { s with
        sema_delta := 0
        pc := .decide_flush
        permits := s.permits + s.sema_delta.toUInt64.toNat })
  | grown : 0 < s.sema_delta → s.permits + s.sema_delta.toUInt64.toNat ≤ MAX_PERMITS →
      Settles s (Pool.forget { s with
        sema_delta := 0
        pc := .decide_flush
        permits := s.permits + s.sema_delta.toUInt64.toNat })
  | shrunk : s.sema_delta < 0 →
      Settles s (Pool.forget { s with
        sema_delta := 0
        pc := .decide_flush
        pending_forget := s.pending_forget + (-s.sema_delta).toUInt64 })
  | steady : ¬ 0 < s.sema_delta → ¬ s.sema_delta < 0 →
      Settles s (Pool.forget { s with sema_delta := 0, pc := .decide_flush })

theorem settle_cases {s s' : Pool ρ τ} (h : s.settle = some s') :
    s.pc = .settle ∧ Settles s s' := by
  unfold Pool.settle at h
  split at h
  · rename_i hpc
    refine ⟨hpc, ?_⟩
    dsimp only at h
    split at h
    · rename_i hgrow
      split at h
      · rename_i hover
        cases h
        exact .refused hgrow hover
      · rename_i hfits
        split at h
        · rename_i hover
          cases h
          exact .overfull hgrow (Nat.le_of_not_lt hfits) hover
        · rename_i hsum
          cases h
          exact .grown hgrow (Nat.le_of_not_lt hsum)
    · rename_i hgrow
      split at h
      · rename_i hshrink
        cases h
        exact .shrunk hshrink
      · rename_i hshrink
        cases h
        exact .steady hgrow hshrink
  · cases h

end AgentTraceGateway
