import AgentTraceGateway.Export.Pool

/-! # The Batcher Neither Loses nor Reorders

  The batcher moves records from the channel into its buffer and hands the
  buffer on as a batch: to `dispatch_batch`, or to the drop counter when
  there is no target. What it handed on, what it has in hand and what is
  still buffered is at any moment what it received, in order.

  The arguments do not depend on time: a tick may come at any moment and a
  flush decision may see any elapsed time. Only a width change that the
  semaphore refuses stops the batcher with records in its buffer. -/

namespace AgentTraceGateway

variable {ρ τ : Type}

/-! ### What goes in and out -/

/-- The records a step takes from the channel. -/
def Pool.receives (s : Pool ρ τ) : ExportEvent ρ τ → List ρ
  | .recv_record => s.queue.head?.toList
  | _ => []

/-- The batch on its way to a target. -/
def BatcherPc.hand : BatcherPc ρ → List ρ
  | .load_target batch _ => batch
  | _ => []

/-- The batches a step hands to `dispatch_batch` or counts as dropped. -/
def Pool.hands (s : Pool ρ τ) : ExportEvent ρ τ → List (List ρ)
  | .load_target => [s.pc.hand]
  | _ => []

/-- A pool, and what its batcher has received and handed on so far. -/
structure Batching (ρ τ : Type) where
  pool : Pool ρ τ
  received : List ρ := []
  handed : List (List ρ) := []
  deriving DecidableEq, Repr

def batching_step (b : Batching ρ τ) (e : ExportEvent ρ τ) : Option (Batching ρ τ) :=
  (export_step b.pool e).map fun s =>
    { pool := s
      received := b.received ++ b.pool.receives e
      handed := b.handed ++ b.pool.hands e }

/-! ### The invariant -/

/-- The most the buffer can hold at a place of the loop. -/
def BatcherPc.buffered : BatcherPc ρ → Nat
  | .recv => BATCH_MAX - 1
  | .settle => BATCH_MAX
  | .decide_flush => BATCH_MAX
  | _ => 0

/-- A batch as the flush pool expects it. -/
def BatchSized (batch : List ρ) : Prop := batch ≠ [] ∧ batch.length ≤ BATCH_MAX

/-- What every step of the exporter keeps. -/
structure BatchInv (b : Batching ρ τ) : Prop where
  sized : ∀ batch ∈ b.handed, BatchSized batch
  hand : ∀ batch tail, b.pool.pc = .load_target batch tail → BatchSized batch
  room : b.pool.buf.length ≤ b.pool.pc.buffered
  in_order : b.pool.pc ≠ .died →
    b.handed.flatten ++ b.pool.pc.hand ++ b.pool.buf = b.received
  front : b.handed.flatten <+: b.received

/-- A step that leaves the batcher alone. -/
theorem BatchInv.frame {b : Batching ρ τ} (h : BatchInv b) {s : Pool ρ τ}
    (hpc : s.pc = b.pool.pc) (hbuf : s.buf = b.pool.buf) :
    BatchInv { b with pool := s } := by
  refine ⟨h.sized, ?_, ?_, ?_, h.front⟩
  · show ∀ batch tail, s.pc = .load_target batch tail → BatchSized batch
    rw [hpc]
    exact h.hand
  · show s.buf.length ≤ s.pc.buffered
    rw [hpc, hbuf]
    exact h.room
  · show s.pc ≠ .died → b.handed.flatten ++ s.pc.hand ++ s.buf = b.received
    rw [hpc, hbuf]
    exact h.in_order

/-- The batcher goes to a place where it has nothing in hand and the buffer
    fits. -/
theorem BatchInv.move {b : Batching ρ τ} (h : BatchInv b) {s : Pool ρ τ}
    (hbuf : s.buf = b.pool.buf) (halive : b.pool.pc ≠ .died) (hfrom : b.pool.pc.hand = [])
    (hload : ∀ batch tail, s.pc ≠ .load_target batch tail) (hto : s.pc.hand = [])
    (hroom : b.pool.buf.length ≤ s.pc.buffered) : BatchInv { b with pool := s } := by
  refine ⟨h.sized, fun batch tail hpc => absurd hpc (hload batch tail), ?_, ?_, h.front⟩
  · show s.buf.length ≤ s.pc.buffered
    rw [hbuf]
    exact hroom
  · intro _
    have hall := h.in_order halive
    show b.handed.flatten ++ s.pc.hand ++ s.buf = b.received
    rw [hto, hbuf, ← hfrom]
    exact hall

theorem start_batching {target : Option τ} {max_inflight : UInt64} {s : Pool ρ τ}
    (h : Pool.start target max_inflight = some s) : BatchInv ⟨s, [], []⟩ := by
  unfold Pool.start at h
  dsimp only at h
  split at h
  · cases h
  · cases h
    refine ⟨?_, ?_, ?_, fun _ => rfl, List.prefix_refl _⟩
    · intro batch hmem
      cases hmem
    · intro batch tail hpc
      cases hpc
    · exact Nat.zero_le _

/-! ### The batcher's steps -/

variable {b : Batching ρ τ} {s' : Pool ρ τ}

theorem recv_record_batching (h : BatchInv b) (hstep : b.pool.recv_record = some s') :
    BatchInv ⟨s', b.received ++ b.pool.receives .recv_record, b.handed⟩ := by
  unfold Pool.recv_record at hstep
  split at hstep
  · rename_i r queue hpc hqueue
    cases hstep
    have hroom := h.room
    have hall := h.in_order (by rw [hpc]; nofun)
    rw [hpc] at hroom hall
    have hreceives : b.pool.receives .recv_record = [r] := by
      rw [Pool.receives, hqueue]
      rfl
    rw [hreceives]
    refine ⟨h.sized, nofun, ?_, ?_, h.front.trans (List.prefix_append _ _)⟩
    · -- the batcher receives only while the buffer is below the bound
      show (b.pool.buf ++ [r]).length ≤ BATCH_MAX
      have hroom : b.pool.buf.length ≤ BATCH_MAX - 1 := hroom
      have hpos : 0 < BATCH_MAX := by decide
      rw [List.length_append, List.length_singleton]
      omega
    · intro _
      show b.handed.flatten ++ [] ++ (b.pool.buf ++ [r]) = b.received ++ [r]
      rw [← hall]
      simp [BatcherPc.hand]
  · cases hstep

/-- The buffer is taken as a batch. -/
theorem BatchInv.take {h : BatchInv b} (hnonempty : b.pool.buf ≠ [])
    (hlen : b.pool.buf.length ≤ BATCH_MAX) (halive : b.pool.pc ≠ .died)
    (hhand : b.pool.pc.hand = []) (tail : Bool) :
    BatchInv { b with
      pool := { b.pool with buf := [], pc := .load_target b.pool.buf tail } } := by
  refine ⟨h.sized, ?_, Nat.le_refl _, ?_, h.front⟩
  · intro batch tail' hpc
    cases hpc
    exact ⟨hnonempty, hlen⟩
  · intro _
    have hall := h.in_order halive
    rw [hhand, List.append_nil] at hall
    show b.handed.flatten ++ b.pool.buf ++ [] = b.received
    rw [List.append_nil]
    exact hall

theorem recv_closed_batching (h : BatchInv b) (hstep : b.pool.recv_closed = some s') :
    BatchInv { b with pool := s' } := by
  unfold Pool.recv_closed at hstep
  split at hstep
  · rename_i hpc hqueue
    have halive : b.pool.pc ≠ .died := by rw [hpc]; nofun
    have hhand : b.pool.pc.hand = [] := by rw [hpc]; rfl
    split at hstep
    · split at hstep
      · rename_i hempty
        cases hstep
        have hbuf := List.isEmpty_iff.mp hempty
        exact h.move rfl halive hhand nofun rfl (by rw [hbuf]; exact Nat.zero_le _)
      · -- the shutdown tail
        rename_i hsome
        cases hstep
        have hroom := h.room
        rw [hpc] at hroom
        have hlen : b.pool.buf.length ≤ BATCH_MAX := Nat.le_trans hroom (Nat.sub_le _ _)
        have hnonempty : b.pool.buf ≠ [] := fun hnil => hsome (List.isEmpty_iff.mpr hnil)
        exact h.take hnonempty hlen halive hhand true
    · cases hstep
  · cases hstep

theorem recv_tick_batching (h : BatchInv b) (hstep : b.pool.recv_tick = some s') :
    BatchInv { b with pool := s' } := by
  unfold Pool.recv_tick at hstep
  split at hstep
  · rename_i hpc
    cases hstep
    have hroom := h.room
    rw [hpc] at hroom
    exact h.move rfl (by rw [hpc]; nofun) (by rw [hpc]; rfl) nofun rfl
      (Nat.le_trans hroom (Nat.sub_le _ _))
  · cases hstep

/-- A batcher that panics has neither a buffer nor a place in its loop. -/
theorem die_batcher (s : Pool ρ τ) : s.die.pc = .died ∧ s.die.buf = [] := by
  have hfold : ∀ (tasks : List (FlushTask ρ)) (s : Pool ρ τ),
      (tasks.foldl (fun s t => s.booking_drop t.batch) s).pc = s.pc ∧
        (tasks.foldl (fun s t => s.booking_drop t.batch) s).buf = s.buf := by
    intro tasks
    induction tasks with
    | nil => exact fun _ => ⟨rfl, rfl⟩
    | cons t tasks ih => exact fun s => ih (s.booking_drop t.batch)
  exact hfold _ _

/-- Whatever the semaphore does, the buffer goes on to the decision as it is. -/
theorem BatchInv.settled {s : Pool ρ τ} (h : BatchInv b) (hpc : b.pool.pc = .settle)
    (hbuf : s.buf = b.pool.buf) (hto : s.pc = .decide_flush) : BatchInv { b with pool := s } := by
  have hroom := h.room
  rw [hpc] at hroom
  refine h.move hbuf (by rw [hpc]; nofun) (by rw [hpc]; rfl) ?_ (by rw [hto]; rfl) ?_
  · rw [hto]
    nofun
  · rw [hto]
    exact hroom

/-- The semaphore refuses: what was buffered is gone. -/
theorem BatchInv.died {s : Pool ρ τ} (h : BatchInv b) (hpc : s.pc = .died) (hbuf : s.buf = []) :
    BatchInv { b with pool := s } := by
  refine ⟨h.sized, ?_, ?_, fun halive => absurd hpc halive, h.front⟩
  · intro batch tail hload
    have hload : s.pc = .load_target batch tail := hload
    rw [hpc] at hload
    cases hload
  · show s.buf.length ≤ _
    rw [hbuf]
    exact Nat.zero_le _

theorem settle_batching (h : BatchInv b) (hstep : b.pool.settle = some s') :
    BatchInv { b with pool := s' } := by
  obtain ⟨hpc, hsettles⟩ := settle_cases hstep
  cases hsettles with
  | refused _ _ => exact h.died (die_batcher _).1 (die_batcher _).2
  | overfull _ _ _ => exact h.died (die_batcher _).1 (die_batcher _).2
  | grown _ _ => exact h.settled hpc rfl rfl
  | shrunk _ => exact h.settled hpc rfl rfl
  | steady _ _ => exact h.settled hpc rfl rfl

theorem decide_flush_batching {elapsed : Bool} (h : BatchInv b)
    (hstep : b.pool.decide_flush elapsed = some s') : BatchInv { b with pool := s' } := by
  unfold Pool.decide_flush at hstep
  split at hstep
  · rename_i hpc
    have halive : b.pool.pc ≠ .died := by rw [hpc]; nofun
    have hhand : b.pool.pc.hand = [] := by rw [hpc]; rfl
    have hroom := h.room
    rw [hpc] at hroom
    split at hstep
    · -- nothing to flush, or neither full nor due
      rename_i hwait
      cases hstep
      have hbelow : b.pool.buf.length ≤ BATCH_MAX - 1 := by
        rcases hwait with hempty | ⟨-, hbelow⟩
        · rw [List.isEmpty_iff.mp hempty]
          exact Nat.zero_le _
        · omega
      exact h.move rfl halive hhand nofun rfl hbelow
    · rename_i hflush
      cases hstep
      -- an empty buffer waits, however late it is
      have hnonempty : b.pool.buf ≠ [] :=
        fun hnil => hflush (Or.inl (List.isEmpty_iff.mpr hnil))
      exact h.take hnonempty hroom halive hhand false
  · cases hstep

theorem load_target_batching (h : BatchInv b) (hstep : b.pool.load_target = some s') :
    BatchInv ⟨s', b.received, b.handed ++ b.pool.hands .load_target⟩ := by
  unfold Pool.load_target at hstep
  split at hstep
  · rename_i batch tail hpc
    have hroom := h.room
    have hall := h.in_order (by rw [hpc]; nofun)
    have hsized := h.hand batch tail hpc
    rw [hpc] at hroom hall
    have hbuf : b.pool.buf = [] := List.length_eq_zero_iff.mp (Nat.le_zero.mp hroom)
    have hhands : b.pool.hands .load_target = [batch] := by
      rw [Pool.hands, hpc]
      rfl
    have hflatten : (b.handed ++ [batch]).flatten = b.received := by
      rw [hbuf, List.append_nil] at hall
      rw [List.flatten_append, List.flatten_singleton]
      exact hall
    have hsizes : ∀ other ∈ b.handed ++ [batch], BatchSized other := by
      intro other hmem
      rcases List.mem_append.mp hmem with hmem | hmem
      · exact h.sized other hmem
      · rw [List.mem_singleton.mp hmem]
        exact hsized
    rw [hhands]
    -- either way the batch is off the batcher's hands
    have hdone : ∀ s : Pool ρ τ, s.buf = [] → s.pc.hand = [] →
        (∀ batch tail, s.pc ≠ .load_target batch tail) →
        BatchInv ⟨s, b.received, b.handed ++ [batch]⟩ := by
      intro s hempty hhand hload
      refine ⟨hsizes, fun batch tail hpc => absurd hpc (hload batch tail), ?_, ?_, ?_⟩
      · show s.buf.length ≤ s.pc.buffered
        rw [hempty]
        exact Nat.zero_le _
      · intro _
        show (b.handed ++ [batch]).flatten ++ s.pc.hand ++ s.buf = b.received
        rw [hhand, hempty, List.append_nil, List.append_nil]
        exact hflatten
      · show (b.handed ++ [batch]).flatten <+: b.received
        exact ⟨[], by rw [hflatten, List.append_nil]⟩
    split at hstep
    · cases hstep
      exact hdone _ hbuf rfl nofun
    · cases hstep
      refine hdone _ hbuf ?_ ?_
      · cases tail <;> rfl
      · cases tail <;> nofun
  · cases hstep

theorem acquire_batching (h : BatchInv b) (hstep : b.pool.acquire = some s') :
    BatchInv { b with pool := s' } := by
  unfold Pool.acquire at hstep
  split at hstep
  · rename_i batch tail hpc
    split at hstep
    · cases hstep
      have hroom := h.room
      rw [hpc] at hroom
      refine h.move rfl (by rw [hpc]; nofun) (by rw [hpc]; rfl) ?_ ?_
        (Nat.le_trans hroom (Nat.zero_le _))
      · cases tail <;> nofun
      · cases tail <;> rfl
    · cases hstep
  · cases hstep

theorem reap_batching (h : BatchInv b) (hstep : b.pool.reap = some s') :
    BatchInv { b with pool := s' } := by
  unfold Pool.reap at hstep
  split at hstep
  · rename_i hpc
    cases hstep
    have hroom := h.room
    rw [hpc] at hroom
    exact h.move rfl (by rw [hpc]; nofun) (by rw [hpc]; rfl) nofun rfl
      (Nat.le_trans hroom (Nat.zero_le _))
  · cases hstep

theorem join_batching (h : BatchInv b) (hstep : b.pool.join = some s') :
    BatchInv { b with pool := s' } := by
  unfold Pool.join at hstep
  split at hstep
  · rename_i hpc
    split at hstep
    · cases hstep
      have hroom := h.room
      rw [hpc] at hroom
      exact h.move rfl (by rw [hpc]; nofun) (by rw [hpc]; rfl) nofun rfl hroom
    · cases hstep
  · cases hstep

/-! ### The other tasks -/

/-- Submitters, reloads and flush tasks leave the batcher alone. -/
theorem submit_check_batcher {s : Pool ρ τ} {r : ρ} (h : s.submit_check r = some s') :
    s'.pc = s.pc ∧ s'.buf = s.buf := by
  unfold Pool.submit_check at h
  split at h
  · cases h
  · split at h <;> cases h <;> exact ⟨rfl, rfl⟩

theorem submit_send_batcher {s : Pool ρ τ} {i : Nat} (h : s.submit_send i = some s') :
    s'.pc = s.pc ∧ s'.buf = s.buf := by
  unfold Pool.submit_send at h
  split at h
  · cases h
  · dsimp only at h
    split at h <;> cases h <;> exact ⟨rfl, rfl⟩

theorem reload_step_batcher {s : Pool ρ τ} {i : Nat} (h : s.reload_step i = some s') :
    s'.pc = s.pc ∧ s'.buf = s.buf := by
  unfold Pool.reload_step at h
  split at h
  · cases h
  · split at h <;> cases h <;> exact ⟨rfl, rfl⟩

theorem flush_answer_batcher {s : Pool ρ τ} {i : Nat} {success : Bool}
    (h : s.flush_answer i success = some s') : s'.pc = s.pc ∧ s'.buf = s.buf := by
  unfold Pool.flush_answer at h
  split at h
  · split at h
    · split at h <;> cases h <;> exact ⟨rfl, rfl⟩
    · cases h
  · cases h

theorem flush_end_batcher {s : Pool ρ τ} {i : Nat} (h : s.flush_end i = some s') :
    s'.pc = s.pc ∧ s'.buf = s.buf := by
  unfold Pool.flush_end at h
  split at h
  · split at h
    · cases h
      exact ⟨rfl, rfl⟩
    · cases h
  · cases h

theorem flush_panic_batcher {s : Pool ρ τ} {i : Nat} (h : s.flush_panic i = some s') :
    s'.pc = s.pc ∧ s'.buf = s.buf := by
  unfold Pool.flush_panic at h
  split at h
  · split at h
    · cases h
    · cases h
      exact ⟨rfl, rfl⟩
  · cases h

/-! ### Runs -/

theorem batching_step_inv (b : Batching ρ τ) (e : ExportEvent ρ τ) (b' : Batching ρ τ)
    (h : BatchInv b) (hstep : batching_step b e = some b') : BatchInv b' := by
  obtain ⟨s', hs', rfl⟩ := Option.map_eq_some_iff.mp hstep
  -- most steps neither receive nor hand on
  have hquiet : b.pool.receives e = [] → b.pool.hands e = [] → BatchInv { b with pool := s' } →
      BatchInv ⟨s', b.received ++ b.pool.receives e, b.handed ++ b.pool.hands e⟩ := by
    intro hreceives hhands hkept
    rw [hreceives, hhands, List.append_nil, List.append_nil]
    exact hkept
  have hframe : b.pool.receives e = [] → b.pool.hands e = [] →
      s'.pc = b.pool.pc ∧ s'.buf = b.pool.buf →
      BatchInv ⟨s', b.received ++ b.pool.receives e, b.handed ++ b.pool.hands e⟩ :=
    fun hreceives hhands hsame => hquiet hreceives hhands (h.frame hsame.1 hsame.2)
  cases e with
  | submit_check r => exact hframe rfl rfl (submit_check_batcher hs')
  | submit_send i => exact hframe rfl rfl (submit_send_batcher hs')
  | apply_target new_target max_inflight =>
    simp only [export_step] at hs'
    split at hs'
    · cases hs'
    · cases hs'
      exact hframe rfl rfl ⟨rfl, rfl⟩
  | reload_step i => exact hframe rfl rfl (reload_step_batcher hs')
  | shutdown =>
    simp only [export_step, Pool.shutdown] at hs'
    split at hs'
    · cases hs'
      exact hframe rfl rfl ⟨rfl, rfl⟩
    · cases hs'
  | recv_record =>
    have hkept := recv_record_batching h hs'
    rwa [← List.append_nil b.handed] at hkept
  | recv_closed => exact hquiet rfl rfl (recv_closed_batching h hs')
  | recv_tick => exact hquiet rfl rfl (recv_tick_batching h hs')
  | settle => exact hquiet rfl rfl (settle_batching h hs')
  | decide_flush elapsed => exact hquiet rfl rfl (decide_flush_batching h hs')
  | load_target =>
    have hkept := load_target_batching h hs'
    rwa [← List.append_nil b.received] at hkept
  | acquire => exact hquiet rfl rfl (acquire_batching h hs')
  | reap => exact hquiet rfl rfl (reap_batching h hs')
  | join => exact hquiet rfl rfl (join_batching h hs')
  | flush_answer i success => exact hframe rfl rfl (flush_answer_batcher hs')
  | flush_end i => exact hframe rfl rfl (flush_end_batcher hs')
  | flush_panic i => exact hframe rfl rfl (flush_panic_batcher hs')

/-! ### What a panic costs -/

/-- What the batcher received is what it handed on, what it has in hand and
    what it buffers, in this order. -/
def Batching.Whole (b : Batching ρ τ) : Prop :=
  b.handed.flatten ++ b.pool.pc.hand ++ b.pool.buf = b.received

theorem start_whole {target : Option τ} {max_inflight : UInt64} {s : Pool ρ τ}
    (h : Pool.start target max_inflight = some s) : Batching.Whole ⟨s, [], []⟩ := by
  unfold Pool.start at h
  dsimp only at h
  split at h
  · cases h
  · cases h
    rfl

/-- The semaphore takes the queued growth, or there is no record to lose. -/
def KeepsBuffer (b : Batching ρ τ) : ExportEvent ρ τ → Prop
  | .settle => b.pool.buf ≠ [] → b.pool.TakesGrowth
  | _ => True

instance (b : Batching ρ τ) (e : ExportEvent ρ τ) : Decidable (KeepsBuffer b e) :=
  match e with
  | .settle => inferInstanceAs (Decidable (_ → _))
  | .submit_check _ | .submit_send _ | .apply_target _ _ | .reload_step _ | .shutdown
  | .recv_record | .recv_closed | .recv_tick | .decide_flush _ | .load_target | .acquire
  | .reap | .join | .flush_answer _ _ | .flush_end _ | .flush_panic _ => isTrue trivial

theorem keeps_buffer_of_ne {e : ExportEvent ρ τ} (h : e ≠ .settle) : KeepsBuffer b e := by
  cases e with
  | settle => exact absurd rfl h
  | _ => trivial

/-- A step that is not the batcher's leaves its place and its buffer. -/
structure BatcherIdle (s : Pool ρ τ) (e : ExportEvent ρ τ) (s' : Pool ρ τ) : Prop where
  other : e ≠ .settle
  same : s'.pc = s.pc ∧ s'.buf = s.buf
  receives : s.receives e = []
  hands : s.hands e = []

/-- A step leaves the batcher alone, moves it along its loop, or applies the
    queued width change. -/
theorem batcher_step_cases {s : Pool ρ τ} {e : ExportEvent ρ τ} (h : export_step s e = some s') :
    BatcherIdle s e s' ∨ (s.pc ≠ .died ∧ s'.pc ≠ .died ∧ e ≠ .settle) ∨ e = .settle := by
  -- a step of the batcher starts from one place of its loop
  have hmoved : ∀ pc : BatcherPc ρ, s.pc = pc → pc ≠ .died → s'.pc ≠ .died → e ≠ .settle →
      BatcherIdle s e s' ∨ (s.pc ≠ .died ∧ s'.pc ≠ .died ∧ e ≠ .settle) ∨ e = .settle :=
    fun _ hpc halive hafter hother => Or.inr (Or.inl ⟨hpc ▸ halive, hafter, hother⟩)
  cases e with
  | submit_check r => exact Or.inl ⟨nofun, submit_check_batcher h, rfl, rfl⟩
  | submit_send i => exact Or.inl ⟨nofun, submit_send_batcher h, rfl, rfl⟩
  | apply_target new_target max_inflight =>
    simp only [export_step] at h
    split at h
    · cases h
    · cases h
      exact Or.inl ⟨nofun, ⟨rfl, rfl⟩, rfl, rfl⟩
  | reload_step i => exact Or.inl ⟨nofun, reload_step_batcher h, rfl, rfl⟩
  | shutdown =>
    simp only [export_step, Pool.shutdown] at h
    split at h
    · cases h
      exact Or.inl ⟨nofun, ⟨rfl, rfl⟩, rfl, rfl⟩
    · cases h
  | recv_record =>
    simp only [export_step, Pool.recv_record] at h
    split at h
    · rename_i hpc _
      cases h
      exact hmoved _ hpc nofun nofun nofun
    · cases h
  | recv_closed =>
    simp only [export_step, Pool.recv_closed] at h
    split at h
    · rename_i hpc _
      split_ifs at h <;> cases h <;> exact hmoved _ hpc nofun nofun nofun
    · cases h
  | recv_tick =>
    simp only [export_step, Pool.recv_tick] at h
    split at h
    · rename_i hpc
      cases h
      exact hmoved _ hpc nofun nofun nofun
    · cases h
  | settle => exact Or.inr (Or.inr rfl)
  | decide_flush elapsed =>
    simp only [export_step, Pool.decide_flush] at h
    split at h
    · rename_i hpc
      split_ifs at h <;> cases h <;> exact hmoved _ hpc nofun nofun nofun
    · cases h
  | load_target =>
    simp only [export_step, Pool.load_target] at h
    split at h
    · rename_i batch tail hpc
      split at h <;> cases h <;> refine hmoved _ hpc nofun ?_ nofun
      · nofun
      · cases tail <;> nofun
    · cases h
  | acquire =>
    simp only [export_step, Pool.acquire] at h
    split at h
    · rename_i batch tail hpc
      split at h
      · cases h
        refine hmoved _ hpc nofun ?_ nofun
        cases tail <;> nofun
      · cases h
    · cases h
  | reap =>
    simp only [export_step, Pool.reap] at h
    split at h
    · rename_i hpc
      cases h
      exact hmoved _ hpc nofun nofun nofun
    · cases h
  | join =>
    simp only [export_step, Pool.join] at h
    split at h
    · rename_i hpc
      split at h
      · cases h
        exact hmoved _ hpc nofun nofun nofun
      · cases h
    · cases h
  | flush_answer i success => exact Or.inl ⟨nofun, flush_answer_batcher h, rfl, rfl⟩
  | flush_end i => exact Or.inl ⟨nofun, flush_end_batcher h, rfl, rfl⟩
  | flush_panic i => exact Or.inl ⟨nofun, flush_panic_batcher h, rfl, rfl⟩

/-- A batcher that panics keeps the order exactly when its buffer was empty. -/
theorem BatchInv.whole_died {s : Pool ρ τ} (h : BatchInv b) (hpc : b.pool.pc = .settle)
    (hdied : s.pc = .died) (hbuf : s.buf = []) :
    Batching.Whole { b with pool := s } ↔ b.pool.buf = [] := by
  have hall := h.in_order (by rw [hpc]; nofun)
  rw [hpc] at hall
  have hall : b.handed.flatten ++ [] ++ b.pool.buf = b.received := hall
  show b.handed.flatten ++ s.pc.hand ++ s.buf = b.received ↔ _
  rw [hdied, hbuf, ← hall]
  show b.handed.flatten ++ [] ++ [] = _ ↔ _
  rw [List.append_nil, List.append_nil]
  exact List.self_eq_append_right

theorem settle_whole (h : BatchInv b) (hstep : b.pool.settle = some s') :
    Batching.Whole { b with pool := s' } ↔ b.Whole ∧ KeepsBuffer b .settle := by
  obtain ⟨hpc, hsettles⟩ := settle_cases hstep
  have hwhole : b.Whole := h.in_order (by rw [hpc]; nofun)
  rw [and_iff_right hwhole]
  -- a growth that is refused is harmless to an empty buffer only
  have hrefused : ∀ s : Pool ρ τ, s.pc = .died → s.buf = [] → ¬ b.pool.TakesGrowth →
      (Batching.Whole { b with pool := s } ↔ KeepsBuffer b .settle) := by
    intro s hdied hbuf hover
    rw [h.whole_died hpc hdied hbuf]
    constructor
    · intro hempty hnonempty
      exact absurd hempty hnonempty
    · intro hkeeps
      by_contra hnonempty
      exact hover (hkeeps hnonempty)
  have htaken : ∀ s : Pool ρ τ, s.buf = b.pool.buf → s.pc = .decide_flush → b.pool.TakesGrowth →
      (Batching.Whole { b with pool := s } ↔ KeepsBuffer b .settle) := by
    intro s hbuf hto htakes
    refine iff_of_true ?_ fun _ => htakes
    exact (h.settled hpc hbuf hto).in_order (by show s.pc ≠ .died; rw [hto]; nofun)
  cases hsettles with
  | refused hgrow hover =>
    refine hrefused _ (die_batcher _).1 (die_batcher _).2 fun htakes => ?_
    have hle := htakes hgrow
    omega
  | overfull hgrow _ hover =>
    refine hrefused _ (die_batcher _).1 (die_batcher _).2 fun htakes => ?_
    have hle := htakes hgrow
    omega
  | grown _ hsum => exact htaken _ rfl rfl fun _ => hsum
  | shrunk hshrink =>
    refine htaken _ rfl rfl fun hgrow => ?_
    exact absurd hgrow (Int64.lt_asymm hshrink)
  | steady hgrow _ => exact htaken _ rfl rfl fun hpos => absurd hpos hgrow

/-- A step keeps the order exactly when it keeps the buffer. -/
theorem batching_step_whole (b : Batching ρ τ) (e : ExportEvent ρ τ) (b' : Batching ρ τ)
    (h : BatchInv b) (hstep : batching_step b e = some b') :
    b'.Whole ↔ b.Whole ∧ KeepsBuffer b e := by
  have hinv := batching_step_inv b e b' h hstep
  obtain ⟨s', hs', rfl⟩ := Option.map_eq_some_iff.mp hstep
  rcases batcher_step_cases hs' with hidle | ⟨halive, hafter, hother⟩ | rfl
  · -- nothing changes for the batcher, dead or alive
    rw [and_iff_left (keeps_buffer_of_ne hidle.other)]
    show (b.handed ++ b.pool.hands e).flatten ++ s'.pc.hand ++ s'.buf
      = b.received ++ b.pool.receives e ↔ _
    rw [hidle.hands, hidle.receives, hidle.same.1, hidle.same.2, List.append_nil, List.append_nil]
    exact Iff.rfl
  · exact iff_of_true (hinv.in_order hafter) ⟨h.in_order halive, keeps_buffer_of_ne hother⟩
  · have hkept := settle_whole h hs'
    show Batching.Whole ⟨s', b.received ++ [], b.handed ++ []⟩ ↔ _
    rw [List.append_nil, List.append_nil]
    exact hkept

/-- Every batch is non-empty and of bounded size, and what the batcher
    received is what it handed on, what it has in hand and what it buffers,
    in this order; nothing is left once the loop is over. -/
structure BatchesIntact (b : Batching ρ τ) : Prop where
  sized : ∀ batch ∈ b.handed, BatchSized batch
  in_order : b.Whole
  finished : b.pool.pc = .join ∨ b.pool.pc = .returned → b.handed.flatten = b.received

theorem BatchInv.intact_iff {b : Batching ρ τ} (h : BatchInv b) : BatchesIntact b ↔ b.Whole := by
  refine ⟨BatchesIntact.in_order, fun hwhole => ⟨h.sized, hwhole, ?_⟩⟩
  intro hover
  -- outside its loop the batcher buffers nothing
  have hroom := h.room
  have hall : b.handed.flatten ++ b.pool.pc.hand ++ b.pool.buf = b.received := hwhole
  have hbuf : b.pool.buf = [] := by
    apply List.length_eq_zero_iff.mp
    rcases hover with hpc | hpc <;> rw [hpc] at hroom <;> exact Nat.le_zero.mp hroom
  have hhand : b.pool.pc.hand = [] := by
    rcases hover with hpc | hpc <;> rw [hpc] <;> rfl
  rw [hhand, hbuf, List.append_nil, List.append_nil] at hall
  exact hall

/-- Also of a batcher that panicked the batches are as they should be, and an
    initial part of what it received. -/
theorem batches_front (target : Option τ) (max_inflight : UInt64) (s : Pool ρ τ)
    (events : List (ExportEvent ρ τ)) (b : Batching ρ τ)
    (hstart : Pool.start target max_inflight = some s)
    (hrun : run batching_step ⟨s, [], []⟩ events = some b) :
    (∀ batch ∈ b.handed, BatchSized batch) ∧ b.handed.flatten <+: b.received := by
  have hinv := run_invariant_always batching_step_inv events ⟨s, [], []⟩ b
    (start_batching hstart) hrun
  exact ⟨hinv.sized, hinv.front⟩

/-- **Batching integrity**: after a run of the exporter the batches are
    intact, however arrivals, ticks, elapsed times, reloads and flushes
    interleaved, if and only if no pass of the batcher met a growth beyond the
    semaphore's limit with records in its buffer. -/
theorem batches_intact_iff (target : Option τ) (max_inflight : UInt64) (s : Pool ρ τ)
    (events : List (ExportEvent ρ τ)) (b : Batching ρ τ)
    (hstart : Pool.start target max_inflight = some s)
    (hrun : run batching_step ⟨s, [], []⟩ events = some b) :
    BatchesIntact b ↔ Guarded batching_step KeepsBuffer ⟨s, [], []⟩ events := by
  have hfirst := start_batching hstart
  have hinv := run_invariant_always batching_step_inv events ⟨s, [], []⟩ b hfirst hrun
  have hwhole := start_whole hstart
  rw [hinv.intact_iff,
    run_kept_iff batching_step_inv batching_step_whole events _ b hfirst hrun]
  exact and_iff_right hwhole

/-- Two records in one batch, a third in the shutdown tail; the export is
    disabled before the tail is shipped. -/
def tail_dropped : List (ExportEvent Nat Unit) :=
  [.submit_check 1, .submit_send 0, .submit_check 2, .submit_send 0, .recv_record, .settle,
    .decide_flush false, .recv_record, .settle, .decide_flush true, .load_target, .acquire, .reap,
    .submit_check 3, .submit_send 0, .recv_record, .settle, .decide_flush false,
    .apply_target none 1, .reload_step 0, .reload_step 0, .reload_step 0, .reload_step 0,
    .shutdown, .recv_closed, .load_target]

theorem batches_intact_iff_tail :
    ∃ (s : Pool Nat Unit) (b : Batching Nat Unit), Pool.start (some ()) 1 = some s ∧
      run batching_step ⟨s, [], []⟩ tail_dropped = some b ∧ b.received = [1, 2, 3] ∧
      b.handed = [[1, 2], [3]] ∧ b.pool.ledger.dropped = [3] ∧
      (BatchesIntact b ↔ Guarded batching_step KeepsBuffer ⟨s, [], []⟩ tail_dropped) := by
  refine ⟨_, _, rfl, rfl, rfl, rfl, rfl, ?_⟩
  exact batches_intact_iff (some ()) 1 _ tail_dropped _ rfl rfl

/-- A target change brings a width beyond the semaphore's limit while a record
    is on its way to the batcher. -/
def grown_mid_batch : List (ExportEvent Nat Unit) :=
  [.submit_check 7, .submit_send 0, .apply_target (some ()) 0x2000000000000000, .reload_step 0,
    .reload_step 0, .reload_step 0, .reload_step 0, .recv_record, .settle]

/-- The batcher dies with the record in its buffer: it is neither handed over
    nor counted as dropped. -/
theorem buffered_record_lost :
    ∃ (s : Pool Nat Unit) (b : Batching Nat Unit), Pool.start (some ()) 1 = some s ∧
      run batching_step ⟨s, [], []⟩ grown_mid_batch = some b ∧ b.received = [7] ∧
      b.handed = [] ∧ b.pool.pc = .died ∧ b.pool.buf = [] ∧ b.pool.ledger.dropped = [] ∧
      ¬ BatchesIntact b := by
  refine ⟨_, _, rfl, rfl, rfl, rfl, rfl, rfl, rfl, ?_⟩
  intro h
  have hwhole : ([] : List Nat) = [7] := h.in_order
  cases hwhole

end AgentTraceGateway
