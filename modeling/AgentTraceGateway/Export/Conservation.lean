import AgentTraceGateway.Export.Pool
import AgentTraceGateway.Lib.Entries

/-! # Export Conservation

  Records only move. Counting any one record over all the places it can be,
  every step of the exporter keeps the count equal to the number of times the
  record was submitted. The batcher leaves its loop only when the channel is
  closed and empty, so at the end nothing is left outside the counters. -/

namespace AgentTraceGateway

/-! ### Lists -/

section lists
variable {α β : Type}

theorem flatMap_filter_of_nil (f : α → List β) (p : α → Bool) (l : List α)
    (h : ∀ a, p a = false → f a = []) : (l.filter p).flatMap f = l.flatMap f := by
  induction l with
  | nil => rfl
  | cons a l ih =>
    by_cases hp : p a = true
    · simp [hp, ih]
    · simp [hp, ih, h a (by simpa using hp)]

end lists

variable {ρ τ : Type}

/-! ### The invariant -/

/-- A task that has not ended holds a permit and counts in the gauge. -/
def FlushTask.running (t : FlushTask ρ) : Bool := t.phase ≠ .ended

/-- The batcher has left its loop. -/
def BatcherPc.leaving : BatcherPc ρ → Bool
  | .load_target _ tail => tail
  | .acquire _ tail => tail
  | .join => true
  | .returned => true
  | _ => false

/-- How often `r` stands in a place. -/
def Pool.held [DecidableEq ρ] (s : Pool ρ τ) (r : ρ) : Nat :=
  s.queue.count r + s.buf.count r + s.pc.batch.count r
    + (s.tasks.flatMap FlushTask.unbooked).count r
    + s.ledger.exported.count r + s.ledger.failed.count r + s.ledger.dropped.count r

/-- The counters count their ledgers. -/
structure Counted (health : ExportHealth) (ledger : Ledger ρ) : Prop where
  exported : health.exported = UInt64.ofNat ledger.exported.length
  failed : health.failed = UInt64.ofNat ledger.failed.length
  dropped : health.dropped = UInt64.ofNat ledger.dropped.length

/-- What every step keeps. -/
structure PoolInv [DecidableEq ρ] (s : Pool ρ τ) : Prop where
  held : ∀ r, s.held r = s.ledger.submitted.count r
  counted : Counted s.health s.ledger
  gauge : s.health.inflight = UInt64.ofNat (s.tasks.countP FlushTask.running)
  hung_up : s.senders_gone = true → s.checked = []
  leaving : s.pc.leaving = true → s.senders_gone = true ∧ s.queue = [] ∧ s.buf = []
  returned : s.pc = .returned → s.tasks = []

@[simp] theorem after_batch_batch (tail : Bool) :
    (Pool.after_batch tail : BatcherPc ρ).batch = [] := by
  cases tail <;> rfl

@[simp] theorem after_batch_leaving (tail : Bool) :
    (Pool.after_batch tail : BatcherPc ρ).leaving = tail := by
  cases tail <;> rfl

theorem after_batch_ne_returned (tail : Bool) :
    (Pool.after_batch tail : BatcherPc ρ) ≠ .returned := by
  cases tail <;> nofun

theorem unbooked_of_ended (t : FlushTask ρ) (h : t.running = false) : t.unbooked = [] := by
  have hphase : t.phase = .ended := by simpa [FlushTask.running] using h
  simp [FlushTask.unbooked, hphase]

/-- A running task that moves on to another phase still runs. -/
theorem running_set {tasks : List (FlushTask ρ)} {i : Nat} {t : FlushTask ρ}
    (ht : tasks[i]? = some t) (hrunning : t.running = true) {phase : FlushPhase}
    (hne : phase ≠ .ended) :
    (tasks.set i { t with phase := phase }).countP FlushTask.running
      = tasks.countP FlushTask.running := by
  have hset := Entries.countP_set_add FlushTask.running { t with phase := phase } ht
  have hstill : FlushTask.running { t with phase := phase } = true := by
    simpa [FlushTask.running] using hne
  rw [hrunning, hstill] at hset
  exact Nat.add_right_cancel hset

/-- One that ends no longer does. -/
theorem running_ended {tasks : List (FlushTask ρ)} {i : Nat} {t : FlushTask ρ}
    (ht : tasks[i]? = some t) (hrunning : t.running = true) :
    (tasks.set i { t with phase := .ended }).countP FlushTask.running + 1
      = tasks.countP FlushTask.running := by
  have hset := Entries.countP_set_add FlushTask.running { t with phase := .ended } ht
  have hended : FlushTask.running { t with phase := .ended } = false := by
    simp [FlushTask.running]
  rw [hrunning, hended] at hset
  simpa using hset

variable [DecidableEq ρ] {s s' : Pool ρ τ}

theorem places_perm_iff (s : Pool ρ τ) :
    s.places.Perm s.ledger.submitted ↔ ∀ r, s.held r = s.ledger.submitted.count r := by
  rw [List.perm_iff_count]
  simp only [Pool.places, Pool.held, List.count_append]

theorem counted_add {a : UInt64} {n m : Nat} (h : a = UInt64.ofNat n) :
    a + UInt64.ofNat m = UInt64.ofNat (n + m) := by
  rw [h, UInt64.ofNat_add]

/-- At the end of the loop every record is in a counter. -/
theorem PoolInv.conserved (hinv : PoolInv s) : Conserved s := by
  have hperm := (places_perm_iff s).mpr hinv.held
  refine ⟨hperm, hinv.counted.exported, hinv.counted.failed, hinv.counted.dropped, ?_⟩
  intro hreturned
  obtain ⟨-, hqueue, hbuf⟩ := hinv.leaving (by rw [hreturned]; rfl)
  have htasks := hinv.returned hreturned
  have hlen : s.ledger.exported.length + s.ledger.failed.length + s.ledger.dropped.length
      = s.ledger.submitted.length := by
    have hlen := hperm.length_eq
    simp only [Pool.places, hqueue, hbuf, htasks, hreturned, BatcherPc.batch, List.length_append,
      List.flatMap_nil, List.length_nil] at hlen
    omega
  constructor
  · rw [hinv.counted.exported, hinv.counted.failed, hinv.counted.dropped, ← hlen,
      UInt64.ofNat_add, UInt64.ofNat_add]
  · rw [hinv.gauge, htasks]
    rfl

theorem start_inv {target : Option τ} {max_inflight : UInt64}
    (h : Pool.start target max_inflight = some s) : PoolInv s := by
  unfold Pool.start at h
  dsimp only at h
  split at h
  · cases h
  · cases h
    exact ⟨fun _ => rfl, ⟨rfl, rfl, rfl⟩, rfl, nofun, nofun, nofun⟩

/-! ### Submitters and reloads -/

theorem submit_check_inv {r : ρ} (hinv : PoolInv s) (h : s.submit_check r = some s') :
    PoolInv s' := by
  unfold Pool.submit_check at h
  split at h
  · cases h
  · rename_i hsenders
    split at h
    · cases h
      -- senders are still there, so nothing is said about `checked`
      exact ⟨hinv.held, hinv.counted, hinv.gauge, fun hgone => absurd hgone hsenders,
        hinv.leaving, hinv.returned⟩
    · cases h
      exact hinv

theorem submit_send_inv {i : Nat} (hinv : PoolInv s) (h : s.submit_send i = some s') :
    PoolInv s' := by
  unfold Pool.submit_send at h
  split at h
  · cases h
  · rename_i r hr
    -- a submitter past the check means the senders are there
    have hsenders : ¬ s.senders_gone = true := by
      intro hgone
      rw [hinv.hung_up hgone] at hr
      simp at hr
    have hloop : ¬ s.pc.leaving = true := fun hl => hsenders (hinv.leaving hl).1
    have hret : s.pc ≠ .returned := by
      intro hpc
      rw [hpc] at hloop
      exact hloop rfl
    dsimp only at h
    split at h
    · cases h
      refine ⟨?_, ⟨hinv.counted.exported, hinv.counted.failed, ?_⟩, hinv.gauge,
        fun hgone => absurd hgone hsenders, fun hl => absurd hl hloop,
        fun hpc => absurd hpc hret⟩
      · intro r'
        have hheld := hinv.held r'
        simp only [Pool.held, Pool.book_dropped, List.count_append] at hheld ⊢
        omega
      · simp only [Pool.book_dropped, List.length_append]
        exact counted_add hinv.counted.dropped
    · cases h
      refine ⟨?_, ⟨hinv.counted.exported, hinv.counted.failed, hinv.counted.dropped⟩, hinv.gauge,
        fun hgone => absurd hgone hsenders, fun hl => absurd hl hloop, fun hpc => absurd hpc hret⟩
      intro r'
      have hheld := hinv.held r'
      simp only [Pool.held, List.count_append] at hheld ⊢
      omega

/-- A reload touches the target, the width and the switch only. -/
theorem reload_step_inv {i : Nat} (hinv : PoolInv s) (h : s.reload_step i = some s') :
    PoolInv s' := by
  unfold Pool.reload_step at h
  split at h
  · cases h
  · split at h <;> cases h <;>
      exact ⟨hinv.held, hinv.counted, hinv.gauge, hinv.hung_up, hinv.leaving, hinv.returned⟩

theorem shutdown_inv (hinv : PoolInv s) (h : s.shutdown = some s') : PoolInv s' := by
  unfold Pool.shutdown at h
  split at h
  · rename_i hidle
    cases h
    refine ⟨hinv.held, hinv.counted, hinv.gauge, ?_, ?_, hinv.returned⟩
    · intro _
      exact List.isEmpty_iff.mp hidle.1
    · intro hl
      exact ⟨rfl, (hinv.leaving hl).2⟩
  · cases h

/-! ### The batcher -/

theorem recv_record_inv (hinv : PoolInv s) (h : s.recv_record = some s') : PoolInv s' := by
  unfold Pool.recv_record at h
  split at h
  · rename_i r queue hpc hqueue
    cases h
    refine ⟨?_, hinv.counted, hinv.gauge, hinv.hung_up, ?_, ?_⟩
    · intro r'
      have hheld := hinv.held r'
      simp only [Pool.held, hpc, hqueue, BatcherPc.batch, List.count_append,
        List.count_cons, List.count_nil] at hheld ⊢
      omega
    · intro hl
      cases hl
    · intro hret
      cases hret
  · cases h

theorem recv_closed_inv (hinv : PoolInv s) (h : s.recv_closed = some s') : PoolInv s' := by
  unfold Pool.recv_closed at h
  split at h
  · rename_i hpc hqueue
    split at h
    · rename_i hsenders
      split at h
      · rename_i hbuf
        cases h
        refine ⟨?_, hinv.counted, hinv.gauge, hinv.hung_up, ?_, ?_⟩
        · intro r
          have hheld := hinv.held r
          simp only [Pool.held, hpc, BatcherPc.batch] at hheld ⊢
          exact hheld
        · intro _
          exact ⟨hsenders, hqueue, List.isEmpty_iff.mp hbuf⟩
        · intro hret
          cases hret
      · cases h
        refine ⟨?_, hinv.counted, hinv.gauge, hinv.hung_up, ?_, ?_⟩
        · intro r
          have hheld := hinv.held r
          simp only [Pool.held, hpc, BatcherPc.batch, List.count_nil] at hheld ⊢
          omega
        · intro _
          exact ⟨hsenders, hqueue, rfl⟩
        · intro hret
          cases hret
    · cases h
  · cases h

/-- The batcher moves on with nothing in hand, inside its loop. -/
theorem PoolInv.move {pc : BatcherPc ρ} (hinv : PoolInv s) (hfrom : s.pc.batch = [])
    (hto : pc.batch = []) (hloop : pc.leaving = false) : PoolInv { s with pc := pc } := by
  refine ⟨?_, hinv.counted, hinv.gauge, hinv.hung_up, ?_, ?_⟩
  · intro r
    have hheld := hinv.held r
    simp only [Pool.held, hfrom, hto] at hheld ⊢
    exact hheld
  · intro hl
    exact absurd hl (by show ¬ pc.leaving = true; simp [hloop])
  · intro hret
    have hret : pc = .returned := hret
    rw [hret] at hloop
    cases hloop

theorem recv_tick_inv (hinv : PoolInv s) (h : s.recv_tick = some s') : PoolInv s' := by
  unfold Pool.recv_tick at h
  split at h
  · rename_i hpc
    cases h
    exact hinv.move (by rw [hpc]; rfl) rfl rfl
  · cases h

/-- Permits and widths are outside the invariant. -/
theorem PoolInv.permits {permits : Nat} {pending_forget : UInt64} {sema_delta : Int64}
    (hinv : PoolInv s) :
    PoolInv { s with
      permits := permits, pending_forget := pending_forget, sema_delta := sema_delta } :=
  ⟨hinv.held, hinv.counted, hinv.gauge, hinv.hung_up, hinv.leaving, hinv.returned⟩

theorem forget_inv (hinv : PoolInv s) : PoolInv s.forget := by
  unfold Pool.forget
  exact hinv.permits

theorem settle_inv (hinv : PoolInv s) (hfits : s.TakesGrowth) (h : s.settle = some s') :
    PoolInv s' := by
  obtain ⟨hpc, hsettles⟩ := settle_cases h
  have hmoved : PoolInv { s with pc := .decide_flush } :=
    hinv.move (by rw [hpc]; rfl) rfl rfl
  cases hsettles with
  | refused hgrow hover =>
    have hle := hfits hgrow
    omega
  | overfull hgrow _ hover =>
    have hle := hfits hgrow
    omega
  | grown _ _ => exact forget_inv hmoved.permits
  | shrunk _ => exact forget_inv hmoved.permits
  | steady _ _ => exact forget_inv hmoved.permits

theorem decide_flush_inv {elapsed : Bool} (hinv : PoolInv s)
    (h : s.decide_flush elapsed = some s') : PoolInv s' := by
  unfold Pool.decide_flush at h
  split at h
  · rename_i hpc
    split at h
    · cases h
      exact hinv.move (by rw [hpc]; rfl) rfl rfl
    · cases h
      refine ⟨?_, hinv.counted, hinv.gauge, hinv.hung_up, ?_, ?_⟩
      · intro r
        have hheld := hinv.held r
        simp only [Pool.held, hpc, BatcherPc.batch, List.count_nil] at hheld ⊢
        omega
      · intro hl
        cases hl
      · intro hret
        cases hret
  · cases h

theorem load_target_inv (hinv : PoolInv s) (h : s.load_target = some s') : PoolInv s' := by
  unfold Pool.load_target at h
  split at h
  · rename_i batch tail hpc
    have hleaving := hinv.leaving
    rw [hpc] at hleaving
    split at h
    · cases h
      refine ⟨?_, hinv.counted, hinv.gauge, hinv.hung_up, hleaving, ?_⟩
      · intro r
        have hheld := hinv.held r
        simp only [Pool.held, hpc, BatcherPc.batch] at hheld ⊢
        exact hheld
      · intro hret
        cases hret
    · cases h
      refine ⟨?_, ⟨hinv.counted.exported, hinv.counted.failed, ?_⟩, hinv.gauge, hinv.hung_up,
        ?_, ?_⟩
      · intro r
        have hheld := hinv.held r
        have hhand : s.pc.batch = batch := by rw [hpc]; rfl
        simp only [Pool.held, Pool.book_dropped, hhand, after_batch_batch, List.count_append,
          List.count_nil] at hheld ⊢
        omega
      · simp only [Pool.book_dropped, List.length_append]
        exact counted_add hinv.counted.dropped
      · intro hl
        rw [after_batch_leaving] at hl
        exact hleaving hl
      · intro hret
        exact absurd hret (after_batch_ne_returned tail)
  · cases h

theorem acquire_inv (hinv : PoolInv s) (h : s.acquire = some s') : PoolInv s' := by
  unfold Pool.acquire at h
  split at h
  · rename_i batch tail hpc
    split at h
    · cases h
      have hleaving := hinv.leaving
      rw [hpc] at hleaving
      refine ⟨?_, ⟨hinv.counted.exported, hinv.counted.failed, hinv.counted.dropped⟩, ?_,
        hinv.hung_up, ?_, ?_⟩
      · intro r
        have hheld := hinv.held r
        have hhand : s.pc.batch = batch := by rw [hpc]; rfl
        have howed : ([⟨batch, .sending⟩] : List (FlushTask ρ)).flatMap FlushTask.unbooked = batch :=
          List.append_nil batch
        simp only [Pool.held, hhand, after_batch_batch, List.flatMap_append, howed,
          List.count_append, List.count_nil] at hheld ⊢
        omega
      · -- the new task is running
        show s.health.inflight + 1 = UInt64.ofNat
          ((s.tasks ++ [(⟨batch, .sending⟩ : FlushTask ρ)]).countP FlushTask.running)
        rw [List.countP_append]
        exact counted_add hinv.gauge
      · intro hl
        rw [after_batch_leaving] at hl
        exact hleaving hl
      · intro hret
        exact absurd hret (after_batch_ne_returned tail)
    · cases h
  · cases h

/-- Ended tasks owe nothing and are not in the gauge. -/
theorem reap_inv (hinv : PoolInv s) (h : s.reap = some s') : PoolInv s' := by
  unfold Pool.reap at h
  split at h
  · rename_i hpc
    cases h
    refine ⟨?_, hinv.counted, ?_, hinv.hung_up, ?_, ?_⟩
    · intro r
      have hheld := hinv.held r
      have hreap := flatMap_filter_of_nil FlushTask.unbooked FlushTask.running s.tasks
        unbooked_of_ended
      have hhand : s.pc.batch = [] := by rw [hpc]; rfl
      show s.queue.count r + s.buf.count r + List.count r []
        + ((s.tasks.filter FlushTask.running).flatMap FlushTask.unbooked).count r
        + s.ledger.exported.count r + s.ledger.failed.count r + s.ledger.dropped.count r = _
      rw [hreap, ← hhand]
      exact hheld
    · show s.health.inflight
        = UInt64.ofNat ((s.tasks.filter FlushTask.running).countP FlushTask.running)
      rw [List.countP_filter, hinv.gauge]
      simp only [Bool.and_self]
    · intro hl
      cases hl
    · intro hret
      cases hret
  · cases h

theorem join_inv (hinv : PoolInv s) (h : s.join = some s') : PoolInv s' := by
  unfold Pool.join at h
  split at h
  · rename_i hpc
    split at h
    · rename_i hall
      cases h
      have hended : ∀ t ∈ s.tasks, t.running = false := by
        intro t ht
        simpa [FlushTask.running] using List.all_eq_true.mp hall t ht
      have hleaving := hinv.leaving
      rw [hpc] at hleaving
      refine ⟨?_, hinv.counted, ?_, hinv.hung_up, fun _ => hleaving rfl, fun _ => rfl⟩
      · intro r
        have hheld := hinv.held r
        have howed : s.tasks.flatMap FlushTask.unbooked = [] := by
          rw [List.flatMap_eq_nil_iff]
          exact fun t ht => unbooked_of_ended t (hended t ht)
        simp only [Pool.held, hpc, BatcherPc.batch, howed, List.flatMap_nil] at hheld ⊢
        exact hheld
      · show s.health.inflight = UInt64.ofNat 0
        rw [hinv.gauge, List.countP_eq_zero.mpr (fun t ht => by simp [hended t ht])]
    · cases h
  · cases h

/-! ### Flush tasks -/

/-- A task in phase `phase` after a booking: what it owed and what it owes
    now differ by what was booked. -/
theorem owed_set {i : Nat} {t : FlushTask ρ} (ht : s.tasks[i]? = some t) (phase : FlushPhase)
    (r : ρ) :
    ((s.tasks.set i { t with phase := phase }).flatMap FlushTask.unbooked).count r
        + t.unbooked.count r
      = (s.tasks.flatMap FlushTask.unbooked).count r
        + (FlushTask.unbooked { t with phase := phase }).count r :=
  Entries.count_flatMap_set FlushTask.unbooked r _ ht

theorem returned_no_task {i : Nat} {t : FlushTask ρ} (hinv : PoolInv s)
    (ht : s.tasks[i]? = some t) : s.pc ≠ .returned := by
  intro hret
  rw [hinv.returned hret] at ht
  simp at ht

theorem flush_answer_inv {i : Nat} {success : Bool} (hinv : PoolInv s)
    (h : s.flush_answer i success = some s') : PoolInv s' := by
  unfold Pool.flush_answer at h
  split at h
  · rename_i t ht
    have hret := returned_no_task hinv ht
    split at h
    · rename_i hphase
      have hbatch : t.unbooked = t.batch := by rw [FlushTask.unbooked, hphase]
      have hrunning : t.running = true := by simp [FlushTask.running, hphase]
      split at h
      · -- the batch leaves the task's hands and is exported
        cases h
        refine ⟨?_, ⟨?_, hinv.counted.failed, hinv.counted.dropped⟩, ?_, hinv.hung_up,
          hinv.leaving, fun hpc => absurd hpc hret⟩
        · intro r
          have hheld := hinv.held r
          have howed := owed_set ht .exported r
          rw [hbatch] at howed
          simp only [Pool.held, Pool.set_phase, Pool.book_exported, List.count_append,
            FlushTask.unbooked, List.count_nil] at hheld howed ⊢
          omega
        · simp only [Pool.book_exported, Pool.set_phase, List.length_append]
          exact counted_add hinv.counted.exported
        · show s.health.inflight = _
          rw [hinv.gauge]
          exact congrArg UInt64.ofNat (running_set ht hrunning (by decide)).symm
      · -- or it has failed
        cases h
        refine ⟨?_, ⟨hinv.counted.exported, ?_, hinv.counted.dropped⟩, ?_, hinv.hung_up,
          hinv.leaving, fun hpc => absurd hpc hret⟩
        · intro r
          have hheld := hinv.held r
          have howed := owed_set ht .failed r
          rw [hbatch] at howed
          simp only [Pool.held, Pool.set_phase, Pool.book_failed, List.count_append,
            FlushTask.unbooked, List.count_nil] at hheld howed ⊢
          omega
        · simp only [Pool.book_failed, Pool.set_phase, List.length_append]
          exact counted_add hinv.counted.failed
        · show s.health.inflight = _
          rw [hinv.gauge]
          exact congrArg UInt64.ofNat (running_set ht hrunning (by decide)).symm
    · cases h
  · cases h

/-- A running task that ends takes one off the gauge. -/
theorem gauge_ended {i : Nat} {t : FlushTask ρ} (hinv : PoolInv s) (ht : s.tasks[i]? = some t)
    (hrunning : t.running = true) :
    s.health.inflight - 1 = UInt64.ofNat
      ((s.tasks.set i { t with phase := .ended }).countP FlushTask.running) := by
  rw [hinv.gauge, ← running_ended ht hrunning, UInt64.ofNat_add]
  exact UInt64.add_sub_cancel _ _

theorem flush_end_inv {i : Nat} (hinv : PoolInv s) (h : s.flush_end i = some s') :
    PoolInv s' := by
  unfold Pool.flush_end at h
  split at h
  · rename_i t ht
    split at h
    · rename_i hphase
      cases h
      have hrunning : t.running = true := by
        rcases hphase with hp | hp <;> simp [FlushTask.running, hp]
      have hnone : t.unbooked = [] := by
        rcases hphase with hp | hp <;> simp [FlushTask.unbooked, hp]
      have hret := returned_no_task hinv ht
      refine ⟨?_, ⟨hinv.counted.exported, hinv.counted.failed, hinv.counted.dropped⟩,
        gauge_ended hinv ht hrunning, hinv.hung_up, hinv.leaving, fun hpc => absurd hpc hret⟩
      intro r
      have hheld := hinv.held r
      have howed := owed_set ht .ended r
      rw [hnone] at howed
      simp only [Pool.held, Pool.set_phase, Pool.release, FlushTask.unbooked,
        List.count_nil] at hheld howed ⊢
      omega
    · cases h
  · cases h

/-- The bracket books a batch that `flush_batch` had not booked. -/
theorem flush_panic_inv {i : Nat} (hinv : PoolInv s)
    (hsending : ∀ t, s.tasks[i]? = some t → t.phase = .sending)
    (h : s.flush_panic i = some s') : PoolInv s' := by
  unfold Pool.flush_panic at h
  split at h
  · rename_i t ht
    have hphase := hsending t ht
    rw [if_neg (by rw [hphase]; nofun)] at h
    cases h
    have hbatch : t.unbooked = t.batch := by rw [FlushTask.unbooked, hphase]
    have hrunning : t.running = true := by simp [FlushTask.running, hphase]
    have hret := returned_no_task hinv ht
    refine ⟨?_, ⟨hinv.counted.exported, ?_, hinv.counted.dropped⟩,
      gauge_ended hinv ht hrunning, hinv.hung_up, hinv.leaving, fun hpc => absurd hpc hret⟩
    · intro r
      have hheld := hinv.held r
      have howed := owed_set ht .ended r
      rw [hbatch] at howed
      simp only [Pool.held, Pool.set_phase, Pool.booking_drop, Pool.release, Pool.book_failed,
        FlushTask.unbooked, List.count_append, List.count_nil] at hheld howed ⊢
      omega
    · simp only [Pool.booking_drop, Pool.release, Pool.book_failed, Pool.set_phase,
        List.length_append]
      exact counted_add hinv.counted.failed
  · cases h

/-! ### Runs -/

theorem export_step_inv (s : Pool ρ τ) (e : ExportEvent ρ τ) (s' : Pool ρ τ) (hinv : PoolInv s)
    (hguard : BookedOnce s e) (h : export_step s e = some s') : PoolInv s' := by
  cases e with
  | submit_check r => exact submit_check_inv hinv h
  | submit_send i => exact submit_send_inv hinv h
  | apply_target new_target max_inflight =>
    simp only [export_step] at h
    split at h
    · cases h
    · cases h
      exact ⟨hinv.held, hinv.counted, hinv.gauge, hinv.hung_up, hinv.leaving, hinv.returned⟩
  | reload_step i => exact reload_step_inv hinv h
  | shutdown => exact shutdown_inv hinv h
  | recv_record => exact recv_record_inv hinv h
  | recv_closed => exact recv_closed_inv hinv h
  | recv_tick => exact recv_tick_inv hinv h
  | settle => exact settle_inv hinv hguard h
  | decide_flush elapsed => exact decide_flush_inv hinv h
  | load_target => exact load_target_inv hinv h
  | acquire => exact acquire_inv hinv h
  | reap => exact reap_inv hinv h
  | join => exact join_inv hinv h
  | flush_answer i success => exact flush_answer_inv hinv h
  | flush_end i => exact flush_end_inv hinv h
  | flush_panic i => exact flush_panic_inv hinv hguard h

omit [DecidableEq ρ] in
/-- **Conservation**: in every run of the exporter in which no flush task
    panics after its batch is booked, and the semaphore takes every width
    change, each submitted record is in exactly one place, and the counters
    account for all of them when the loop returns. -/
theorem export_conserved (target : Option τ) (max_inflight : UInt64) (s s' : Pool ρ τ)
    (events : List (ExportEvent ρ τ)) (hstart : Pool.start target max_inflight = some s)
    (hguard : Guarded export_step BookedOnce s events)
    (hrun : run export_step s events = some s') : Conserved s' := by
  classical
  have hinv := run_invariant export_step_inv events s s' (start_inv hstart) hguard hrun
  exact hinv.conserved

/-- One record is submitted and its batch is sent; the answer is `success`. -/
def one_flush (success : Bool) : List (ExportEvent Nat Unit) :=
  [.submit_check 7, .submit_send 0, .recv_record, .settle, .decide_flush true, .load_target,
    .acquire, .flush_answer 0 success]

/-- The whole life of an exporter whose one flush panics before the answer. -/
def panicked_flush : List (ExportEvent Nat Unit) :=
  (one_flush true).dropLast ++ [.flush_panic 0, .reap, .shutdown, .recv_closed, .join]

theorem export_conserved_panicked :
    ∃ s s' : Pool Nat Unit, Pool.start (some ()) 1 = some s ∧
      run export_step s panicked_flush = some s' ∧ s'.pc = .returned ∧
      s'.health.failed = 1 ∧ Conserved s' := by
  refine ⟨_, _, rfl, rfl, rfl, rfl, ?_⟩
  exact export_conserved (some ()) 1 _ _ panicked_flush rfl (by decide) rfl

/-- The failure arm books the batch and then writes to stderr: when the write
    panics, the bracket books the batch again. -/
theorem failed_flush_booked_twice :
    ∃ s s' : Pool Nat Unit, Pool.start (some ()) 1 = some s ∧
      run export_step s (one_flush false ++ [.flush_panic 0]) = some s' ∧
      s'.ledger.submitted = [7] ∧ s'.health.failed = 2 ∧ ¬ Conserved s' := by
  refine ⟨_, _, rfl, rfl, rfl, rfl, ?_⟩
  intro h
  exact absurd h.one_place (by decide)

end AgentTraceGateway
