import AgentTraceGateway.Export.Conservation
import AgentTraceGateway.Lib.Words

/-! # Pool Width

  The width of the flush pool is spread over the semaphore, the permits its
  flush tasks hold, the delta that `apply_target` queues and the permits that
  a shrink could not forget yet. The four are kept in balance by every step,
  as long as no machine word overflows and no growth alone exceeds the
  semaphore's limit; a sum beyond it costs the batcher, not the balance.

  The balance says how many batches may be in flight, but not how many are:
  a permit released while a shrink is pending goes to a batcher that already
  waits for one. -/

namespace AgentTraceGateway

/-! ### The balance -/

variable {ρ τ : Type}

/-- What a call of `apply_target` has swapped into the width and not queued
    yet. -/
def Reload.owed (reload : Reload τ) : Int :=
  match reload.phase with
  | .queue_delta delta => delta.toInt
  | _ => 0

namespace Pool

def owed (s : Pool ρ τ) : Int := (s.reloads.map Reload.owed).sum

/-- The batches in flight; each of them holds a permit. -/
def in_flight (s : Pool ρ τ) : Nat := s.tasks.countP FlushTask.running

/-- The permits free and held, less those that are still to be forgotten. -/
def net_width (s : Pool ρ τ) : Int := s.permits + s.in_flight - s.pending_forget.toNat

end Pool

/-- The permits, the queued delta and what is still to be forgotten make up
    the configured width; with nothing outstanding the semaphore has it. -/
structure WidthAccounted (s : Pool ρ τ) : Prop where
  balance : (s.permits : Int) + s.in_flight + s.sema_delta.toInt + s.owed
    - s.pending_forget.toNat = s.max_inflight.toNat
  clamped : 1 ≤ s.max_inflight.toNat
  settled : s.sema_delta = 0 → s.owed = 0 → s.pending_forget = 0 →
    s.permits + s.in_flight = s.max_inflight.toNat
  never_below : s.sema_delta = 0 → s.owed = 0 → s.max_inflight.toNat ≤ s.permits + s.in_flight

/-- The next operation of a call fits: the width is an `i64`, and so is the
    sum of the queued delta and its own. -/
def Reload.Fits (reload : Reload τ) (sema_delta : Int64) : Prop :=
  match reload.phase with
  | .swap => reload.new_width.toNat < 2 ^ 63
  | .queue_delta delta =>
    -2 ^ 63 ≤ sema_delta.toInt + delta.toInt ∧ sema_delta.toInt + delta.toInt < 2 ^ 63
  | _ => True

instance (reload : Reload τ) (sema_delta : Int64) : Decidable (reload.Fits sema_delta) := by
  unfold Reload.Fits
  split <;> infer_instance

/-- The steps whose width arithmetic fits: no word overflows, and the growth
    is one the semaphore adds before it looks at the sum. -/
def WidthFits (s : Pool ρ τ) : ExportEvent ρ τ → Prop
  | .reload_step i => ∀ reload, s.reloads[i]? = some reload → reload.Fits s.sema_delta
  | .settle =>
    (0 < s.sema_delta → s.sema_delta.toUInt64.toNat ≤ MAX_PERMITS) ∧
      (s.sema_delta < 0 → s.pending_forget.toNat + (-s.sema_delta).toUInt64.toNat < 2 ^ 64)
  | _ => True

instance (s : Pool ρ τ) (e : ExportEvent ρ τ) : Decidable (WidthFits s e) :=
  match e with
  | .reload_step i =>
    decidable_of_iff (∀ reload ∈ s.reloads[i]?, reload.Fits s.sema_delta) (by simp [WidthFits])
  | .settle => inferInstanceAs (Decidable (_ ∧ _))
  | .submit_check _ | .submit_send _ | .apply_target _ _ | .shutdown | .recv_record
  | .recv_closed | .recv_tick | .decide_flush _ | .load_target | .acquire | .reap | .join
  | .flush_answer _ _ | .flush_end _ | .flush_panic _ => isTrue trivial

/-- The delta that a step of the batcher drains. -/
def drains (s : Pool ρ τ) : ExportEvent ρ τ → Int
  | .settle => s.sema_delta.toInt
  | _ => 0

/-- What one step does to the width: the batcher moves the permits by the
    delta it drains, a call moves the configured width and what it owes. -/
structure WidthStep (s : Pool ρ τ) (e : ExportEvent ρ τ) (s' : Pool ρ τ) : Prop where
  net : s'.net_width = s.net_width + drains s e
  queued : s'.sema_delta.toInt + s'.owed + drains s e - s'.max_inflight.toNat
    = s.sema_delta.toInt + s.owed - s.max_inflight.toNat
  small : s.max_inflight.toNat < 2 ^ 63 → s'.max_inflight.toNat < 2 ^ 63
  clamped : 1 ≤ s.max_inflight.toNat → 1 ≤ s'.max_inflight.toNat

variable {s s' : Pool ρ τ}

/-- A step that leaves the width alone. -/
theorem WidthStep.idle {e : ExportEvent ρ τ} (hdrains : drains s e = 0)
    (hnet : s'.net_width = s.net_width) (hdelta : s'.sema_delta = s.sema_delta)
    (howed : s'.owed = s.owed) (hmax : s'.max_inflight = s.max_inflight) : WidthStep s e s' := by
  refine ⟨?_, ?_, ?_, ?_⟩
  · rw [hnet, hdrains]
    omega
  · rw [hdelta, howed, hmax, hdrains]
    omega
  · rw [hmax]
    exact id
  · rw [hmax]
    exact id

/-! ### Calls of `apply_target` -/

/-- One call moves to another phase; the others owe what they owed. -/
theorem owed_set_phase {i : Nat} {reload : Reload τ} (hreload : s.reloads[i]? = some reload)
    (phase : ReloadPhase) :
    ((s.reloads.set i { reload with phase := phase }).map Reload.owed).sum
      = s.owed - reload.owed + ({ reload with phase := phase } : Reload τ).owed := by
  have hset := Entries.sum_map_set Reload.owed ({ reload with phase := phase } : Reload τ) hreload
  unfold Pool.owed
  omega

theorem reload_step_width {i : Nat} (hsmall : s.max_inflight.toNat < 2 ^ 63)
    (hguard : WidthFits s (.reload_step i)) (h : s.reload_step i = some s') :
    WidthStep s (.reload_step i) s' := by
  unfold Pool.reload_step at h
  split at h
  · cases h
  rename_i reload hreload
  have hfits := hguard reload hreload
  unfold Reload.Fits at hfits
  cases hphase : reload.phase with
  | write =>
    rw [hphase] at h
    cases h
    refine WidthStep.idle rfl rfl rfl ?_ rfl
    refine (owed_set_phase hreload _).trans ?_
    simp only [Reload.owed, hphase]
    omega
  | enable now_enabled =>
    rw [hphase] at h
    cases h
    refine WidthStep.idle rfl rfl rfl ?_ rfl
    refine (owed_set_phase hreload _).trans ?_
    simp only [Reload.owed, hphase]
    omega
  | swap =>
    -- The width takes its new value, and the call owes the difference.
    rw [hphase] at h hfits
    cases h
    have hwidth := Words.toNat_max_one reload.new_width
    have hnew : (max reload.new_width 1).toNat < 2 ^ 63 := by
      have hfits : reload.new_width.toNat < 2 ^ 63 := hfits
      omega
    have howed := owed_set_phase hreload
      (.queue_delta ((max reload.new_width 1).toInt64 - s.max_inflight.toInt64))
    have hdelta := Words.toInt_sub_of_lt hnew hsmall
    refine ⟨?_, ?_, fun _ => hnew, ?_⟩
    · show s.net_width = s.net_width + 0
      omega
    · show s.sema_delta.toInt + ((s.reloads.set i _).map Reload.owed).sum + 0
        - ((max reload.new_width 1).toNat : Int) = _
      simp only [Reload.owed, hphase] at howed
      rw [howed, hdelta]
      omega
    · intro _
      show 1 ≤ (max reload.new_width 1).toNat
      omega
  | queue_delta delta =>
    -- What the call owed is queued.
    rw [hphase] at h hfits
    cases h
    have herase := Entries.sum_map_eraseIdx Reload.owed hreload
    have hqueue := Words.toInt_add_of_fits hfits.1 hfits.2
    have howed : reload.owed = delta.toInt := by rw [Reload.owed, hphase]
    refine ⟨?_, ?_, id, id⟩
    · show s.net_width = s.net_width + 0
      omega
    · show (s.sema_delta + delta).toInt + ((s.reloads.eraseIdx i).map Reload.owed).sum + 0
        - (s.max_inflight.toNat : Int) = _
      rw [hqueue]
      unfold Pool.owed
      omega

/-! ### The batcher -/

theorem min_forgotten (permits : Nat) {pending : Nat} (h : pending < 2 ^ 64) :
    (UInt64.ofNat (min permits pending)).toNat = min permits pending := by
  rw [UInt64.toNat_ofNat']
  exact Nat.mod_eq_of_lt (by omega)

/-- Forgetting takes as much off the permits as off what is to be forgotten. -/
theorem forget_net_width (s : Pool ρ τ) : s.forget.net_width = s.net_width := by
  have hlt := s.pending_forget.toNat_lt
  have hword := min_forgotten s.permits hlt
  have hle : UInt64.ofNat (min s.permits s.pending_forget.toNat) ≤ s.pending_forget := by
    rw [UInt64.le_iff_toNat_le, hword]
    omega
  -- the minimum goes off both sides of the difference
  unfold Pool.net_width Pool.forget
  dsimp only
  rw [UInt64.toNat_sub_of_le _ _ hle, hword]
  show ((s.permits - min s.permits s.pending_forget.toNat : Nat) : Int) + s.in_flight - _ = _
  omega

/-- A flush task that is dropped hands its permit back. -/
theorem booking_drop_net_width (s : Pool ρ τ) (batch : List ρ) :
    (s.booking_drop batch).net_width = s.net_width + 1 := by
  show ((s.permits + 1 : Nat) : Int) + s.in_flight - s.pending_forget.toNat = s.net_width + 1
  unfold Pool.net_width
  omega

theorem bookings_dropped_width (tasks : List (FlushTask ρ)) : ∀ s : Pool ρ τ,
    (tasks.foldl (fun s t => s.booking_drop t.batch) s).net_width = s.net_width + tasks.length ∧
      (tasks.foldl (fun s t => s.booking_drop t.batch) s).sema_delta = s.sema_delta ∧
      (tasks.foldl (fun s t => s.booking_drop t.batch) s).owed = s.owed ∧
      (tasks.foldl (fun s t => s.booking_drop t.batch) s).max_inflight = s.max_inflight := by
  induction tasks with
  | nil => exact fun s => ⟨(Int.add_zero _).symm, rfl, rfl, rfl⟩
  | cons t tasks ih =>
    intro s
    obtain ⟨hnet, hdelta, howed, hmax⟩ := ih (s.booking_drop t.batch)
    refine ⟨?_, hdelta, howed, hmax⟩
    rw [booking_drop_net_width] at hnet
    rw [List.foldl_cons, hnet, List.length_cons]
    omega

/-- A panic of the batcher leaves the width: its flush tasks are dropped, and
    nothing that is queued or owed moves. -/
theorem die_width (s : Pool ρ τ) :
    s.die.net_width = s.net_width ∧ s.die.sema_delta = s.sema_delta ∧ s.die.owed = s.owed ∧
      s.die.max_inflight = s.max_inflight := by
  obtain ⟨hnet, hdelta, howed, hmax⟩ := bookings_dropped_width (s.tasks.filter FlushTask.running)
    ({ s with queue := [], buf := [], tasks := [], pc := .died } : Pool ρ τ)
  refine ⟨?_, hdelta, howed, hmax⟩
  rw [← List.countP_eq_length_filter] at hnet
  refine hnet.trans ?_
  show (s.permits : Int) + (0 : Nat) - s.pending_forget.toNat + s.in_flight = s.net_width
  unfold Pool.net_width
  omega

theorem settle_width (hguard : WidthFits s .settle) (h : s.settle = some s') :
    WidthStep s .settle s' := by
  obtain ⟨hpc, hsettles⟩ := settle_cases h
  cases hsettles with
  | refused hgrow hover =>
    have hle := hguard.1 hgrow
    omega
  | overfull hgrow hle hover =>
    -- The permits are added before the batcher dies.
    have hdelta := Words.toNat_of_pos hgrow
    obtain ⟨hnet, hzero, howed, hmax⟩ := die_width ({ s with
      sema_delta := 0
      pc := .decide_flush
      permits := s.permits + s.sema_delta.toUInt64.toNat } : Pool ρ τ)
    refine ⟨?_, ?_, by rw [hmax]; exact id, by rw [hmax]; exact id⟩
    · rw [hnet]
      show ((s.permits + s.sema_delta.toUInt64.toNat : Nat) : Int) + s.in_flight
        - s.pending_forget.toNat = s.permits + s.in_flight - s.pending_forget.toNat
          + s.sema_delta.toInt
      omega
    · rw [hzero, howed, hmax]
      show (0 : Int) + s.owed + s.sema_delta.toInt - s.max_inflight.toNat = _
      omega
  | grown hgrow hsum =>
    have hdelta := Words.toNat_of_pos hgrow
    refine ⟨?_, ?_, id, id⟩
    · rw [forget_net_width]
      show ((s.permits + s.sema_delta.toUInt64.toNat : Nat) : Int) + s.in_flight
        - s.pending_forget.toNat = s.permits + s.in_flight - s.pending_forget.toNat
          + s.sema_delta.toInt
      omega
    · show (0 : Int) + s.owed + s.sema_delta.toInt - s.max_inflight.toNat = _
      omega
  | shrunk hshrink =>
    -- What is to be forgotten grows.
    have hdelta := Words.toNat_of_neg hshrink
    have hfits := hguard.2 hshrink
    refine ⟨?_, ?_, id, id⟩
    · rw [forget_net_width]
      show (s.permits : Int) + s.in_flight
        - ((s.pending_forget + (-s.sema_delta).toUInt64).toNat : Int)
          = s.permits + s.in_flight - s.pending_forget.toNat + s.sema_delta.toInt
      rw [UInt64.toNat_add, Nat.mod_eq_of_lt hfits]
      omega
    · show (0 : Int) + s.owed + s.sema_delta.toInt - s.max_inflight.toNat = _
      omega
  | steady hgrow hshrink =>
    -- Nothing queued: only forgetting goes on.
    have hzero : s.sema_delta.toInt = 0 := by
      have hle := mt Int64.lt_iff_toInt_lt.mpr hgrow
      have hge := mt Int64.lt_iff_toInt_lt.mpr hshrink
      have hint : (0 : Int64).toInt = 0 := rfl
      omega
    refine ⟨?_, ?_, id, id⟩
    · rw [forget_net_width]
      show s.net_width = s.net_width + s.sema_delta.toInt
      omega
    · show (0 : Int) + s.owed + s.sema_delta.toInt - s.max_inflight.toNat = _
      omega

theorem acquire_width (h : s.acquire = some s') :
    WidthStep s .acquire s' ∧ s'.in_flight = s.in_flight + 1 := by
  unfold Pool.acquire at h
  split at h
  · rename_i batch tail hpc
    split at h
    · -- One permit more is held, one less is free.
      rename_i hfree
      cases h
      have hcount : (s.tasks ++ [(⟨batch, .sending⟩ : FlushTask ρ)]).countP FlushTask.running
          = s.in_flight + 1 := by
        rw [List.countP_append]
        rfl
      refine ⟨WidthStep.idle rfl ?_ rfl rfl rfl, hcount⟩
      show ((s.permits - 1 : Nat) : Int) + ((s.tasks ++ [_]).countP FlushTask.running : Nat)
        - (s.pending_forget.toNat : Int) = _
      rw [hcount]
      unfold Pool.net_width
      omega
    · cases h
  · cases h

/-! ### Flush tasks -/

/-- A flush task that ends hands its permit back. -/
theorem ended_net_width {i : Nat} {t : FlushTask ρ} (ht : s.tasks[i]? = some t)
    (hrunning : t.running = true) :
    ((s.permits + 1 : Nat) : Int)
        + ((s.tasks.set i { t with phase := .ended }).countP FlushTask.running : Nat)
        - s.pending_forget.toNat = s.net_width := by
  have hended := running_ended ht hrunning
  unfold Pool.net_width Pool.in_flight
  omega

theorem flush_answer_width {i : Nat} {success : Bool} (h : s.flush_answer i success = some s') :
    WidthStep s (.flush_answer i success) s' := by
  unfold Pool.flush_answer at h
  split at h
  · rename_i t ht
    split at h
    · rename_i hphase
      have hrunning : t.running = true := by simp [FlushTask.running, hphase]
      -- either way the task still runs, so it holds its permit
      split at h
      · cases h
        refine WidthStep.idle rfl ?_ rfl rfl rfl
        show (s.permits : Int) + ((s.tasks.set i _).countP FlushTask.running : Nat) - _ = _
        rw [running_set ht hrunning (by decide)]
        rfl
      · cases h
        refine WidthStep.idle rfl ?_ rfl rfl rfl
        show (s.permits : Int) + ((s.tasks.set i _).countP FlushTask.running : Nat) - _ = _
        rw [running_set ht hrunning (by decide)]
        rfl
    · cases h
  · cases h

theorem flush_end_width {i : Nat} (h : s.flush_end i = some s') :
    WidthStep s (.flush_end i) s' := by
  unfold Pool.flush_end at h
  split at h
  · rename_i t ht
    split at h
    · rename_i hphase
      cases h
      have hrunning : t.running = true := by
        rcases hphase with hp | hp <;> simp [FlushTask.running, hp]
      exact WidthStep.idle rfl (ended_net_width ht hrunning) rfl rfl rfl
    · cases h
  · cases h

theorem flush_panic_width {i : Nat} (h : s.flush_panic i = some s') :
    WidthStep s (.flush_panic i) s' := by
  unfold Pool.flush_panic at h
  split at h
  · rename_i t ht
    split at h
    · cases h
    · rename_i hphase
      cases h
      have hrunning : t.running = true := by simp [FlushTask.running, hphase]
      exact WidthStep.idle rfl (ended_net_width ht hrunning) rfl rfl rfl
  · cases h

/-! ### Runs -/

theorem export_step_width (e : ExportEvent ρ τ) (hsmall : s.max_inflight.toNat < 2 ^ 63)
    (hguard : WidthFits s e) (h : export_step s e = some s') : WidthStep s e s' := by
  cases e with
  | submit_check r =>
    simp only [export_step, Pool.submit_check] at h
    split_ifs at h <;> cases h <;> exact WidthStep.idle rfl rfl rfl rfl rfl
  | submit_send i =>
    simp only [export_step, Pool.submit_send] at h
    split at h
    · cases h
    · split_ifs at h <;> cases h <;> exact WidthStep.idle rfl rfl rfl rfl rfl
  | apply_target new_target max_inflight =>
    simp only [export_step] at h
    split_ifs at h
    cases h
    -- the call has swapped nothing yet
    refine WidthStep.idle rfl rfl rfl ?_ rfl
    show ((s.reloads ++ [_]).map Reload.owed).sum = s.owed
    rw [List.map_append, List.sum_append]
    exact Int.add_zero _
  | reload_step i => exact reload_step_width hsmall hguard h
  | shutdown =>
    simp only [export_step, Pool.shutdown] at h
    split_ifs at h
    cases h
    exact WidthStep.idle rfl rfl rfl rfl rfl
  | recv_record =>
    simp only [export_step, Pool.recv_record] at h
    split at h <;> cases h
    exact WidthStep.idle rfl rfl rfl rfl rfl
  | recv_closed =>
    simp only [export_step, Pool.recv_closed] at h
    split at h
    · split_ifs at h <;> cases h <;> exact WidthStep.idle rfl rfl rfl rfl rfl
    · cases h
  | recv_tick =>
    simp only [export_step, Pool.recv_tick] at h
    split at h <;> cases h
    exact WidthStep.idle rfl rfl rfl rfl rfl
  | settle => exact settle_width hguard h
  | decide_flush elapsed =>
    simp only [export_step, Pool.decide_flush] at h
    split at h
    · split_ifs at h <;> cases h <;> exact WidthStep.idle rfl rfl rfl rfl rfl
    · cases h
  | load_target =>
    simp only [export_step, Pool.load_target] at h
    split at h
    · split at h <;> cases h <;> exact WidthStep.idle rfl rfl rfl rfl rfl
    · cases h
  | acquire => exact (acquire_width h).1
  | reap =>
    simp only [export_step, Pool.reap] at h
    split at h <;> cases h
    refine WidthStep.idle rfl ?_ rfl rfl rfl
    -- only tasks that have ended are dropped
    have hcount : (s.tasks.filter FlushTask.running).countP FlushTask.running = s.in_flight := by
      rw [List.countP_filter]
      simp only [Bool.and_self]
      rfl
    show (s.permits : Int) + ((s.tasks.filter FlushTask.running).countP FlushTask.running : Nat)
      - (s.pending_forget.toNat : Int) = _
    rw [hcount]
    rfl
  | join =>
    simp only [export_step, Pool.join] at h
    split at h
    · split_ifs at h with hall
      cases h
      refine WidthStep.idle rfl ?_ rfl rfl rfl
      -- the tasks that are joined have all ended
      have hcount : s.in_flight = 0 := by
        apply List.countP_eq_zero.mpr
        intro t ht
        simpa [FlushTask.running] using List.all_eq_true.mp hall t ht
      show (s.permits : Int) + (0 : Nat) - (s.pending_forget.toNat : Int) = _
      unfold Pool.net_width
      rw [hcount]
    · cases h
  | flush_answer i success => exact flush_answer_width h
  | flush_end i => exact flush_end_width h
  | flush_panic i => exact flush_panic_width h

/-- The deltas that the batcher has drained along a run. -/
def drained (s : Pool ρ τ) : List (ExportEvent ρ τ) → Int
  | [] => 0
  | e :: events => drains s e + ((export_step s e).map fun s' => drained s' events).getD 0

/-- What every step keeps. -/
structure WidthInv (s : Pool ρ τ) : Prop where
  balance : s.net_width + s.sema_delta.toInt + s.owed = s.max_inflight.toNat
  small : s.max_inflight.toNat < 2 ^ 63
  clamped : 1 ≤ s.max_inflight.toNat

theorem start_width {target : Option τ} {max_inflight : UInt64}
    (h : Pool.start target max_inflight = some s) :
    WidthInv s ∧ s.net_width = (max max_inflight.toNat 1 : Nat) := by
  have hmax := Words.toNat_max_one max_inflight
  unfold Pool.start at h
  dsimp only at h
  split at h
  · cases h
  · rename_i hfits
    cases h
    have hfits : (max max_inflight 1).toNat ≤ MAX_PERMITS := Nat.le_of_not_lt hfits
    have hnet : ∀ n : Nat, (n : Int) + (0 : Nat) - ((0 : UInt64).toNat : Int) = n := by
      intro n
      show (n : Int) + 0 - 0 = n
      omega
    refine ⟨⟨?_, ?_, ?_⟩, ?_⟩
    · show ((max max_inflight 1).toNat : Int) + (0 : Nat) - ((0 : UInt64).toNat : Int) + 0 + 0 = _
      rw [hnet]
      exact Int.add_zero _
    · exact Nat.lt_of_le_of_lt hfits (by decide)
    · show 1 ≤ (max max_inflight 1).toNat
      omega
    · show ((max max_inflight 1).toNat : Int) + (0 : Nat) - ((0 : UInt64).toNat : Int) = _
      rw [hnet, hmax]

theorem WidthInv.step {e : ExportEvent ρ τ} (hinv : WidthInv s) (h : WidthStep s e s') :
    WidthInv s' := by
  refine ⟨?_, h.small hinv.small, h.clamped hinv.clamped⟩
  have hnet := h.net
  have hqueued := h.queued
  have hbalance := hinv.balance
  omega

/-- A run keeps the balance, and moves the permits by what was drained. -/
theorem width_run : ∀ (events : List (ExportEvent ρ τ)) (s s' : Pool ρ τ), WidthInv s →
    Guarded export_step WidthFits s events → run export_step s events = some s' →
      WidthInv s' ∧ s'.net_width = s.net_width + drained s events := by
  intro events
  induction events with
  | nil =>
    intro s s' hinv _ hrun
    cases hrun
    refine ⟨hinv, ?_⟩
    show s.net_width = s.net_width + 0
    omega
  | cons e events ih =>
    intro s s' hinv hguard hrun
    obtain ⟨s₁, hs₁, hrest⟩ := Option.bind_eq_some_iff.mp hrun
    have hstep := export_step_width e hinv.small hguard.1 hs₁
    obtain ⟨hinv', hnet⟩ := ih s₁ s' (hinv.step hstep) (hguard.2 s₁ hs₁) hrest
    refine ⟨hinv', ?_⟩
    have hdrained : drained s (e :: events) = drains s e + drained s₁ events := by
      simp only [drained, hs₁, Option.map_some, Option.getD_some]
    rw [hnet, hstep.net, hdrained]
    omega

theorem WidthInv.accounted (hinv : WidthInv s) : WidthAccounted s := by
  have hbalance := hinv.balance
  unfold Pool.net_width at hbalance
  refine ⟨?_, hinv.clamped, ?_, ?_⟩
  · omega
  · intro hdelta howed hpending
    have hint : s.sema_delta.toInt = 0 := by rw [hdelta]; rfl
    have hnat : s.pending_forget.toNat = 0 := by rw [hpending]; rfl
    omega
  · intro hdelta howed
    have hint : s.sema_delta.toInt = 0 := by rw [hdelta]; rfl
    omega

/-- **Width**: in every run of the exporter whose width arithmetic fits, the
    free permits, the permits of the batches in flight, the queued delta and
    what is still to be forgotten make up the configured width. -/
theorem pool_width_accounted (target : Option τ) (max_inflight : UInt64) (s s' : Pool ρ τ)
    (events : List (ExportEvent ρ τ)) (hstart : Pool.start target max_inflight = some s)
    (hguard : Guarded export_step WidthFits s events)
    (hrun : run export_step s events = some s') : WidthAccounted s' :=
  (width_run events s s' (start_width hstart).1 hguard hrun).1.accounted

/-- The whole of one `apply_target` call, the only one in progress. -/
def reload_calls (width : UInt64) : List (ExportEvent Nat Unit) :=
  [.apply_target (some ()) width, .reload_step 0, .reload_step 0, .reload_step 0, .reload_step 0]

/-- One record submitted and dispatched as a batch of its own. -/
def dispatched (r : Nat) : List (ExportEvent Nat Unit) :=
  [.submit_check r, .submit_send 0, .recv_record, .settle, .decide_flush true, .load_target,
    .acquire, .reap]

/-- Two reloads come between two passes while a batch is in flight. -/
theorem pool_width_accounted_regrown :
    ∃ s s' : Pool Nat Unit, Pool.start (some ()) 2 = some s ∧
      run export_step s (dispatched 7 ++ reload_calls 4 ++ reload_calls 1 ++ [.recv_tick, .settle])
        = some s' ∧
      WidthAccounted s' := by
  refine ⟨_, _, rfl, rfl, ?_⟩
  exact pool_width_accounted (some ()) 2 _ _
    (dispatched 7 ++ reload_calls 4 ++ reload_calls 1 ++ [.recv_tick, .settle]) rfl (by decide) rfl

/-- What a growth beyond the semaphore's limit leaves: the batcher has panicked
    in `add_permits`, before a permit was added. -/
def lost_width : Pool Nat Unit where
  enabled := true
  target := some ()
  max_inflight := 0x4000000000000000
  permits := 1
  pc := .died

/-- The width is configured, nothing of it is outstanding, and the semaphore
    never has it. -/
theorem oversized_width_lost :
    ∃ s : Pool Nat Unit, Pool.start (some ()) 1 = some s ∧
      run export_step s (reload_calls 0x4000000000000000 ++ [.recv_tick, .settle]) = some lost_width ∧
      lost_width.sema_delta = 0 ∧ lost_width.reloads = [] ∧ lost_width.pending_forget = 0 ∧
      ¬ WidthAccounted lost_width := by
  refine ⟨_, rfl, by decide +kernel, rfl, rfl, rfl, ?_⟩
  intro h
  have hwidth : (1 + 0 : Nat) = (0x4000000000000000 : UInt64).toNat := h.settled rfl rfl rfl
  exact absurd hwidth (by decide +kernel)

/-- A sum beyond the limit is added before the batcher panics: the semaphore
    has the configured width, though no batcher. -/
example : run export_step
      ({ enabled := true, target := some (), max_inflight := 1, permits := 1 } : Pool Nat Unit)
      (reload_calls 0x2000000000000000 ++ [.recv_tick, .settle])
    = some { enabled := true, target := some (), max_inflight := 0x2000000000000000
             permits := 0x2000000000000000, pc := .died } := by
  decide +kernel

/-! ### The bound on dispatches -/

/-- **In-flight bound**: a batch that is dispatched finds no more batches in
    flight than the drained width allows, itself included, if and only if
    more permits are free than are still to be forgotten. -/
theorem dispatch_bounded_iff (target : Option τ) (max_inflight : UInt64) (s s' s₁ : Pool ρ τ)
    (events : List (ExportEvent ρ τ)) (hstart : Pool.start target max_inflight = some s)
    (hguard : Guarded export_step WidthFits s events)
    (hrun : run export_step s events = some s') (hdispatch : export_step s' .acquire = some s₁) :
    (s₁.in_flight : Int) ≤ (max max_inflight.toNat 1 : Nat) + drained s events ↔
      s'.pending_forget.toNat < s'.permits := by
  obtain ⟨hinv, hnet⟩ := start_width hstart
  have hwidth := (width_run events s s' hinv hguard hrun).2
  have hstarted := (acquire_width hdispatch).2
  rw [hnet] at hwidth
  rw [hstarted, ← hwidth]
  unfold Pool.net_width
  omega

/-- Two batches are in flight when the width shrinks to one; the first to end
    makes room for the third. -/
def shrunk_in_flight : List (ExportEvent Nat Unit) :=
  dispatched 7 ++ dispatched 8 ++ reload_calls 1 ++ [.submit_check 9, .submit_send 0, .recv_record,
    .settle, .decide_flush true, .load_target, .flush_answer 0 true, .flush_end 0]

/-- Both batches end before the third starts: two permits are free, one of
    them is still to be forgotten, and the bound is kept. -/
theorem dispatch_bounded_iff_shrunk :
    ∃ s s' s₁ : Pool Nat Unit, Pool.start (some ()) 2 = some s ∧
      run export_step s (shrunk_in_flight ++ [.flush_answer 1 true, .flush_end 1]) = some s' ∧
      export_step s' .acquire = some s₁ ∧ s'.pending_forget = 1 ∧
      ((s₁.in_flight : Int) ≤ (max (2 : UInt64).toNat 1 : Nat)
          + drained s (shrunk_in_flight ++ [.flush_answer 1 true, .flush_end 1]) ↔
        s'.pending_forget.toNat < s'.permits) := by
  refine ⟨_, _, _, rfl, rfl, rfl, rfl, ?_⟩
  exact dispatch_bounded_iff (some ()) 2 _ _ _
    (shrunk_in_flight ++ [.flush_answer 1 true, .flush_end 1]) rfl (by decide) rfl rfl

/-- The permit of the batch that ends goes to the waiting batcher: two batches
    are in flight on a drained width of one. -/
theorem shrink_overrun :
    ∃ s s' s₁ : Pool Nat Unit, Pool.start (some ()) 2 = some s ∧
      Guarded export_step WidthFits s shrunk_in_flight ∧
      run export_step s shrunk_in_flight = some s' ∧ export_step s' .acquire = some s₁ ∧
      s'.pending_forget = 1 ∧ s₁.in_flight = 2 ∧
      ¬ (s₁.in_flight : Int) ≤ (max (2 : UInt64).toNat 1 : Nat) + drained s shrunk_in_flight := by
  refine ⟨_, _, _, rfl, by decide, rfl, rfl, rfl, rfl, by decide⟩

end AgentTraceGateway
