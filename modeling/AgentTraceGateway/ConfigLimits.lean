import AgentTraceGateway.Config
import AgentTraceGateway.Export.Batching
import AgentTraceGateway.Export.Width
import AgentTraceGateway.Gateway.Relay

/-! # What the Configuration Drives

  Two numbers of the configuration end up in arithmetic that can fail:
  `drain.timeout_secs` is added to an instant, and `export.max_inflight` sizes
  a semaphore, at startup and by the differences that reloads queue.
  `validate` bounds both from below only.

  Reloads come one after the other, requests keep the configuration they
  began with, and the batcher drains the queued differences whenever it comes
  to it. The integers of a TOML file are `i64`; then the differences and
  their sums always fit. What is left is the semaphore's limit, where a
  growth that meets permits still to be forgotten counts twice, and the range
  of an instant. -/

namespace AgentTraceGateway

variable {ρ τ : Type}

/-! ### Configurations in force -/

/-- The 64-bit numbers of a configuration. -/
def Config.integers (cfg : Config) : List UInt64 := [
  cfg.server.max_ws_frame_payload, cfg.drain.timeout_secs, cfg.capture.max_bytes,
  cfg.store.max_records, cfg.store.max_bytes, cfg.stitch.capacity, cfg.stitch.ttl_ms,
  cfg.export_.max_inflight, cfg.export_.workers]

/-- What a request's snapshot takes from the configuration. -/
def Snapshot.is_of (snap : Snapshot) (cfg : Config) : Bool :=
  snap.salt == cfg.api_key.salt && snap.trace_tag == cfg.trace.tag
    && snap.on_cancel == cfg.drain.on_cancel && snap.timeout_secs == cfg.drain.timeout_secs

/-- The configurations that a request may have begun with, and the exporter. -/
structure Configured (ρ τ : Type) where
  held : List Config
  pool : Pool ρ τ
  deriving DecidableEq

/-- `new_target` is what the endpoint of the configuration builds; it plays no
    part in the arithmetic. -/
inductive ConfiguredEvent (ρ τ : Type) where
  | reload (cfg : Config) (new_target : Option τ)
  | begin_drain (d : ProtocolDescriptor) (now : Nat) (ctx : Ctx)
  | pool (e : ExportEvent ρ τ)

section configured

variable (bench : Bool) (debug : String → String) (from_str : String → Option Value)

/-- A file with these values loads. -/
def accepted (cfg : Config) : Bool :=
  cfg.integers.all (fun n => n.toNat < 2 ^ 63) && (validate bench debug cfg).isOk

def Configured.start (cfg : Config) (target : Option τ) : Option (Configured ρ τ) :=
  (Pool.start target cfg.export_.max_inflight).map fun pool => { held := [cfg], pool := pool }

/-- A reload starts once the one before has returned, and one that is not
    accepted changes nothing. -/
def configured_step (s : Configured ρ τ) : ConfiguredEvent ρ τ → Option (Configured ρ τ)
  | .reload cfg new_target =>
    if s.pool.reloads.isEmpty then
      if accepted bench debug cfg then
        (export_step s.pool (.apply_target new_target cfg.export_.max_inflight)).map fun pool =>
          { held := cfg :: s.held, pool := pool }
      else some s
    else none
  | .begin_drain _ _ ctx =>
    if s.held.any ctx.snap.is_of && ctx.snap.on_cancel then some s else none
  | .pool (.apply_target _ _) => none
  | .pool e => (export_step s.pool e).map fun pool => { s with pool := pool }

/-! ### Arithmetic -/

/-- The width's difference and the sum of the queued ones are exact. -/
def Reload.Exact (reload : Reload τ) (s : Pool ρ τ) : Prop :=
  match reload.phase with
  | .swap => ((max reload.new_width 1).toInt64 - s.max_inflight.toInt64).toInt
      = ((max reload.new_width 1).toNat : Int) - s.max_inflight.toNat
  | .queue_delta delta => (s.sema_delta + delta).toInt = s.sema_delta.toInt + delta.toInt
  | _ => True

/-- The semaphore takes the growth, and a shrink adds up. -/
structure SettleExact (s : Pool ρ τ) : Prop where
  no_panic : ∀ s', s.settle = some s' → s'.pc ≠ .died
  negated : s.sema_delta < 0 → ((-s.sema_delta).toUInt64.toNat : Int) = -s.sema_delta.toInt
  pending : s.sema_delta < 0 → (s.pending_forget + (-s.sema_delta).toUInt64).toNat
    = s.pending_forget.toNat + (-s.sema_delta).toUInt64.toNat

/-- A step's arithmetic does not panic and does not overflow. -/
def Exact (s : Configured ρ τ) : ConfiguredEvent ρ τ → Prop
  | .begin_drain d now ctx =>
    s.held.any ctx.snap.is_of && ctx.snap.on_cancel → (begin_drain from_str d now ctx).2 ≠ none
  | .pool (.reload_step i) => ∀ reload, s.pool.reloads[i]? = some reload → reload.Exact s.pool
  | .pool .settle => s.pool.pc = .settle → SettleExact s.pool
  | _ => True

/-- The width whose differences are all queued or drained. -/
def Pool.queued_width (s : Pool ρ τ) : Int := s.max_inflight.toNat - s.owed

/-- The semaphore's limit and the range of an instant. -/
def WithinLimits (s : Configured ρ τ) : ConfiguredEvent ρ τ → Prop
  | .begin_drain _ now ctx =>
    s.held.any ctx.snap.is_of && ctx.snap.on_cancel →
      now / 1000000000 + ctx.snap.timeout_secs.toNat < 2 ^ 63
  | .pool .settle =>
    s.pool.pc = .settle → 0 < s.pool.sema_delta →
      s.pool.queued_width + s.pool.pending_forget.toNat ≤ MAX_PERMITS + s.pool.in_flight
  | _ => True

end configured

/-! ### Widths up to a bound -/

/-- One reload at most is in progress, and every width on its way from the
    configuration to the semaphore is up to the bound. -/
structure WidthsBounded (B : Nat) (s : Pool ρ τ) : Prop where
  inv : WidthInv s
  configured : s.max_inflight.toNat ≤ B
  queued : 1 ≤ s.queued_width ∧ s.queued_width ≤ B
  drained : 1 ≤ s.net_width ∧ s.net_width ≤ B
  semaphore : s.permits + s.in_flight ≤ B
  one_call : s.reloads.length ≤ 1
  called : ∀ reload ∈ s.reloads, reload.new_width.toNat ≤ B

variable {B : Nat} {s s' : Pool ρ τ}

/-- What is drained and what waits to be drained make up the queued width. -/
theorem WidthInv.queued_eq (h : WidthInv s) : s.queued_width = s.net_width + s.sema_delta.toInt := by
  have hbalance := h.balance
  unfold Pool.queued_width
  omega

theorem only_call {i : Nat} {reload : Reload τ} (hone : s.reloads.length ≤ 1)
    (hreload : s.reloads[i]? = some reload) : s.reloads = [reload] ∧ i = 0 := by
  obtain ⟨hlt, hget⟩ := List.getElem?_eq_some_iff.mp hreload
  obtain rfl : i = 0 := by omega
  match hlist : s.reloads, hone with
  | [only], _ =>
    simp only [hlist, List.getElem_cons_zero] at hget
    rw [hget]
    exact ⟨rfl, rfl⟩
  | [], _ => simp only [hlist, List.length_nil, Nat.lt_irrefl] at hlt

theorem owed_nil (h : s.reloads = []) : s.owed = 0 := by
  rw [Pool.owed, h]
  rfl

theorem owed_singleton {reload : Reload τ} (h : s.reloads = [reload]) : s.owed = reload.owed := by
  rw [Pool.owed, h, List.map_singleton, List.sum_singleton]

/-! ### The differences fit -/

/-- Between two widths of the bound lies no difference that an `i64` lacks. -/
theorem reload_fits (hB : B < 2 ^ 63) (h : WidthsBounded B s) {i : Nat} {reload : Reload τ}
    (hreload : s.reloads[i]? = some reload) : reload.Fits s.sema_delta := by
  have hcalled := h.called reload (List.mem_of_getElem? hreload)
  unfold Reload.Fits
  split
  · omega
  · rename_i delta hphase
    obtain ⟨hlist, -⟩ := only_call h.one_call hreload
    have howed : s.owed = delta.toInt := by rw [owed_singleton hlist, Reload.owed, hphase]
    have hqueued := h.inv.queued_eq
    have hmax := h.configured
    have hdrained := h.drained
    have hbalance := h.inv.balance
    have hclamped := h.inv.clamped
    omega
  · trivial

theorem reload_exact (hB : B < 2 ^ 63) (h : WidthsBounded B s) {i : Nat} {reload : Reload τ}
    (hreload : s.reloads[i]? = some reload) : reload.Exact s := by
  have hfits := reload_fits hB h hreload
  unfold Reload.Fits at hfits
  unfold Reload.Exact
  cases hphase : reload.phase with
  | write => trivial
  | enable now_enabled => trivial
  | swap =>
    rw [hphase] at hfits
    have hfits : reload.new_width.toNat < 2 ^ 63 := hfits
    have hwidth := Words.toNat_max_one reload.new_width
    exact Words.toInt_sub_of_lt (by omega) h.inv.small
  | queue_delta delta =>
    rw [hphase] at hfits
    exact Words.toInt_add_of_fits hfits.1 hfits.2

/-! ### The semaphore's limit -/

/-- The permits after a growth, in terms of the widths. -/
theorem grown_permits (h : WidthInv s) (hgrow : 0 < s.sema_delta) :
    ((s.permits + s.sema_delta.toUInt64.toNat : Nat) : Int) + s.in_flight
      = s.queued_width + s.pending_forget.toNat := by
  have hdelta := Words.toNat_of_pos hgrow
  have hqueued := h.queued_eq
  unfold Pool.net_width at hqueued
  omega

theorem takes_growth (h : WidthInv s) (hlimit : 0 < s.sema_delta →
    s.queued_width + s.pending_forget.toNat ≤ MAX_PERMITS + s.in_flight) : s.TakesGrowth := by
  intro hgrow
  have hgrown := grown_permits h hgrow
  have hle := hlimit hgrow
  omega

/-- The batcher's pass is within the limits where the semaphore takes the
    growth; a shrink always adds up. -/
theorem settle_fits (hB : B < 2 ^ 63) (h : WidthsBounded B s)
    (hlimit : 0 < s.sema_delta →
      s.queued_width + s.pending_forget.toNat ≤ MAX_PERMITS + s.in_flight) :
    WidthFits s .settle := by
  constructor
  · intro hgrow
    have hle := takes_growth h.inv hlimit hgrow
    omega
  · intro hshrink
    have hdelta := Words.toNat_of_neg hshrink
    have hqueued := h.inv.queued_eq
    have hpos := h.queued
    have hsem := h.semaphore
    unfold Pool.net_width at hqueued
    omega

/-- What is left to forget meets no free permit. -/
theorem forget_done (s : Pool ρ τ) : s.forget.permits = 0 ∨ s.forget.pending_forget = 0 := by
  have hword := min_forgotten s.permits s.pending_forget.toNat_lt
  rcases Nat.le_total s.permits s.pending_forget.toNat with hle | hle
  · left
    show s.permits - min s.permits s.pending_forget.toNat = 0
    omega
  · right
    apply UInt64.toNat_inj.mp
    show (s.pending_forget - UInt64.ofNat (min s.permits s.pending_forget.toNat)).toNat = 0
    rw [UInt64.toNat_sub_of_le, hword]
    · omega
    · rw [UInt64.le_iff_toNat_le, hword]
      omega

/-- What the batcher's pass leaves, as long as the semaphore takes a growth. -/
structure SettleDone (s s' : Pool ρ τ) : Prop where
  pc : s'.pc = .decide_flush
  reloads : s'.reloads = s.reloads
  max_inflight : s'.max_inflight = s.max_inflight
  sema_delta : s'.sema_delta = 0
  in_flight : s'.in_flight = s.in_flight
  forgotten : s'.permits = 0 ∨ s'.pending_forget = 0

theorem settle_done (htakes : s.TakesGrowth) (h : s.settle = some s') : SettleDone s s' := by
  obtain ⟨hpc, hsettles⟩ := settle_cases h
  cases hsettles with
  | refused hgrow hover =>
    have hle := htakes hgrow
    omega
  | overfull hgrow _ hover =>
    have hle := htakes hgrow
    omega
  | grown _ _ => exact ⟨rfl, rfl, rfl, rfl, rfl, forget_done _⟩
  | shrunk _ => exact ⟨rfl, rfl, rfl, rfl, rfl, forget_done _⟩
  | steady _ _ => exact ⟨rfl, rfl, rfl, rfl, rfl, forget_done _⟩

/-- The semaphore refuses a growth beyond its limit, and the batcher dies. -/
theorem settle_dies (hpc : s.pc = .settle) (hover : ¬ s.TakesGrowth) :
    ∃ s', s.settle = some s' ∧ s'.pc = .died := by
  obtain ⟨hgrow, hlimit⟩ := Classical.not_imp.mp hover
  unfold Pool.settle
  rw [hpc]
  dsimp only
  rw [if_pos hgrow]
  split
  · exact ⟨_, rfl, (die_batcher _).1⟩
  · rw [if_pos (Nat.lt_of_not_le hlimit)]
    exact ⟨_, rfl, (die_batcher _).1⟩

theorem settle_exact_iff (hB : B < 2 ^ 63) (h : WidthsBounded B s) (hpc : s.pc = .settle) :
    SettleExact s ↔ (0 < s.sema_delta →
      s.queued_width + s.pending_forget.toNat ≤ MAX_PERMITS + s.in_flight) := by
  constructor
  · intro hexact hgrow
    by_contra hover
    have hgrown := grown_permits h.inv hgrow
    obtain ⟨s', hs', hdied⟩ := settle_dies hpc fun htakes => by
      have hle := htakes hgrow
      omega
    exact hexact.no_panic s' hs' hdied
  · intro hlimit
    have hfits := settle_fits hB h hlimit
    refine ⟨?_, Words.toNat_of_neg, ?_⟩
    · intro s' hs' hdied
      rw [(settle_done (takes_growth h.inv hlimit) hs').pc] at hdied
      cases hdied
    · intro hshrink
      rw [UInt64.toNat_add]
      exact Nat.mod_eq_of_lt (hfits.2 hshrink)

/-! ### Steps -/

/-- The parts of a pool that a width passes through, unchanged. -/
structure SameWidth (s s' : Pool ρ τ) : Prop where
  reloads : s'.reloads = s.reloads
  max_inflight : s'.max_inflight = s.max_inflight
  sema_delta : s'.sema_delta = s.sema_delta
  pending_forget : s'.pending_forget = s.pending_forget

/-- The steps of a reload, and the batcher's pass. -/
def ExportEvent.moves_width : ExportEvent ρ τ → Bool
  | .apply_target _ _ => true
  | .reload_step _ => true
  | .settle => true
  | _ => false

theorem idle_fits {e : ExportEvent ρ τ} (hidle : e.moves_width = false) : WidthFits s e := by
  cases e with
  | reload_step i => cases hidle
  | settle => cases hidle
  | _ => trivial

theorem idle_same {e : ExportEvent ρ τ} (hidle : e.moves_width = false)
    (h : export_step s e = some s') : SameWidth s s' := by
  -- only these three write what is compared
  cases e with
  | apply_target new_target width => cases hidle
  | reload_step i => cases hidle
  | settle => cases hidle
  | submit_check r =>
    simp only [export_step, Pool.submit_check] at h
    split_ifs at h <;> cases h <;> exact ⟨rfl, rfl, rfl, rfl⟩
  | submit_send i =>
    simp only [export_step, Pool.submit_send] at h
    split at h
    · cases h
    · split_ifs at h <;> cases h <;> exact ⟨rfl, rfl, rfl, rfl⟩
  | shutdown =>
    simp only [export_step, Pool.shutdown] at h
    split_ifs at h
    cases h
    exact ⟨rfl, rfl, rfl, rfl⟩
  | recv_record =>
    simp only [export_step, Pool.recv_record] at h
    split at h <;> cases h
    exact ⟨rfl, rfl, rfl, rfl⟩
  | recv_closed =>
    simp only [export_step, Pool.recv_closed] at h
    split at h
    · split_ifs at h <;> cases h <;> exact ⟨rfl, rfl, rfl, rfl⟩
    · cases h
  | recv_tick =>
    simp only [export_step, Pool.recv_tick] at h
    split at h <;> cases h
    exact ⟨rfl, rfl, rfl, rfl⟩
  | decide_flush elapsed =>
    simp only [export_step, Pool.decide_flush] at h
    split at h
    · split_ifs at h <;> cases h <;> exact ⟨rfl, rfl, rfl, rfl⟩
    · cases h
  | load_target =>
    simp only [export_step, Pool.load_target] at h
    split at h
    · split at h <;> cases h <;> exact ⟨rfl, rfl, rfl, rfl⟩
    · cases h
  | acquire =>
    simp only [export_step, Pool.acquire] at h
    split at h
    · split_ifs at h
      cases h
      exact ⟨rfl, rfl, rfl, rfl⟩
    · cases h
  | reap =>
    simp only [export_step, Pool.reap] at h
    split at h <;> cases h
    exact ⟨rfl, rfl, rfl, rfl⟩
  | join =>
    simp only [export_step, Pool.join] at h
    split at h
    · split_ifs at h
      cases h
      exact ⟨rfl, rfl, rfl, rfl⟩
    · cases h
  | flush_answer i success =>
    simp only [export_step, Pool.flush_answer] at h
    split at h
    · split at h
      · split_ifs at h <;> cases h <;> exact ⟨rfl, rfl, rfl, rfl⟩
      · cases h
    · cases h
  | flush_end i =>
    simp only [export_step, Pool.flush_end] at h
    split at h
    · split_ifs at h
      cases h
      exact ⟨rfl, rfl, rfl, rfl⟩
    · cases h
  | flush_panic i =>
    simp only [export_step, Pool.flush_panic] at h
    split at h
    · split_ifs at h
      cases h
      exact ⟨rfl, rfl, rfl, rfl⟩
    · cases h

theorem idle_bounded {e : ExportEvent ρ τ} (h : WidthsBounded B s) (hidle : e.moves_width = false)
    (hstep : export_step s e = some s') : WidthsBounded B s' := by
  have hsame := idle_same hidle hstep
  have hwidth := export_step_width e h.inv.small (idle_fits hidle) hstep
  have hdrains : drains s e = 0 := by
    cases e with
    | settle => cases hidle
    | _ => rfl
  have hnet : s'.net_width = s.net_width := by
    rw [hwidth.net, hdrains]
    omega
  have hqueued : s'.queued_width = s.queued_width := by
    rw [Pool.queued_width, Pool.owed, hsame.max_inflight, hsame.reloads]
    rfl
  have hpending : s'.pending_forget.toNat = s.pending_forget.toNat := by rw [hsame.pending_forget]
  refine ⟨h.inv.step hwidth, ?_, ?_, ?_, ?_, ?_, ?_⟩
  · rw [hsame.max_inflight]
    exact h.configured
  · rw [hqueued]
    exact h.queued
  · rw [hnet]
    exact h.drained
  · have hsem := h.semaphore
    unfold Pool.net_width at hnet
    omega
  · rw [hsame.reloads]
    exact h.one_call
  · rw [hsame.reloads]
    exact h.called

/-- The batcher's pass drains the queued width, and nothing else. -/
theorem settle_bounded (hB : B < 2 ^ 63) (h : WidthsBounded B s)
    (hlimit : 0 < s.sema_delta →
      s.queued_width + s.pending_forget.toNat ≤ MAX_PERMITS + s.in_flight)
    (hstep : s.settle = some s') : WidthsBounded B s' := by
  have hfits := settle_fits hB h hlimit
  have hdone := settle_done (takes_growth h.inv hlimit) hstep
  have hwidth := settle_width hfits hstep
  have hnet : s'.net_width = s.queued_width := by
    rw [hwidth.net, h.inv.queued_eq]
    rfl
  have hqueued : s'.queued_width = s.queued_width := by
    rw [Pool.queued_width, Pool.owed, hdone.max_inflight, hdone.reloads]
    rfl
  refine ⟨h.inv.step hwidth, ?_, ?_, ?_, ?_, ?_, ?_⟩
  · rw [hdone.max_inflight]
    exact h.configured
  · rw [hqueued]
    exact h.queued
  · rw [hnet]
    exact h.queued
  · have hsem := h.semaphore
    have hflight := hdone.in_flight
    have hle := h.queued.2
    rcases hdone.forgotten with hnone | hnone
    · -- no permit is free
      omega
    · -- nothing is left to forget
      have hpending : s'.pending_forget.toNat = 0 := by rw [hnone]; rfl
      unfold Pool.net_width at hnet
      omega
  · rw [hdone.reloads]
    exact h.one_call
  · rw [hdone.reloads]
    exact h.called

theorem reload_bounded (hB : B < 2 ^ 63) (h : WidthsBounded B s) {i : Nat}
    (hstep : s.reload_step i = some s') : WidthsBounded B s' := by
  have hfits : WidthFits s (.reload_step i) := fun reload hreload => reload_fits hB h hreload
  have hwidth := reload_step_width h.inv.small hfits hstep
  have hinv := h.inv.step hwidth
  have hnet : s'.net_width = s.net_width := by
    rw [hwidth.net]
    exact Int.add_zero _
  have hdrained := h.drained
  rw [← hnet] at hdrained
  unfold Pool.reload_step at hstep
  split at hstep
  · cases hstep
  rename_i reload hreload
  obtain ⟨hlist, rfl⟩ := only_call h.one_call hreload
  have hcalled := h.called reload (List.mem_of_getElem? hreload)
  have hset : ∀ phase : ReloadPhase, (s.reloads.set 0 { reload with phase := phase }).length ≤ 1
      ∧ ∀ call ∈ s.reloads.set 0 { reload with phase := phase }, call.new_width.toNat ≤ B := by
    intro phase
    rw [hlist]
    refine ⟨Nat.le_refl _, fun call hcall => ?_⟩
    rw [List.set_cons_zero, List.mem_singleton] at hcall
    rw [hcall]
    exact hcalled
  -- the queued width stays, except where the call queues its own
  have hqueued : s'.sema_delta = s.sema_delta → 1 ≤ s'.queued_width ∧ s'.queued_width ≤ B := by
    intro hdelta
    rw [hinv.queued_eq, hnet, hdelta, ← h.inv.queued_eq]
    exact h.queued
  cases hphase : reload.phase with
  | write =>
    rw [hphase] at hstep
    cases hstep
    exact ⟨hinv, h.configured, hqueued rfl, hdrained, h.semaphore, (hset _).1, (hset _).2⟩
  | enable now_enabled =>
    rw [hphase] at hstep
    cases hstep
    exact ⟨hinv, h.configured, hqueued rfl, hdrained, h.semaphore, (hset _).1, (hset _).2⟩
  | swap =>
    rw [hphase] at hstep
    cases hstep
    refine ⟨hinv, ?_, hqueued rfl, hdrained, h.semaphore, (hset _).1, (hset _).2⟩
    have hmax := Words.toNat_max_one reload.new_width
    have hone := h.inv.clamped
    have hle := h.configured
    show (max reload.new_width 1).toNat ≤ B
    omega
  | queue_delta delta =>
    rw [hphase] at hstep
    cases hstep
    have hnil : s.reloads.eraseIdx 0 = [] := by rw [hlist]; rfl
    refine ⟨hinv, h.configured, ?_, hdrained, h.semaphore, ?_, ?_⟩
    · rw [Pool.queued_width, owed_nil hnil]
      have hone := h.inv.clamped
      have hle := h.configured
      show 1 ≤ (s.max_inflight.toNat : Int) - 0 ∧ (s.max_inflight.toNat : Int) - 0 ≤ B
      omega
    · show (s.reloads.eraseIdx 0).length ≤ 1
      rw [hnil]
      exact Nat.zero_le _
    · show ∀ call ∈ s.reloads.eraseIdx 0, _
      rw [hnil]
      exact fun call hcall => absurd hcall List.not_mem_nil

theorem apply_bounded (h : WidthsBounded B s) (hidle : s.reloads = []) {new_target : Option τ}
    {width : UInt64} (hle : width.toNat ≤ B)
    (hstep : export_step s (.apply_target new_target width) = some s') : WidthsBounded B s' := by
  have hfits : WidthFits s (.apply_target new_target width) := trivial
  have hinv := h.inv.step (export_step_width _ h.inv.small hfits hstep)
  simp only [export_step] at hstep
  split_ifs at hstep
  cases hstep
  have howed : (s.reloads ++ [(⟨new_target, width, .write⟩ : Reload τ)]).map Reload.owed = [0] := by
    rw [hidle]
    rfl
  refine ⟨hinv, h.configured, ?_, h.drained, h.semaphore, ?_, ?_⟩
  · have hqueued := h.queued
    rw [Pool.queued_width, owed_nil hidle] at hqueued
    rw [Pool.queued_width, Pool.owed, howed]
    exact hqueued
  · show (s.reloads ++ [_]).length ≤ 1
    rw [hidle]
    exact Nat.le_refl _
  · show ∀ call ∈ s.reloads ++ [_], _
    rw [hidle]
    intro call hcall
    rw [List.nil_append, List.mem_singleton] at hcall
    rw [hcall]
    exact hle

theorem start_bounded {target : Option τ} {width : UInt64} (hB : 1 ≤ B) (hle : width.toNat ≤ B)
    (hstart : Pool.start target width = some s) : WidthsBounded B s := by
  have hmax := Words.toNat_max_one width
  obtain ⟨hinv, hnet⟩ := start_width hstart
  unfold Pool.start at hstart
  dsimp only at hstart
  split at hstart
  · cases hstart
  · cases hstart
    have hpositive : 1 ≤ ((max width 1).toNat : Int) ∧ ((max width 1).toNat : Int) ≤ B := by omega
    refine ⟨hinv, ?_, ?_, ?_, ?_, Nat.zero_le _, ?_⟩
    · exact Int.ofNat_le.mp hpositive.2
    · rw [Pool.queued_width, owed_nil rfl]
      show 1 ≤ ((max width 1).toNat : Int) - 0 ∧ ((max width 1).toNat : Int) - 0 ≤ B
      omega
    · rw [hnet]
      omega
    · show (max width 1).toNat + 0 ≤ B
      omega
    · exact fun call hcall => absurd hcall List.not_mem_nil

theorem settle_pc (h : s.settle = some s') : s.pc = .settle := by
  unfold Pool.settle at h
  split at h
  · assumption
  · cases h

/-! ### Runs -/

section configured

variable {bench : Bool} {debug : String → String} {from_str : String → Option Value}
variable {c c' : Configured ρ τ}

theorem configured_step_pool {e : ExportEvent ρ τ}
    (hstep : configured_step bench debug c (.pool e) = some c') :
    ∃ pool, export_step c.pool e = some pool ∧ c' = { c with pool := pool }
      ∧ ∀ new_target width, e ≠ .apply_target new_target width := by
  unfold configured_step at hstep
  split at hstep
  · rename_i heq
    cases heq
  · rename_i heq
    cases heq
  · cases hstep
  · rename_i e' hne heq
    cases heq
    obtain ⟨pool, hpool, rfl⟩ := Option.map_eq_some_iff.mp hstep
    exact ⟨pool, hpool, rfl, hne⟩

/-- Every width that a step brings is up to the bound. -/
def BringsUpTo (bench : Bool) (debug : String → String) (B : Nat) : ConfiguredEvent ρ τ → Prop
  | .reload cfg _ => accepted bench debug cfg = true → cfg.export_.max_inflight.toNat ≤ B
  | _ => True

/-- A step within the limits keeps the widths bounded. -/
theorem configured_step_bounded {e : ConfiguredEvent ρ τ} (hB : B < 2 ^ 63)
    (h : WidthsBounded B c.pool) (hbrings : BringsUpTo bench debug B e) (hlimit : WithinLimits c e)
    (hstep : configured_step bench debug c e = some c') : WidthsBounded B c'.pool := by
  cases e with
  | reload cfg new_target =>
    unfold configured_step at hstep
    dsimp only at hstep
    split_ifs at hstep with hidle haccepted
    · obtain ⟨pool, hpool, rfl⟩ := Option.map_eq_some_iff.mp hstep
      exact apply_bounded h (List.isEmpty_iff.mp hidle) (hbrings haccepted) hpool
    · cases hstep
      exact h
  | begin_drain d now ctx =>
    unfold configured_step at hstep
    dsimp only at hstep
    split_ifs at hstep
    cases hstep
    exact h
  | pool e =>
    obtain ⟨pool, hpool, rfl, hne⟩ := configured_step_pool hstep
    cases hmoves : e.moves_width with
    | false => exact idle_bounded h hmoves hpool
    | true =>
      cases e with
      | apply_target new_target width => exact absurd rfl (hne new_target width)
      | reload_step i => exact reload_bounded hB h hpool
      | settle => exact settle_bounded hB h (hlimit (settle_pc hpool)) hpool
      | _ => cases hmoves

theorem exact_iff_within {e : ConfiguredEvent ρ τ} (hB : B < 2 ^ 63) (h : WidthsBounded B c.pool) :
    Exact from_str c e ↔ WithinLimits c e := by
  cases e with
  | reload cfg new_target => exact Iff.rfl
  | begin_drain d now ctx =>
    show (_ → _ ≠ none) ↔ (_ → _ < _)
    rw [begin_drain_deadline, deadline_after]
    simp only [ne_eq, ite_eq_right_iff, reduceCtorEq, imp_false, not_not]
  | pool e =>
    cases e with
    | reload_step i => exact iff_of_true (fun reload hreload => reload_exact hB h hreload) trivial
    | settle => exact forall_congr' fun hpc => settle_exact_iff hB h hpc
    | _ => exact Iff.rfl

theorem start_isSome_iff (cfg : Config) (target : Option τ) :
    (∃ c : Configured ρ τ, Configured.start cfg target = some c)
      ↔ cfg.export_.max_inflight.toNat ≤ MAX_PERMITS := by
  have hmax := Words.toNat_max_one cfg.export_.max_inflight
  have hone : 1 ≤ MAX_PERMITS := by decide
  unfold Configured.start Pool.start
  dsimp only
  split
  · rename_i hover
    refine iff_of_false ?_ (by omega)
    rintro ⟨c, hc⟩
    cases hc
  · rename_i hfits
    exact iff_of_true ⟨_, rfl⟩ (by omega)

end configured

/-- Every accepted configuration, and every run of reloads, drains and export
    steps from it: the semaphore is created and all of the arithmetic is exact
    if and only if the first width and every step are within the limits. -/
theorem configured_exact_iff (bench : Bool) (debug : String → String)
    (from_str : String → Option Value) (cfg : Config) (haccepted : accepted bench debug cfg = true)
    (target : Option τ) (events : List (ConfiguredEvent ρ τ)) :
    (∃ c, Configured.start cfg target = some c ∧
        Guarded (configured_step bench debug) (Exact from_str) c events)
      ↔ cfg.export_.max_inflight.toNat ≤ MAX_PERMITS ∧
        ∀ c, Configured.start cfg target = some c →
          Guarded (configured_step bench debug) WithinLimits c events := by
  have hB : 2 ^ 63 - 1 < 2 ^ 63 := by decide
  -- a TOML integer is an `i64`
  have htoml : ∀ {cfg : Config}, accepted bench debug cfg = true →
      cfg.export_.max_inflight.toNat ≤ 2 ^ 63 - 1 := by
    intro cfg h
    have hall := List.all_eq_true.mp (Bool.and_eq_true_iff.mp h).1 cfg.export_.max_inflight
      (by simp [Config.integers])
    have hlt := of_decide_eq_true hall
    omega
  have hbrings : ∀ e : ConfiguredEvent ρ τ, BringsUpTo bench debug (2 ^ 63 - 1) e := by
    intro e
    cases e with
    | reload cfg new_target => exact htoml
    | _ => trivial
  have hagree : ∀ c : Configured ρ τ, Configured.start cfg target = some c →
      (Guarded (configured_step bench debug) (Exact from_str) c events
        ↔ Guarded (configured_step bench debug) WithinLimits c events) := by
    intro c hc
    obtain ⟨pool, hpool, rfl⟩ := Option.map_eq_some_iff.mp hc
    have hstart : WidthsBounded (2 ^ 63 - 1) (Configured.mk [cfg] pool).pool :=
      start_bounded (by decide) (htoml haccepted) hpool
    have hagree : ∀ (c : Configured ρ τ) (e : ConfiguredEvent ρ τ),
        WidthsBounded (2 ^ 63 - 1) c.pool → (Exact from_str c e ↔ WithinLimits c e) := by
      intro c e h
      exact exact_iff_within hB h
    have hkeeps : ∀ (c : Configured ρ τ) (e : ConfiguredEvent ρ τ) (c' : Configured ρ τ),
        WidthsBounded (2 ^ 63 - 1) c.pool → WithinLimits c e →
          configured_step bench debug c e = some c' → WidthsBounded (2 ^ 63 - 1) c'.pool := by
      intro c e c' h hlimit hstep
      exact configured_step_bounded hB h (hbrings e) hlimit hstep
    exact guarded_congr hagree hkeeps events _ hstart
  constructor
  · rintro ⟨c, hc, hexact⟩
    refine ⟨(start_isSome_iff cfg target).mp ⟨c, hc⟩, fun c' hc' => ?_⟩
    rw [hc] at hc'
    cases hc'
    exact (hagree c hc).mp hexact
  · rintro ⟨hwidth, hwithin⟩
    obtain ⟨c, hc⟩ := (start_isSome_iff cfg target).mpr hwidth
    exact ⟨c, hc, (hagree c hc).mpr (hwithin c hc)⟩

/-- The sample configuration, with another pool width and drain window. -/
def limits_config (max_inflight timeout_secs : UInt64) : Config :=
  { sample_config with
    drain := ⟨true, timeout_secs⟩
    export_ := ⟨"", max_inflight, 1⟩ }

/-- A request that began with a configuration of this drain window. -/
def draining_ctx (timeout_secs : UInt64) (hpos : 1 ≤ timeout_secs) : Ctx :=
  Ctx.fresh ⟨"salt", "gw", true, timeout_secs, hpos⟩ 0

/-- A whole reload, and the batcher up to the pass that drains it. -/
def reload_before_settle (cfg : Config) : List (ConfiguredEvent Nat Unit) :=
  [.reload cfg none, .pool (.reload_step 0), .pool (.reload_step 0), .pool (.reload_step 0),
    .pool (.reload_step 0), .pool .recv_tick]

/-- A pool grows from two to eight, and a request that began after the reload
    drains for half a minute. -/
def grown_and_draining : List (ConfiguredEvent Nat Unit) :=
  reload_before_settle (limits_config 8 30)
    ++ [.pool .settle, .begin_drain Chat.DESCRIPTOR 1000000000 (draining_ctx 30 (by decide))]

theorem configured_exact_iff_grown :
    (∃ c : Configured Nat Unit, Configured.start (limits_config 2 60) none = some c ∧
        Guarded (configured_step false id) (Exact fun _ => none) c grown_and_draining)
      ↔ (limits_config 2 60).export_.max_inflight.toNat ≤ MAX_PERMITS ∧
        ∀ c : Configured Nat Unit, Configured.start (limits_config 2 60) none = some c →
          Guarded (configured_step false id) WithinLimits c grown_and_draining :=
  configured_exact_iff false id (fun _ => none) (limits_config 2 60) (by decide +kernel) none
    grown_and_draining

/-- What the batcher finds when a reload asked for more than the semaphore
    holds. -/
def overgrown : Configured Nat Unit where
  held := [limits_config 0x2000000000000000 60, limits_config 1 60]
  pool := {
    enabled := false
    target := none
    max_inflight := 0x2000000000000000
    sema_delta := 0x1FFFFFFFFFFFFFFF
    permits := 1
    pc := .settle }

/-- Accepted configurations that panic: a width beyond the semaphore's limit
    at startup and in a reload, and a drain window beyond the last instant. -/
theorem unbounded_values_panic :
    (accepted false id (limits_config 0x2000000000000000 60) = true ∧
      Configured.start (limits_config 0x2000000000000000 60) none
        = (none : Option (Configured Nat Unit))) ∧
    (∃ c, Configured.start (limits_config 1 60) none = some c ∧
      run (configured_step false id) c
          (reload_before_settle (limits_config 0x2000000000000000 60)) = some overgrown ∧
      ¬ Exact (fun _ => none) overgrown (.pool .settle)) ∧
    (accepted false id (limits_config 1 0x7FFFFFFFFFFFFFFF) = true ∧
      ∃ c : Configured Nat Unit, Configured.start (limits_config 1 0x7FFFFFFFFFFFFFFF) none = some c ∧
        ¬ Exact (fun _ => none) c (.begin_drain Chat.DESCRIPTOR 1000000000
          (draining_ctx 0x7FFFFFFFFFFFFFFF (by decide)))) := by
  refine ⟨⟨by decide +kernel, by decide +kernel⟩, ⟨_, rfl, by decide +kernel, ?_⟩,
    ⟨by decide +kernel, _, rfl, ?_⟩⟩
  · intro hexact
    exact (hexact rfl).no_panic _ rfl rfl
  · intro hexact
    exact hexact (by decide +kernel) (by decide +kernel)

/-! ### A bound from above -/

section small

variable (bench : Bool) (debug : String → String) (from_str : String → Option Value)

/-- Half the semaphore's limit for a width, and for a drain window what is
    left of the range of an instant. -/
def Small : ConfiguredEvent ρ τ → Prop
  | .begin_drain _ now ctx => now / 1000000000 + ctx.snap.timeout_secs.toNat < 2 ^ 63
  | e => BringsUpTo bench debug (2 ^ 60) e

variable {bench debug}

/-- Permits still to be forgotten are fewer than the widths allow, so a growth
    counts no width more than twice. -/
theorem small_within {c : Configured ρ τ} {e : ConfiguredEvent ρ τ}
    (h : WidthsBounded (2 ^ 60) c.pool) (hsmall : Small bench debug e) : WithinLimits c e := by
  cases e with
  | reload cfg new_target => trivial
  | begin_drain d now ctx => exact fun _ => hsmall
  | pool e =>
    cases e with
    | settle =>
      intro _ _
      have hqueued := h.queued
      have hdrained := h.drained
      have hsem := h.semaphore
      have hmax : MAX_PERMITS = 2 ^ 61 - 1 := rfl
      unfold Pool.net_width at hdrained
      omega
    | _ => trivial

theorem small_brings {e : ConfiguredEvent ρ τ} (hsmall : Small bench debug e) :
    BringsUpTo bench debug (2 ^ 60) e := by
  cases e with
  | begin_drain d now ctx => trivial
  | reload cfg new_target => exact hsmall
  | pool e => trivial

theorem small_run : ∀ (events : List (ConfiguredEvent ρ τ)) (c : Configured ρ τ),
    WidthsBounded (2 ^ 60) c.pool → (∀ e ∈ events, Small bench debug e) →
      Guarded (configured_step bench debug) (Exact from_str) c events := by
  intro events
  induction events with
  | nil => exact fun _ _ _ => trivial
  | cons e events ih =>
    intro c hbounded hsmall
    have hthis := hsmall e List.mem_cons_self
    have hwithin := small_within hbounded hthis
    refine ⟨(exact_iff_within (by decide) hbounded).mpr hwithin, fun c' hc' => ?_⟩
    refine ih c' ?_ fun e he => hsmall e (List.mem_cons_of_mem _ he)
    exact configured_step_bounded (by decide) hbounded (small_brings hthis) hwithin hc'

/-- With widths of at most half the semaphore's limit, at startup and in every
    reload, and drain windows that fit, nothing panics or overflows. -/
theorem small_exact {cfg : Config} (hwidth : cfg.export_.max_inflight.toNat ≤ 2 ^ 60)
    (target : Option τ) {events : List (ConfiguredEvent ρ τ)}
    (hsmall : ∀ e ∈ events, Small bench debug e) :
    ∃ c, Configured.start cfg target = some c ∧
      Guarded (configured_step bench debug) (Exact from_str) c events := by
  have hlimit : cfg.export_.max_inflight.toNat ≤ MAX_PERMITS := by
    have hmax : MAX_PERMITS = 2 ^ 61 - 1 := rfl
    omega
  obtain ⟨c, hc⟩ := (start_isSome_iff cfg target).mpr hlimit
  refine ⟨c, hc, small_run from_str events c ?_ hsmall⟩
  obtain ⟨pool, hpool, rfl⟩ := Option.map_eq_some_iff.mp hc
  exact start_bounded (by decide) hwidth hpool

end small

end AgentTraceGateway
