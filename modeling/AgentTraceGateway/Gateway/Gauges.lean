import AgentTraceGateway.Lib.Entries
import AgentTraceGateway.Lib.Run
import AgentTraceGateway.Lib.Words
import AgentTraceGateway.Protocol.Usage

/-! # Request Gauges

  Three gauges follow the requests inside the gateway: how many there are,
  how many of them wait for the upstream's headers, and the largest number
  there has been. Every request enters once, may see the upstream's headers
  any number of times, and exits once.

  The hooks of different requests interleave. A step is one atomic operation
  on a gauge; what a hook does with its own context is done along with the
  operation next to it. The stage histograms are left out. -/

namespace AgentTraceGateway

/-! ### The hooks -/

/-- Where a request stands. `counted` and `waiting` are inside
    `enter_request`, with the count it saw; `leaving` is inside
    `exit_request`, with the awaiting slot still to be released. -/
inductive RequestPc where
  | counted (in_flight : UInt64)
  | waiting (in_flight : UInt64)
  | inside (head_seen : Bool)
  | leaving
  | exited
  deriving DecidableEq, Repr

/-- The gauges, and the requests in the order they came. -/
structure Gauges where
  inflight : UInt64 := 0
  awaiting_upstream : UInt64 := 0
  inflight_high_water : UInt64 := 0
  requests : List RequestPc := []
  deriving DecidableEq, Repr

/-- The context of a request is in memory until it has exited. -/
def RequestPc.live : RequestPc → Bool
  | .exited => false
  | _ => true

inductive HookEvent where
  | new_ctx
  | enter_request (i : Nat)
  | mark_upstream_head (i : Nat)
  | exit_request (i : Nat)
  deriving DecidableEq, Repr

namespace Gauges

def set_pc (s : Gauges) (i : Nat) (pc : RequestPc) : Gauges :=
  { s with requests := s.requests.set i pc }

/-- `saturating_add(1)`. -/
def saturating_succ (n : UInt64) : UInt64 := if n = 0xFFFFFFFFFFFFFFFF then n else n + 1

/-- The first operation of `enter_request`, in `new_ctx`. Contexts are in
    memory, so there are fewer than `2 ^ 64` of them. -/
def new_ctx (s : Gauges) : Option Gauges :=
  if s.requests.countP RequestPc.live + 1 < 2 ^ 64 then
    some { s with
      inflight := s.inflight + 1
      requests := s.requests ++ [.counted (saturating_succ s.inflight)] }
  else none

/-- The other operations of `enter_request`. -/
def enter_request (s : Gauges) (i : Nat) : Option Gauges :=
  match s.requests[i]? with
  | some (.counted in_flight) =>
    some ({ s with awaiting_upstream := s.awaiting_upstream + 1 }.set_pc i (.waiting in_flight))
  | some (.waiting in_flight) =>
    some ({ s with
      inflight_high_water := max s.inflight_high_water in_flight }.set_pc i (.inside false))
  | _ => none

/-- `mark_upstream_head`: latched in the context, so the slot is released
    once. -/
def mark_upstream_head (s : Gauges) (i : Nat) : Option Gauges :=
  match s.requests[i]? with
  | some (.inside false) =>
    some ({ s with
      awaiting_upstream := saturating_sub s.awaiting_upstream 1 }.set_pc i (.inside true))
  | some (.inside true) => some s
  | _ => none

/-- The operations of `exit_request`; the second only for a request that
    never saw the upstream's headers. -/
def exit_request (s : Gauges) (i : Nat) : Option Gauges :=
  match s.requests[i]? with
  | some (.inside head_seen) =>
    some ({ s with inflight := saturating_sub s.inflight 1 }.set_pc i
      (if head_seen then .exited else .leaving))
  | some .leaving =>
    some ({ s with awaiting_upstream := saturating_sub s.awaiting_upstream 1 }.set_pc i .exited)
  | _ => none

end Gauges

def hook_step (s : Gauges) : HookEvent → Option Gauges
  | .new_ctx => s.new_ctx
  | .enter_request i => s.enter_request i
  | .mark_upstream_head i => s.mark_upstream_head i
  | .exit_request i => s.exit_request i

/-! ### What the gauges stand for -/

/-- A request that entered and did not exit. -/
def RequestPc.in_flight : RequestPc → Bool
  | .counted _ | .waiting _ | .inside _ => true
  | .leaving | .exited => false

/-- A request that took the awaiting slot and did not release it. -/
def RequestPc.awaiting : RequestPc → Bool
  | .waiting _ | .inside false | .leaving => true
  | .counted _ | .inside true | .exited => false

/-- No hook of the request is in progress. -/
def RequestPc.at_rest : RequestPc → Bool
  | .inside _ | .exited => true
  | .counted _ | .waiting _ | .leaving => false

/-- The request is not in the middle of `enter_request`. -/
def RequestPc.entered : RequestPc → Bool
  | .counted _ | .waiting _ => false
  | _ => true

/-- The largest `inflight` that a run reaches. -/
def peak_inflight (s : Gauges) : List HookEvent → Nat
  | [] => s.inflight.toNat
  | e :: events =>
    max s.inflight.toNat (((hook_step s e).map fun s' => peak_inflight s' events).getD 0)

/-- The step would take a saturating decrement at zero. -/
def TakenAtZero (s : Gauges) : HookEvent → Prop
  | .mark_upstream_head i => s.requests[i]? = some (.inside false) ∧ s.awaiting_upstream = 0
  | .exit_request i =>
    (∃ seen, s.requests[i]? = some (.inside seen) ∧ s.inflight = 0) ∨
      (s.requests[i]? = some .leaving ∧ s.awaiting_upstream = 0)
  | _ => False

/-- The gauges count the requests, at every operation; between hooks the
    awaiting gauge counts those that have not seen the upstream's headers. -/
structure Balanced (s : Gauges) (peak : Nat) : Prop where
  inflight : s.inflight.toNat = s.requests.countP RequestPc.in_flight
  awaiting : s.awaiting_upstream.toNat = s.requests.countP RequestPc.awaiting
  between_hooks : (∀ pc ∈ s.requests, pc.at_rest = true) →
    s.inflight.toNat = s.requests.countP (fun pc => pc ≠ .exited) ∧
      s.awaiting_upstream.toNat = s.requests.countP (· = .inside false)
  never_at_zero : ∀ e, ¬ TakenAtZero s e
  high_water : (∀ pc ∈ s.requests, pc.entered = true) → s.inflight_high_water.toNat = peak
  all_exited : (∀ pc ∈ s.requests, pc = .exited) → s.inflight = 0 ∧ s.awaiting_upstream = 0

/-! ### The invariant -/

/-- The count that a request has yet to bring to the high-water mark. -/
def RequestPc.pending : RequestPc → Option Nat
  | .counted in_flight | .waiting in_flight => some in_flight.toNat
  | _ => none

/-- The gauges count the requests, and the context count fits a word. -/
structure GaugeInv (s : Gauges) : Prop where
  inflight : s.inflight.toNat = s.requests.countP RequestPc.in_flight
  awaiting : s.awaiting_upstream.toNat = s.requests.countP RequestPc.awaiting
  fits : s.requests.countP RequestPc.live < 2 ^ 64

/-- `peak` is the largest of the high-water mark and the counts that are on
    their way to it, and `inflight` is not above it. -/
structure PeakInv (s : Gauges) (peak : Nat) : Prop where
  high : s.inflight_high_water.toNat ≤ peak
  pending : ∀ pc ∈ s.requests, ∀ n, pc.pending = some n → n ≤ peak
  now : s.inflight.toNat ≤ peak
  reached : s.inflight_high_water.toNat = peak ∨ ∃ pc ∈ s.requests, pc.pending = some peak

theorem in_flight_live (pc : RequestPc) : pc.in_flight = true → pc.live = true := by
  cases pc <;> simp [RequestPc.in_flight, RequestPc.live]

theorem awaiting_live (pc : RequestPc) : pc.awaiting = true → pc.live = true := by
  cases pc <;> simp [RequestPc.awaiting, RequestPc.live]

variable {s s' : Gauges}

/-- `saturating_sub(1)` above zero. -/
theorem saturating_sub_one {g : UInt64} {n : Nat} (h : g.toNat = n + 1) :
    (saturating_sub g 1).toNat = n := by
  rw [toNat_saturating_sub, h]
  exact Nat.add_sub_cancel n 1

/-- A request that counts keeps its gauge above zero. -/
theorem GaugeInv.inflight_pos {i : Nat} {pc : RequestPc} (hinv : GaugeInv s)
    (hpc : s.requests[i]? = some pc) (hcounts : pc.in_flight = true) :
    ∃ n, s.inflight.toNat = n + 1 := by
  have hpos := List.countP_pos_iff.mpr ⟨pc, List.mem_of_getElem? hpc, hcounts⟩
  rw [← hinv.inflight] at hpos
  exact Nat.exists_eq_add_one.mpr hpos

theorem GaugeInv.awaiting_pos {i : Nat} {pc : RequestPc} (hinv : GaugeInv s)
    (hpc : s.requests[i]? = some pc) (hcounts : pc.awaiting = true) :
    ∃ n, s.awaiting_upstream.toNat = n + 1 := by
  have hpos := List.countP_pos_iff.mpr ⟨pc, List.mem_of_getElem? hpc, hcounts⟩
  rw [← hinv.awaiting] at hpos
  exact Nat.exists_eq_add_one.mpr hpos

/-- One live request moves on, and each gauge follows what it counts for. -/
theorem GaugeInv.move {i : Nat} {pc pc' : RequestPc} (hinv : GaugeInv s)
    (hpc : s.requests[i]? = some pc) (hlive : pc.live = true) {inflight awaiting high : UInt64}
    (hinflight : inflight.toNat + (if pc.in_flight then 1 else 0)
      = s.inflight.toNat + if pc'.in_flight then 1 else 0)
    (hawaiting : awaiting.toNat + (if pc.awaiting then 1 else 0)
      = s.awaiting_upstream.toNat + if pc'.awaiting then 1 else 0) :
    GaugeInv ⟨inflight, awaiting, high, s.requests.set i pc'⟩ := by
  have hcount := Entries.countP_set_add RequestPc.in_flight pc' hpc
  have hslot := Entries.countP_set_add RequestPc.awaiting pc' hpc
  have hcontexts := Entries.countP_set_add RequestPc.live pc' hpc
  have hfits := hinv.fits
  have hbefore := hinv.inflight
  have hbefore' := hinv.awaiting
  -- the moved request may have been the last to live, so contexts do not grow
  rw [hlive, if_pos rfl] at hcontexts
  refine ⟨?_, ?_, ?_⟩
  · show inflight.toNat = (s.requests.set i pc').countP RequestPc.in_flight
    omega
  · show awaiting.toNat = (s.requests.set i pc').countP RequestPc.awaiting
    omega
  · show (s.requests.set i pc').countP RequestPc.live < 2 ^ 64
    split at hcontexts <;> omega

/-- A context more still fits the count of requests in flight. -/
theorem GaugeInv.room (hinv : GaugeInv s) (hroom : s.requests.countP RequestPc.live + 1 < 2 ^ 64) :
    s.inflight.toNat + 1 < 2 ^ 64 := by
  have hle := List.countP_mono_left (l := s.requests) fun pc _ => in_flight_live pc
  rw [hinv.inflight]
  omega

theorem new_ctx_inv (hinv : GaugeInv s) (h : s.new_ctx = some s') : GaugeInv s' := by
  unfold Gauges.new_ctx at h
  split at h
  · rename_i hroom
    cases h
    refine ⟨?_, ?_, ?_⟩
    · rw [Words.toNat_succ (hinv.room hroom), hinv.inflight, List.countP_append]
      rfl
    · rw [List.countP_append]
      exact hinv.awaiting
    · rw [List.countP_append]
      exact hroom
  · cases h

theorem enter_request_inv {i : Nat} (hinv : GaugeInv s) (h : s.enter_request i = some s') :
    GaugeInv s' := by
  unfold Gauges.enter_request at h
  split at h
  · -- the awaiting slot is taken by a request that has none
    rename_i v hpc
    cases h
    have hset := Entries.countP_set_add RequestPc.awaiting (.waiting v) hpc
    have hcontexts := Entries.countP_set_add RequestPc.live (.waiting v) hpc
    have hle := List.countP_mono_left (l := s.requests.set i (.waiting v))
      fun pc _ => awaiting_live pc
    have hfits := hinv.fits
    simp only [RequestPc.awaiting, RequestPc.live, if_true, Bool.false_eq_true, if_false,
      Nat.add_zero] at hset hcontexts
    have hroom : s.awaiting_upstream.toNat + 1 < 2 ^ 64 := by
      rw [hinv.awaiting]
      omega
    exact hinv.move hpc rfl rfl (Words.toNat_succ hroom)
  · -- the high-water mark is no count
    rename_i v hpc
    cases h
    exact hinv.move hpc rfl rfl rfl
  · cases h

theorem mark_upstream_head_inv {i : Nat} (hinv : GaugeInv s)
    (h : s.mark_upstream_head i = some s') : GaugeInv s' := by
  unfold Gauges.mark_upstream_head at h
  split at h
  · rename_i hpc
    cases h
    obtain ⟨n, hn⟩ := hinv.awaiting_pos hpc rfl
    refine hinv.move hpc rfl rfl ?_
    show (saturating_sub s.awaiting_upstream 1).toNat + 1 = s.awaiting_upstream.toNat + 0
    rw [saturating_sub_one hn, hn]
  · cases h
    exact hinv
  · cases h

theorem exit_request_inv {i : Nat} (hinv : GaugeInv s) (h : s.exit_request i = some s') :
    GaugeInv s' := by
  unfold Gauges.exit_request at h
  split at h
  · rename_i head_seen hpc
    cases h
    obtain ⟨n, hn⟩ := hinv.inflight_pos hpc rfl
    have hreleased := saturating_sub_one hn
    -- a request that never saw the headers keeps its slot for one step more
    cases head_seen with
    | false =>
      refine hinv.move hpc rfl ?_ rfl
      show (saturating_sub s.inflight 1).toNat + 1 = s.inflight.toNat + 0
      omega
    | true =>
      refine hinv.move hpc rfl ?_ rfl
      show (saturating_sub s.inflight 1).toNat + 1 = s.inflight.toNat + 0
      omega
  · rename_i hpc
    cases h
    obtain ⟨n, hn⟩ := hinv.awaiting_pos hpc rfl
    refine hinv.move hpc rfl rfl ?_
    show (saturating_sub s.awaiting_upstream 1).toNat + 1 = s.awaiting_upstream.toNat + 0
    rw [saturating_sub_one hn, hn]
  · cases h

theorem hook_step_inv (e : HookEvent) (hinv : GaugeInv s) (h : hook_step s e = some s') :
    GaugeInv s' := by
  cases e with
  | new_ctx => exact new_ctx_inv hinv h
  | enter_request i => exact enter_request_inv hinv h
  | mark_upstream_head i => exact mark_upstream_head_inv hinv h
  | exit_request i => exact exit_request_inv hinv h

/-! ### The high-water mark -/

/-- One request moves on without a pending count of its own, and `inflight`
    does not grow. -/
theorem PeakInv.move {peak i : Nat} {pc pc' : RequestPc} (hpeak : PeakInv s peak)
    (hpc : s.requests[i]? = some pc) (hsame : pc'.pending = pc.pending)
    {inflight awaiting : UInt64} (hle : inflight.toNat ≤ s.inflight.toNat) :
    PeakInv ⟨inflight, awaiting, s.inflight_high_water, s.requests.set i pc'⟩ peak := by
  refine ⟨hpeak.high, ?_, hle.trans hpeak.now, ?_⟩
  · intro q hq n hn
    rcases List.mem_or_eq_of_mem_set hq with hq | rfl
    · exact hpeak.pending q hq n hn
    · rw [hsame] at hn
      exact hpeak.pending pc (List.mem_of_getElem? hpc) n hn
  · rcases hpeak.reached with hhigh | ⟨q, hq, hn⟩
    · exact Or.inl hhigh
    · rcases Entries.mem_or_mem_set pc' hpc hq with rfl | hq
      · -- it was the moved one, and it carries the same count on
        have hlt := (List.getElem?_eq_some_iff.mp hpc).1
        exact Or.inr ⟨pc', List.mem_set hlt pc', hsame.trans hn⟩
      · exact Or.inr ⟨q, hq, hn⟩

theorem saturating_sub_le (g : UInt64) : (saturating_sub g 1).toNat ≤ g.toNat := by
  rw [toNat_saturating_sub]
  exact Nat.sub_le ..

/-- The new request sees the count it made, and carries it. -/
theorem new_ctx_peak {peak : Nat} (hinv : GaugeInv s) (hpeak : PeakInv s peak)
    (h : s.new_ctx = some s') : PeakInv s' (max peak s'.inflight.toNat) := by
  unfold Gauges.new_ctx at h
  split at h
  · rename_i hroom
    cases h
    have hfits := hinv.room hroom
    -- the value the request carries is the one the gauge took
    have hseen : Gauges.saturating_succ s.inflight = s.inflight + 1 := by
      unfold Gauges.saturating_succ
      apply if_neg
      intro hmax
      rw [hmax] at hfits
      exact absurd hfits (by decide)
    refine ⟨hpeak.high.trans (Nat.le_max_left ..), ?_, Nat.le_max_right .., ?_⟩
    · intro pc hmem n hn
      rcases List.mem_append.mp hmem with hmem | hmem
      · exact (hpeak.pending pc hmem n hn).trans (Nat.le_max_left ..)
      · obtain rfl := List.mem_singleton.mp hmem
        obtain rfl : (Gauges.saturating_succ s.inflight).toNat = n := Option.some.inj hn
        rw [hseen]
        exact Nat.le_max_right ..
    -- the peak is in the mark, or a request still carries it there
    · show _ ∨ ∃ pc ∈ s.requests ++ [.counted (Gauges.saturating_succ s.inflight)],
        pc.pending = some (max peak (s.inflight + 1).toNat)
      by_cases hnew : peak ≤ (s.inflight + 1).toNat
      · -- the count is a new peak, pending with the request
        refine Or.inr ⟨_, List.mem_append_right _ List.mem_cons_self, ?_⟩
        rw [hseen, Nat.max_eq_right hnew]
        rfl
      · have hold : max peak (s.inflight + 1).toNat = peak := by omega
        rw [hold]
        refine hpeak.reached.imp id ?_
        rintro ⟨pc, hmem, hn⟩
        exact ⟨pc, List.mem_append_left _ hmem, hn⟩
  · cases h

/-- The carried count reaches the high-water mark. -/
theorem enter_request_peak {peak i : Nat} (hpeak : PeakInv s peak)
    (h : s.enter_request i = some s') : PeakInv s' peak ∧ s'.inflight = s.inflight := by
  unfold Gauges.enter_request at h
  split at h
  · rename_i v hpc
    cases h
    have hsame : (RequestPc.waiting v).pending = (RequestPc.counted v).pending := rfl
    exact ⟨hpeak.move hpc hsame le_rfl, rfl⟩
  · rename_i v hpc
    cases h
    have hcarried := hpeak.pending _ (List.mem_of_getElem? hpc) v.toNat rfl
    have hmax := Words.toNat_max s.inflight_high_water v
    have hhigh := hpeak.high
    refine ⟨⟨?_, ?_, hpeak.now, ?_⟩, rfl⟩
    · show (max s.inflight_high_water v).toNat ≤ peak
      omega
    · intro q hq n hn
      rcases List.mem_or_eq_of_mem_set hq with hq | rfl
      · exact hpeak.pending q hq n hn
      · cases hn
    · show (max s.inflight_high_water v).toNat = peak
        ∨ ∃ pc ∈ s.requests.set i (.inside false), pc.pending = some peak
      rcases hpeak.reached with hreached | ⟨q, hq, hn⟩
      · exact Or.inl (by omega)
      · rcases Entries.mem_or_mem_set (.inside false) hpc hq with rfl | hq
        · -- the peak was its to bring
          have hv : v.toNat = peak := Option.some.inj hn
          exact Or.inl (by omega)
        · exact Or.inr ⟨q, hq, hn⟩
  · cases h

/-- The other hooks bring nothing to the mark. -/
theorem mark_upstream_head_peak {peak i : Nat} (hpeak : PeakInv s peak)
    (h : s.mark_upstream_head i = some s') : PeakInv s' peak := by
  unfold Gauges.mark_upstream_head at h
  split at h
  · rename_i hpc
    cases h
    have hsame : (RequestPc.inside true).pending = (RequestPc.inside false).pending := rfl
    exact hpeak.move hpc hsame le_rfl
  · cases h
    exact hpeak
  · cases h

theorem exit_request_peak {peak i : Nat} (hpeak : PeakInv s peak)
    (h : s.exit_request i = some s') : PeakInv s' peak := by
  unfold Gauges.exit_request at h
  split at h
  · rename_i head_seen hpc
    cases h
    refine hpeak.move hpc ?_ (saturating_sub_le s.inflight)
    cases head_seen <;> rfl
  · rename_i hpc
    cases h
    have hsame : RequestPc.exited.pending = RequestPc.leaving.pending := rfl
    exact hpeak.move hpc hsame le_rfl
  · cases h

theorem hook_step_peak {peak : Nat} (e : HookEvent) (hinv : GaugeInv s) (hpeak : PeakInv s peak)
    (h : hook_step s e = some s') : PeakInv s' (max peak s'.inflight.toNat) := by
  -- only `new_ctx` makes the count grow
  have hsame : PeakInv s' peak → PeakInv s' (max peak s'.inflight.toNat) := by
    intro hpeak'
    rw [Nat.max_eq_left hpeak'.now]
    exact hpeak'
  cases e with
  | new_ctx => exact new_ctx_peak hinv hpeak h
  | enter_request i => exact hsame (enter_request_peak hpeak h).1
  | mark_upstream_head i => exact hsame (mark_upstream_head_peak hpeak h)
  | exit_request i => exact hsame (exit_request_peak hpeak h)

/-! ### Runs -/

theorem inflight_le_peak : ∀ (events : List HookEvent) (s : Gauges),
    s.inflight.toNat ≤ peak_inflight s events := by
  intro events s
  cases events with
  | nil => exact le_rfl
  | cons e events => exact Nat.le_max_left ..

theorem gauge_run : ∀ (events : List HookEvent) (s s' : Gauges) (peak : Nat), GaugeInv s →
    PeakInv s peak → run hook_step s events = some s' →
      GaugeInv s' ∧ PeakInv s' (max peak (peak_inflight s events)) := by
  intro events
  induction events with
  | nil =>
    intro s s' peak hinv hpeak hrun
    cases hrun
    rw [peak_inflight, Nat.max_eq_left hpeak.now]
    exact ⟨hinv, hpeak⟩
  | cons e events ih =>
    intro s s' peak hinv hpeak hrun
    obtain ⟨s₁, hs₁, hrest⟩ := Option.bind_eq_some_iff.mp hrun
    obtain ⟨hinv', hpeak'⟩ := ih s₁ s' _ (hook_step_inv e hinv hs₁) (hook_step_peak e hinv hpeak hs₁)
      hrest
    refine ⟨hinv', ?_⟩
    -- the peak of the whole run is that of its parts
    have hnow := hpeak.now
    have hnext := inflight_le_peak events s₁
    have hsplit : max peak (peak_inflight s (e :: events))
        = max (max peak s₁.inflight.toNat) (peak_inflight s₁ events) := by
      simp only [peak_inflight, hs₁, Option.map_some, Option.getD_some]
      omega
    rw [hsplit]
    exact hpeak'

theorem GaugeInv.never_at_zero (hinv : GaugeInv s) (e : HookEvent) : ¬ TakenAtZero s e := by
  cases e with
  | new_ctx => exact id
  | enter_request i => exact id
  | mark_upstream_head i =>
    rintro ⟨hpc, hzero⟩
    obtain ⟨n, hn⟩ := hinv.awaiting_pos hpc rfl
    rw [hzero] at hn
    cases hn
  | exit_request i =>
    rintro (⟨seen, hpc, hzero⟩ | ⟨hpc, hzero⟩)
    · obtain ⟨n, hn⟩ := hinv.inflight_pos hpc rfl
      rw [hzero] at hn
      cases hn
    · obtain ⟨n, hn⟩ := hinv.awaiting_pos hpc rfl
      rw [hzero] at hn
      cases hn

/-- **Gauges**: in every interleaving of the hooks of any number of requests
    the gauges count what they say, and no decrement saturates. -/
theorem gauges_balanced (events : List HookEvent) (s : Gauges)
    (hrun : run hook_step {} events = some s) : Balanced s (peak_inflight {} events) := by
  have hstart : GaugeInv {} := ⟨rfl, rfl, by decide⟩
  have hlow : PeakInv {} 0 := ⟨le_rfl, by simp, le_rfl, Or.inl rfl⟩
  obtain ⟨hinv, hpeak⟩ := gauge_run events {} s 0 hstart hlow hrun
  rw [Nat.zero_max] at hpeak
  refine ⟨hinv.inflight, hinv.awaiting, ?_, hinv.never_at_zero, ?_, ?_⟩
  · intro hrest
    rw [hinv.inflight, hinv.awaiting]
    constructor
    · apply List.countP_congr
      intro pc hmem
      have hpc := hrest pc hmem
      cases pc <;> simp_all [RequestPc.at_rest, RequestPc.in_flight]
    · apply List.countP_congr
      intro pc hmem
      have hpc := hrest pc hmem
      cases pc with
      | inside head_seen => cases head_seen <;> simp [RequestPc.awaiting]
      | exited => simp [RequestPc.awaiting]
      | counted v => cases hpc
      | waiting v => cases hpc
      | leaving => cases hpc
  · intro hentered
    rcases hpeak.reached with hreached | ⟨pc, hmem, hn⟩
    · exact hreached
    · have hpc := hentered pc hmem
      cases pc with
      | counted v => cases hpc
      | waiting v => cases hpc
      | inside head_seen => cases hn
      | leaving => cases hn
      | exited => cases hn
  · intro hexited
    have hnone : ∀ p : RequestPc → Bool, p .exited = false → s.requests.countP p = 0 := by
      intro p hp
      apply List.countP_eq_zero.mpr
      intro pc hmem
      rw [hexited pc hmem, hp]
      exact Bool.false_ne_true
    have hinflight := hinv.inflight
    have hawaiting := hinv.awaiting
    rw [hnone _ rfl] at hinflight hawaiting
    exact ⟨UInt64.toNat_inj.mp hinflight, UInt64.toNat_inj.mp hawaiting⟩

/-- Two requests, one without the upstream's headers and one that sees them
    twice, with their hooks interleaved. -/
def two_requests : List HookEvent :=
  [.new_ctx, .enter_request 0, .new_ctx, .enter_request 1, .enter_request 1, .enter_request 0,
    .mark_upstream_head 1, .mark_upstream_head 1, .exit_request 0, .exit_request 1,
    .exit_request 0]

theorem gauges_balanced_two :
    ∃ s, run hook_step {} two_requests = some s ∧ s.inflight_high_water = 2 ∧
      Balanced s (peak_inflight {} two_requests) :=
  ⟨_, rfl, rfl, gauges_balanced two_requests _ rfl⟩

end AgentTraceGateway
