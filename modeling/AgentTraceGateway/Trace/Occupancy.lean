import Mathlib.Algebra.GroupWithZero.Nat
import AgentTraceGateway.Trace.History

/-! # What Enters and Leaves the Stitcher's Table

  A chain enters the table when a call finds none for its key. It leaves by
  the sweep, by the lookup that finds it expired, or by the eviction that
  makes room for another one. The eviction is a loop without a bound of its
  own: it ends because the capacity is at least one and every turn takes a
  chain out. The sweep and the eviction count what they take out; the
  lookup does not. -/

namespace AgentTraceGateway

/-! ### The eviction loop -/

/-- The eviction loop, given up after `fuel` turns. A turn that finds no
    oldest chain goes round again. -/
def evict_loop (order : StitchOrder) (capacity : Nat) : Nat → PrefixStitcher → Option PrefixStitcher
  | 0, _ => none
  | fuel + 1, st =>
    if capacity ≤ st.states.entries.length then
      match Lru.oldest ChainState.last_used order st.states with
      | some k =>
        evict_loop order capacity fuel
          { st with states := st.states.erase k, evicted := st.evicted + 1 }
      | none => evict_loop order capacity fuel st
    else some st

/-- One turn of the loop does not change where it ends. -/
theorem evict_turn {st : PrefixStitcher} {order : StitchOrder} {k : StitchKey}
    (hfull : st.capacity ≤ st.states.entries.length)
    (hk : Lru.oldest ChainState.last_used order st.states = some k) :
    PrefixStitcher.evict_to_capacity
        { st with states := st.states.erase k, evicted := st.evicted + 1 } order
      = st.evict_to_capacity order := by
  obtain ⟨v, hv, -⟩ := Lru.oldest_mem ChainState.last_used hk
  have hlen := Lru.length_erase hv
  have hrest := Lru.length_evict_le ChainState.last_used order st.capacity (st.states.erase k)
  have hsame := Lru.evict_erase ChainState.last_used (Nat.not_lt.mpr hfull) hk
  have hcount : st.states.entries.length
        - (Lru.evict ChainState.last_used order st.capacity st.states).entries.length
      = 1 + ((st.states.erase k).entries.length
        - (Lru.evict ChainState.last_used order st.capacity (st.states.erase k)).entries.length) := by
    rw [hsame]
    omega
  simp only [PrefixStitcher.evict_to_capacity, hcount, UInt64.ofNat_add, UInt64.add_assoc]
  rw [hsame]
  rfl

/-- With a turn for every chain, the loop ends. -/
theorem evict_loop_eq (order : StitchOrder) : ∀ (fuel : Nat) (st : PrefixStitcher),
    st.states.entries.length < fuel →
      evict_loop order st.capacity fuel st = some (st.evict_to_capacity order) := by
  intro fuel
  induction fuel with
  | zero => intro st hfuel; omega
  | succ fuel ih =>
    intro st hfuel
    have hpos := st.capacity_pos
    rw [evict_loop]
    split_ifs with hfull
    · cases hk : Lru.oldest ChainState.last_used order st.states with
      | none =>
        -- a table at its capacity is not empty
        have hnil := Lru.oldest_eq_none ChainState.last_used hk
        rw [hnil, List.length_nil] at hfull
        omega
      | some k =>
        obtain ⟨v, hv, -⟩ := Lru.oldest_mem ChainState.last_used hk
        have hlen := Lru.length_erase hv
        have hrest := ih { st with states := st.states.erase k, evicted := st.evicted + 1 }
          (by show (st.states.erase k).entries.length < fuel; omega)
        rw [evict_turn hfull hk] at hrest
        exact hrest
    · have hkept : Lru.evict ChainState.last_used order st.capacity st.states = st.states := by
        rw [Lru.evict, if_pos (by omega)]
      simp [PrefixStitcher.evict_to_capacity, hkept]

section stitching

variable (sha256 : Bytes → Digest)

namespace PrefixStitcher

/-- The stitcher when a call looks its chain up. -/
def ready (st : PrefixStitcher) (c : AssignCall) : PrefixStitcher :=
  (st.sweep_if_due c.now).drop_expired (c.key sha256) c.now

/-- The call finds no chain. -/
def inserts (st : PrefixStitcher) (c : AssignCall) : Bool :=
  ((st.ready sha256 c).states.lookup (c.key sha256)).isNone

/-- `assign` with the eviction loop given up after `fuel` turns. -/
def assign_within (fuel : Nat) (st : PrefixStitcher) (order : StitchOrder) (c : AssignCall) :
    Option (Assigned × PrefixStitcher) :=
  let st := st.ready sha256 c
  match st.states.lookup (c.key sha256) with
  | some _ => some (st.classify sha256 order (c.key sha256) (c.fps sha256) c.now)
  | none =>
    (evict_loop order st.capacity fuel st).map fun st =>
      let (session_id, st) := st.new_session_id sha256 (fps_concat (c.fps sha256))
      (⟨session_id, false⟩,
        { st with states := st.states.insert (c.key sha256) ⟨c.fps sha256, session_id, c.now⟩ })

end PrefixStitcher

/-- Given a turn for every chain, `assign` returns. -/
theorem assign_within_eq (fuel : Nat) (st : PrefixStitcher) (order : StitchOrder) (c : AssignCall)
    (hfuel : (st.ready sha256 c).states.entries.length < fuel) :
    st.assign_within sha256 fuel order c = some (st.assign sha256 order c.scope c.messages c.now) := by
  have hassign : st.assign sha256 order c.scope c.messages c.now
      = (st.ready sha256 c).classify sha256 order (c.key sha256) (c.fps sha256) c.now := rfl
  have hloop := evict_loop_eq order fuel (st.ready sha256 c) hfuel
  rw [hassign]
  unfold PrefixStitcher.assign_within
  cases hkey : (st.ready sha256 c).states.lookup (c.key sha256) with
  | some e => simp only [hkey]
  | none => simp only [hkey, hloop, PrefixStitcher.classify, Option.map_some]

theorem ready_expires (st : PrefixStitcher) (c : AssignCall) :
    Expires st.ttl c.now st.states (st.ready sha256 c).states :=
  lookup_expires st (c.key sha256) c.now

theorem ready_settings (st : PrefixStitcher) (c : AssignCall) :
    SameSettings st (st.ready sha256 c) :=
  lookup_settings st (c.key sha256) c.now

/-! ### What one call takes out -/

namespace StitchStep

/-- The chains that expired in this step. -/
def expired_chains (s : StitchStep) : List (Lru.Entry StitchKey ChainState) :=
  Lru.gone s.before.states (s.before.ready sha256 s.call).states

/-- The chains that made room in this step. -/
def evicted_chains (s : StitchStep) : List (Lru.Entry StitchKey ChainState) :=
  Lru.gone (s.before.ready sha256 s.call).states (s.out sha256).2.states

end StitchStep

/-- The chain a step writes. -/
def StitchStep.written (s : StitchStep) : ChainState :=
  ⟨s.call.fps sha256, (s.out sha256).1.session_id, s.call.now⟩

/-- A step is its chain's classification, once expired chains are out of the
    way. -/
theorem out_eq_classify (s : StitchStep) :
    s.out sha256 = (s.before.ready sha256 s.call).classify sha256 s.order
      (s.call.key sha256) (s.call.fps sha256) s.call.now := rfl

/-- A call that finds no chain makes room and inserts one. -/
theorem out_inserts {s : StitchStep} (h : s.before.inserts sha256 s.call = true) :
    let room := (s.before.ready sha256 s.call).evict_to_capacity s.order
    (s.out sha256).2.states = room.states.insert (s.call.key sha256) (s.written sha256) ∧
      (s.out sha256).2.expired = room.expired ∧ (s.out sha256).2.evicted = room.evicted := by
  have hnone : (s.before.ready sha256 s.call).states.lookup (s.call.key sha256) = none := by
    simpa [PrefixStitcher.inserts] using h
  simp only [StitchStep.written, out_eq_classify, PrefixStitcher.classify, hnone]
  exact ⟨rfl, rfl, rfl⟩

/-- A call that finds a chain writes it again. -/
theorem out_found {s : StitchStep} (h : s.before.inserts sha256 s.call = false) :
    let ready := s.before.ready sha256 s.call
    (s.out sha256).2.states = ready.states.insert (s.call.key sha256) (s.written sha256) ∧
      (s.out sha256).2.expired = ready.expired ∧ (s.out sha256).2.evicted = ready.evicted ∧
      ∃ e, ready.states.lookup (s.call.key sha256) = some e := by
  obtain ⟨e, he⟩ : ∃ e, (s.before.ready sha256 s.call).states.lookup (s.call.key sha256)
      = some e := by
    cases hfound : (s.before.ready sha256 s.call).states.lookup (s.call.key sha256) with
    | some e => exact ⟨e, rfl⟩
    | none => simp [PrefixStitcher.inserts, hfound] at h
  refine ⟨?_, ?_, ?_, e, he⟩
  all_goals
    simp only [StitchStep.written, out_eq_classify, PrefixStitcher.classify, he]
    split_ifs <;> rfl

/-- What left the table for room is what the eviction took out. -/
theorem evicted_chains_inserts {s : StitchStep} (h : s.before.inserts sha256 s.call = true) :
    s.evicted_chains sha256 = Lru.gone (s.before.ready sha256 s.call).states
      ((s.before.ready sha256 s.call).evict_to_capacity s.order).states := by
  obtain ⟨hstates, -, -⟩ := out_inserts sha256 h
  apply Lru.gone_congr
  intro k v hv
  rw [hstates]
  have hk : k ≠ s.call.key sha256 := by
    rintro rfl
    simp [PrefixStitcher.inserts, hv] at h
  rw [AList.lookup_insert_ne hk]

theorem evicted_chains_found {s : StitchStep} (h : s.before.inserts sha256 s.call = false) :
    s.evicted_chains sha256 = [] := by
  obtain ⟨hstates, -, -, -⟩ := out_found sha256 h
  apply Lru.gone_eq_nil
  intro k v hv
  rw [hstates]
  by_cases hk : k = s.call.key sha256
  · subst hk
    simp
  · rw [AList.lookup_insert_ne hk, hv]
    simp

/-- The chains kept to make room, and the counter of those that went. -/
theorem evict_to_capacity_count (st : PrefixStitcher) (order : StitchOrder) :
    (Lru.gone st.states (st.evict_to_capacity order).states).length
        + (st.evict_to_capacity order).states.entries.length = st.states.entries.length ∧
      (st.evict_to_capacity order).evicted = st.evicted
        + UInt64.ofNat (Lru.gone st.states (st.evict_to_capacity order).states).length := by
  have hsub : ∀ k v, (st.evict_to_capacity order).states.lookup k = some v →
      st.states.lookup k = some v :=
    fun k v hv => Lru.lookup_of_lookup_evict _ hv
  have hgone := Lru.length_gone hsub
  refine ⟨hgone, ?_⟩
  show st.evicted + UInt64.ofNat
    (st.states.entries.length - (st.evict_to_capacity order).states.entries.length) = _
  rw [← hgone, Nat.add_sub_cancel]

/-- One call's part in the books of the eviction. -/
theorem step_evicted (s : StitchStep) :
    (s.before.ready sha256 s.call).states.entries.length
        + (s.before.inserts sha256 s.call).toNat
      = (s.out sha256).2.states.entries.length + (s.evicted_chains sha256).length ∧
    (s.out sha256).2.evicted
      = (s.before.ready sha256 s.call).evicted + UInt64.ofNat (s.evicted_chains sha256).length := by
  cases hins : s.before.inserts sha256 s.call with
  | true =>
    obtain ⟨hstates, -, hevicted⟩ := out_inserts sha256 hins
    obtain ⟨hroom, hcount⟩ := evict_to_capacity_count (s.before.ready sha256 s.call) s.order
    rw [evicted_chains_inserts sha256 hins, hstates, hevicted, Lru.length_insert]
    have hnone : ((s.before.ready sha256 s.call).evict_to_capacity s.order).states.lookup
        (s.call.key sha256) = none := by
      apply Option.eq_none_iff_forall_ne_some.mpr
      intro e he
      have hready := Lru.lookup_of_lookup_evict _ he
      simp [PrefixStitcher.inserts, hready] at hins
    rw [Lru.erase_of_lookup_none hnone]
    exact ⟨by simp only [Bool.toNat_true]; omega, hcount⟩
  | false =>
    obtain ⟨hstates, -, hevicted, e, he⟩ := out_found sha256 hins
    rw [evicted_chains_found sha256 hins, hstates, hevicted, Lru.length_insert]
    exact ⟨Lru.length_erase he |>.symm, by simp⟩

/-! ### The capacity bounds the table -/

/-- The stitcher after a history. -/
def stitcher_after : (Nat → StitchOrder) → PrefixStitcher → List StitchOp → PrefixStitcher
  | _, st, [] => st
  | order, st, .assign c :: ops =>
    stitcher_after (fun n => order (n + 1))
      (st.assign sha256 (order 0) c.scope c.messages c.now).2 ops
  | order, st, .set_limits capacity ttl_ms :: ops =>
    stitcher_after (fun n => order (n + 1)) (st.set_limits capacity ttl_ms) ops

/-- The capacity set last. -/
def capacity_in_force (capacity : Nat) : List StitchOp → Nat
  | [] => capacity
  | .assign _ :: ops => capacity_in_force capacity ops
  | .set_limits capacity _ :: ops => capacity_in_force capacity ops

theorem assign_capacity (s : StitchStep) : (s.out sha256).2.capacity = s.before.capacity := by
  rw [(ready_settings sha256 s.before s.call).capacity]
  rw [out_eq_classify, PrefixStitcher.classify]
  split
  · split <;> rfl
  · rfl

/-- The stitcher's capacity is the one set last, and at least one. -/
theorem stitcher_after_capacity : ∀ (ops : List StitchOp) (order : Nat → StitchOrder)
    (st : PrefixStitcher) (capacity : Nat), st.capacity = max capacity 1 →
      (stitcher_after sha256 order st ops).capacity = max (capacity_in_force capacity ops) 1 := by
  intro ops
  induction ops with
  | nil => intro order st capacity h; exact h
  | cons op ops ih =>
    intro order st capacity h
    cases op with
    | assign c => exact ih _ _ capacity ((assign_capacity sha256 ⟨st, order 0, c⟩).trans h)
    | set_limits capacity' ttl_ms => exact ih _ _ capacity' rfl

/-- A call under a capacity: it returns; with the chain it inserts the table
    is within the capacity; without one it does not grow; what makes room is
    no younger than what stays, and the counter counts it. -/
structure CapacityKept (capacity : Nat) (s : StitchStep) : Prop where
  returns : ∀ fuel, s.before.states.entries.length < fuel →
    s.before.assign_within sha256 fuel s.order s.call = some (s.out sha256)
  bounded : s.before.inserts sha256 s.call = true →
    (s.out sha256).2.states.lookup (s.call.key sha256) = some (s.written sha256) ∧
      (s.out sha256).2.states.entries.length ≤ max capacity 1
  no_growth : s.before.inserts sha256 s.call = false →
    (s.out sha256).2.states.entries.length ≤ s.before.states.entries.length
  oldest_first : ∀ e ∈ s.evicted_chains sha256, ∀ k kept,
    (s.before.ready sha256 s.call).states.lookup k = some kept →
    (s.out sha256).2.states.lookup k ≠ none → e.2.last_used ≤ kept.last_used
  counted : (s.out sha256).2.evicted
    = s.before.evicted + UInt64.ofNat (s.evicted_chains sha256).length

theorem ready_evicted (st : PrefixStitcher) (c : AssignCall) :
    (st.ready sha256 c).evicted = st.evicted := by
  unfold PrefixStitcher.ready PrefixStitcher.drop_expired PrefixStitcher.sweep_if_due
  split_ifs <;> rfl

theorem ready_length_le (st : PrefixStitcher) (c : AssignCall) :
    (st.ready sha256 c).states.entries.length ≤ st.states.entries.length := by
  have hgone := Lru.length_gone (ready_expires sha256 st c).sub
  omega

/-- Every call keeps the capacity its stitcher has. -/
theorem step_capacity (s : StitchStep) {capacity : Nat}
    (hcap : s.before.capacity = max capacity 1) : CapacityKept sha256 capacity s where
  returns := by
    intro fuel hfuel
    -- every turn of the loop takes a chain out, and the table is finite
    have hready := ready_length_le sha256 s.before s.call
    exact assign_within_eq sha256 fuel s.before s.order s.call (by omega)
  bounded := by
    intro hins
    -- the loop stops below the capacity, and the new chain fills the room
    obtain ⟨hstates, -, -⟩ := out_inserts sha256 hins
    have hroom := Lru.length_evict ChainState.last_used s.order
      (s.before.ready sha256 s.call).capacity_pos (s.before.ready sha256 s.call).states
    have hsame := (ready_settings sha256 s.before s.call).capacity
    have hlen : ((s.before.ready sha256 s.call).evict_to_capacity s.order).states.entries.length
        < (s.before.ready sha256 s.call).capacity := hroom
    obtain ⟨hgrown, -⟩ := step_evicted sha256 s
    obtain ⟨hgone, -⟩ := evict_to_capacity_count (s.before.ready sha256 s.call) s.order
    rw [evicted_chains_inserts sha256 hins, hins, Bool.toNat_true] at hgrown
    refine ⟨by rw [hstates, AList.lookup_insert], by omega⟩
  no_growth := by
    intro hfound
    have hready := ready_length_le sha256 s.before s.call
    obtain ⟨hgrown, -⟩ := step_evicted sha256 s
    rw [hfound, Bool.toNat_false] at hgrown
    omega
  oldest_first := by
    rintro ⟨k₀, e⟩ hgone k kept hready hkept
    cases hins : s.before.inserts sha256 s.call with
    | false =>
      rw [evicted_chains_found sha256 hins] at hgone
      cases hgone
    | true =>
      rw [evicted_chains_inserts sha256 hins] at hgone
      obtain ⟨he, hout⟩ := Lru.mem_gone_iff.mp hgone
      obtain ⟨hstates, -, -⟩ := out_inserts sha256 hins
      have hk : k ≠ s.call.key sha256 := by
        rintro rfl
        -- a chain found under the key would have been extended
        simp [PrefixStitcher.inserts, hready] at hins
      rw [hstates, AList.lookup_insert_ne hk] at hkept
      obtain ⟨v, hv⟩ := Option.ne_none_iff_exists'.mp hkept
      have hsub := Lru.lookup_of_lookup_evict _ hv
      obtain rfl : kept = v := by simpa [hready] using hsub
      exact Lru.evicted_le_kept _ he hout hv
  counted := by
    rw [(step_evicted sha256 s).2, ready_evicted]

/-- In every history of calls and changes of the limits, each call returns
    and keeps the capacity in force. -/
theorem capacity_bounds_table (capacity ttl_ms clock : Nat) (salt : Bytes) (ops : List StitchOp)
    (order : Nat → StitchOrder) (order' : StitchOrder) (c : AssignCall) :
    CapacityKept sha256 (capacity_in_force capacity ops)
      ⟨stitcher_after sha256 order (PrefixStitcher.with_limits capacity ttl_ms clock salt) ops,
        order', c⟩ :=
  step_capacity sha256 _ (stitcher_after_capacity sha256 ops order _ capacity rfl)

/-! ### The books of the table -/

/-- The call looks up an expired chain, and no sweep takes it out first. -/
def PrefixStitcher.late_lookup (st : PrefixStitcher) (c : AssignCall) : Bool :=
  decide (st.now_ms c.now - st.last_sweep_ms < SWEEP_INTERVAL_MS) &&
    (st.states.lookup (c.key sha256)).any fun entry => !st.is_live c.now entry

/-- A lookup drops a chain exactly when the sweep left it an expired one. -/
theorem ready_length (st : PrefixStitcher) (c : AssignCall) :
    (st.ready sha256 c).states.entries.length + (st.late_lookup sha256 c).toNat
      = (st.sweep_if_due c.now).states.entries.length := by
  unfold PrefixStitcher.ready PrefixStitcher.late_lookup
  by_cases hdue : SWEEP_INTERVAL_MS ≤ st.now_ms c.now - st.last_sweep_ms
  · -- what the sweep keeps is live
    have hkept : (((st.sweep_if_due c.now).states.lookup (c.key sha256)).any fun entry =>
        !(st.sweep_if_due c.now).is_live c.now entry) = false := by
      have hlive : ∀ entry, (st.sweep_if_due c.now).is_live c.now entry = st.is_live c.now entry := by
        intro entry
        rw [PrefixStitcher.is_live, ← (sweep_settings st c.now).ttl, PrefixStitcher.is_live]
      have hstates : (st.sweep_if_due c.now).states = Lru.retain (st.is_live c.now) st.states := by
        rw [PrefixStitcher.sweep_if_due, if_pos hdue]
      simp only [hlive, hstates, Lru.lookup_retain]
      cases st.states.lookup (c.key sha256) with
      | none => rfl
      | some e => cases st.is_live c.now e <;> simp
    rw [PrefixStitcher.drop_expired, if_neg (by simp [hkept]), decide_eq_false (by omega)]
    rfl
  · have hsame : st.sweep_if_due c.now = st := by
      rw [PrefixStitcher.sweep_if_due, if_neg hdue]
    rw [hsame, decide_eq_true (by omega), Bool.true_and, PrefixStitcher.drop_expired]
    cases hlate : (st.states.lookup (c.key sha256)).any fun entry => !st.is_live c.now entry with
    | false => simp
    | true =>
      obtain ⟨e, he⟩ : ∃ e, st.states.lookup (c.key sha256) = some e := by
        cases hkey : st.states.lookup (c.key sha256) with
        | none => simp [hkey] at hlate
        | some e => exact ⟨e, rfl⟩
      exact Lru.length_erase he

/-- The sweep counts what it takes out. -/
theorem sweep_expired (st : PrefixStitcher) (now : Nat) :
    (st.sweep_if_due now).expired = st.expired + UInt64.ofNat
      (st.states.entries.length - (st.sweep_if_due now).states.entries.length) := by
  unfold PrefixStitcher.sweep_if_due
  split_ifs
  · rfl
  · simp

/-- One call's part in the books of the expiry: the sweep counts what it
    takes out, the lookup does not. -/
theorem step_expired (s : StitchStep) :
    s.before.states.entries.length = (s.before.ready sha256 s.call).states.entries.length
        + (s.expired_chains sha256).length ∧
    ∃ swept, (s.out sha256).2.expired = s.before.expired + UInt64.ofNat swept ∧
      (s.expired_chains sha256).length
        = swept + (s.before.late_lookup sha256 s.call).toNat := by
  have hgone := Lru.length_gone (ready_expires sha256 s.before s.call).sub
  have hlate := ready_length sha256 s.before s.call
  have hkept := Lru.length_gone (sweep_expires s.before s.call.now).sub
  have hready : (s.before.ready sha256 s.call).expired
      = (s.before.sweep_if_due s.call.now).expired := by
    unfold PrefixStitcher.ready PrefixStitcher.drop_expired
    split_ifs <;> rfl
  have hout : (s.out sha256).2.expired = (s.before.ready sha256 s.call).expired := by
    cases hins : s.before.inserts sha256 s.call with
    | true => exact (out_inserts sha256 hins).2.1
    | false => exact (out_found sha256 hins).2.1
  refine ⟨by rw [StitchStep.expired_chains]; omega, _,
    (hout.trans hready).trans (sweep_expired s.before s.call.now), ?_⟩
  rw [StitchStep.expired_chains]
  omega

/-- The chains inserted in a history. -/
def chains_inserted (steps : List StitchStep) : Nat :=
  steps.countP fun s => s.before.inserts sha256 s.call

/-- The chains that expired in a history. -/
def chains_expired (steps : List StitchStep) : Nat :=
  (steps.map fun s => (s.expired_chains sha256).length).sum

/-- The chains that made room in a history. -/
def chains_evicted (steps : List StitchStep) : Nat :=
  (steps.map fun s => (s.evicted_chains sha256).length).sum

def late_lookups (steps : List StitchStep) : Nat :=
  steps.countP fun s => s.before.late_lookup sha256 s.call

/-- The books of a history that starts with `st`: every chain is in the table
    or went one of the two ways, and the counters miss the late lookups. -/
structure BooksKept (st st' : PrefixStitcher) (steps : List StitchStep) : Prop where
  total : st.states.entries.length + chains_inserted sha256 steps
    = st'.states.entries.length + chains_expired sha256 steps + chains_evicted sha256 steps
  expired : ∃ swept, st'.expired = st.expired + UInt64.ofNat swept ∧
    chains_expired sha256 steps = swept + late_lookups sha256 steps
  evicted : st'.evicted = st.evicted + UInt64.ofNat (chains_evicted sha256 steps)

theorem BooksKept.cons {s : StitchStep} {st' : PrefixStitcher} {steps : List StitchStep}
    (h : BooksKept sha256 (s.out sha256).2 st' steps) :
    BooksKept sha256 s.before st' (s :: steps) := by
  obtain ⟨htotal, ⟨swept, hexpired, hlate⟩, hevicted⟩ := h
  obtain ⟨hgone, swept', hexpired', hlate'⟩ := step_expired sha256 s
  obtain ⟨hroom, hcount⟩ := step_evicted sha256 s
  rw [ready_evicted] at hcount
  have hins : chains_inserted sha256 (s :: steps)
      = (s.before.inserts sha256 s.call).toNat + chains_inserted sha256 steps := by
    rw [chains_inserted, List.countP_cons, Nat.add_comm]
    cases s.before.inserts sha256 s.call <;> rfl
  have hlookups : late_lookups sha256 (s :: steps)
      = (s.before.late_lookup sha256 s.call).toNat + late_lookups sha256 steps := by
    rw [late_lookups, List.countP_cons, Nat.add_comm]
    cases s.before.late_lookup sha256 s.call <;> rfl
  have hexp : chains_expired sha256 (s :: steps)
      = (s.expired_chains sha256).length + chains_expired sha256 steps := List.sum_cons
  have hev : chains_evicted sha256 (s :: steps)
      = (s.evicted_chains sha256).length + chains_evicted sha256 steps := List.sum_cons
  refine ⟨by omega, ⟨swept' + swept, ?_, by omega⟩, ?_⟩
  · rw [hexpired, hexpired', UInt64.ofNat_add, UInt64.add_assoc]
  · rw [hevicted, hcount, hev, UInt64.ofNat_add, UInt64.add_assoc]

/-- Every history keeps the books. -/
theorem run_books : ∀ (ops : List StitchOp) (order : Nat → StitchOrder) (st : PrefixStitcher),
    BooksKept sha256 st (stitcher_after sha256 order st ops) (run_steps sha256 order st ops) := by
  intro ops
  induction ops with
  | nil =>
    intro order st
    exact ⟨rfl, ⟨0, (UInt64.add_zero _).symm, rfl⟩, (UInt64.add_zero _).symm⟩
  | cons op ops ih =>
    intro order st
    cases op with
    | assign c => exact BooksKept.cons sha256 (s := ⟨st, order 0, c⟩) (ih _ _)
    | set_limits capacity ttl_ms =>
      obtain ⟨htotal, hexpired, hevicted⟩ :=
        ih (fun n => order (n + 1)) (st.set_limits capacity ttl_ms)
      exact ⟨htotal, hexpired, hevicted⟩

/-- Every chain that was ever inserted is in the table or counted, once,
    under the reason it went. -/
structure ExitsCounted (st : PrefixStitcher) (steps : List StitchStep) : Prop where
  total : chains_inserted sha256 steps
    = st.states.entries.length + chains_expired sha256 steps + chains_evicted sha256 steps
  expired : st.expired = UInt64.ofNat (chains_expired sha256 steps)
  evicted : st.evicted = UInt64.ofNat (chains_evicted sha256 steps)

theorem late_lookups_eq_zero {steps : List StitchStep} :
    late_lookups sha256 steps = 0 ↔
      ∀ s ∈ steps, s.before.late_lookup sha256 s.call = false := by
  simp [late_lookups, List.countP_eq_zero]

/-- A history from an empty table counts all exits where no call looks up an
    expired chain that the sweep has left. Where the insertions fit the
    counters, the sum is right in exactly these histories. -/
theorem exits_counted_iff (capacity ttl_ms clock : Nat) (salt : Bytes) (ops : List StitchOp)
    (order : Nat → StitchOrder) :
    let fresh := PrefixStitcher.with_limits capacity ttl_ms clock salt
    let st := stitcher_after sha256 order fresh ops
    let steps := run_steps sha256 order fresh ops
    ((∀ s ∈ steps, s.before.late_lookup sha256 s.call = false) → ExitsCounted sha256 st steps) ∧
      (chains_inserted sha256 steps < 2 ^ 64 →
        (chains_inserted sha256 steps
            = st.states.entries.length + st.expired.toNat + st.evicted.toNat ↔
          ∀ s ∈ steps, s.before.late_lookup sha256 s.call = false)) := by
  intro fresh st steps
  have hbooks : BooksKept sha256 fresh st steps := run_books sha256 ops order fresh
  obtain ⟨htotal, ⟨swept, hexpired, hlate⟩, hevicted⟩ := hbooks
  have hempty : fresh.states.entries.length = 0 := rfl
  have hzero : fresh.expired = 0 ∧ fresh.evicted = 0 := ⟨rfl, rfl⟩
  rw [hempty, Nat.zero_add] at htotal
  rw [hzero.1, UInt64.zero_add] at hexpired
  rw [hzero.2, UInt64.zero_add] at hevicted
  rw [← late_lookups_eq_zero]
  refine ⟨fun hnone => ⟨htotal, ?_, hevicted⟩, fun hfits => ?_⟩
  · rw [hexpired, hlate, hnone, Nat.add_zero]
  · -- no counter has wrapped, for it counts no more than came in
    have hround : ∀ n, n ≤ chains_inserted sha256 steps → (UInt64.ofNat n).toNat = n := by
      intro n hn
      rw [UInt64.toNat_ofNat']
      exact Nat.mod_eq_of_lt (by omega)
    rw [hexpired, hevicted, hround _ (by omega), hround _ (by omega)]
    omega

end stitching

/-- One conversation comes back after its 10 ms TTL and before a sweep: its
    first chain is gone and counted nowhere. -/
theorem lookup_expiry_uncounted :
    let call (now : Nat) : AssignCall := ⟨"scope", [.string "sys", .string "head"], now⟩
    let ops := [.assign (call 1000000), .assign (call 21000000)]
    let fresh := PrefixStitcher.with_limits 8 10 0 [1, 2, 3, 4, 5, 6, 7, 8]
    let order : Nat → StitchOrder := fun _ => Lru.IterOrder.stored
    let st := stitcher_after Sha256.digest order fresh ops
    chains_inserted Sha256.digest (run_steps Sha256.digest order fresh ops) = 2 ∧
      st.states.entries.length = 1 ∧ st.expired = 0 ∧ st.evicted = 0 := by
  decide +kernel

end AgentTraceGateway
