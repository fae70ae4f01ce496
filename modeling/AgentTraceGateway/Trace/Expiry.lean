import AgentTraceGateway.Trace.Occupancy

/-! # Expiry under Changing Limits

  A chain that some call finds idle for the TTL or longer stays in the table
  until a sweep is due or its own key is looked up. What the lookup then
  holds against it is the TTL of that later moment. So an expired chain is
  extended after all where a reload raises the TTL in between, and nowhere
  else. -/

namespace AgentTraceGateway

variable (sha256 : Bytes → Digest)

/-- No call is given the id of a chain that an earlier call found expired. -/
def ExpiryFinal (steps : List StitchStep) : Prop :=
  ∀ (i j : Nat) (s s' : StitchStep), i < j → steps[i]? = some s → steps[j]? = some s' →
    ∀ key e, s.before.states.lookup key = some e → s.before.ttl ≤ s.call.now - e.last_used →
      (s'.out sha256).1.session_id ≠ e.session_id

/-- Where the TTL was lower at an earlier call, the chain a call extends was
    live at that call too. -/
def RaisesSpareExpired (steps : List StitchStep) : Prop :=
  ∀ (i j : Nat) (s s' : StitchStep), i < j → steps[i]? = some s → steps[j]? = some s' →
    s.before.ttl < s'.before.ttl →
    ∀ e, (s'.before.ready sha256 s'.call).states.lookup (s'.call.key sha256) = some e →
      e.chain <+: s'.call.fps sha256 → s.before.is_live s.call.now e = true

/-! ### A history as one line of steps -/

/-- What the steps of a history have to do with each other: the time goes
    on, each call meets the table the last one left, ids stand for keys, and
    a call that extends no chain gets a new one. -/
structure Timeline (steps : List StitchStep) : Prop where
  times : ∀ (i j : Nat) (s s' : StitchStep), i < j → steps[i]? = some s → steps[j]? = some s' →
    s.call.now < s'.call.now
  tables : ∀ (n : Nat) (s s' : StitchStep), steps[n]? = some s → steps[n + 1]? = some s' →
    s'.before.states = (s.out sha256).2.states
  known : ∀ (n : Nat) (s : StitchStep), steps[n]? = some s → ∀ key e,
    s.before.states.lookup key = some e → ∃ m w, m < n ∧ steps[m]? = some w ∧
      w.call.key sha256 = key ∧ (w.out sha256).1.session_id = e.session_id
  keys : ∀ (i j : Nat) (s s' : StitchStep), steps[i]? = some s → steps[j]? = some s' →
    (s.out sha256).1.session_id = (s'.out sha256).1.session_id →
      s.call.key sha256 = s'.call.key sha256
  fresh : ∀ (n : Nat) (s : StitchStep), steps[n]? = some s → ¬ s.before.Extends sha256 s.call →
    ∀ (m : Nat) (w : StitchStep), m < n → steps[m]? = some w →
      (w.out sha256).1.session_id ≠ (s.out sha256).1.session_id

theorem first_before {ops : List StitchOp} : ∀ {order : Nat → StitchOrder} {st : PrefixStitcher}
    {s : StitchStep}, (run_steps sha256 order st ops)[0]? = some s →
      s.before.states = st.states := by
  induction ops with
  | nil => intro order st s hs; cases hs
  | cons op ops ih =>
    intro order st s hs
    cases op with
    | assign c =>
      cases hs
      rfl
    | set_limits capacity ttl_ms => exact @ih _ (st.set_limits capacity ttl_ms) s hs

/-- Changes of the limits leave the table alone. -/
theorem next_before {ops : List StitchOp} : ∀ {order : Nat → StitchOrder} {st : PrefixStitcher}
    {n : Nat} {s s' : StitchStep}, (run_steps sha256 order st ops)[n]? = some s →
      (run_steps sha256 order st ops)[n + 1]? = some s' →
      s'.before.states = (s.out sha256).2.states := by
  induction ops with
  | nil => intro order st n s s' hs; cases hs
  | cons op ops ih =>
    intro order st n s s' hs hs'
    cases op with
    | assign c =>
      cases n with
      | zero =>
        cases hs
        exact first_before sha256 hs'
      | succ n => exact ih hs hs'
    | set_limits capacity ttl_ms => exact ih hs hs'

theorem step_times {ops : List StitchOp} {order : Nat → StitchOrder} {st : PrefixStitcher}
    (htimes : (call_times ops).Pairwise (· < ·)) :
    ((run_steps sha256 order st ops).map (·.call.now)).Pairwise (· < ·) := by
  have hcalls : (run_steps sha256 order st ops).map (·.call.now) = call_times ops := by
    have hnow : call_times ops = (calls_of ops).map (·.now) := by
      rw [call_times, calls_of, List.map_filterMap]
      congr 1
      funext op
      cases op <;> rfl
    rw [hnow, ← run_steps_calls sha256 ops order st, List.map_map]
    rfl
  rwa [hcalls]

/-- The history of a fresh stitcher is such a line. -/
theorem history_timeline (capacity ttl_ms clock : Nat) (salt : Bytes) (ops : List StitchOp)
    (order : Nat → StitchOrder) (hfree : CollisionFree sha256 salt (calls_of ops))
    (hlen : (calls_of ops).length ≤ 2 ^ 64) (htimes : (call_times ops).Pairwise (· < ·)) :
    Timeline sha256 (run_steps sha256 order
      (PrefixStitcher.with_limits capacity ttl_ms clock salt) ops) := by
  obtain ⟨hsteps, st, mints, hend⟩ :=
    history_inv sha256 capacity ttl_ms clock salt ops order hfree hlen
  -- the invariant of the run is read off at each call
  generalize hrun : run_steps sha256 order
    (PrefixStitcher.with_limits capacity ttl_ms clock salt) ops = steps at hsteps hend
  have hcount : steps.length = (calls_of ops).length := by
    rw [← hrun, ← List.length_map, run_steps_calls]
  have hentry : ∀ {n : Nat} {s : StitchStep}, steps[n]? = some s →
      (steps.map (·.entry sha256))[n]? = some (s.entry sha256) := by
    intro n s hs
    rw [List.getElem?_map, hs]
    rfl
  have hcall : ∀ {n : Nat} {s : StitchStep}, steps[n]? = some s → s.call ∈ calls_of ops := by
    intro n s hs
    rw [← hrun] at hs
    exact step_call_mem sha256 (List.mem_of_getElem? hs)
  constructor
  · -- the calls come at increasing times
    intro i j s s' hij hs hs'
    have hpair := @step_times sha256 ops order
      (PrefixStitcher.with_limits capacity ttl_ms clock salt) htimes
    rw [hrun, List.pairwise_map, List.pairwise_iff_getElem] at hpair
    obtain ⟨hi, rfl⟩ := List.getElem?_eq_some_iff.mp hs
    obtain ⟨hj, rfl⟩ := List.getElem?_eq_some_iff.mp hs'
    exact hpair i j hi hj hij
  · -- each call starts from the table the one before it left
    intro n s s' hs hs'
    rw [← hrun] at hs hs'
    exact next_before sha256 hs hs'
  · -- every id in the table was given out by an earlier call under its key
    intro n s hs key e he
    obtain ⟨-, mints', hinv⟩ := hsteps n s hs
    obtain ⟨m, a, ha, hkey, hid, -, -⟩ := hinv.table key e he
    rw [List.getElem?_map, Option.map_eq_some_iff] at ha
    obtain ⟨w, hw, rfl⟩ := ha
    rw [List.getElem?_take] at hw
    split_ifs at hw with hm
    exact ⟨m, w, hm, hw, hkey, hid⟩
  · -- calls that are given one id have one key
    intro i j s s' hs hs' hid
    rcases Nat.lt_trichotomy i j with hij | rfl | hji
    · exact (hend.pairs i j _ _ hij (hentry hs) (hentry hs') hid).1
    · obtain rfl : s = s' := by simpa [hs] using hs'
      rfl
    · exact (hend.pairs j i _ _ hji (hentry hs') (hentry hs) hid.symm).1.symm
  · -- a call that extends nothing mints an id no earlier call was given
    intro n s hs hnot m w hm hw
    obtain ⟨hsalt, mints', hinv⟩ := hsteps n s hs
    obtain ⟨-, -, -, -, hout⟩ := assign_cases sha256 s.before s.order s.call
    rcases hout with ⟨hextends, -⟩ | ⟨-, hid, -⟩
    · exact absurd hextends hnot
    · have hlog : ∀ a ∈ (steps.take n).map (·.entry sha256), a.1 ∈ calls_of ops := by
        intro a ha
        obtain ⟨w', hw', rfl⟩ := List.mem_map.mp ha
        obtain ⟨k, hk⟩ := List.mem_iff_getElem?.mp (List.mem_of_mem_take hw')
        exact hcall hk
      have hn : n < steps.length := (List.getElem?_eq_some_iff.mp hs).1
      -- the log is shorter than the history, so a nonce is left
      have hroom : ((steps.take n).map (·.entry sha256)).length < (calls_of ops).length := by
        rw [List.length_map, List.length_take]
        omega
      rw [← hsalt] at hfree
      have hnew := mint_fresh sha256 hlen hfree hinv hlog (hcall hs) hroom hid
      have hmem : w.entry sha256 ∈ (steps.take n).map (·.entry sha256) := by
        apply List.mem_map_of_mem
        apply List.mem_of_getElem? (i := m)
        rw [List.getElem?_take, if_pos hm]
        exact hw
      exact hnew _ hmem

/-! ### Where a chain and an id come from -/

/-- A chain a call meets was there at an earlier call, or one of the calls
    since has written it. -/
theorem Timeline.chain_since {steps : List StitchStep} (h : Timeline sha256 steps) {i : Nat}
    {s : StitchStep} (hs : steps[i]? = some s) : ∀ (j : Nat) (s' : StitchStep), i ≤ j →
      steps[j]? = some s' → ∀ key e, s'.before.states.lookup key = some e →
        s.before.states.lookup key = some e ∨ ∃ m w, i ≤ m ∧ m < j ∧ steps[m]? = some w ∧
          w.call.key sha256 = key ∧ e = w.written sha256 := by
  -- by the calls from i on: each writes under its own key only
  intro j
  induction j with
  | zero =>
    intro s' hij hs' key e he
    obtain rfl : i = 0 := by omega
    obtain rfl : s = s' := by simpa [hs] using hs'
    exact Or.inl he
  | succ j ih =>
    intro s' hij hs' key e he
    rcases Nat.lt_or_eq_of_le hij with hlt | rfl
    · obtain ⟨w, hw⟩ : ∃ w, steps[j]? = some w := by
        have hj := (List.getElem?_eq_some_iff.mp hs').1
        exact ⟨_, List.getElem?_eq_getElem (by omega)⟩
      -- what the call at j leaves is what it kept and what it wrote
      obtain ⟨-, kept, hkept, hstates, -⟩ := assign_cases sha256 w.before w.order w.call
      have hsame := (h.tables j w s' hw hs').trans hstates
      rw [hsame] at he
      by_cases hkey : key = w.call.key sha256
      · subst hkey
        rw [AList.lookup_insert, Option.some.injEq] at he
        exact Or.inr ⟨j, w, by omega, by omega, hw, rfl, he.symm⟩
      · rw [AList.lookup_insert_ne hkey] at he
        rcases ih w (by omega) hw key e (hkept key e he) with hbefore | ⟨m, w', him, hmj, hrest⟩
        · exact Or.inl hbefore
        · exact Or.inr ⟨m, w', him, by omega, hrest⟩
    · obtain rfl : s = s' := by simpa [hs] using hs'
      exact Or.inl he

/-- An id given out before comes from the chain the call extends. -/
theorem Timeline.extends_of_known {steps : List StitchStep} (h : Timeline sha256 steps)
    {n m : Nat} {s w : StitchStep} (hm : m < n) (hs : steps[n]? = some s)
    (hw : steps[m]? = some w)
    (hid : (w.out sha256).1.session_id = (s.out sha256).1.session_id) :
    ∃ e, (s.before.ready sha256 s.call).states.lookup (s.call.key sha256) = some e ∧
      e.chain <+: s.call.fps sha256 ∧ e.session_id = (s.out sha256).1.session_id := by
  obtain ⟨-, -, -, -, hout⟩ := assign_cases sha256 s.before s.order s.call
  rcases hout with ⟨⟨e, he, hchain⟩, e', he', -, hanswer, -⟩ | ⟨hnot, -, -⟩
  · have hsub := (ready_expires sha256 s.before s.call).sub _ e he
    obtain rfl : e = e' := by simpa [hsub] using he'
    exact ⟨e, he, hchain, by rw [StitchStep.out, hanswer]⟩
  · exact absurd hid (h.fresh n s hs hnot m w hm hw)

/-- A call that extends a chain is given its id. -/
theorem extends_id {s : StitchStep} {e : ChainState}
    (he : (s.before.ready sha256 s.call).states.lookup (s.call.key sha256) = some e)
    (hchain : e.chain <+: s.call.fps sha256) : (s.out sha256).1.session_id = e.session_id := by
  obtain ⟨-, -, -, -, hout⟩ := assign_cases sha256 s.before s.order s.call
  rcases hout with ⟨-, e', he', -, hanswer, -⟩ | ⟨hnot, -, -⟩
  · have hsub := (ready_expires sha256 s.before s.call).sub _ e he
    obtain rfl : e = e' := by simpa [hsub] using he'
    rw [StitchStep.out, hanswer]
  · exact absurd ⟨e, he, hchain⟩ hnot

/-- The chain a call looks up is live at that call. -/
theorem ready_live {st : PrefixStitcher} {c : AssignCall} {e : ChainState}
    (he : (st.ready sha256 c).states.lookup (c.key sha256) = some e) :
    c.now - e.last_used < st.ttl := by
  have hlive := drop_expired_live he
  rw [← (sweep_settings st c.now).ttl] at hlive
  simpa [ChainState.idle_below] using hlive

/-! ### When expiry is final -/

variable {sha256}

theorem is_live_iff {st : PrefixStitcher} {now : Nat} {e : ChainState} :
    st.is_live now e = true ↔ now - e.last_used < st.ttl := by
  simp [PrefixStitcher.is_live, ChainState.idle_below]

/-- The first call that is given the id of an expired chain would extend the
    chain itself, under a raised TTL. -/
theorem Timeline.final_of_spared {steps : List StitchStep} (h : Timeline sha256 steps)
    (hspared : RaisesSpareExpired sha256 steps) : ExpiryFinal sha256 steps := by
  intro i j s s' hij hs hs' key e he hidle
  -- the first later call that returns the id would extend the chain
  induction j using Nat.strong_induction_on generalizing s' with
  | _ j ih =>
    intro heq
    obtain ⟨m₀, w₀, hm₀, hw₀, hkey₀, hid₀⟩ := h.known i s hs key e he
    have hid := hid₀.trans heq.symm
    have hkey : s'.call.key sha256 = key := (h.keys m₀ j w₀ s' hw₀ hs' hid).symm.trans hkey₀
    obtain ⟨e', he', hchain, hid'⟩ :=
      h.extends_of_known sha256 (Nat.lt_trans hm₀ hij) hs' hw₀ hid
    have htable := (ready_expires sha256 s'.before s'.call).sub _ e' he'
    rw [hkey] at htable
    rcases h.chain_since sha256 hs j s' (Nat.le_of_lt hij) hs' key e' htable with
      hbefore | ⟨m, w, him, hmj, hw, -, rfl⟩
    · -- the chain has not been used since: only a raised TTL lets it live
      obtain rfl : e = e' := by simpa [he] using hbefore
      have hlive := ready_live sha256 he'
      have hnow := h.times i j s s' hij hs hs'
      have hraised : s.before.ttl < s'.before.ttl := by omega
      have := is_live_iff.mp (hspared i j s s' hij hs hs' hraised e he' hchain)
      omega
    · have hidw : (w.out sha256).1.session_id = e.session_id := hid'.trans heq
      rcases Nat.lt_or_eq_of_le him with hlt | rfl
      · exact ih m hmj w hlt hw hidw
      · -- the call that finds it expired does not extend it either
        obtain rfl : s = w := by simpa [hs] using hw
        obtain ⟨e₁, he₁, -, hid₁⟩ :=
          h.extends_of_known sha256 hm₀ hs hw₀ (hid₀.trans hidw.symm)
        have hkey₁ := (h.keys m₀ i w₀ s hw₀ hs (hid₀.trans hidw.symm)).symm.trans hkey₀
        have htable₁ := (ready_expires sha256 s.before s.call).sub _ e₁ he₁
        rw [hkey₁] at htable₁
        obtain rfl : e = e₁ := by simpa [he] using htable₁
        have := ready_live sha256 he₁
        omega

theorem Timeline.spared_of_final {steps : List StitchStep} (h : Timeline sha256 steps)
    (hfinal : ExpiryFinal sha256 steps) : RaisesSpareExpired sha256 steps := by
  intro i j s s' hij hs hs' _ e he hchain
  rw [is_live_iff]
  by_contra hidle
  have htable := (ready_expires sha256 s'.before s'.call).sub _ e he
  rcases h.chain_since sha256 hs j s' (Nat.le_of_lt hij) hs' _ e htable with
    hbefore | ⟨m, w, him, -, hw, -, rfl⟩
  · exact hfinal i j s s' hij hs hs' _ e hbefore (by omega) (extends_id sha256 he hchain)
  · -- a chain written since was not idle at all
    have hnow : s.call.now ≤ w.call.now := by
      rcases Nat.lt_or_eq_of_le him with hlt | rfl
      · exact Nat.le_of_lt (h.times i m s w hlt hs hw)
      · obtain rfl : s = w := by simpa [hs] using hw
        exact Nat.le_refl _
    have hwritten : (w.written sha256).last_used = w.call.now := rfl
    have hpos := ttl_pos s.before
    rw [hwritten] at hidle
    omega

variable (sha256)

/-- In a history at increasing times expiry is final exactly where no raise
    of the TTL meets a chain that has expired and is extended after it. -/
theorem expiry_final_iff (capacity ttl_ms clock : Nat) (salt : Bytes) (ops : List StitchOp)
    (order : Nat → StitchOrder) (hfree : CollisionFree sha256 salt (calls_of ops))
    (hlen : (calls_of ops).length ≤ 2 ^ 64) (htimes : (call_times ops).Pairwise (· < ·)) :
    let steps := run_steps sha256 order
      (PrefixStitcher.with_limits capacity ttl_ms clock salt) ops
    ExpiryFinal sha256 steps ↔ RaisesSpareExpired sha256 steps := by
  intro steps
  have hline := history_timeline sha256 capacity ttl_ms clock salt ops order hfree hlen htimes
  exact ⟨hline.spared_of_final, hline.final_of_spared⟩

/-- One conversation, replayed after the TTL was raised within its time. -/
theorem expiry_final_iff_replay :
    let call (now : Nat) : AssignCall := ⟨"scope", [.string "sys", .string "head"], now⟩
    let ops := [.assign (call 1000000), .set_limits 8 1000, .assign (call 2000000)]
    let salt := [1, 2, 3, 4, 5, 6, 7, 8]
    let steps := run_steps Sha256.digest (fun _ => Lru.IterOrder.stored)
      (PrefixStitcher.with_limits 8 10 0 salt) ops
    CollisionFree Sha256.digest salt (calls_of ops) ∧
      (ExpiryFinal Sha256.digest steps ↔ RaisesSpareExpired Sha256.digest steps) := by
  intro call ops salt steps
  have hcalls : ∀ c ∈ calls_of ops, c.messages = [.string "sys", .string "head"] := by
    intro c hc
    obtain rfl | rfl : c = call 1000000 ∨ c = call 2000000 := by simpa [calls_of, ops] using hc
    · rfl
    · rfl
  have hfree : CollisionFree Sha256.digest salt (calls_of ops) :=
    replay_collision_free Sha256.digest _ _ hcalls rfl (by decide +kernel) (by decide +kernel)
  exact ⟨hfree, expiry_final_iff Sha256.digest 8 10 0 salt ops _ hfree (by decide) (by decide)⟩

/-- A chain used at 1 ms is found expired at 21 ms under a TTL of 10 ms; a
    reload raises the TTL to one second, and at 22 ms the chain is extended. -/
theorem raised_ttl_revives :
    let call (head : String) (now : Nat) : AssignCall := ⟨"scope", [.string head], now⟩
    let ops := [.assign (call "a" 1000000), .assign (call "b" 21000000),
      .set_limits 8 1000, .assign (call "a" 22000000)]
    (call_times ops).Pairwise (· < ·) ∧
      ¬ ExpiryFinal Sha256.digest (run_steps Sha256.digest (fun _ => Lru.IterOrder.stored)
        (PrefixStitcher.with_limits 8 10 0 [1, 2, 3, 4, 5, 6, 7, 8]) ops) := by
  intro call ops
  refine ⟨by decide, fun hfinal => ?_⟩
  let chain : ChainState := ⟨(call "a" 1000000).fps Sha256.digest,
    mint Sha256.digest [1, 2, 3, 4, 5, 6, 7, 8]
      (fps_concat ((call "a" 1000000).fps Sha256.digest)) 0, 1000000⟩
  refine hfinal 1 2 _ _ (by decide) rfl rfl ((call "a" 0).key Sha256.digest) chain ?_ ?_ ?_
  · decide +kernel
  · decide +kernel
  · decide +kernel

end AgentTraceGateway
