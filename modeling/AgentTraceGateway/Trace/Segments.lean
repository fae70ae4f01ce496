import AgentTraceGateway.Trace.History

/-! # Segments of a Stitcher's History

  A segment is a conversation that goes on: a call continues an earlier one
  when they have the same key and every call of that key since then has
  extended its chain. Over a history without collisions, two calls have one
  session id exactly when the later continues the earlier.

  So a chain that has ended stays so: once it was evicted, swept, met when
  its time was over or diverged from, no call gets its id again. -/

namespace AgentTraceGateway

variable (sha256 : Bytes → Digest)

/-- Every call of the key of `a` after step `i`, up to step `j`, extended its
    chain. -/
def ExtendedUpTo (steps : List StitchStep) (i j : Nat) (a : AssignCall) : Prop :=
  ∀ m s, i < m → m ≤ j → steps[m]? = some s → s.call.key sha256 = a.key sha256 →
    s.before.Extends sha256 s.call

section history

variable {sha256} {capacity ttl_ms clock : Nat} {salt : Bytes} {ops : List StitchOp}
  {order : Nat → StitchOrder}
  (hfree : CollisionFree sha256 salt (calls_of ops)) (hlen : (calls_of ops).length ≤ 2 ^ 64)
  {steps : List StitchStep} (hsteps : steps = run_steps sha256 order
    (PrefixStitcher.with_limits capacity ttl_ms clock salt) ops)

include hfree hlen hsteps

/-- The id of a call that extends no chain is new. -/
theorem fresh_of_not_extends {i m : Nat} {a s : StitchStep} (him : i < m)
    (ha : steps[i]? = some a) (hs : steps[m]? = some s)
    (hmint : ¬ s.before.Extends sha256 s.call) :
    (a.out sha256).1.session_id ≠ (s.out sha256).1.session_id := by
  obtain ⟨hbefore, -⟩ := history_inv sha256 capacity ttl_ms clock salt ops order hfree hlen
  rw [← hsteps] at hbefore
  obtain ⟨hsalt, mints, hinv⟩ := hbefore m s hs
  obtain ⟨-, -, -, -, hcases⟩ := assign_cases sha256 s.before s.order s.call
  rcases hcases with ⟨hextends, -⟩ | ⟨-, hid, -⟩
  · exact absurd hextends hmint
  · -- the step minted, and a minted id is none of those before it
    have hmem : ∀ {x : StitchStep}, x ∈ steps → x.call ∈ calls_of ops := by
      intro x hx
      rw [hsteps] at hx
      exact step_call_mem sha256 hx
    have hlog : ∀ x ∈ (steps.take m).map (·.entry sha256), x.1 ∈ calls_of ops := by
      intro x hx
      obtain ⟨y, hy, rfl⟩ := List.mem_map.mp hx
      exact hmem (List.mem_of_mem_take hy)
    have hroom : ((steps.take m).map (·.entry sha256)).length < (calls_of ops).length := by
      have hm := (List.getElem?_eq_some_iff.mp hs).1
      rw [← run_steps_calls sha256 ops order
        (PrefixStitcher.with_limits capacity ttl_ms clock salt), ← hsteps, List.length_map,
        List.length_map, List.length_take]
      omega
    have hold : a.entry sha256 ∈ (steps.take m).map (·.entry sha256) := by
      refine List.mem_map_of_mem (List.mem_of_getElem? (i := i) ?_)
      rw [List.getElem?_take_of_lt him]
      exact ha
    rw [← hsalt] at hfree
    exact mint_fresh sha256 hlen hfree hinv hlog (hmem (List.mem_of_getElem? hs)) hroom hid _ hold

/-- A call that extends its chain gets the id of the last call of its key. -/
theorem id_of_extends {i j : Nat} {a s : StitchStep} (hij : i < j) (ha : steps[i]? = some a)
    (hs : steps[j]? = some s) (hkey : s.call.key sha256 = a.call.key sha256)
    (hextends : s.before.Extends sha256 s.call) :
    ∃ m x, i ≤ m ∧ m < j ∧ steps[m]? = some x ∧ x.call.key sha256 = a.call.key sha256 ∧
      (s.out sha256).1.session_id = (x.out sha256).1.session_id := by
  obtain ⟨hbefore, -⟩ := history_inv sha256 capacity ttl_ms clock salt ops order hfree hlen
  rw [← hsteps] at hbefore
  obtain ⟨-, mints, hinv⟩ := hbefore j s hs
  obtain ⟨-, -, -, -, hcases⟩ := assign_cases sha256 s.before s.order s.call
  rcases hcases with ⟨-, e, he, -, hanswer, -⟩ | ⟨hmint, -⟩
  · -- the stored chain is that of the last call of the key
    obtain ⟨m, entry, hm, hmkey, hmid, -, hlast⟩ := hinv.table _ e he
    rw [List.getElem?_map, Option.map_eq_some_iff] at hm
    obtain ⟨x, hx, rfl⟩ := hm
    have hmj : m < j := by
      have hlt := (List.getElem?_eq_some_iff.mp hx).1
      rw [List.length_take] at hlt
      omega
    have him : i ≤ m := by
      by_contra hlt
      have hentry : ((steps.take j).map (·.entry sha256))[i]? = some (a.entry sha256) := by
        rw [List.getElem?_map, List.getElem?_take_of_lt hij, ha]
        rfl
      exact hlast i _ (by omega) hentry hkey.symm
    rw [List.getElem?_take_of_lt hmj] at hx
    refine ⟨m, x, him, hmj, hx, hmkey.trans hkey, ?_⟩
    have hid : (s.out sha256).1.session_id = e.session_id :=
      congrArg Assigned.session_id hanswer
    exact hid.trans hmid.symm
  · exact absurd hextends hmint

/-- Along extending calls of one key the session id is handed on. -/
theorem id_of_extended {i : Nat} {a : StitchStep} (ha : steps[i]? = some a) :
    ∀ (j : Nat) (b : StitchStep), i ≤ j → steps[j]? = some b →
      b.call.key sha256 = a.call.key sha256 → ExtendedUpTo sha256 steps i j a.call →
        (b.out sha256).1.session_id = (a.out sha256).1.session_id := by
  intro j
  induction j using Nat.strong_induction_on with
  | _ j ih =>
    intro b hij hb hkey hextended
    rcases Nat.lt_or_eq_of_le hij with hlt | rfl
    · obtain ⟨m, x, him, hmj, hx, hxkey, hid⟩ := id_of_extends hfree hlen hsteps hlt ha hb hkey
        (hextended j b hlt (Nat.le_refl j) hb hkey)
      have hup : ExtendedUpTo sha256 steps i m a.call :=
        fun n s hin hnm hs hskey => hextended n s hin (by omega) hs hskey
      exact hid.trans (ih m hmj x him hx hxkey hup)
    · rw [ha] at hb
      cases hb
      rfl

/-- Two calls have one session id exactly when the later continues the
    earlier. -/
theorem same_id_iff_continues {i j : Nat} {a b : StitchStep} (hij : i < j)
    (ha : steps[i]? = some a) (hb : steps[j]? = some b) :
    (a.out sha256).1.session_id = (b.out sha256).1.session_id ↔
      b.call.key sha256 = a.call.key sha256 ∧ ExtendedUpTo sha256 steps i j a.call := by
  constructor
  · intro hid
    obtain ⟨-, st, mints, hinv⟩ :=
      history_inv sha256 capacity ttl_ms clock salt ops order hfree hlen
    rw [← hsteps] at hinv
    have hentry : ∀ {n : Nat} {s : StitchStep}, steps[n]? = some s →
        (steps.map (·.entry sha256))[n]? = some (s.entry sha256) := by
      intro n s hs
      rw [List.getElem?_map, hs]
      rfl
    obtain ⟨hkey, -, -, hbetween⟩ := hinv.pairs i j _ _ hij (hentry ha) (hentry hb) hid
    refine ⟨hkey.symm, ?_⟩
    intro m s him hmj hs hskey
    by_contra hmint
    have hfresh := fresh_of_not_extends hfree hlen hsteps him ha hs hmint
    rcases Nat.lt_or_eq_of_le hmj with hlt | rfl
    · exact hfresh (hbetween m _ him hlt (hentry hs) hskey).symm
    · rw [hb] at hs
      cases hs
      exact hfresh hid
  · rintro ⟨hkey, hextended⟩
    exact (id_of_extended hfree hlen hsteps ha j b (Nat.le_of_lt hij) hb hkey hextended).symm

/-- No session id is empty. -/
theorem id_nonempty {s : StitchStep} (hs : s ∈ steps) :
    (s.out sha256).1.session_id.isEmpty = false := by
  obtain ⟨-, st, mints, hinv⟩ :=
    history_inv sha256 capacity ttl_ms clock salt ops order hfree hlen
  rw [← hsteps] at hinv
  obtain ⟨c, -, n, -, hmint⟩ := hinv.ids _ (List.mem_map_of_mem hs)
  have hid : (s.out sha256).1.session_id
      = mint sha256 st.salt (fps_concat (c.1.fps sha256)) (UInt64.ofNat n) := hmint
  rw [hid]
  exact mint_nonempty _ _ _

end history

/-! ### A call right after another -/

/-- The next call of a key extends the chain, when its messages do and the
    chain is still live. -/
theorem extends_after {st : PrefixStitcher} {order : StitchOrder} {c c' : AssignCall}
    (hkey : c'.key sha256 = c.key sha256) (hfps : c.fps sha256 <+: c'.fps sha256)
    (hlive : c'.now - c.now < st.ttl) :
    (st.assign sha256 order c.scope c.messages c.now).2.Extends sha256 c' := by
  obtain ⟨-, kept, -, hstates, -⟩ := assign_cases sha256 st order c
  let next := (st.assign sha256 order c.scope c.messages c.now).2
  let e : ChainState := ⟨c.fps sha256,
    (st.assign sha256 order c.scope c.messages c.now).1.session_id, c.now⟩
  have hstored : next.states.lookup (c'.key sha256) = some e := by
    rw [show next.states = kept.insert (c.key sha256) e from hstates, hkey]
    exact AList.lookup_insert kept
  have httl : next.ttl = st.ttl := by
    rw [PrefixStitcher.ttl, PrefixStitcher.ttl, assign_ttl_ms]
  have hidle : e.idle_below next.ttl c'.now = true := by
    rw [httl]
    exact decide_eq_true hlive
  -- neither the sweep nor the lookup drops a live chain
  exact ⟨e, (lookup_expires next (c'.key sha256) c'.now).live _ e hstored hidle, hfps⟩

/-! ### Chains that have ended -/

/-- What ends the chain `e` that a step finds under `key`. A chain whose time
    is over ends when it is swept or looked up. -/
inductive StitchStep.Ends (s : StitchStep) (key : StitchKey) (e : ChainState) : Prop where
  /-- Evicted, or swept as expired. -/
  | removed (h : (s.out sha256).2.states.lookup key = none)
  /-- Looked up, and no longer live. -/
  | expired (hkey : s.call.key sha256 = key) (h : s.before.is_live s.call.now e = false)
  /-- Looked up, and not extended. -/
  | diverged (hkey : s.call.key sha256 = key) (h : ¬ e.chain <+: s.call.fps sha256)

/-- From the step on that ends a chain, no call gets its id. -/
def NeverReopened (steps : List StitchStep) : Prop :=
  ∀ (m j : Nat) (s t : StitchStep) (key : StitchKey) (e : ChainState), m ≤ j →
    steps[m]? = some s → steps[j]? = some t → s.before.states.lookup key = some e →
      s.Ends sha256 key e → (t.out sha256).1.session_id ≠ e.session_id

/-- A history starts with the table it is given. -/
theorem run_steps_head : ∀ (ops : List StitchOp) (order : Nat → StitchOrder)
    (st : PrefixStitcher) {t : StitchStep}, (run_steps sha256 order st ops)[0]? = some t →
      t.before.states = st.states := by
  intro ops
  induction ops with
  | nil => intro _ _ _ ht; cases ht
  | cons op ops ih =>
    intro order st t ht
    cases op with
    | assign c =>
      cases ht
      rfl
    | set_limits capacity ttl_ms =>
      exact ih (fun n => order (n + 1)) (st.set_limits capacity ttl_ms) ht

/-- A call meets the table that the call before it left. -/
theorem run_steps_next : ∀ (ops : List StitchOp) (order : Nat → StitchOrder)
    (st : PrefixStitcher) {n : Nat} {s t : StitchStep},
    (run_steps sha256 order st ops)[n]? = some s →
    (run_steps sha256 order st ops)[n + 1]? = some t →
      t.before.states = (s.out sha256).2.states := by
  intro ops
  induction ops with
  | nil => intro _ _ _ _ _ hs; cases hs
  | cons op ops ih =>
    intro order st n s t hs ht
    cases op with
    | assign c =>
      cases n with
      | zero =>
        cases hs
        exact run_steps_head sha256 ops _ _ ht
      | succ n => exact ih _ _ hs ht
    | set_limits capacity ttl_ms => exact ih _ _ hs ht

variable {sha256}

/-- A call writes the chain of its own key. -/
theorem lookup_out_self (s : StitchStep) :
    ∃ e, (s.out sha256).2.states.lookup (s.call.key sha256) = some e := by
  obtain ⟨-, kept, -, hstates, -⟩ := assign_cases sha256 s.before s.order s.call
  have hout : (s.out sha256).2.states = kept.insert (s.call.key sha256) _ := hstates
  rw [hout]
  exact ⟨_, AList.lookup_insert kept⟩

/-- And opens no other. -/
theorem lookup_out_ne {s : StitchStep} {key : StitchKey} (hkey : key ≠ s.call.key sha256)
    (hnone : s.before.states.lookup key = none) : (s.out sha256).2.states.lookup key = none := by
  obtain ⟨-, kept, hkept, hstates, -⟩ := assign_cases sha256 s.before s.order s.call
  have hout : (s.out sha256).2.states = kept.insert (s.call.key sha256) _ := hstates
  rw [hout, AList.lookup_insert_ne hkey]
  cases hfound : kept.lookup key with
  | none => rfl
  | some e =>
    rw [hkept key e hfound] at hnone
    cases hnone

/-- A call that extends its chain found it, live. -/
theorem found_of_extends {st : PrefixStitcher} {c : AssignCall} (h : st.Extends sha256 c) :
    ∃ e, st.states.lookup (c.key sha256) = some e ∧ st.is_live c.now e = true ∧
      e.chain <+: c.fps sha256 := by
  obtain ⟨e, he, hchain⟩ := h
  refine ⟨e, (lookup_expires st _ c.now).sub _ e he, ?_, hchain⟩
  have hlive := drop_expired_live he
  rw [← (sweep_settings st c.now).ttl] at hlive
  exact hlive

section ended

variable {capacity ttl_ms clock : Nat} {salt : Bytes} {ops : List StitchOp}
  {order : Nat → StitchOrder} {steps : List StitchStep}
  (hsteps : steps = run_steps sha256 order
    (PrefixStitcher.with_limits capacity ttl_ms clock salt) ops)

include hsteps

/-- While every call of a key extends its chain, a key without a chain stays
    without one. -/
theorem lookup_none_of_extended {m j : Nat} {s : StitchStep} {a : AssignCall}
    (hs : steps[m]? = some s)
    (hnone : (s.out sha256).2.states.lookup (a.key sha256) = none)
    (hextended : ExtendedUpTo sha256 steps m j a) : ∀ (k : Nat) (t : StitchStep), m < k → k ≤ j →
      steps[k]? = some t → t.before.states.lookup (a.key sha256) = none := by
  intro k
  induction k with
  | zero => exact fun t hmk => absurd hmk (Nat.not_lt_zero m)
  | succ k ih =>
    intro t hmk hkj ht
    obtain ⟨x, hx⟩ : ∃ x, steps[k]? = some x :=
      ⟨_, List.getElem?_eq_getElem (Nat.lt_of_succ_lt (List.getElem?_eq_some_iff.mp ht).1)⟩
    have hnext : t.before.states = (x.out sha256).2.states := by
      rw [hsteps] at hx ht
      exact run_steps_next sha256 ops order _ hx ht
    rw [hnext]
    rcases Nat.lt_or_eq_of_le (Nat.le_of_lt_succ hmk) with hlt | rfl
    · have hbefore := ih x hlt (Nat.le_of_succ_le hkj) hx
      refine lookup_out_ne (fun hkey => ?_) hbefore
      -- a call of the key would have extended a chain that is not there
      obtain ⟨e, he, -, -⟩ := found_of_extends (hextended k x hlt (Nat.le_of_succ_le hkj) hx hkey.symm)
      rw [← hkey, hbefore] at he
      cases he
    · rw [hs] at hx
      cases hx
      exact hnone

variable (hfree : CollisionFree sha256 salt (calls_of ops))
  (hlen : (calls_of ops).length ≤ 2 ^ 64)

include hfree hlen

/-- A chain in the table was written by an earlier call. -/
theorem held_of_lookup {m : Nat} {s : StitchStep} (hs : steps[m]? = some s) {key : StitchKey}
    {e : ChainState} (he : s.before.states.lookup key = some e) :
    ∃ i a, i < m ∧ steps[i]? = some a ∧ a.call.key sha256 = key ∧
      (a.out sha256).1.session_id = e.session_id := by
  obtain ⟨hbefore, -⟩ := history_inv sha256 capacity ttl_ms clock salt ops order hfree hlen
  rw [← hsteps] at hbefore
  obtain ⟨-, mints, hinv⟩ := hbefore m s hs
  obtain ⟨i, entry, hi, hkey, hid, -, -⟩ := hinv.table key e he
  rw [List.getElem?_map, Option.map_eq_some_iff] at hi
  obtain ⟨a, ha, rfl⟩ := hi
  have him : i < m := by
    have hlt := (List.getElem?_eq_some_iff.mp ha).1
    rw [List.length_take] at hlt
    omega
  rw [List.getElem?_take_of_lt him] at ha
  exact ⟨i, a, him, ha, hkey, hid⟩

/-- A chain that has ended is not reopened. -/
theorem never_reopened : NeverReopened sha256 steps := by
  intro m j s t key e hmj hs ht he hends hid
  obtain ⟨i, a, him, ha, rfl, haid⟩ := held_of_lookup hsteps hfree hlen hs he
  -- a call with the chain's id would continue the call that wrote the chain
  have hcontinues := (same_id_iff_continues hfree hlen hsteps (Nat.lt_of_lt_of_le him hmj) ha
    ht).mp (haid.trans hid.symm)
  obtain ⟨hkey, hextended⟩ := hcontinues
  have hlooked : s.call.key sha256 = a.call.key sha256 →
      s.before.is_live s.call.now e = true ∧ e.chain <+: s.call.fps sha256 := by
    intro hskey
    obtain ⟨e', he', hlive, hchain⟩ := found_of_extends (hextended m s him hmj hs hskey)
    rw [hskey, he] at he'
    cases he'
    exact ⟨hlive, hchain⟩
  cases hends with
  | removed hnone =>
    rcases Nat.lt_or_eq_of_le hmj with hlt | rfl
    · have hafter : ExtendedUpTo sha256 steps m j a.call :=
        fun n x hmn hnj hx hxkey => hextended n x (him.trans hmn) hnj hx hxkey
      have hgone := lookup_none_of_extended hsteps hs hnone hafter j t hlt (Nat.le_refl j) ht
      obtain ⟨e', he', -, -⟩ := found_of_extends (hafter j t hlt (Nat.le_refl j) ht hkey)
      rw [hkey, hgone] at he'
      cases he'
    · rw [hs] at ht
      cases ht
      obtain ⟨e', he'⟩ : ∃ e', (s.out sha256).2.states.lookup (s.call.key sha256) = some e' :=
        lookup_out_self s
      rw [hkey, hnone] at he'
      cases he'
  | expired hskey hdead =>
    rw [(hlooked hskey).1] at hdead
    cases hdead
  | diverged hskey hchain => exact hchain (hlooked hskey).2

end ended

variable (sha256)

/-- In a history of at most `2 ^ 64` calls, calls with one session id belong
    to one segment, and the id of a chain that has ended is not given out
    again. -/
theorem session_id_names_one_segment (capacity ttl_ms clock : Nat) (salt : Bytes)
    (ops : List StitchOp) (order : Nat → StitchOrder)
    (hfree : CollisionFree sha256 salt (calls_of ops)) (hlen : (calls_of ops).length ≤ 2 ^ 64) :
    SegmentsCoherent sha256 (run_stitcher sha256 order
        (PrefixStitcher.with_limits capacity ttl_ms clock salt) ops)
      ∧ NeverReopened sha256 (run_steps sha256 order
        (PrefixStitcher.with_limits capacity ttl_ms clock salt) ops) := by
  refine ⟨?_, never_reopened rfl hfree hlen⟩
  obtain ⟨-, st, mints, hinv⟩ :=
    history_inv sha256 capacity ttl_ms clock salt ops order hfree hlen
  rw [run_steps_entries] at hinv
  have hmem : ∀ {n : Nat} {a : AssignCall × Assigned}, (run_stitcher sha256 order
      (PrefixStitcher.with_limits capacity ttl_ms clock salt) ops)[n]? = some a →
      a.1 ∈ calls_of ops := by
    intro n a ha
    rw [← run_steps_entries] at ha
    obtain ⟨s, hs, rfl⟩ := List.mem_map.mp (List.mem_of_getElem? ha)
    exact step_call_mem sha256 hs
  intro i j a b hij ha hb heq
  obtain ⟨hkey, hfps, hbreak, hbetween⟩ := hinv.pairs i j a b hij ha hb heq
  have hac := hmem ha
  have hbc := hmem hb
  exact ⟨congrArg Prod.fst hkey, texts_prefix hfree hac hbc hfps, hbreak, hbetween⟩

/-- One conversation, which comes again when its chain is over. -/
theorem session_id_names_one_segment_replay :
    let calls : List AssignCall := [⟨"scope", [.string "sys", .string "head"], 1⟩,
      ⟨"scope", [.string "sys", .string "head"], 1000001⟩]
    let ops := calls.map .assign
    let salt := [1, 2, 3, 4, 5, 6, 7, 8]
    CollisionFree Sha256.digest salt (calls_of ops) ∧
      SegmentsCoherent Sha256.digest (run_stitcher Sha256.digest
        (fun _ => Lru.IterOrder.stored) (PrefixStitcher.with_limits 8 1 0 salt) ops) ∧
      NeverReopened Sha256.digest (run_steps Sha256.digest
        (fun _ => Lru.IterOrder.stored) (PrefixStitcher.with_limits 8 1 0 salt) ops) := by
  intro calls ops salt
  have hcalls : ∀ c ∈ calls_of ops, c.messages = [.string "sys", .string "head"] := by
    intro c hc
    have hcases : c = calls[0] ∨ c = calls[1] := by simpa [calls_of, ops, calls] using hc
    rcases hcases with rfl | rfl <;> rfl
  have hfree : CollisionFree Sha256.digest salt (calls_of ops) :=
    replay_collision_free Sha256.digest _ _ hcalls rfl (by decide +kernel) (by decide +kernel)
  exact ⟨hfree, session_id_names_one_segment Sha256.digest 8 1 0 salt ops _ hfree (by decide)⟩

end AgentTraceGateway
