import AgentTraceGateway.Lib.Sha256
import AgentTraceGateway.Trace.Prefix

/-! # The Amortized Sweep Refines the Per-Request Purge

  The reference stitcher removes every chain idle for at least the TTL
  before it handles a request. The real one leaves expired chains in its
  table between sweeps, where they count against the capacity. It answers
  the same: expired chains are the oldest ones, so eviction takes them
  first, and the lookup treats the one it meets as absent. -/

namespace AgentTraceGateway

namespace PrefixStitcher

/-- The expiry pass of the reference stitcher. -/
def purge (st : PrefixStitcher) (now : Nat) : PrefixStitcher :=
  { st with states := Lru.retain (st.is_live now) st.states }

/-- The reference stitcher: purge, then classify. -/
def assign_purging (sha256 : Bytes → Digest) (st : PrefixStitcher) (order : StitchOrder)
    (c : AssignCall) : Assigned × PrefixStitcher :=
  (st.purge c.now).classify sha256 order (c.key sha256) (c.fps sha256) c.now

end PrefixStitcher

/-- A history of the reference stitcher. -/
def run_purging (sha256 : Bytes → Digest) : (Nat → StitchOrder) → PrefixStitcher →
    List StitchOp → List (AssignCall × Assigned) :=
  run_history fun st order c => st.assign_purging sha256 order c

/-! ### Tables that agree on the live chains -/

/-- The reference table is the live part of the real one; times are in the
    past and no two chains were last used at the same time. -/
structure AgreeLive (ttl now : Nat) (real ref : Lru.Table StitchKey ChainState) : Prop where
  lookup : ∀ key, ref.lookup key = (real.lookup key).filter (ChainState.idle_below ttl now)
  distinct : Lru.Distinct ChainState.last_used real
  past : ∀ key e, real.lookup key = some e → e.last_used ≤ now

/-- Every chain was last used before `now`. -/
def Before (now : Nat) (t : Lru.Table StitchKey ChainState) : Prop :=
  ∀ key e, t.lookup key = some e → e.last_used < now

/-- `t'` is `t` with some of the expired chains dropped. -/
structure Expires (ttl now : Nat) (t t' : Lru.Table StitchKey ChainState) : Prop where
  sub : ∀ key e, t'.lookup key = some e → t.lookup key = some e
  live : ∀ key e, t.lookup key = some e → e.idle_below ttl now = true → t'.lookup key = some e

theorem Expires.refl (ttl now : Nat) (t : Lru.Table StitchKey ChainState) :
    Expires ttl now t t :=
  ⟨fun _ _ h => h, fun _ _ h _ => h⟩

theorem Expires.trans {ttl now : Nat} {t t' t'' : Lru.Table StitchKey ChainState}
    (h : Expires ttl now t t') (h' : Expires ttl now t' t'') : Expires ttl now t t'' where
  sub := fun key e he => h.sub key e (h'.sub key e he)
  live := fun key e he hlive => h'.live key e (h.live key e he hlive) hlive

theorem expires_retain (ttl now : Nat) (t : Lru.Table StitchKey ChainState) :
    Expires ttl now t (Lru.retain (ChainState.idle_below ttl now) t) where
  sub := by
    intro key e he
    rw [Lru.lookup_retain, Option.filter_eq_some_iff] at he
    exact he.1
  live := by
    intro key e he hlive
    rw [Lru.lookup_retain, Option.filter_eq_some_iff]
    exact ⟨he, hlive⟩

/-- Dropping expired chains does not change the live part. -/
theorem Expires.filter_eq {ttl now : Nat} {t t' : Lru.Table StitchKey ChainState}
    (h : Expires ttl now t t') (key : StitchKey) :
    (t'.lookup key).filter (ChainState.idle_below ttl now)
      = (t.lookup key).filter (ChainState.idle_below ttl now) := by
  apply Option.ext
  intro e
  simp only [Option.filter_eq_some_iff]
  constructor
  · rintro ⟨he, hlive⟩
    exact ⟨h.sub key e he, hlive⟩
  · rintro ⟨he, hlive⟩
    exact ⟨h.live key e he hlive, hlive⟩

theorem sweep_expires (st : PrefixStitcher) (now : Nat) :
    Expires st.ttl now st.states (st.sweep_if_due now).states := by
  unfold PrefixStitcher.sweep_if_due
  split
  · exact expires_retain st.ttl now st.states
  · exact Expires.refl _ _ _

theorem drop_expired_expires (st : PrefixStitcher) (key : StitchKey) (now : Nat) :
    Expires st.ttl now st.states (st.drop_expired key now).states := by
  unfold PrefixStitcher.drop_expired
  split
  · rename_i hexpired
    constructor
    · intro k e he
      by_cases hk : k = key
      · subst hk
        simp at he
      · rwa [AList.lookup_erase_ne hk] at he
    · intro k e he hlive
      by_cases hk : k = key
      · subst hk
        simp [he, PrefixStitcher.is_live, hlive] at hexpired
      · rwa [AList.lookup_erase_ne hk]
  · exact Expires.refl _ _ _

/-- The looked-up chain, if any, is live. -/
theorem drop_expired_live {st : PrefixStitcher} {key : StitchKey} {now : Nat} {e : ChainState}
    (he : (st.drop_expired key now).states.lookup key = some e) :
    e.idle_below st.ttl now = true := by
  unfold PrefixStitcher.drop_expired at he
  split at he
  · simp at he
  · rename_i hkept
    simpa [he, PrefixStitcher.is_live] using hkept

/-- A chain live later was live before. -/
theorem idle_below_mono {ttl now now' : Nat} (hnow : now ≤ now') {e : ChainState}
    (h : e.idle_below ttl now' = true) : e.idle_below ttl now = true := by
  simp only [ChainState.idle_below, decide_eq_true_eq] at h ⊢
  omega

/-- Time passes, the real table drops some expired chains, the reference
    table all of them: they still agree. -/
theorem AgreeLive.advance {ttl now now' : Nat} {real real' ref : Lru.Table StitchKey ChainState}
    (h : AgreeLive ttl now real ref) (hnow : now ≤ now') (hbefore : Before now' real)
    (hexp : Expires ttl now' real real') :
    AgreeLive ttl now' real' (Lru.retain (ChainState.idle_below ttl now') ref) where
  lookup := by
    intro key
    rw [Lru.lookup_retain, h.lookup key, hexp.filter_eq key, Option.filter_filter]
    congr 1
    funext e
    cases hlive : e.idle_below ttl now' with
    | false => simp
    | true => simp [idle_below_mono hnow hlive]
  distinct := by
    intro k k' e e' he he' heq
    exact h.distinct k k' e e' (hexp.sub k e he) (hexp.sub k' e' he') heq
  past := by
    intro key e he
    exact Nat.le_of_lt (hbefore key e (hexp.sub key e he))

/-- The handled chain is written to both tables. -/
theorem AgreeLive.insert {ttl now : Nat} {real ref : Lru.Table StitchKey ChainState}
    (h : AgreeLive ttl now real ref) (hbefore : Before now real) (httl : 0 < ttl)
    (key : StitchKey) {e : ChainState} (he : e.last_used = now) :
    AgreeLive ttl now (real.insert key e) (ref.insert key e) where
  lookup := by
    intro k
    by_cases hk : k = key
    · subst hk
      have hlive : e.idle_below ttl now = true := by
        simp [ChainState.idle_below, he, httl]
      rw [AList.lookup_insert, AList.lookup_insert, Option.filter_some, if_pos hlive]
    · rw [AList.lookup_insert_ne hk, AList.lookup_insert_ne hk]
      exact h.lookup k
  distinct := by
    intro k k' v v' hv hv' heq
    by_cases hk : k = key <;> by_cases hk' : k' = key
    · rw [hk, hk']
    · -- the new entry is younger than every other
      subst hk
      rw [AList.lookup_insert_ne hk'] at hv'
      obtain rfl : e = v := by simpa using hv
      have := hbefore k' v' hv'
      omega
    · subst hk'
      rw [AList.lookup_insert_ne hk] at hv
      obtain rfl : e = v' := by simpa using hv'
      have := hbefore k v hv
      omega
    · rw [AList.lookup_insert_ne hk] at hv
      rw [AList.lookup_insert_ne hk'] at hv'
      exact h.distinct k k' v v' hv hv' heq
  past := by
    intro k v hv
    by_cases hk : k = key
    · subst hk
      obtain rfl : e = v := by simpa using hv
      omega
    · rw [AList.lookup_insert_ne hk] at hv
      exact Nat.le_of_lt (hbefore k v hv)

/-- Eviction keeps the tables in agreement: whatever counts as newer than a
    live chain is live itself, so expired chains never push a live one
    out. -/
theorem AgreeLive.evict {ttl now capacity capacity' : Nat}
    {real ref : Lru.Table StitchKey ChainState} (h : AgreeLive ttl now real ref)
    (hcap : 1 ≤ capacity) (hsame : capacity = capacity') (order order' : StitchOrder) :
    AgreeLive ttl now (Lru.evict ChainState.last_used order capacity real)
      (Lru.evict ChainState.last_used order' capacity' ref) where
  lookup := by
    subst hsame
    have href : Lru.Distinct ChainState.last_used ref := by
      intro k k' e e' he he' heq
      rw [h.lookup, Option.filter_eq_some_iff] at he he'
      exact h.distinct k k' e e' he.1 he'.1 heq
    have hretain : ∀ k, ref.lookup k
        = (Lru.retain (ChainState.idle_below ttl now) real).lookup k := by
      intro k
      rw [h.lookup, Lru.lookup_retain]
    intro key
    rw [Lru.lookup_evict _ order' hcap ref href, Lru.lookup_evict _ order hcap real h.distinct,
      h.lookup, Option.filter_filter, Option.filter_filter]
    congr 1
    funext e
    cases hlive : e.idle_below ttl now with
    | false => simp
    | true =>
      -- what is newer than a live entry is live, so both tables count the same
      have hnewer : Lru.newer ChainState.last_used ref e.last_used
          = Lru.newer ChainState.last_used real e.last_used := by
        rw [Lru.newer_congr _ hretain]
        apply Lru.newer_retain
        intro k v _ hlt
        simp only [ChainState.idle_below, decide_eq_true_eq] at hlive ⊢
        omega
      simp [hnewer]
  distinct := by
    intro k k' e e' he he' heq
    exact h.distinct k k' e e' (Lru.lookup_of_lookup_evict _ he)
      (Lru.lookup_of_lookup_evict _ he') heq
  past := fun key e he => h.past key e (Lru.lookup_of_lookup_evict _ he)

theorem Before.evict {now capacity : Nat} {t : Lru.Table StitchKey ChainState}
    (h : Before now t) (order : StitchOrder) :
    Before now (Lru.evict ChainState.last_used order capacity t) :=
  fun key e he => h key e (Lru.lookup_of_lookup_evict _ he)

/-! ### The two stitchers side by side -/

/-- Everything but the table and the counters. -/
structure SameSettings (st st' : PrefixStitcher) : Prop where
  capacity : st.capacity = st'.capacity
  ttl_ms : st.ttl_ms = st'.ttl_ms
  next_nonce : st.next_nonce = st'.next_nonce
  salt : st.salt = st'.salt

theorem SameSettings.symm {st st' : PrefixStitcher} (h : SameSettings st st') :
    SameSettings st' st :=
  ⟨h.capacity.symm, h.ttl_ms.symm, h.next_nonce.symm, h.salt.symm⟩

theorem SameSettings.trans {st st' st'' : PrefixStitcher} (h : SameSettings st st')
    (h' : SameSettings st' st'') : SameSettings st st'' :=
  ⟨h.capacity.trans h'.capacity, h.ttl_ms.trans h'.ttl_ms,
    h.next_nonce.trans h'.next_nonce, h.salt.trans h'.salt⟩

theorem SameSettings.ttl {st st' : PrefixStitcher} (h : SameSettings st st') :
    st.ttl = st'.ttl := by
  rw [PrefixStitcher.ttl, PrefixStitcher.ttl, h.ttl_ms]

theorem sweep_settings (st : PrefixStitcher) (now : Nat) :
    SameSettings st (st.sweep_if_due now) := by
  unfold PrefixStitcher.sweep_if_due
  split <;> exact ⟨rfl, rfl, rfl, rfl⟩

theorem drop_expired_settings (st : PrefixStitcher) (key : StitchKey) (now : Nat) :
    SameSettings st (st.drop_expired key now) := by
  unfold PrefixStitcher.drop_expired
  split <;> exact ⟨rfl, rfl, rfl, rfl⟩

/-- A call looks its chain up once the sweep and its own lookup have dropped
    what they find expired. That keeps the settings. -/
theorem lookup_settings (st : PrefixStitcher) (key : StitchKey) (now : Nat) :
    SameSettings st ((st.sweep_if_due now).drop_expired key now) :=
  (sweep_settings st now).trans (drop_expired_settings _ key now)

/-- Only expired chains are out of the way by then. -/
theorem lookup_expires (st : PrefixStitcher) (key : StitchKey) (now : Nat) :
    Expires st.ttl now st.states ((st.sweep_if_due now).drop_expired key now).states := by
  have hdrop := drop_expired_expires (st.sweep_if_due now) key now
  rw [← (sweep_settings st now).ttl] at hdrop
  exact (sweep_expires st now).trans hdrop

theorem purge_settings (st : PrefixStitcher) (now : Nat) : SameSettings st (st.purge now) :=
  ⟨rfl, rfl, rfl, rfl⟩

/-- Same settings, and tables that agree on the live chains, at a moment
    when the next request comes at `next` or later. -/
structure Simulates (next : Nat) (real ref : PrefixStitcher) : Prop where
  settings : SameSettings real ref
  tables : AgreeLive real.ttl (next - 1) real.states ref.states
  before : Before next real.states

theorem simulates_after {now : Nat} {real ref : PrefixStitcher}
    (hsettings : SameSettings real ref)
    (htables : AgreeLive real.ttl now real.states ref.states) :
    Simulates (now + 1) real ref :=
  ⟨hsettings, htables, fun key e he => Nat.lt_succ_of_le (htables.past key e he)⟩

theorem ttl_pos (st : PrefixStitcher) : 0 < st.ttl := by
  unfold PrefixStitcher.ttl
  have := st.ttl_pos
  omega

section step

variable (sha256 : Bytes → Digest)

/-- Where the key's chain is the same in both tables, the two stitchers
    answer alike and stay in step. -/
theorem classify_simulates {now : Nat} {real ref : PrefixStitcher} {key : StitchKey}
    (hsettings : SameSettings real ref)
    (htables : AgreeLive real.ttl now real.states ref.states) (hbefore : Before now real.states)
    (hkey : ref.states.lookup key = real.states.lookup key) (order order' : StitchOrder)
    (fps : List Digest) :
    (real.classify sha256 order key fps now).1 = (ref.classify sha256 order' key fps now).1 ∧
      Simulates (now + 1) (real.classify sha256 order key fps now).2
        (ref.classify sha256 order' key fps now).2 := by
  obtain ⟨hcap, httl, hnonce, hsalt⟩ := hsettings
  have hinsert := fun e he => htables.insert hbefore (ttl_pos real) key (e := e) he
  have hmint : mint sha256 real.salt (fps_concat fps) real.next_nonce
      = mint sha256 ref.salt (fps_concat fps) ref.next_nonce := by
    rw [hsalt, hnonce]
  unfold PrefixStitcher.classify
  rw [hkey]
  cases real.states.lookup key with
  | some entry =>
    dsimp only
    split_ifs with hprefix
    · exact ⟨rfl, simulates_after ⟨hcap, httl, hnonce, hsalt⟩ (hinsert _ rfl)⟩
    · simp only [PrefixStitcher.new_session_id, hmint]
      exact ⟨trivial, simulates_after ⟨hcap, httl, congrArg (· + 1) hnonce, hsalt⟩ (hinsert _ rfl)⟩
  | none =>
    simp only [PrefixStitcher.new_session_id, PrefixStitcher.evict_to_capacity, hmint]
    have hevict := htables.evict real.capacity_pos hcap order order'
    refine ⟨trivial, simulates_after ⟨hcap, httl, congrArg (· + 1) hnonce, hsalt⟩ ?_⟩
    exact hevict.insert (hbefore.evict order) (ttl_pos real) key rfl

/-- One request, at a later time than the last one. -/
theorem assign_simulates {next : Nat} {real ref : PrefixStitcher} (h : Simulates next real ref)
    (c : AssignCall) (hnow : next ≤ c.now) (order order' : StitchOrder) :
    (real.assign sha256 order c.scope c.messages c.now).1
        = (ref.assign_purging sha256 order' c).1 ∧
      Simulates (c.now + 1) (real.assign sha256 order c.scope c.messages c.now).2
        (ref.assign_purging sha256 order' c).2 := by
  let swept := real.sweep_if_due c.now
  let ready := swept.drop_expired (c.key sha256) c.now
  have hready : SameSettings real ready := lookup_settings real _ c.now
  have hexp : Expires real.ttl c.now real.states ready.states := lookup_expires real _ c.now
  have hbefore : Before c.now real.states := fun key e he =>
    Nat.lt_of_lt_of_le (h.before key e he) hnow
  have hsettings : SameSettings ready (ref.purge c.now) :=
    hready.symm.trans (h.settings.trans (purge_settings ref c.now))
  have htables : AgreeLive ready.ttl c.now ready.states (ref.purge c.now).states := by
    rw [← hready.ttl]
    show AgreeLive real.ttl c.now ready.states
      (Lru.retain (ChainState.idle_below ref.ttl c.now) ref.states)
    rw [← h.settings.ttl]
    exact h.tables.advance (by omega) hbefore hexp
  -- the chain the request looks up is live, so the reference table has it too
  have hkey : (ref.purge c.now).states.lookup (c.key sha256)
      = ready.states.lookup (c.key sha256) := by
    rw [htables.lookup]
    cases hfound : ready.states.lookup (c.key sha256) with
    | none => rfl
    | some e =>
      have hlive := drop_expired_live hfound
      rw [← (sweep_settings real c.now).ttl, hready.ttl] at hlive
      rw [Option.filter_some, if_pos hlive]
  exact classify_simulates sha256 hsettings htables
    (fun key e he => hbefore key e (hexp.sub key e he)) hkey order order' (c.fps sha256)

/-- New bounds on both sides. -/
theorem set_limits_simulates {next : Nat} {real ref : PrefixStitcher}
    (h : Simulates next real ref) (capacity : Nat) {ttl_ms : Nat}
    (httl : max ttl_ms 1 = real.ttl_ms) :
    Simulates next (real.set_limits capacity ttl_ms) (ref.set_limits capacity ttl_ms) := by
  refine ⟨⟨rfl, rfl, h.settings.next_nonce, h.settings.salt⟩, ?_, h.before⟩
  have hsame : (real.set_limits capacity ttl_ms).ttl = real.ttl := by
    simp only [PrefixStitcher.ttl, PrefixStitcher.set_limits, httl]
  rw [hsame]
  exact h.tables

end step

/-! ### Histories -/

/-- The times of a history's requests. -/
def call_times (ops : List StitchOp) : List Nat :=
  ops.filterMap fun
    | .assign c => some c.now
    | .set_limits _ _ => none

/-- Every change of the limits keeps the TTL. -/
def FixedTtl (ttl_ms : Nat) (ops : List StitchOp) : Prop :=
  ∀ capacity ttl, StitchOp.set_limits capacity ttl ∈ ops → max ttl 1 = ttl_ms

theorem assign_ttl_ms (sha256 : Bytes → Digest) (st : PrefixStitcher) (order : StitchOrder)
    (c : AssignCall) :
    (st.assign sha256 order c.scope c.messages c.now).2.ttl_ms = st.ttl_ms := by
  rw [(lookup_settings st (c.key sha256) c.now).ttl_ms]
  simp only [PrefixStitcher.assign, PrefixStitcher.assign_locked, PrefixStitcher.classify,
    AssignCall.key]
  split
  · split <;> rfl
  · rfl

/-- Stitchers in step give the same answers to a whole history. -/
theorem run_simulates (sha256 : Bytes → Digest) :
    ∀ (ops : List StitchOp) (next : Nat) (real ref : PrefixStitcher)
      (order order' : Nat → StitchOrder),
      Simulates next real ref → (∀ t ∈ call_times ops, next ≤ t) →
      (call_times ops).Pairwise (· < ·) → FixedTtl real.ttl_ms ops →
        run_stitcher sha256 order real ops = run_purging sha256 order' ref ops := by
  intro ops
  induction ops with
  | nil => intro _ _ _ _ _ _ _ _ _; rfl
  | cons op ops ih =>
    intro next real ref order order' hsim hnext htimes hfixed
    have hfixed' : FixedTtl real.ttl_ms ops := fun capacity ttl hmem =>
      hfixed capacity ttl (List.mem_cons_of_mem op hmem)
    cases op with
    | assign c =>
      have hcons : call_times (.assign c :: ops) = c.now :: call_times ops := rfl
      rw [hcons] at hnext htimes
      obtain ⟨hlater, hrest⟩ := List.pairwise_cons.mp htimes
      obtain ⟨hanswer, hstep⟩ := assign_simulates sha256 hsim c
        (hnext c.now List.mem_cons_self) (order 0) (order' 0)
      rw [← assign_ttl_ms sha256 real (order 0) c] at hfixed'
      have htail := ih (c.now + 1) _ _ (fun n => order (n + 1)) (fun n => order' (n + 1)) hstep
        hlater hrest hfixed'
      show (c, _) :: run_stitcher sha256 _ _ ops = (c, _) :: run_purging sha256 _ _ ops
      rw [hanswer, htail]
    | set_limits capacity ttl_ms =>
      have httl := hfixed capacity ttl_ms List.mem_cons_self
      have hstep := set_limits_simulates hsim capacity httl
      rw [← httl] at hfixed'
      exact ih next _ _ (fun n => order (n + 1)) (fun n => order' (n + 1)) hstep hnext htimes hfixed'

/-- Fresh stitchers are in step. -/
theorem fresh_simulates (capacity ttl_ms clock : Nat) (salt : Bytes) :
    Simulates 0 (PrefixStitcher.with_limits capacity ttl_ms clock salt)
      (PrefixStitcher.with_limits capacity ttl_ms clock salt) := by
  refine ⟨⟨rfl, rfl, rfl, rfl⟩, ⟨?_, ?_, ?_⟩, ?_⟩
  · intro key; rfl
  · intro k k' e e' he
    cases he
  · intro key e he
    cases he
  · intro key e he
    cases he

/-- On every history at strictly increasing times with a fixed TTL, the
    stitcher with the amortized sweep gives the session ids and breakpoint
    marks of the one that purges before each request, whatever the
    iteration orders of the two tables. -/
theorem amortized_sweep_refines_purge (sha256 : Bytes → Digest)
    (capacity ttl_ms clock : Nat) (salt : Bytes) (ops : List StitchOp)
    (htimes : (call_times ops).Pairwise (· < ·)) (hfixed : FixedTtl (max ttl_ms 1) ops)
    (order order' : Nat → StitchOrder) :
    run_stitcher sha256 order (PrefixStitcher.with_limits capacity ttl_ms clock salt) ops
      = run_purging sha256 order' (PrefixStitcher.with_limits capacity ttl_ms clock salt) ops :=
  run_simulates sha256 ops 0 _ _ order order' (fresh_simulates capacity ttl_ms clock salt)
    (fun t _ => Nat.zero_le t) htimes hfixed

/-- Two conversations of one scope under a 20 ms TTL: the capacity shrinks to
    one in between, and the second comes after the first has expired but
    before a sweep is due. -/
theorem amortized_sweep_refines_purge_shrunk :
    let first : AssignCall := ⟨"scope", [.string "sys", .string "head-1"], 1000000⟩
    let second : AssignCall := ⟨"scope", [.string "sys", .string "head-2"], 41000000⟩
    let ops := [.assign first, .set_limits 1 20, .assign second]
    let fresh := PrefixStitcher.with_limits 1024 20 0 [1, 2, 3, 4, 5, 6, 7, 8]
    run_stitcher Sha256.digest (fun _ => Lru.IterOrder.stored) fresh ops
      = run_purging Sha256.digest (fun _ => Lru.IterOrder.stored) fresh ops := by
  intro first second ops fresh
  have htimes : (call_times ops).Pairwise (· < ·) := by decide
  have hfixed : FixedTtl (max 20 1) ops := by
    intro capacity ttl hmem
    simp only [ops, List.mem_cons, reduceCtorEq, StitchOp.set_limits.injEq, List.not_mem_nil,
      or_false, false_or] at hmem
    rw [hmem.2]
  exact amortized_sweep_refines_purge Sha256.digest 1024 20 0 [1, 2, 3, 4, 5, 6, 7, 8] ops
    htimes hfixed _ _

end AgentTraceGateway
