import AgentTraceGateway.Lib.Sha256
import AgentTraceGateway.Trace.Sweep

/-! # Session Ids over a Stitcher's History

  A session id names one segment of one conversation: the calls that got it
  have the same scope and head, each extends the one before, and no call of
  that conversation in between got another id. The invariant ties every
  stored chain to the last call of its key, and every id given out to a
  nonce already used. -/

namespace AgentTraceGateway

variable (sha256 : Bytes → Digest)

/-! ### What one call does -/

/-- The call extends a chain: once expired chains are out of the way, the
    chain of its key is a prefix of its own. -/
def PrefixStitcher.Extends (st : PrefixStitcher) (c : AssignCall) : Prop :=
  ∃ e, ((st.sweep_if_due c.now).drop_expired (c.key sha256) c.now).states.lookup (c.key sha256)
      = some e ∧ e.chain <+: c.fps sha256

/-- The outcomes of a call: its chain is extended, or a new id is minted.
    Either way the table keeps some of its chains and writes the call's. -/
theorem assign_cases (st : PrefixStitcher) (order : StitchOrder) (c : AssignCall) :
    let out := st.assign sha256 order c.scope c.messages c.now
    out.2.salt = st.salt ∧
    ∃ kept : Lru.Table StitchKey ChainState,
      (∀ key e, kept.lookup key = some e → st.states.lookup key = some e) ∧
      out.2.states = kept.insert (c.key sha256) ⟨c.fps sha256, out.1.session_id, c.now⟩ ∧
      ((st.Extends sha256 c ∧ ∃ e, st.states.lookup (c.key sha256) = some e ∧
          e.chain <+: c.fps sha256 ∧
          out.1 = ⟨e.session_id, false⟩ ∧ out.2.next_nonce = st.next_nonce) ∨
        (¬ st.Extends sha256 c ∧
          out.1.session_id = mint sha256 st.salt (fps_concat (c.fps sha256)) st.next_nonce ∧
          out.2.next_nonce = st.next_nonce + 1)) := by
  let ready := (st.sweep_if_due c.now).drop_expired (c.key sha256) c.now
  have hready : SameSettings st ready := lookup_settings st _ c.now
  have hsub : ∀ key e, ready.states.lookup key = some e → st.states.lookup key = some e :=
    (lookup_expires st _ c.now).sub
  intro out
  have hout : out = ready.classify sha256 order (c.key sha256) (c.fps sha256) c.now := rfl
  have hextends : st.Extends sha256 c ↔
      ∃ e, ready.states.lookup (c.key sha256) = some e ∧ e.chain <+: c.fps sha256 := Iff.rfl
  rw [hready.salt, hready.next_nonce, hextends]
  unfold PrefixStitcher.classify at hout
  cases hfound : ready.states.lookup (c.key sha256) with
  | some e =>
    -- the kept chain decides: it is a prefix of the call's, or the key starts anew
    simp only [hfound] at hout
    split_ifs at hout with hprefix
    · have hchain : e.chain <+: c.fps sha256 := by
        rw [← hprefix.2]
        exact List.take_prefix _ _
      rw [hout]
      exact ⟨rfl, ready.states, hsub, rfl,
        Or.inl ⟨⟨e, rfl, hchain⟩, e, hsub _ e hfound, hchain, rfl, rfl⟩⟩
    · have hnot : ¬ ∃ e', some e = some e' ∧ e'.chain <+: c.fps sha256 := by
        rintro ⟨e', he', hchain⟩
        cases he'
        exact hprefix ⟨hchain.length_le, (List.prefix_iff_eq_take.mp hchain).symm⟩
      rw [hout]
      exact ⟨rfl, ready.states, hsub, rfl, Or.inr ⟨hnot, rfl, rfl⟩⟩
  | none =>
    -- a new key may have to evict another one
    simp only [hfound] at hout
    have hnot : ¬ ∃ e', (none : Option ChainState) = some e' ∧ e'.chain <+: c.fps sha256 := by
      rintro ⟨e', he', -⟩
      cases he'
    rw [hout]
    refine ⟨rfl, (ready.evict_to_capacity order).states, ?_, rfl, Or.inr ⟨hnot, rfl, rfl⟩⟩
    intro key e he
    exact hsub key e (Lru.lookup_of_lookup_evict _ he)

/-! ### What a history promises -/

/-- Two calls with one session id belong to one segment. -/
def SegmentsCoherent (log : List (AssignCall × Assigned)) : Prop :=
  ∀ (i j : Nat) (a b : AssignCall × Assigned), i < j →
    log[i]? = some a → log[j]? = some b → a.2.session_id = b.2.session_id →
      a.1.scope = b.1.scope ∧ a.1.texts <+: b.1.texts ∧ b.2.breakpoint = false ∧
      ∀ (m : Nat) (c : AssignCall × Assigned), i < m → m < j → log[m]? = some c →
        c.1.key sha256 = a.1.key sha256 → c.2.session_id = a.2.session_id

/-- The requests of a history. -/
def calls_of (ops : List StitchOp) : List AssignCall :=
  ops.filterMap fun
    | .assign c => some c
    | .set_limits _ _ => none

/-- The digest function has no collision on what the history hashes: the
    messages, and (cut to 32 hexadecimal characters) the session id inputs. -/
structure CollisionFree (salt : Bytes) (calls : List AssignCall) : Prop where
  messages : Set.InjOn sha256 {x | ∃ c ∈ calls, ∃ m ∈ c.messages, x = utf8_bytes m.to_string}
  ids : Set.InjOn (short_digest sha256)
    {x | ∃ c ∈ calls, ∃ n < calls.length,
      x = mint_input salt (fps_concat (c.fps sha256)) (UInt64.ofNat n)}

/-! ### Fresh ids -/

variable {sha256}

theorem mint_input_nonce {salt seed seed' : Bytes} {n n' : Nat} (hn : n < 2 ^ 64)
    (hn' : n' < 2 ^ 64)
    (h : mint_input salt seed (UInt64.ofNat n) = mint_input salt seed' (UInt64.ofNat n')) :
    n = n' := by
  have htail := (List.append_inj' h (by simp)).2
  have hround : ∀ k, k < 2 ^ 64 → (UInt64.ofNat k).toNat = k := fun k hk => by
    rw [UInt64.toNat_ofNat']
    exact Nat.mod_eq_of_lt hk
  rw [hround n hn, hround n' hn'] at htail
  exact be_bytes_injective hn hn' htail

/-- A minted id starts with its kind. -/
theorem mint_nonempty (salt seed : Bytes) (nonce : UInt64) :
    (mint sha256 salt seed nonce).isEmpty = false := by
  simp [mint, FINGERPRINT_KIND]

/-- Different nonces give different ids. -/
theorem mint_nonce {salt : Bytes} {calls : List AssignCall}
    (hfree : CollisionFree sha256 salt calls) (hlen : calls.length ≤ 2 ^ 64)
    {c c' : AssignCall} (hc : c ∈ calls) (hc' : c' ∈ calls) {n n' : Nat}
    (hn : n < calls.length) (hn' : n' < calls.length)
    (h : mint sha256 salt (fps_concat (c.fps sha256)) (UInt64.ofNat n)
      = mint sha256 salt (fps_concat (c'.fps sha256)) (UInt64.ofNat n')) : n = n' := by
  have hshort := (String.append_right_inj _).mp h
  have hinput := hfree.ids ⟨c, hc, n, hn, rfl⟩ ⟨c', hc', n', hn', rfl⟩ hshort
  exact mint_input_nonce (by omega) (by omega) hinput

/-- Fingerprint prefixes are message prefixes, up to printing. -/
theorem texts_prefix {salt : Bytes} {calls : List AssignCall}
    (hfree : CollisionFree sha256 salt calls) {c c' : AssignCall} (hc : c ∈ calls)
    (hc' : c' ∈ calls) (h : c.fps sha256 <+: c'.fps sha256) : c.texts <+: c'.texts := by
  have hlen := h.length_le
  simp only [AssignCall.fps, List.length_map] at hlen
  rw [List.prefix_iff_getElem] at h ⊢
  obtain ⟨hle, hget⟩ := h
  refine ⟨by simpa [AssignCall.texts] using hlen, ?_⟩
  intro i hi
  have hi' : i < c.messages.length := by simpa [AssignCall.texts] using hi
  have hfp := hget i (by simpa [AssignCall.fps] using hi')
  simp only [AssignCall.fps, List.getElem_map, message_fingerprint] at hfp
  have hbytes := hfree.messages ⟨c, hc, _, List.getElem_mem hi', rfl⟩
    ⟨c', hc', _, List.getElem_mem (Nat.lt_of_lt_of_le hi' hlen), rfl⟩ hfp
  simpa [AssignCall.texts] using utf8_bytes_injective hbytes

/-! ### The invariant -/

variable (sha256)

/-- The stitcher after the calls of `log`, `mints` of which got a new id. -/
structure LogInv (st : PrefixStitcher) (log : List (AssignCall × Assigned)) (mints : Nat) :
    Prop where
  bound : mints ≤ log.length
  nonce : st.next_nonce = UInt64.ofNat mints
  ids : ∀ a ∈ log, ∃ c ∈ log, ∃ n < mints, a.2.session_id
    = mint sha256 st.salt (fps_concat (c.1.fps sha256)) (UInt64.ofNat n)
  table : ∀ key e, st.states.lookup key = some e →
    ∃ i a, log[i]? = some a ∧ a.1.key sha256 = key ∧ a.2.session_id = e.session_id ∧
      a.1.fps sha256 = e.chain ∧
      ∀ (m : Nat) (c : AssignCall × Assigned), i < m → log[m]? = some c → c.1.key sha256 ≠ key
  pairs : ∀ (i j : Nat) (a b : AssignCall × Assigned), i < j →
    log[i]? = some a → log[j]? = some b → a.2.session_id = b.2.session_id →
      a.1.key sha256 = b.1.key sha256 ∧ a.1.fps sha256 <+: b.1.fps sha256 ∧
      b.2.breakpoint = false ∧
      ∀ (m : Nat) (c : AssignCall × Assigned), i < m → m < j → log[m]? = some c →
        c.1.key sha256 = a.1.key sha256 → c.2.session_id = a.2.session_id

/-- Entry `i` of a log with one more call. -/
theorem getElem?_snoc {α : Type} {l : List α} {x a : α} {i : Nat}
    (h : (l ++ [x])[i]? = some a) : l[i]? = some a ∨ i = l.length ∧ a = x := by
  rcases Nat.lt_trichotomy i l.length with hi | hi | hi
  · left
    rwa [List.getElem?_append_left hi] at h
  · right
    subst hi
    rw [List.getElem?_concat_length, Option.some.injEq] at h
    exact ⟨rfl, h.symm⟩
  · rw [List.getElem?_eq_none (by simp; omega)] at h
    cases h

/-- The table part, once the call's own chain has been written. -/
theorem table_snoc {st : PrefixStitcher} {log : List (AssignCall × Assigned)} {mints : Nat}
    (h : LogInv sha256 st log mints) {kept : Lru.Table StitchKey ChainState}
    (hkept : ∀ key e, kept.lookup key = some e → st.states.lookup key = some e)
    (c : AssignCall) (out : Assigned) :
    ∀ key e,
      (kept.insert (c.key sha256) ⟨c.fps sha256, out.session_id, c.now⟩).lookup key = some e →
      ∃ i a, (log ++ [(c, out)])[i]? = some a ∧ a.1.key sha256 = key ∧
        a.2.session_id = e.session_id ∧ a.1.fps sha256 = e.chain ∧
        ∀ (m : Nat) (b : AssignCall × Assigned), i < m → (log ++ [(c, out)])[m]? = some b →
          b.1.key sha256 ≠ key := by
  intro key e he
  by_cases hkey : key = c.key sha256
  · subst hkey
    rw [AList.lookup_insert, Option.some.injEq] at he
    subst he
    refine ⟨log.length, (c, out), List.getElem?_concat_length, rfl, rfl, rfl, ?_⟩
    intro m b hm hb
    rw [List.getElem?_eq_none (by simp; omega)] at hb
    cases hb
  · rw [AList.lookup_insert_ne hkey] at he
    obtain ⟨i, a, ha, hak, hid, hfps, hlast⟩ := h.table key e (hkept key e he)
    have hi : i < log.length := (List.getElem?_eq_some_iff.mp ha).1
    refine ⟨i, a, by rwa [List.getElem?_append_left hi], hak, hid, hfps, ?_⟩
    intro m b hm hb
    rcases getElem?_snoc hb with hb | ⟨-, rfl⟩
    · exact hlast m b hm hb
    · exact fun heq => hkey heq.symm

/-- The pairs that end at an extending call. -/
theorem pairs_extend {st : PrefixStitcher} {log : List (AssignCall × Assigned)} {mints : Nat}
    (h : LogInv sha256 st log mints) {c : AssignCall} {e : ChainState}
    (he : st.states.lookup (c.key sha256) = some e) (hchain : e.chain <+: c.fps sha256)
    {i : Nat} {a : AssignCall × Assigned} (ha : log[i]? = some a)
    (hid : a.2.session_id = e.session_id) :
    a.1.key sha256 = c.key sha256 ∧ a.1.fps sha256 <+: c.fps sha256 ∧
      ∀ (m : Nat) (b : AssignCall × Assigned), i < m → log[m]? = some b →
        b.1.key sha256 = a.1.key sha256 → b.2.session_id = a.2.session_id := by
  obtain ⟨i₀, a₀, ha₀, hkey₀, hid₀, hfps₀, hlast⟩ := h.table _ e he
  have hlast' : ∀ (m : Nat) (b : AssignCall × Assigned), log[m]? = some b →
      b.1.key sha256 = c.key sha256 → m ≤ i₀ := by
    intro m b hb hbk
    by_contra hgt
    exact hlast m b (by omega) hb hbk
  rw [← hfps₀] at hchain
  rcases Nat.lt_trichotomy i i₀ with hlt | rfl | hgt
  · obtain ⟨hkey, hfps, -, hbetween⟩ := h.pairs i i₀ a a₀ hlt ha ha₀ (hid.trans hid₀.symm)
    refine ⟨hkey.trans hkey₀, hfps.trans hchain, ?_⟩
    intro m b hm hb hbk
    have hle := hlast' m b hb (hbk.trans (hkey.trans hkey₀))
    rcases Nat.lt_or_eq_of_le hle with hm₀ | rfl
    · exact hbetween m b hm hm₀ hb hbk
    · obtain rfl : b = a₀ := by simpa [hb] using ha₀
      rw [hid₀, hid]
  · obtain rfl : a = a₀ := by simpa [ha] using ha₀
    refine ⟨hkey₀, hchain, ?_⟩
    intro m b hm hb hbk
    have hle := hlast' m b hb (hbk.trans hkey₀)
    omega
  · -- a later call with this id would be a later call of this key
    obtain ⟨hkey, -, -, -⟩ := h.pairs i₀ i a₀ a hgt ha₀ ha (hid₀.trans hid.symm)
    exact absurd (hkey.symm.trans hkey₀) (hlast i a hgt ha)

/-- The pairs that end before the new call. -/
theorem pairs_before {st : PrefixStitcher} {log : List (AssignCall × Assigned)} {mints : Nat}
    (h : LogInv sha256 st log mints) {x a b : AssignCall × Assigned} {i j : Nat} (hij : i < j)
    (ha : (log ++ [x])[i]? = some a) (hb : log[j]? = some b)
    (heq : a.2.session_id = b.2.session_id) :
    a.1.key sha256 = b.1.key sha256 ∧ a.1.fps sha256 <+: b.1.fps sha256 ∧
      b.2.breakpoint = false ∧
      ∀ (m : Nat) (c : AssignCall × Assigned), i < m → m < j → (log ++ [x])[m]? = some c →
        c.1.key sha256 = a.1.key sha256 → c.2.session_id = a.2.session_id := by
  have hj : j < log.length := (List.getElem?_eq_some_iff.mp hb).1
  rw [List.getElem?_append_left (by omega)] at ha
  obtain ⟨hkey, hfps, hbreak, hbetween⟩ := h.pairs i j a b hij ha hb heq
  refine ⟨hkey, hfps, hbreak, ?_⟩
  intro m c him hmj hc
  rw [List.getElem?_append_left (by omega)] at hc
  exact hbetween m c him hmj hc

/-- A call that extends no chain gets an id that nobody had before. -/
theorem mint_fresh {calls : List AssignCall} (hlen : calls.length ≤ 2 ^ 64)
    {st : PrefixStitcher} (hfree : CollisionFree sha256 st.salt calls)
    {log : List (AssignCall × Assigned)} {mints : Nat} (h : LogInv sha256 st log mints)
    (hlog : ∀ a ∈ log, a.1 ∈ calls) {c : AssignCall} (hc : c ∈ calls)
    (hroom : log.length < calls.length) {session_id : String}
    (hid : session_id = mint sha256 st.salt (fps_concat (c.fps sha256)) st.next_nonce) :
    ∀ a ∈ log, a.2.session_id ≠ session_id := by
  intro a ha heq
  have hbound := h.bound
  obtain ⟨c', hc', n, hn, hmint⟩ := h.ids a ha
  rw [hmint, hid, h.nonce] at heq
  have := mint_nonce hfree hlen (hlog c' hc') hc (by omega) (by omega) heq
  omega

/-- One call keeps the invariant. -/
theorem assign_inv {calls : List AssignCall} (hlen : calls.length ≤ 2 ^ 64)
    {st : PrefixStitcher} (hfree : CollisionFree sha256 st.salt calls)
    {log : List (AssignCall × Assigned)} {mints : Nat} (h : LogInv sha256 st log mints)
    (hlog : ∀ a ∈ log, a.1 ∈ calls) (c : AssignCall) (hc : c ∈ calls)
    (hroom : log.length < calls.length) (order : StitchOrder) :
    let out := st.assign sha256 order c.scope c.messages c.now
    ∃ mints', LogInv sha256 out.2 (log ++ [(c, out.1)]) mints' := by
  intro out
  obtain ⟨hsalt, kept, hkept, hstates, hout⟩ := assign_cases sha256 st order c
  have htable := table_snoc sha256 h hkept c out.1
  rw [← hstates] at htable
  have hbound := h.bound
  rcases hout with ⟨-, e, he, hchain, hanswer, hnonce⟩ | ⟨-, hid, hnonce⟩
  · -- extension: the id is that of the last call of the key
    obtain ⟨i₀, a₀, ha₀, -, hid₀, -, -⟩ := h.table _ e he
    have hout : out.1 = ⟨e.session_id, false⟩ := hanswer
    refine ⟨mints, ?_, ?_, ?_, htable, ?_⟩
    · simp only [List.length_append, List.length_cons, List.length_nil]
      omega
    · exact hnonce.trans h.nonce
    · intro a ha
      have hold : ∃ b ∈ log, a.2.session_id = b.2.session_id := by
        rcases List.mem_append.mp ha with ha | ha
        · exact ⟨a, ha, rfl⟩
        · obtain rfl : a = (c, out.1) := by simpa using ha
          exact ⟨a₀, List.mem_of_getElem? ha₀, by rw [hout, hid₀]⟩
      obtain ⟨b, hb, heq⟩ := hold
      obtain ⟨c', hc', n, hn, hmint⟩ := h.ids b hb
      exact ⟨c', List.mem_append_left _ hc', n, hn, by rw [heq, hmint, hsalt]⟩
    · intro i j a b hij ha hb heq
      rcases getElem?_snoc hb with hb | ⟨rfl, rfl⟩
      · exact pairs_before sha256 h hij ha hb heq
      · rw [List.getElem?_append_left hij] at ha
        rw [hout] at heq
        obtain ⟨hkey, hfps, hbetween⟩ := pairs_extend sha256 h he hchain ha heq
        refine ⟨hkey, hfps, by rw [hout], ?_⟩
        intro m c' him hmj hc'
        rw [List.getElem?_append_left hmj] at hc'
        exact hbetween m c' him hc'
  · -- a minted id is nobody's before
    have hfresh := mint_fresh sha256 hlen hfree h hlog hc hroom hid
    refine ⟨mints + 1, ?_, ?_, ?_, htable, ?_⟩
    · simp only [List.length_append, List.length_cons, List.length_nil]
      omega
    · rw [show out.2.next_nonce = _ from hnonce, h.nonce]
      simp
    · intro a ha
      rcases List.mem_append.mp ha with ha | ha
      · obtain ⟨c', hc', n, hn, hmint⟩ := h.ids a ha
        exact ⟨c', List.mem_append_left _ hc', n, by omega, by rw [hmint, hsalt]⟩
      · obtain rfl : a = (c, out.1) := by simpa using ha
        exact ⟨(c, out.1), by simp, mints, by omega, by rw [hsalt, ← h.nonce]; exact hid⟩
    · intro i j a b hij ha hb heq
      rcases getElem?_snoc hb with hb | ⟨rfl, rfl⟩
      · exact pairs_before sha256 h hij ha hb heq
      · rw [List.getElem?_append_left hij] at ha
        exact absurd heq (hfresh a (List.mem_of_getElem? ha))

/-- A change of the limits keeps the invariant. -/
theorem set_limits_inv {st : PrefixStitcher} {log : List (AssignCall × Assigned)} {mints : Nat}
    (h : LogInv sha256 st log mints) (capacity ttl_ms : Nat) :
    LogInv sha256 (st.set_limits capacity ttl_ms) log mints :=
  ⟨h.bound, h.nonce, h.ids, h.table, h.pairs⟩

theorem fresh_inv (capacity ttl_ms clock : Nat) (salt : Bytes) :
    LogInv sha256 (PrefixStitcher.with_limits capacity ttl_ms clock salt) [] 0 where
  bound := Nat.le_refl 0
  nonce := rfl
  ids := fun a ha => absurd ha List.not_mem_nil
  table := fun key e he => by cases he
  pairs := fun i j a b _ ha _ _ => by cases ha

/-! ### Whole histories -/

/-- A call of a history, with the stitcher it met. -/
structure StitchStep where
  before : PrefixStitcher
  order : StitchOrder
  call : AssignCall

/-- What the stitcher answered, and what it became. -/
def StitchStep.out (s : StitchStep) : Assigned × PrefixStitcher :=
  s.before.assign sha256 s.order s.call.scope s.call.messages s.call.now

/-- The entry of the step in the history's log. -/
def StitchStep.entry (s : StitchStep) : AssignCall × Assigned := (s.call, (s.out sha256).1)

/-- The steps of a stitcher's history. -/
def run_steps : (Nat → StitchOrder) → PrefixStitcher → List StitchOp → List StitchStep
  | _, _, [] => []
  | order, st, .assign c :: ops =>
    let s : StitchStep := ⟨st, order 0, c⟩
    s :: run_steps (fun n => order (n + 1)) (s.out sha256).2 ops
  | order, st, .set_limits capacity ttl_ms :: ops =>
    run_steps (fun n => order (n + 1)) (st.set_limits capacity ttl_ms) ops

theorem run_steps_entries : ∀ (ops : List StitchOp) (order : Nat → StitchOrder)
    (st : PrefixStitcher),
    (run_steps sha256 order st ops).map (·.entry sha256) = run_stitcher sha256 order st ops := by
  intro ops
  induction ops with
  | nil => intro _ _; rfl
  | cons op ops ih =>
    intro order st
    cases op with
    | assign c => exact congrArg (_ :: ·) (ih _ _)
    | set_limits capacity ttl_ms => exact ih _ _

/-- The calls of the steps are the requests of the history. -/
theorem run_steps_calls : ∀ (ops : List StitchOp) (order : Nat → StitchOrder)
    (st : PrefixStitcher), (run_steps sha256 order st ops).map (·.call) = calls_of ops := by
  intro ops
  induction ops with
  | nil => intro _ _; rfl
  | cons op ops ih =>
    intro order st
    cases op with
    | assign c => exact congrArg (c :: ·) (ih _ _)
    | set_limits capacity ttl_ms => exact ih _ _

/-- Every step of a history meets the invariant, and so does its end. -/
theorem steps_inv {calls : List AssignCall} (hlen : calls.length ≤ 2 ^ 64) {salt : Bytes}
    (hfree : CollisionFree sha256 salt calls) :
    ∀ (ops : List StitchOp) (order : Nat → StitchOrder) (st : PrefixStitcher)
      (log : List (AssignCall × Assigned)) (mints : Nat),
      st.salt = salt → LogInv sha256 st log mints →
      (∀ a ∈ log, a.1 ∈ calls) → (∀ c ∈ calls_of ops, c ∈ calls) →
      log.length + (calls_of ops).length ≤ calls.length →
        (∀ n s, (run_steps sha256 order st ops)[n]? = some s →
          s.before.salt = salt ∧ ∃ mints', LogInv sha256 s.before
            (log ++ ((run_steps sha256 order st ops).take n).map (·.entry sha256)) mints') ∧
        ∃ st' mints', LogInv sha256 st'
          (log ++ (run_steps sha256 order st ops).map (·.entry sha256)) mints' := by
  intro ops
  induction ops with
  | nil =>
    intro order st log mints _ h _ _ _
    refine ⟨fun n s hs => ?_, st, mints, by simpa [run_steps] using h⟩
    cases hs
  | cons op ops ih =>
    intro order st log mints hsalt h hlog hops hroom
    cases op with
    | assign c =>
      have hcalls : calls_of (.assign c :: ops) = c :: calls_of ops := rfl
      rw [hcalls] at hops hroom
      simp only [List.length_cons] at hroom
      have hc : c ∈ calls := hops c List.mem_cons_self
      let s : StitchStep := ⟨st, order 0, c⟩
      have hfree' : CollisionFree sha256 st.salt calls := by
        rw [hsalt]
        exact hfree
      obtain ⟨mints', hnext⟩ := assign_inv sha256 hlen hfree' h hlog c hc (by omega) (order 0)
      have hnext' : LogInv sha256 (s.out sha256).2 (log ++ [s.entry sha256]) mints' := hnext
      have hsalt' : (s.out sha256).2.salt = salt :=
        (assign_cases sha256 st (order 0) c).1.trans hsalt
      have hlog' : ∀ a ∈ log ++ [s.entry sha256], a.1 ∈ calls := by
        intro a ha
        rcases List.mem_append.mp ha with ha | ha
        · exact hlog a ha
        · obtain rfl := List.mem_singleton.mp ha
          exact hc
      obtain ⟨hsteps, hend⟩ := ih (fun n => order (n + 1)) _ _ mints' hsalt' hnext' hlog'
        (fun c' hc' => hops c' (List.mem_cons_of_mem c hc'))
        (by simp only [List.length_append, List.length_cons, List.length_nil]; omega)
      rw [List.append_assoc] at hend
      refine ⟨?_, hend⟩
      intro n s' hs'
      cases n with
      | zero =>
        -- the first step starts where the log stands
        obtain rfl : s = s' := Option.some.inj hs'
        refine ⟨hsalt, mints, ?_⟩
        rw [List.take_zero, List.map_nil, List.append_nil]
        exact h
      | succ n =>
        obtain ⟨hs, mints'', hinv⟩ := hsteps n s' hs'
        refine ⟨hs, mints'', ?_⟩
        rw [List.append_assoc] at hinv
        exact hinv
    | set_limits capacity ttl_ms =>
      exact ih (fun n => order (n + 1)) (st.set_limits capacity ttl_ms) log mints hsalt
        (set_limits_inv sha256 h capacity ttl_ms) hlog hops hroom

/-- The invariant over a fresh stitcher's history. -/
theorem history_inv (capacity ttl_ms clock : Nat) (salt : Bytes) (ops : List StitchOp)
    (order : Nat → StitchOrder) (hfree : CollisionFree sha256 salt (calls_of ops))
    (hlen : (calls_of ops).length ≤ 2 ^ 64) :
    let steps := run_steps sha256 order (PrefixStitcher.with_limits capacity ttl_ms clock salt) ops
    (∀ n s, steps[n]? = some s → s.before.salt = salt ∧
        ∃ mints, LogInv sha256 s.before ((steps.take n).map (·.entry sha256)) mints) ∧
      ∃ st mints, LogInv sha256 st (steps.map (·.entry sha256)) mints :=
  steps_inv sha256 hlen hfree ops order _ [] 0 rfl
    (fresh_inv sha256 capacity ttl_ms clock salt) (fun a ha => absurd ha List.not_mem_nil)
    (fun c hc => hc) (by simp)

/-- A step's call is one of the history's. -/
theorem step_call_mem {ops : List StitchOp} {order : Nat → StitchOrder} {st : PrefixStitcher}
    {s : StitchStep} (hs : s ∈ run_steps sha256 order st ops) : s.call ∈ calls_of ops := by
  rw [← run_steps_calls sha256 ops order st]
  exact List.mem_map_of_mem hs

/-- Two calls with the same two messages have no collision, when the messages
    and the ids of the first two nonces have none. -/
theorem replay_collision_free {salt : Bytes} {calls : List AssignCall} (m m' : Value)
    (hcalls : ∀ c ∈ calls, c.messages = [m, m']) (hlen : calls.length = 2)
    (hmessages : message_fingerprint sha256 m ≠ message_fingerprint sha256 m')
    (hids : short_digest sha256 (mint_input salt
        (fps_concat ([m, m'].map (message_fingerprint sha256))) (UInt64.ofNat 0))
      ≠ short_digest sha256 (mint_input salt
        (fps_concat ([m, m'].map (message_fingerprint sha256))) (UInt64.ofNat 1))) :
    CollisionFree sha256 salt calls := by
  constructor
  · rintro x ⟨c, hc, v, hv, rfl⟩ y ⟨c', hc', v', hv', rfl⟩ heq
    have hcases : v = m ∨ v = m' := by simpa [hcalls c hc] using hv
    have hcases' : v' = m ∨ v' = m' := by simpa [hcalls c' hc'] using hv'
    rcases hcases with hm | hm <;> rcases hcases' with hm' | hm' <;> rw [hm, hm'] at heq ⊢
    · exact absurd heq hmessages
    · exact absurd heq.symm hmessages
  · rintro x ⟨c, hc, n, hn, rfl⟩ y ⟨c', hc', n', hn', rfl⟩ heq
    simp only [AssignCall.fps, hcalls c hc, hcalls c' hc'] at heq ⊢
    obtain rfl | rfl : n = 0 ∨ n = 1 := by omega
    all_goals obtain rfl | rfl : n' = 0 ∨ n' = 1 := by omega
    · rfl
    · exact absurd heq hids
    · exact absurd heq.symm hids
    · rfl

/-! ### The nonce wraps -/

/-- Two scopes take turns with one conversation. -/
def wrap_call (n : Nat) : AssignCall :=
  ⟨if n % 2 = 0 then "A" else "B", [.string "head"], n⟩

def wrap_ops (start count : Nat) : List StitchOp :=
  (List.range' start count).map fun n => .assign (wrap_call n)

theorem wrap_scope_ne (n : Nat) : (wrap_call n).scope ≠ (wrap_call (n + 1)).scope := by
  unfold wrap_call
  rcases Nat.mod_two_eq_zero_or_one n with hn | hn
  · have hsucc : (n + 1) % 2 = 1 := by omega
    simp [hn, hsucc]
  · have hsucc : (n + 1) % 2 = 0 := by omega
    simp [hn, hsucc]

/-- With room for one chain, every turn finds the table without its chain
    and mints. -/
theorem wrap_step {st : PrefixStitcher} (hcap : st.capacity = 1) {n : Nat}
    (hother : ∀ key e, st.states.lookup key = some e → key.1 ≠ (wrap_call n).scope)
    (order : StitchOrder) :
    let c := wrap_call n
    let out := st.assign sha256 order c.scope c.messages c.now
    out.1 = ⟨mint sha256 st.salt (fps_concat (c.fps sha256)) st.next_nonce, false⟩ ∧
      out.2.capacity = 1 ∧ out.2.salt = st.salt ∧ out.2.next_nonce = st.next_nonce + 1 ∧
      ∀ key e, out.2.states.lookup key = some e → key.1 ≠ (wrap_call (n + 1)).scope := by
  intro c out
  let ready := (st.sweep_if_due c.now).drop_expired (c.key sha256) c.now
  have hready : SameSettings st ready := lookup_settings st _ c.now
  have hnone : ready.states.lookup (c.key sha256) = none := by
    cases hfound : ready.states.lookup (c.key sha256) with
    | none => rfl
    | some e =>
      have hst := (lookup_expires st (c.key sha256) c.now).sub _ e hfound
      exact absurd rfl (hother _ e hst)
  have hout : out = ready.classify sha256 order (c.key sha256) (c.fps sha256) c.now := rfl
  unfold PrefixStitcher.classify at hout
  simp only [hnone] at hout
  -- the table is emptied before the insert
  have hempty : ∀ key, (ready.evict_to_capacity order).states.lookup key = none := by
    intro key
    have hlen : (ready.evict_to_capacity order).states.entries.length < ready.capacity :=
      Lru.length_evict ChainState.last_used order ready.capacity_pos ready.states
    have hone : ready.capacity = 1 := hready.capacity.symm.trans hcap
    have hnil : (ready.evict_to_capacity order).states.entries = [] :=
      List.eq_nil_of_length_eq_zero (by omega)
    cases hfound : (ready.evict_to_capacity order).states.lookup key with
    | none => rfl
    | some e =>
      rw [← Lru.mem_entries_iff, hnil] at hfound
      cases hfound
  rw [hout]
  refine ⟨?_, ?_, ?_, ?_, ?_⟩
  · show (⟨mint sha256 ready.salt _ ready.next_nonce, false⟩ : Assigned) = _
    rw [hready.salt, hready.next_nonce]
  · exact hready.capacity.symm.trans hcap
  · exact hready.salt.symm
  · show ready.next_nonce + 1 = _
    rw [hready.next_nonce]
  · intro key e he
    by_cases hkey : key = c.key sha256
    · rw [hkey]
      exact wrap_scope_ne n
    · have hkept : ((ready.evict_to_capacity order).states.insert (c.key sha256) _).lookup key
          = some e := he
      rw [AList.lookup_insert_ne hkey, hempty] at hkept
      cases hkept

/-- Turn `n` gets the id of nonce `n`, modulo `2 ^ 64`. -/
theorem run_wrap : ∀ (count start : Nat) (order : Nat → StitchOrder) (st : PrefixStitcher),
    st.capacity = 1 → st.next_nonce = UInt64.ofNat start →
    (∀ key e, st.states.lookup key = some e → key.1 ≠ (wrap_call start).scope) →
      run_stitcher sha256 order st (wrap_ops start count)
        = (List.range' start count).map fun n => (wrap_call n,
            ⟨mint sha256 st.salt (fps_concat ((wrap_call n).fps sha256)) (UInt64.ofNat n),
              false⟩) := by
  intro count
  induction count with
  | zero => intro _ _ _ _ _ _; rfl
  | succ count ih =>
    intro start order st hcap hnonce hother
    obtain ⟨hanswer, hcap', hsalt, hnonce', hother'⟩ := wrap_step sha256 hcap hother (order 0)
    rw [hnonce] at hanswer hnonce'
    have htail := ih (start + 1) (fun n => order (n + 1)) _ hcap' (by rw [hnonce']; simp) hother'
    rw [hsalt] at htail
    simp only [wrap_ops, run_stitcher, List.range'_succ, List.map_cons, run_history] at htail ⊢
    rw [hanswer, htail]

/-- After `2 ^ 64` turns scope `A` is given its first id again, although it
    had others in between. -/
theorem wrap_incoherent {salt : Bytes} {order : Nat → StitchOrder}
    (hshort : mint sha256 salt (fps_concat ((wrap_call 2).fps sha256)) 2
      ≠ mint sha256 salt (fps_concat ((wrap_call 0).fps sha256)) 0) :
    ¬ SegmentsCoherent sha256 (run_stitcher sha256 order
      (PrefixStitcher.with_limits 1 1 0 salt) (wrap_ops 0 (2 ^ 64 + 1))) := by
  rw [run_wrap sha256 (2 ^ 64 + 1) 0 order _ rfl rfl (fun key e he => by cases he)]
  intro hcoherent
  have hget : ∀ n, n < 2 ^ 64 + 1 →
      ((List.range' 0 (2 ^ 64 + 1)).map fun n => (wrap_call n,
        (⟨mint sha256 salt (fps_concat ((wrap_call n).fps sha256)) (UInt64.ofNat n),
          false⟩ : Assigned)))[n]? = some (wrap_call n,
        ⟨mint sha256 salt (fps_concat ((wrap_call n).fps sha256)) (UInt64.ofNat n), false⟩) := by
    intro n hn
    rw [List.getElem?_map, List.getElem?_range' hn, Nat.zero_add, Nat.one_mul]
    rfl
  have hlast := hget (2 ^ 64) (by omega)
  obtain ⟨-, -, -, hbetween⟩ := hcoherent 0 (2 ^ 64) _ _ (by omega) (hget 0 (by omega)) hlast rfl
  exact hshort (hbetween 2 _ (by omega) (by omega) (hget 2 (by omega)) rfl)

/-- 32 hexadecimal characters are 16 bytes. -/
theorem short_digest_eq {sha256 : Bytes → Digest} {x y : Bytes}
    (h : short_digest sha256 x = short_digest sha256 y) :
    (sha256 x).val.take 16 = (sha256 y).val.take 16 := by
  have hchars := String.ofList_injective h
  have hbytes : ∀ d : Digest, (hex_chars d.val).take 32 = hex_chars (d.val.take 16) :=
    fun d => take_hex_chars 16 d.val
  rw [hbytes, hbytes] at hchars
  exact hex_chars_injective hchars

/-- A digest that shows the last bytes of its input. -/
def tail_digest (x : Bytes) : Digest :=
  ⟨(x.reverse ++ List.replicate 32 0).take 32, by simp⟩

/-- On one conversation it has no collision: the inputs differ in their last
    eight bytes, the nonce. -/
theorem tail_digest_free (salt : Bytes) (start count : Nat) :
    CollisionFree tail_digest salt (calls_of (wrap_ops start count)) := by
  have hcalls : ∀ c ∈ calls_of (wrap_ops start count), c.messages = [.string "head"] := by
    intro c hc
    obtain ⟨op, hop, hsome⟩ := List.mem_filterMap.mp hc
    obtain ⟨n, -, rfl⟩ := List.mem_map.mp hop
    obtain rfl : wrap_call n = c := by simpa using hsome
    rfl
  constructor
  · rintro x ⟨c, hc, m, hm, rfl⟩ y ⟨c', hc', m', hm', rfl⟩ -
    rw [hcalls c hc, List.mem_singleton] at hm
    rw [hcalls c' hc', List.mem_singleton] at hm'
    rw [hm, hm']
  · rintro x ⟨c, hc, n, -, rfl⟩ y ⟨c', hc', n', -, rfl⟩ heq
    have hfps : c.fps tail_digest = c'.fps tail_digest := by
      rw [AssignCall.fps, AssignCall.fps, hcalls c hc, hcalls c' hc']
    have htake := congrArg (List.take 8) (short_digest_eq heq)
    have hnonce : ∀ (seed : Bytes) (k : UInt64),
        ((tail_digest (mint_input salt seed k)).val.take 16).take 8
          = (be_bytes 8 k.toNat).reverse := by
      intro seed k
      have hlen : (be_bytes 8 k.toNat).reverse.length = 8 := by simp
      simp only [tail_digest, mint_input, List.take_take, List.reverse_append, List.append_assoc]
      exact List.take_left' hlen
    rw [hnonce, hnonce] at htake
    rw [mint_input, mint_input, hfps, List.reverse_injective htake]

/-- A history of `2 ^ 64 + 1` calls under capacity one: scope `A` gets its
    first id again after it had another. -/
theorem nonce_wrap_reopens_session :
    let salt : Bytes := [0, 0, 0, 0, 0, 0, 0, 0]
    let ops := wrap_ops 0 (2 ^ 64 + 1)
    CollisionFree tail_digest salt (calls_of ops) ∧
      ¬ SegmentsCoherent tail_digest (run_stitcher tail_digest (fun _ => Lru.IterOrder.stored)
        (PrefixStitcher.with_limits 1 1 0 salt) ops) := by
  refine ⟨tail_digest_free _ 0 _, wrap_incoherent tail_digest ?_⟩
  decide

end AgentTraceGateway
