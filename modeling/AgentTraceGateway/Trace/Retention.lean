import Mathlib.Algebra.GroupWithZero.Nat
import AgentTraceGateway.Lib.Run
import AgentTraceGateway.Lib.Suffix
import AgentTraceGateway.Trace.Store

/-! # What the Store Retains

  Every push leaves the longest suffix of the records that fits both
  budgets, with the new record in any case. The running byte total is the
  sum over the kept records, and each record that is gone was counted.

  A reload may set the budgets to anything between two pushes. The byte
  total saturates; it is exact as long as the sums stay below the largest
  machine word. -/

namespace AgentTraceGateway

/-! ### Budgets -/

/-- Payload bytes of several records. -/
def estimates (records : List TurnRecord) : Nat := (records.map estimate).sum

@[simp] theorem estimates_nil : estimates [] = 0 := rfl

@[simp] theorem estimates_cons (record : TurnRecord) (records : List TurnRecord) :
    estimates (record :: records) = estimate record + estimates records := List.sum_cons

@[simp] theorem estimates_snoc (records : List TurnRecord) (record : TurnRecord) :
    estimates (records ++ [record]) = estimates records + estimate record := by
  simp [estimates]

/-- Dropping records from the front does not raise the sum. -/
theorem estimates_suffix {s l : List TurnRecord} (h : s <:+ l) : estimates s ≤ estimates l := by
  obtain ⟨front, rfl⟩ := h
  simp [estimates]

namespace TraceStore

/-- Within both budgets. -/
def Fits (max_records max_bytes : Nat) (records : List TurnRecord) : Prop :=
  records.length ≤ max_records ∧ estimates records ≤ max_bytes

/-- What a push leaves of the records before it and its own: the longest
    suffix within the budgets, or the new record alone. -/
structure Retains (max_records max_bytes : Nat) (before : List TurnRecord) (record : TurnRecord)
    (kept : List TurnRecord) : Prop where
  suffix : kept <:+ before ++ [record]
  newest : kept.getLast? = some record
  fits : Fits max_records max_bytes kept ∨ kept = [record]
  longest : ∀ s, s <:+ before ++ [record] → Fits max_records max_bytes s →
    s.length ≤ kept.length

/-! ### Making room -/

/-- There is room for one more record of `size` bytes. -/
def has_room (max_records max_bytes size : Nat) (records : List TurnRecord) : Bool :=
  records.length < max_records && estimates records + size ≤ max_bytes

/-- As long as no sum saturates, the loop drops until there is room, and its
    total stays the sum. -/
theorem make_room_eq (max_records max_bytes size : Nat) :
    ∀ (records : List TurnRecord) (dropped : UInt64),
      estimates records + size < 2 ^ 64 - 1 →
      make_room max_records max_bytes size records (estimates records) dropped
        = let kept := Suffix.drop_until (has_room max_records max_bytes size) records
          (kept, estimates kept, dropped + UInt64.ofNat (records.length - kept.length)) := by
  intro records
  induction records with
  | nil =>
    intro dropped _
    simp [make_room, Suffix.drop_until]
  | cons old rest ih =>
    intro dropped hsum
    have hexact : saturating_add (estimates (old :: rest)) size = estimates (old :: rest) + size := by
      unfold saturating_add
      omega
    rw [estimates_cons] at hsum
    unfold make_room Suffix.drop_until
    rw [hexact]
    by_cases hroom : has_room max_records max_bytes size (old :: rest) = true
    · have hstay : ¬ (max_records ≤ (old :: rest).length ∨
          max_bytes < estimates (old :: rest) + size) := by
        simp only [has_room, Bool.and_eq_true, decide_eq_true_eq] at hroom
        omega
      rw [if_neg hstay, if_pos hroom]
      simp
    · have hdrop : max_records ≤ (old :: rest).length ∨
          max_bytes < estimates (old :: rest) + size := by
        simp only [has_room, Bool.and_eq_true, decide_eq_true_eq] at hroom
        omega
      have hless : estimates (old :: rest) - estimate old = estimates rest := by
        rw [estimates_cons]
        omega
      have hlen := (Suffix.drop_until_suffix (has_room max_records max_bytes size) rest).length_le
      rw [if_pos hdrop, if_neg hroom, hless, ih (dropped + 1) (by omega)]
      dsimp only
      -- one more was dropped than from the rest
      have hcount : (old :: rest).length
            - (Suffix.drop_until (has_room max_records max_bytes size) rest).length
          = 1 + (rest.length
            - (Suffix.drop_until (has_room max_records max_bytes size) rest).length) := by
        rw [List.length_cons]
        omega
      rw [hcount, UInt64.ofNat_add, ← UInt64.add_assoc]
      rfl

/-- The records before a push that stay. -/
def kept (store : TraceStore) (record : TurnRecord) : List TurnRecord :=
  Suffix.drop_until (has_room store.max_records store.max_bytes (estimate record)) store.deque

theorem kept_suffix (store : TraceStore) (record : TurnRecord) :
    store.kept record <:+ store.deque := Suffix.drop_until_suffix _ _

/-- A push, when no sum saturates. -/
theorem push_eq {store : TraceStore} {record : TurnRecord}
    (htotal : store.estimated_bytes = estimates store.deque)
    (hsum : estimates store.deque + estimate record < 2 ^ 64 - 1) :
    store.push record = { store with
      deque := store.kept record ++ [record]
      estimated_bytes := estimates (store.kept record ++ [record])
      dropped := store.dropped
        + UInt64.ofNat (store.deque.length - (store.kept record).length) } := by
  have hroom := make_room_eq store.max_records store.max_bytes (estimate record) store.deque
    store.dropped hsum
  have hkept := estimates_suffix (store.kept_suffix record)
  have hexact : saturating_add (estimates (store.kept record)) (estimate record)
      = estimates (store.kept record ++ [record]) := by
    rw [estimates_snoc]
    unfold saturating_add
    omega
  rw [← htotal] at hroom
  simp only [push, hroom]
  rw [← hexact]
  rfl

/-- The drop loop leaves what the budgets ask for. -/
theorem kept_retains (store : TraceStore) (record : TurnRecord) :
    Retains store.max_records store.max_bytes store.deque record
      (store.kept record ++ [record]) where
  suffix := by
    obtain ⟨front, hfront⟩ := store.kept_suffix record
    refine ⟨front, ?_⟩
    rw [← List.append_assoc, hfront]
  newest := List.getLast?_concat
  fits := by
    -- either the front was dropped until the record fits, or nothing is left
    rcases Suffix.drop_until_fits
        (has_room store.max_records store.max_bytes (estimate record)) store.deque with
      hroom | hnone
    · left
      simp only [has_room, Bool.and_eq_true, decide_eq_true_eq] at hroom
      refine ⟨?_, ?_⟩
      · rw [List.length_append, List.length_singleton]
        exact hroom.1
      · rw [estimates_snoc]
        exact hroom.2
    · right
      rw [kept, hnone, List.nil_append]
  longest := by
    intro s hs hfits
    rcases List.suffix_concat_iff.mp hs with rfl | ⟨t, rfl, ht⟩
    · exact Nat.zero_le _
    · -- what is in front of the record then had room for it
      obtain ⟨hlen, hbytes⟩ := hfits
      rw [List.length_append, List.length_singleton] at hlen
      rw [estimates_snoc] at hbytes
      have hroom : has_room store.max_records store.max_bytes (estimate record) t = true := by
        simp only [has_room, Bool.and_eq_true, decide_eq_true_eq]
        omega
      have hle := Suffix.length_le_drop_until _ ht hroom
      rw [List.length_append, List.length_append]
      exact Nat.add_le_add_right hle 1

end TraceStore

/-! ### Histories -/

/-- What can happen to a store. -/
inductive StoreOp where
  | push (record : TurnRecord)
  | set_caps (max_records max_bytes : Nat)

/-- A store, and how many records were pushed to it. -/
structure StoreHistory where
  store : TraceStore
  pushes : Nat

def StoreHistory.start (max_records max_bytes : Nat) : StoreHistory :=
  ⟨TraceStore.with_caps max_records max_bytes, 0⟩

def store_step (h : StoreHistory) : StoreOp → Option StoreHistory
  | .push record => some ⟨h.store.push record, h.pushes + 1⟩
  | .set_caps max_records max_bytes => some ⟨h.store.set_caps max_records max_bytes, h.pushes⟩

/-- The records of a push and those before it sum up below `usize::MAX`. -/
def SumsFit (h : StoreHistory) : StoreOp → Prop
  | .push record => estimates h.store.deque + estimate record < 2 ^ 64 - 1
  | .set_caps _ _ => True

instance (h : StoreHistory) (op : StoreOp) : Decidable (SumsFit h op) :=
  match op with
  | .push record =>
    inferInstanceAs (Decidable (estimates h.store.deque + estimate record < 2 ^ 64 - 1))
  | .set_caps _ _ => isTrue trivial

/-- The total is the sum over the kept records, and the drop counter stands
    at the number of records that are gone. -/
structure StoreExact (h : StoreHistory) : Prop where
  total : h.store.estimated_bytes = estimates h.store.deque
  counted : ∃ n, h.store.dropped = UInt64.ofNat n ∧ n + h.store.deque.length = h.pushes

theorem start_exact (max_records max_bytes : Nat) :
    StoreExact (StoreHistory.start max_records max_bytes) := ⟨rfl, 0, rfl, rfl⟩

/-- One push. -/
theorem push_exact {h h' : StoreHistory} {record : TurnRecord} (hexact : StoreExact h)
    (hsum : SumsFit h (.push record)) (hpush : store_step h (.push record) = some h') :
    TraceStore.Retains h'.store.max_records h'.store.max_bytes h.store.deque record h'.store.deque ∧
      StoreExact h' := by
  obtain ⟨htotal, n, hdropped, hn⟩ := hexact
  have hlen := (h.store.kept_suffix record).length_le
  cases hpush
  rw [TraceStore.push_eq htotal hsum]
  refine ⟨h.store.kept_retains record, rfl, ?_⟩
  refine ⟨n + (h.store.deque.length - (h.store.kept record).length), ?_, ?_⟩
  · rw [UInt64.ofNat_add, hdropped]
  · simp only [List.length_append, List.length_singleton]
    omega

theorem store_step_exact {h h' : StoreHistory} {op : StoreOp} (hexact : StoreExact h)
    (hsum : SumsFit h op) (hstep : store_step h op = some h') : StoreExact h' := by
  cases op with
  | push record => exact (push_exact hexact hsum hstep).2
  | set_caps max_records max_bytes =>
    cases hstep
    exact ⟨hexact.total, hexact.counted⟩

/-- **Retention**: after any history of pushes and reloads, one more push
    keeps the longest suffix within the budgets then in force, with an exact
    total and an exact drop count. -/
theorem push_retains_longest {max_records max_bytes : Nat} {ops : List StoreOp}
    {record : TurnRecord} {h h' : StoreHistory}
    (hsums : Guarded store_step SumsFit (StoreHistory.start max_records max_bytes) ops)
    (hrun : run store_step (StoreHistory.start max_records max_bytes) ops = some h)
    (hsum : SumsFit h (.push record)) (hpush : store_step h (.push record) = some h') :
    TraceStore.Retains h'.store.max_records h'.store.max_bytes h.store.deque record h'.store.deque ∧
      StoreExact h' := by
  have hexact := run_invariant (fun _ _ _ hexact hsum hstep => store_step_exact hexact hsum hstep)
    ops _ h (start_exact max_records max_bytes) hsums hrun
  exact push_exact hexact hsum hpush

/-- A record with a request only. -/
def request_record (raw_request : String) : TurnRecord := { raw_request := raw_request }

/-- Two records fit four bytes. The budget shrinks to three, and the third
    record pushes the first one out. -/
theorem push_retains_longest_shrunk :
    TraceStore.Retains 2 3 [request_record "aa", request_record "bb"] (request_record "c")
      [request_record "bb", request_record "c"] :=
  (@push_retains_longest 2 4
    [.push (request_record "aa"), .push (request_record "bb"), .set_caps 2 3]
    (request_record "c") _ _ (by decide) rfl (by decide) rfl).1

end AgentTraceGateway
