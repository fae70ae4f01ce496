import AgentTraceGateway.Lib.Text
import Mathlib.Algebra.BigOperators.Group.Finset.Basic
import Mathlib.Algebra.GroupWithZero.Nat
import Mathlib.Data.Finset.Card
import Mathlib.Data.List.Nodup

/-! # The Latency Histogram

  A histogram is a row of atomic counters. `observe` adds one to a bucket,
  then to the total, then the time to the sum; `render` reads the buckets in
  order and then the total. Nothing holds the counters still meanwhile, so a
  run is any interleaving of the single operations.

  The buckets are rendered as running sums, so they ascend. An observation
  whose bucket was read and whose count was not yet added is ahead of the
  total; one that was counted and is in no bucket that was read is behind.
  The last bucket is at most the total exactly where no more are ahead than
  behind. -/

namespace AgentTraceGateway

/-! ### The counters -/

/-- Number of finite buckets. -/
def BUCKETS : Nat := 20

/-- Upper bounds of the buckets, in nanoseconds. -/
def BOUND_NS : List UInt64 := [
  1000000, 2500000, 5000000, 10000000, 25000000, 50000000, 100000000, 250000000, 500000000,
  1000000000, 1500000000, 2000000000, 3000000000, 5000000000, 8000000000, 10000000000,
  15000000000, 20000000000, 30000000000, 60000000000]

/-- The bounds in seconds, as labels. -/
def BOUND_LABELS : List String := [
  "0.001", "0.0025", "0.005", "0.01", "0.025", "0.05", "0.1", "0.25", "0.5", "1", "1.5", "2",
  "3", "5", "8", "10", "15", "20", "30", "60"]

structure Histogram where
  counts : List UInt64
  count : UInt64
  sum_ns : UInt64
  deriving DecidableEq, Repr

def Histogram.new : Histogram := ⟨List.replicate BUCKETS 0, 0, 0⟩

/-- The bucket an observation lands in; above the last bound there is none. -/
def bucket_of (ns : UInt64) : Option Nat := BOUND_NS.findIdx? fun bound => ns ≤ bound

/-- `u64::saturating_add`. -/
def saturating_add_u64 (a b : UInt64) : UInt64 :=
  UInt64.ofNat (min (a.toNat + b.toNat) (2 ^ 64 - 1))

/-! ### Single operations -/

/-- The atomic operation a call of `observe` comes to next. -/
inductive ObserveNext where
  | bucket
  | count
  | sum
  | returned
  deriving DecidableEq, Repr

/-- A call of `observe` in progress. -/
structure ObserveCall where
  ns : UInt64
  next : ObserveNext := .bucket
  deriving DecidableEq, Repr

def ObserveCall.step (o : ObserveCall) (h : Histogram) : Histogram × ObserveCall :=
  match o.next with
  | .bucket =>
    ({ h with
        counts := (bucket_of o.ns).elim h.counts fun i => h.counts.modify i (· + 1) },
      { o with next := .count })
  | .count => ({ h with count := h.count + 1 }, { o with next := .sum })
  | .sum => ({ h with sum_ns := h.sum_ns + o.ns }, { o with next := .returned })
  | .returned => (h, o)

/-- A call of `render` in progress: the buckets written so far, their running
    sum, and the total and the sum once they are read. -/
structure RenderCall where
  buckets : List UInt64 := []
  cumulative : UInt64 := 0
  total : Option UInt64 := none
  sum_ns : Option UInt64 := none
  deriving DecidableEq, Repr

/-- The next load: a slot, then the total, then the sum. -/
def RenderCall.step (r : RenderCall) (h : Histogram) : RenderCall :=
  match h.counts[r.buckets.length]? with
  | some slot =>
    let cumulative := saturating_add_u64 r.cumulative slot
    { r with buckets := r.buckets ++ [cumulative], cumulative := cumulative }
  | none =>
    if r.total.isNone then { r with total := some h.count }
    else if r.sum_ns.isNone then { r with sum_ns := some h.sum_ns }
    else r

/-- What a finished render writes. -/
structure Exposition where
  buckets : List UInt64
  inf : UInt64
  sum_ns : UInt64
  count : UInt64
  deriving DecidableEq, Repr

/-- The total is read once and written twice. -/
def RenderCall.exposition (r : RenderCall) : Option Exposition :=
  r.total.bind fun total => r.sum_ns.map fun sum_ns =>
    { buckets := r.buckets, inf := total, sum_ns := sum_ns, count := total }

def render_head (name help kind : String) : String :=
  "# HELP " ++ name ++ " " ++ help ++ "\n# TYPE " ++ name ++ " " ++ kind ++ "\n"

/-- Nanoseconds as seconds, with nine digits of fraction. -/
def seconds_text (ns : UInt64) : String :=
  let digits := toString (ns.toNat % 1000000000)
  toString (ns.toNat / 1000000000) ++ "."
    ++ String.ofList (List.replicate (9 - digits.length) '0') ++ digits

example : seconds_text 1500000000 = "1.500000000" := by decide

/-- The text of one histogram family. -/
def Exposition.text (e : Exposition) (name help : String) : String :=
  render_head name help "histogram"
    ++ String.join ((e.buckets.zip BOUND_LABELS).map fun b =>
        name ++ "_bucket\x7ble=\"" ++ b.2 ++ "\"\x7d " ++ toString b.1.toNat ++ "\n")
    ++ name ++ "_bucket\x7ble=\"+Inf\"\x7d " ++ toString e.inf.toNat ++ "\n"
    ++ name ++ "_sum " ++ seconds_text e.sum_ns ++ "\n"
    ++ name ++ "_count " ++ toString e.count.toNat ++ "\n"

/-! ### Interleavings -/

/-- The calls on one histogram. -/
structure Calls where
  histogram : Histogram
  observers : List ObserveCall
  render : RenderCall

/-- Whose turn it is: one of the observers, or the render. -/
inductive Move where
  | observe (k : Nat)
  | render
  deriving DecidableEq, Repr

/-- One atomic operation. -/
def Calls.step (w : Calls) : Move → Calls
  | .observe k =>
    match w.observers[k]? with
    | none => w
    | some o =>
      { w with
        histogram := (o.step w.histogram).1
        observers := w.observers.set k (o.step w.histogram).2 }
  | .render => { w with render := w.render.step w.histogram }

/-- Calls with these times on a new histogram, and one render. -/
def Calls.start (times : List UInt64) : Calls where
  histogram := .new
  observers := times.map fun ns => { ns := ns }
  render := {}

def run_calls (times : List UInt64) (schedule : List Move) : Calls :=
  schedule.foldl Calls.step (Calls.start times)

theorem run_calls_append (times : List UInt64) (schedule : List Move) (e : Move) :
    run_calls times (schedule ++ [e]) = (run_calls times schedule).step e := by
  rw [run_calls, List.foldl_append]
  rfl

/-! ### What a schedule has done -/

/-- Where a call stands after this many operations. -/
def stage : Nat → ObserveNext
  | 0 => .bucket
  | 1 => .count
  | 2 => .sum
  | _ => .returned

section schedules

variable (times : List UInt64)

/-- The bucket of a call. -/
def call_bucket (k : Nat) : Option Nat := times[k]?.bind bucket_of

/-- The calls that have added to a bucket. -/
def landed (schedule : List Move) (i : Nat) : Finset Nat :=
  (Finset.range times.length).filter fun k =>
    call_bucket times k = some i ∧ Move.observe k ∈ schedule

/-- The calls that have added to the total. -/
def counted (schedule : List Move) : Finset Nat :=
  (Finset.range times.length).filter fun k => 2 ≤ schedule.count (.observe k)

variable {times}

theorem count_render (schedule : List Move) (k : Nat) :
    (schedule ++ [Move.render]).count (.observe k) = schedule.count (.observe k) := by
  simp [List.count_append]

theorem count_observe (schedule : List Move) (j k : Nat) :
    (schedule ++ [Move.observe j]).count (.observe k)
      = schedule.count (.observe k) + if j = k then 1 else 0 := by
  simp [List.count_append, List.count_singleton]

theorem step_stage (o : ObserveCall) (h : Histogram) {n : Nat} (hnext : o.next = stage n) :
    (o.step h).2 = { o with next := stage (n + 1) } := by
  obtain ⟨ns, next⟩ := o
  cases hnext
  match n with
  | 0 => rfl
  | 1 => rfl
  | 2 => rfl
  | n + 3 => rfl

/-- Each call has done as many operations as it had moves. -/
theorem observers_after (schedule : List Move) (k : Nat) :
    (run_calls times schedule).observers[k]?
      = times[k]?.map fun ns => { ns := ns, next := stage (schedule.count (.observe k)) } := by
  induction schedule using List.reverseRecOn with
  | nil =>
    show (times.map fun ns => ({ ns := ns } : ObserveCall))[k]? = _
    rw [List.getElem?_map]
    rfl
  | append_singleton schedule e ih =>
    rw [run_calls_append]
    cases e with
    | render =>
      rw [count_render]
      exact ih
    | observe j =>
      rw [count_observe]
      unfold Calls.step
      dsimp only
      by_cases hjk : j = k
      · subst hjk
        rw [if_pos rfl]
        cases hj : times[j]? with
        | none =>
          rw [hj] at ih
          simp only [ih, Option.map_none]
        | some ns =>
          rw [hj, Option.map_some] at ih
          obtain ⟨hlt, -⟩ := List.getElem?_eq_some_iff.mp ih
          simp only [ih, Option.map_some]
          rw [List.getElem?_set_self hlt]
          exact congrArg some (step_stage _ _ rfl)
      · rw [if_neg hjk, Nat.add_zero, ← ih]
        cases (run_calls times schedule).observers[j]? with
        | none => rfl
        | some o => exact List.getElem?_set_ne hjk

/-! ### The counters after a schedule -/

theorem call_lt {k i : Nat} (h : call_bucket times k = some i) : k < times.length := by
  obtain ⟨ns, hns, -⟩ := Option.bind_eq_some_iff.mp h
  exact (List.getElem?_eq_some_iff.mp hns).1

theorem landed_render (schedule : List Move) (i : Nat) :
    landed times (schedule ++ [.render]) i = landed times schedule i := by
  simp [landed]

/-- The first operation of a call makes it land. -/
theorem landed_observe (schedule : List Move) (j i : Nat) :
    landed times (schedule ++ [.observe j]) i
      = if call_bucket times j = some i then insert j (landed times schedule i)
        else landed times schedule i := by
  ext k
  split
  · rename_i hj
    simp only [landed, Finset.mem_filter, Finset.mem_range, Finset.mem_insert, List.mem_append,
      List.mem_singleton, Move.observe.injEq]
    constructor
    · rintro ⟨hk, hbucket, hmem | rfl⟩
      · exact Or.inr ⟨hk, hbucket, hmem⟩
      · exact Or.inl rfl
    · rintro (rfl | ⟨hk, hbucket, hmem⟩)
      · exact ⟨call_lt hj, hj, Or.inr rfl⟩
      · exact ⟨hk, hbucket, Or.inl hmem⟩
  · rename_i hj
    simp only [landed, Finset.mem_filter, Finset.mem_range, List.mem_append, List.mem_singleton,
      Move.observe.injEq]
    constructor
    · rintro ⟨hk, hbucket, hmem | rfl⟩
      · exact ⟨hk, hbucket, hmem⟩
      · exact absurd hbucket hj
    · rintro ⟨hk, hbucket, hmem⟩
      exact ⟨hk, hbucket, Or.inl hmem⟩

theorem counted_render (schedule : List Move) :
    counted times (schedule ++ [.render]) = counted times schedule := by
  simp only [counted, count_render]

/-- The second operation of a call counts it. -/
theorem counted_observe (schedule : List Move) (j : Nat) :
    counted times (schedule ++ [.observe j])
      = if j < times.length ∧ schedule.count (.observe j) = 1 then
          insert j (counted times schedule)
        else counted times schedule := by
  ext k
  simp only [counted, count_observe, Finset.mem_filter, Finset.mem_range]
  by_cases hjk : j = k
  · subst hjk
    rw [if_pos rfl]
    split
    · rename_i hnow
      simp only [Finset.mem_insert, true_or, iff_true]
      omega
    · rename_i hnot
      simp only [Finset.mem_filter, Finset.mem_range]
      omega
  · rw [if_neg hjk, Nat.add_zero]
    split
    · simp only [Finset.mem_insert, Finset.mem_filter, Finset.mem_range]
      have hkj : k ≠ j := fun h => hjk h.symm
      simp [hkj]
    · simp only [Finset.mem_filter, Finset.mem_range]

variable (times) in
/-- The histogram of a schedule, 64 bits wide: in every bucket what landed
    there, in the total what was counted. -/
structure HistogramOf (schedule : List Move) (h : Histogram) : Prop where
  slots : h.counts.length = BUCKETS
  bucket : ∀ i, i < BUCKETS →
    h.counts[i]? = some (UInt64.ofNat (landed times schedule i).card)
  count : h.count = UInt64.ofNat (counted times schedule).card

theorem bucket_lt {ns : UInt64} {i : Nat} (h : bucket_of ns = some i) : i < BUCKETS := by
  obtain ⟨hlt, -⟩ := List.findIdx?_eq_some_iff_getElem.mp h
  exact hlt

/-- A call lands once. -/
theorem landed_again {schedule : List Move} {j : Nat} (hmoved : schedule.count (.observe j) ≠ 0)
    (i : Nat) : landed times (schedule ++ [.observe j]) i = landed times schedule i := by
  rw [landed_observe]
  split
  · rename_i hj
    apply Finset.insert_eq_self.mpr
    refine Finset.mem_filter.mpr ⟨Finset.mem_range.mpr (call_lt hj), hj, ?_⟩
    exact List.count_pos_iff.mp (Nat.pos_of_ne_zero hmoved)
  · rfl

/-- The sum and the return leave the buckets and the total alone. -/
theorem step_late (o : ObserveCall) (h : Histogram) {n : Nat} (hnext : o.next = stage (n + 2)) :
    (o.step h).1.counts = h.counts ∧ (o.step h).1.count = h.count := by
  obtain ⟨ns, next⟩ := o
  cases hnext
  match n with
  | 0 => exact ⟨rfl, rfl⟩
  | n + 1 => exact ⟨rfl, rfl⟩

/-- A call of `observe` does its operation on the histogram. -/
theorem histogram_observe {schedule : List Move} {h : Histogram}
    (hof : HistogramOf times schedule h) {j : Nat} {ns : UInt64}
    (hj : times[j]? = some ns) :
    HistogramOf times (schedule ++ [.observe j])
      (ObserveCall.step { ns := ns, next := stage (schedule.count (.observe j)) } h).1 := by
  have hlt := (List.getElem?_eq_some_iff.mp hj).1
  have hbucket : call_bucket times j = bucket_of ns := by rw [call_bucket, hj, Option.bind_some]
  have hcounted : schedule.count (.observe j) ≠ 1 →
      counted times (schedule ++ [.observe j]) = counted times schedule := by
    intro hne
    rw [counted_observe, if_neg fun h => hne h.2]
  match hmoves : schedule.count (.observe j) with
  | 0 =>
    rw [hmoves]
    have hnew : ∀ i, j ∉ landed times schedule i := by
      intro i hmem
      have hin := (Finset.mem_filter.mp hmem).2.2
      exact absurd hmoves (Nat.pos_iff_ne_zero.mp (List.count_pos_iff.mpr hin))
    refine ⟨?_, fun i hi => ?_, ?_⟩
    · show ((bucket_of ns).elim h.counts fun i => h.counts.modify i (· + 1)).length = _
      cases bucket_of ns with
      | none => exact hof.slots
      | some b => rw [Option.elim_some, List.length_modify, hof.slots]
    · show ((bucket_of ns).elim h.counts fun i => h.counts.modify i (· + 1))[i]? = _
      rw [landed_observe, hbucket]
      cases bucket_of ns with
      | none => exact hof.bucket i hi
      | some b =>
        rw [Option.elim_some, List.getElem?_modify, hof.bucket i hi, Option.map_eq_map,
          Option.map_some]
        by_cases hb : b = i
        · subst hb
          rw [if_pos rfl, if_pos rfl, Finset.card_insert_of_notMem (hnew b), UInt64.ofNat_add]
          rfl
        · rw [if_neg (fun h => hb (Option.some.inj h)), if_neg hb]
    · rw [hcounted (by omega)]
      exact hof.count
  | 1 =>
    rw [hmoves]
    refine ⟨hof.slots, fun i hi => ?_, ?_⟩
    · rw [landed_again (by omega)]
      exact hof.bucket i hi
    · have hnew : j ∉ counted times schedule := by
        intro hmem
        have hin := (Finset.mem_filter.mp hmem).2
        omega
      rw [counted_observe, if_pos ⟨hlt, hmoves⟩, Finset.card_insert_of_notMem hnew,
        UInt64.ofNat_add]
      show h.count + 1 = _
      rw [hof.count]
      rfl
  | n + 2 =>
    rw [hmoves]
    obtain ⟨hcounts, hcount⟩ := step_late { ns := ns, next := stage (n + 2) } h rfl
    refine ⟨?_, fun i hi => ?_, ?_⟩
    · rw [hcounts]
      exact hof.slots
    · rw [hcounts, landed_again (by omega)]
      exact hof.bucket i hi
    · rw [hcount, hcounted (by omega)]
      exact hof.count

theorem histogram_after (schedule : List Move) :
    HistogramOf times schedule (run_calls times schedule).histogram := by
  induction schedule using List.reverseRecOn with
  | nil =>
    refine ⟨rfl, fun i hi => ?_, ?_⟩
    · show (List.replicate BUCKETS (0 : UInt64))[i]? = _
      rw [List.getElem?_replicate, if_pos hi]
      simp [landed]
    · simp [counted, run_calls, Calls.start, Histogram.new]
  | append_singleton schedule e ih =>
    rw [run_calls_append]
    cases e with
    | render =>
      refine ⟨ih.slots, fun i hi => ?_, ?_⟩
      · rw [landed_render]
        exact ih.bucket i hi
      · rw [counted_render]
        exact ih.count
    | observe j =>
      have hj := @observers_after times schedule j
      unfold Calls.step
      dsimp only
      cases htime : times[j]? with
      | some ns =>
        rw [htime, Option.map_some] at hj
        simp only [hj]
        exact histogram_observe ih htime
      | none =>
        -- no such call, and none that lands or is counted
        rw [htime, Option.map_none] at hj
        simp only [hj]
        have hbeyond : ¬ j < times.length := by
          intro hlt
          rw [List.getElem?_eq_getElem hlt] at htime
          cases htime
        refine ⟨ih.slots, fun i hi => ?_, ?_⟩
        · rw [landed_observe, call_bucket, htime, Option.bind_none, if_neg (by simp)]
          exact ih.bucket i hi
        · rw [counted_observe, if_neg fun h => hbeyond h.1]
          exact ih.count

/-! ### What a render has read -/

/-- The schedule up to a load of the render. -/
def until_render : Nat → List Move → List Move
  | _, [] => []
  | 0, .render :: _ => []
  | n + 1, .render :: schedule => .render :: until_render n schedule
  | n, .observe k :: schedule => .observe k :: until_render n schedule

/-- A load that was made is not made again. -/
theorem until_render_append {n : Nat} {schedule : List Move} (h : n < schedule.count .render)
    (rest : List Move) : until_render n (schedule ++ rest) = until_render n schedule := by
  induction schedule generalizing n with
  | nil => cases h
  | cons e schedule ih =>
    cases e with
    | observe k =>
      rw [List.count_cons_of_ne (by simp)] at h
      rw [List.cons_append, until_render, until_render, ih h]
    | render =>
      rw [List.count_cons_self] at h
      cases n with
      | zero => rfl
      | succ n => rw [List.cons_append, until_render, until_render, ih (by omega)]

/-- The next load sees all of the schedule. -/
theorem until_render_next (schedule rest : List Move) :
    until_render (schedule.count .render) (schedule ++ .render :: rest) = schedule := by
  induction schedule with
  | nil => rfl
  | cons e schedule ih =>
    cases e with
    | observe k =>
      rw [List.count_cons_of_ne (by simp), List.cons_append, until_render, ih]
    | render => rw [List.count_cons_self, List.cons_append, until_render, ih]

variable (times) in
/-- The slots that were read. -/
def slots_read (schedule : List Move) : List UInt64 :=
  (List.range (min (schedule.count .render) BUCKETS)).map fun i =>
    UInt64.ofNat (landed times (until_render i schedule) i).card

/-- The running sums of slots. -/
def running (slots : List UInt64) : List UInt64 :=
  (List.range slots.length).map fun j => (slots.take (j + 1)).foldl saturating_add_u64 0

theorem running_append (slots : List UInt64) (slot : UInt64) :
    running (slots ++ [slot])
      = running slots ++ [(slots ++ [slot]).foldl saturating_add_u64 0] := by
  unfold running
  rw [List.length_append, List.length_singleton, List.range_succ, List.map_append]
  congr 1
  · apply List.map_congr_left
    intro j hj
    rw [List.take_append_of_le_length (List.mem_range.mp hj)]
  · rw [List.map_singleton, List.take_of_length_le (by simp)]

variable (times) in
/-- The render after a schedule. -/
structure RenderOf (schedule : List Move) (r : RenderCall) : Prop where
  buckets : r.buckets = running (slots_read times schedule)
  cumulative : r.cumulative = (slots_read times schedule).foldl saturating_add_u64 0
  total : r.total = if BUCKETS < schedule.count .render then
      some (UInt64.ofNat (counted times (until_render BUCKETS schedule)).card)
    else none

theorem RenderOf.length {schedule : List Move} {r : RenderCall} (hof : RenderOf times schedule r) :
    r.buckets.length = min (schedule.count .render) BUCKETS := by
  rw [hof.buckets, running, List.length_map, List.length_range, slots_read, List.length_map,
    List.length_range]

/-- A step that loads no slot leaves the slots that were read. -/
theorem slots_read_append {schedule rest : List Move}
    (hloads : min ((schedule ++ rest).count .render) BUCKETS
      = min (schedule.count .render) BUCKETS) :
    slots_read times (schedule ++ rest) = slots_read times schedule := by
  unfold slots_read
  rw [hloads]
  apply List.map_congr_left
  intro i hi
  have hlt : i < schedule.count .render := by
    have := List.mem_range.mp hi
    omega
  rw [until_render_append hlt]

/-- A step that loads no slot may change the total, and nothing else. -/
theorem RenderOf.no_slot {schedule rest : List Move} {r r' : RenderCall}
    (hof : RenderOf times schedule r)
    (hloads : min ((schedule ++ rest).count .render) BUCKETS = min (schedule.count .render) BUCKETS)
    (hbuckets : r'.buckets = r.buckets) (hcumulative : r'.cumulative = r.cumulative)
    (htotal : r'.total = if BUCKETS < (schedule ++ rest).count .render then
        some (UInt64.ofNat (counted times (until_render BUCKETS (schedule ++ rest))).card)
      else none) :
    RenderOf times (schedule ++ rest) r' := by
  have hslots : slots_read times (schedule ++ rest) = slots_read times schedule :=
    slots_read_append hloads
  refine ⟨?_, ?_, htotal⟩
  · rw [hslots, hbuckets]
    exact hof.buckets
  · rw [hslots, hcumulative]
    exact hof.cumulative

theorem render_observe {schedule : List Move} {r : RenderCall} (hof : RenderOf times schedule r)
    (j : Nat) : RenderOf times (schedule ++ [.observe j]) r := by
  have hcount : (schedule ++ [Move.observe j]).count .render = schedule.count .render := by
    simp [List.count_append]
  refine hof.no_slot (by rw [hcount]) rfl rfl ?_
  rw [hcount, hof.total]
  split
  · rename_i hlt
    rw [until_render_append hlt]
  · rfl

/-- A load of a slot. -/
theorem render_slot {schedule : List Move} {r : RenderCall} {h : Histogram}
    (hhist : HistogramOf times schedule h) (hof : RenderOf times schedule r)
    (hslot : schedule.count .render < BUCKETS) :
    RenderOf times (schedule ++ [.render]) (r.step h) := by
  have hcount : (schedule ++ [Move.render]).count .render = schedule.count .render + 1 := by
    simp [List.count_append]
  have hread : h.counts[r.buckets.length]?
      = some (UInt64.ofNat (landed times schedule (schedule.count .render)).card) := by
    rw [hof.length, Nat.min_eq_left (Nat.le_of_lt hslot)]
    exact hhist.bucket _ hslot
  have hslots : slots_read times (schedule ++ [.render]) = slots_read times schedule
      ++ [UInt64.ofNat (landed times schedule (schedule.count .render)).card] := by
    unfold slots_read
    rw [hcount, Nat.min_eq_left hslot, Nat.min_eq_left (Nat.le_of_lt hslot), List.range_succ,
      List.map_append, List.map_singleton, until_render_next]
    congr 1
    apply List.map_congr_left
    intro i hi
    rw [until_render_append (List.mem_range.mp hi)]
  unfold RenderCall.step
  rw [hread]
  dsimp only
  refine ⟨?_, ?_, ?_⟩
  · rw [hslots, running_append, hof.buckets, hof.cumulative, List.foldl_append]
    rfl
  · rw [hslots, hof.cumulative, List.foldl_append]
    rfl
  · rw [hcount, if_neg (by omega), hof.total, if_neg (by omega)]

/-- A load behind the slots is of the total, or changes neither. -/
theorem render_total {schedule : List Move} {r : RenderCall} {h : Histogram}
    (hhist : HistogramOf times schedule h) (hof : RenderOf times schedule r)
    (hslot : BUCKETS ≤ schedule.count .render) :
    RenderOf times (schedule ++ [.render]) (r.step h) := by
  have hcount : (schedule ++ [Move.render]).count .render = schedule.count .render + 1 := by
    simp [List.count_append]
  have hread : h.counts[r.buckets.length]? = none := by
    rw [hof.length, Nat.min_eq_right hslot, List.getElem?_eq_none_iff, hhist.slots]
  have hloads : min ((schedule ++ [Move.render]).count .render) BUCKETS
      = min (schedule.count .render) BUCKETS := by
    rw [hcount]
    omega
  have hdone : BUCKETS < schedule.count .render + 1 := by omega
  unfold RenderCall.step
  rw [hread]
  dsimp only
  by_cases hlast : schedule.count .render = BUCKETS
  · have hnone : r.total = none := by rw [hof.total, if_neg (by omega)]
    rw [hnone]
    refine hof.no_slot hloads rfl rfl ?_
    rw [hcount, if_pos hdone, ← hlast, until_render_next]
    exact congrArg some hhist.count
  · -- the total is there already
    have hlt : BUCKETS < schedule.count .render := by omega
    have htotal := hof.total
    rw [if_pos hlt] at htotal
    have hsame : r.total = if BUCKETS < (schedule ++ [Move.render]).count .render then
        some (UInt64.ofNat (counted times (until_render BUCKETS (schedule ++ [.render]))).card)
        else none := by
      rw [hcount, if_pos hdone, until_render_append hlt, htotal]
    rw [if_neg (show ¬ r.total.isNone = true by rw [htotal]; exact Bool.false_ne_true)]
    split
    · exact hof.no_slot hloads rfl rfl hsame
    · exact hof.no_slot hloads rfl rfl hsame

theorem render_render {schedule : List Move} {r : RenderCall} {h : Histogram}
    (hhist : HistogramOf times schedule h) (hof : RenderOf times schedule r) :
    RenderOf times (schedule ++ [.render]) (r.step h) := by
  rcases Nat.lt_or_ge (schedule.count .render) BUCKETS with hslot | hslot
  · exact render_slot hhist hof hslot
  · exact render_total hhist hof hslot

theorem render_after (schedule : List Move) :
    RenderOf times schedule (run_calls times schedule).render := by
  induction schedule using List.reverseRecOn with
  | nil => exact ⟨rfl, rfl, rfl⟩
  | append_singleton schedule e ih =>
    rw [run_calls_append]
    cases e with
    | render => exact render_render (histogram_after schedule) ih
    | observe j =>
      have hsame : ((run_calls times schedule).step (.observe j)).render
          = (run_calls times schedule).render := by
        unfold Calls.step
        dsimp only
        cases (run_calls times schedule).observers[j]? <;> rfl
      rw [hsame]
      exact render_observe ih j

end schedules

/-! ### Running sums -/

theorem saturating_add_u64_toNat (a b : UInt64) :
    (saturating_add_u64 a b).toNat = min (a.toNat + b.toNat) (2 ^ 64 - 1) := by
  rw [saturating_add_u64, UInt64.toNat_ofNat']
  exact Nat.mod_eq_of_lt (by omega)

/-- A saturating sum is the sum, up to the largest number. -/
theorem foldl_saturating_add (slots : List UInt64) : ∀ start : UInt64,
    (slots.foldl saturating_add_u64 start).toNat
      = min (start.toNat + (slots.map UInt64.toNat).sum) (2 ^ 64 - 1) := by
  induction slots with
  | nil =>
    intro start
    have := start.toNat_lt
    rw [List.foldl_nil, List.map_nil, List.sum_nil]
    omega
  | cons slot slots ih =>
    intro start
    rw [List.foldl_cons, ih, saturating_add_u64_toNat, List.map_cons, List.sum_cons]
    omega

/-- Running sums ascend. -/
theorem running_ascending (slots : List UInt64) : (running slots).Pairwise (· ≤ ·) := by
  unfold running
  rw [List.pairwise_map]
  apply List.Pairwise.imp _ List.pairwise_lt_range
  intro i j hij
  have hparts := List.take_append_drop (i + 1) (slots.take (j + 1))
  rw [List.take_take, Nat.min_eq_left (by omega)] at hparts
  rw [← hparts, List.foldl_append, UInt64.le_iff_toNat_le, foldl_saturating_add _ (List.foldl _ _ _)]
  have := ((slots.take (i + 1)).foldl saturating_add_u64 0).toNat_lt
  omega

theorem running_getLast? {slots : List UInt64} (h : slots ≠ []) :
    (running slots).getLast? = some (slots.foldl saturating_add_u64 0) := by
  obtain ⟨front, slot, rfl⟩ := List.eq_nil_or_concat slots |>.resolve_left h
  rw [List.concat_eq_append, running_append, List.getLast?_append, List.getLast?_singleton]
  rfl

section renders

variable (times : List UInt64)

/-- The calls in a bucket that had them when it was read. -/
def seen (schedule : List Move) : Finset Nat :=
  (Finset.range times.length).filter fun k =>
    (call_bucket times k).any fun i => (until_render i schedule).contains (.observe k)

/-- The calls in the total when it was read. -/
def totalled (schedule : List Move) : Finset Nat := counted times (until_render BUCKETS schedule)

/-- The calls that the buckets show and the total does not. -/
def ahead (schedule : List Move) : Nat := (seen times schedule \ totalled times schedule).card

/-- The calls that the total shows and the buckets do not. -/
def behind (schedule : List Move) : Nat := (totalled times schedule \ seen times schedule).card

variable {times}

theorem mem_seen {schedule : List Move} {k : Nat} :
    k ∈ seen times schedule ↔
      ∃ i, call_bucket times k = some i ∧ .observe k ∈ until_render i schedule := by
  rw [seen, Finset.mem_filter, Finset.mem_range]
  constructor
  · rintro ⟨-, hany⟩
    cases hi : call_bucket times k with
    | none =>
      rw [hi] at hany
      cases hany
    | some i =>
      rw [hi, Option.any_some] at hany
      exact ⟨i, rfl, List.contains_iff_mem.mp hany⟩
  · rintro ⟨i, hi, hmem⟩
    refine ⟨call_lt hi, ?_⟩
    rw [hi, Option.any_some]
    exact List.contains_iff_mem.mpr hmem

/-- The slots that are read hold the calls that are seen, each in its own. -/
theorem sum_landed (schedule : List Move) :
    ∑ i ∈ Finset.range BUCKETS, (landed times (until_render i schedule) i).card
      = (seen times schedule).card := by
  rw [Finset.card_eq_sum_card_fiberwise (f := fun k => (call_bucket times k).getD 0)
    (t := Finset.range BUCKETS)]
  · apply Finset.sum_congr rfl
    intro i _
    congr 1
    ext k
    rw [landed, Finset.mem_filter, Finset.mem_filter, mem_seen, Finset.mem_range]
    constructor
    · rintro ⟨-, hi, hmem⟩
      exact ⟨⟨i, hi, hmem⟩, by rw [hi, Option.getD_some]⟩
    · rintro ⟨⟨i', hi', hmem⟩, hi⟩
      rw [hi', Option.getD_some] at hi
      subst hi
      exact ⟨call_lt hi', hi', hmem⟩
  · intro k hk
    obtain ⟨i, hi, -⟩ := mem_seen.mp (Finset.mem_coe.mp hk)
    obtain ⟨ns, -, hns⟩ := Option.bind_eq_some_iff.mp hi
    show (call_bucket times k).getD 0 ∈ _
    rw [hi, Option.getD_some]
    exact Finset.mem_coe.mpr (Finset.mem_range.mpr (bucket_lt hns))

/-- The finished render, by its schedule. -/
theorem exposition_after {schedule : List Move} {e : Exposition}
    (h : (run_calls times schedule).render.exposition = some e) :
    BUCKETS < schedule.count .render ∧ e.buckets = running (slots_read times schedule)
      ∧ e.inf = UInt64.ofNat (totalled times schedule).card ∧ e.inf = e.count := by
  have hof := @render_after times schedule
  obtain ⟨total, htotal, hrest⟩ := Option.bind_eq_some_iff.mp h
  obtain ⟨sum_ns, -, rfl⟩ := Option.map_eq_some_iff.mp hrest
  rw [hof.total] at htotal
  by_cases hlt : BUCKETS < schedule.count .render
  · rw [if_pos hlt] at htotal
    exact ⟨hlt, hof.buckets, (Option.some.inj htotal).symm, rfl⟩
  · rw [if_neg hlt] at htotal
    cases htotal

variable (times) in
/-- The last bucket: what the slots hold, each 64 bits wide, up to the largest
    number. -/
def shown (schedule : List Move) : Nat :=
  min (∑ i ∈ Finset.range BUCKETS, (landed times (until_render i schedule) i).card % 2 ^ 64)
    (2 ^ 64 - 1)

theorem last_bucket {schedule : List Move} (h : BUCKETS < schedule.count .render) :
    ∃ last, (running (slots_read times schedule)).getLast? = some last
      ∧ last.toNat = shown times schedule := by
  have hall : min (schedule.count .render) BUCKETS = BUCKETS := Nat.min_eq_right (Nat.le_of_lt h)
  have hslots : slots_read times schedule ≠ [] := by
    rw [slots_read, hall]
    exact List.cons_ne_nil _ _
  refine ⟨_, running_getLast? hslots, ?_⟩
  rw [foldl_saturating_add, slots_read, hall, List.map_map]
  show min (0 + (((List.range BUCKETS).map fun i =>
    (UInt64.ofNat (landed times (until_render i schedule) i).card).toNat).sum)) _ = _
  rw [Nat.zero_add]
  -- the sum over a range is the sum of its list, and `ofNat` keeps 64 bits
  rfl

/-- Below the largest number nothing wraps and nothing saturates. -/
theorem shown_eq_card (schedule : List Move) (hfew : times.length < 2 ^ 64) :
    shown times schedule = (seen times schedule).card
      ∧ (totalled times schedule).card % 2 ^ 64 = (totalled times schedule).card := by
  have hcard : ∀ (p : Nat → Prop) [DecidablePred p],
      ((Finset.range times.length).filter p).card ≤ times.length := by
    intro p _
    exact (Finset.card_filter_le _ _).trans_eq (Finset.card_range _)
  have hseen : (seen times schedule).card ≤ times.length := hcard _
  constructor
  · have hwidth : ∀ i ∈ Finset.range BUCKETS, (landed times (until_render i schedule) i).card % 2 ^ 64
        = (landed times (until_render i schedule) i).card := by
      intro i _
      exact Nat.mod_eq_of_lt (Nat.lt_of_le_of_lt (hcard _) hfew)
    rw [shown, Finset.sum_congr rfl hwidth, sum_landed]
    omega
  · exact Nat.mod_eq_of_lt (Nat.lt_of_le_of_lt (hcard _) hfew)

end renders

/-- What a client of the format relies on. -/
structure Exposition.Consistent (e : Exposition) : Prop where
  ascending : e.buckets.Pairwise (· ≤ ·)
  last_le_inf : ∀ last ∈ e.buckets.getLast?, last ≤ e.inf
  inf_eq_count : e.inf = e.count

theorem consistent_iff_shown {times : List UInt64} {schedule : List Move} {e : Exposition}
    (h : (run_calls times schedule).render.exposition = some e) :
    e.Consistent ↔ shown times schedule ≤ (totalled times schedule).card % 2 ^ 64 := by
  obtain ⟨hloads, hbuckets, hinf, hcount⟩ := exposition_after h
  obtain ⟨last, hlast, hshown⟩ := @last_bucket times schedule hloads
  have hle : last ≤ e.inf ↔ shown times schedule ≤ (totalled times schedule).card % 2 ^ 64 := by
    rw [UInt64.le_iff_toNat_le, hshown, hinf, UInt64.toNat_ofNat']
  rw [← hle]
  constructor
  · intro hc
    exact hc.last_le_inf last (by rw [hbuckets, hlast]; rfl)
  · intro hl
    refine ⟨?_, fun last' hlast' => ?_, hcount⟩
    · rw [hbuckets]
      exact running_ascending _
    · rw [hbuckets, hlast, Option.mem_some] at hlast'
      rw [← hlast']
      exact hl

theorem consistent_iff_ahead {times : List UInt64} {schedule : List Move} {e : Exposition}
    (h : (run_calls times schedule).render.exposition = some e) (hfew : times.length < 2 ^ 64) :
    e.Consistent ↔ ahead times schedule ≤ behind times schedule := by
  obtain ⟨hseen, htotal⟩ := shown_eq_card schedule hfew
  rw [consistent_iff_shown h, hseen, htotal, ahead, behind]
  exact Finset.card_sdiff_le_card_sdiff_iff.symm

/-- In every run the buckets ascend and the total is the count. The last bucket
    is at most the total exactly where the slots held no more than the total;
    while the counters do not wrap, where no more calls are ahead than behind. -/
theorem render_consistent_iff (times : List UInt64) (schedule : List Move) {e : Exposition}
    (h : (run_calls times schedule).render.exposition = some e) :
    (e.buckets.Pairwise (· ≤ ·) ∧ e.inf = e.count)
      ∧ (e.Consistent ↔ shown times schedule ≤ (totalled times schedule).card % 2 ^ 64)
      ∧ (times.length < 2 ^ 64 →
          (e.Consistent ↔ ahead times schedule ≤ behind times schedule)) := by
  obtain ⟨-, hbuckets, -, hcount⟩ := exposition_after h
  refine ⟨⟨?_, hcount⟩, consistent_iff_shown h, consistent_iff_ahead h⟩
  rw [hbuckets]
  exact running_ascending _

/-- A whole render, load by load. -/
def render_moves : List Move := List.replicate (BUCKETS + 2) .render

/-- A call that lands and is counted before the render starts. -/
theorem render_consistent_iff_counted :
    ∃ e, (run_calls [500000] (.observe 0 :: .observe 0 :: render_moves)).render.exposition = some e
      ∧ (e.Consistent ↔ ahead [500000] (.observe 0 :: .observe 0 :: render_moves)
          ≤ behind [500000] (.observe 0 :: .observe 0 :: render_moves)) :=
  ⟨_, rfl, (render_consistent_iff [500000] _ rfl).2.2 (by decide)⟩

/-- A call that landed and is not counted yet: one in the last bucket, none in
    the total. -/
theorem render_ahead_of_count :
    ¬ ∀ (times : List UInt64) (schedule : List Move) (e : Exposition),
      (run_calls times schedule).render.exposition = some e → e.Consistent := by
  intro hall
  have hc := hall [500000] (.observe 0 :: render_moves) _ rfl
  have hle := hc.last_le_inf 1 rfl
  exact absurd hle (by decide)

/-! ### A histogram that is still -/

theorem until_render_still (n : Nat) {before : List Move} (h : .render ∉ before) (loads : Nat) :
    until_render n (before ++ List.replicate loads .render)
      = before ++ List.replicate (min n loads) .render := by
  induction before with
  | nil =>
    rw [List.nil_append, List.nil_append]
    induction loads generalizing n with
    | zero => cases n <;> rfl
    | succ loads ih =>
      rw [List.replicate_succ]
      cases n with
      | zero => rw [Nat.zero_min]; rfl
      | succ n => rw [until_render, ih, Nat.succ_min_succ, List.replicate_succ]
  | cons e before ih =>
    rw [List.mem_cons, not_or] at h
    cases e with
    | render => exact absurd rfl h.1
    | observe k => rw [List.cons_append, until_render, ih h.2, List.cons_append]

/-- With no call in progress, the render is consistent. -/
theorem still_consistent {times : List UInt64} (hfew : times.length < 2 ^ 64)
    {before : List Move} (hbefore : .render ∉ before)
    (hstill : ∀ k, before.count (.observe k) ≠ 1) {loads : Nat} {e : Exposition}
    (h : (run_calls times (before ++ List.replicate loads .render)).render.exposition = some e) :
    e.Consistent := by
  rw [consistent_iff_ahead h hfew, ahead]
  have hsub : seen times (before ++ List.replicate loads .render)
      ⊆ totalled times (before ++ List.replicate loads .render) := by
    intro k hk
    obtain ⟨i, hi, hmem⟩ := mem_seen.mp hk
    rw [until_render_still i hbefore] at hmem
    have hin : .observe k ∈ before := by simpa using hmem
    have hpos := List.count_pos_iff.mpr hin
    rw [totalled, counted, Finset.mem_filter, Finset.mem_range, until_render_still _ hbefore,
      List.count_append]
    have hne := hstill k
    exact ⟨call_lt hi, by omega⟩
  rw [Finset.sdiff_eq_empty_iff_subset.mpr hsub, Finset.card_empty]
  exact Nat.zero_le _

end AgentTraceGateway
