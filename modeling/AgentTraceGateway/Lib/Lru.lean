import Mathlib.Data.List.AList
import Mathlib.Data.List.Count
import Mathlib.Data.List.MinMax

/-! # Tables with Least-Recently-Used Eviction

  A finite table whose values carry a time stamp, iterated in an order the
  program does not control. Entries leave the table through a filter
  (`retain`), by key, or through eviction of the oldest entry until the
  table is below a capacity.

  With pairwise distinct stamps the iteration order does not matter:
  eviction keeps exactly the entries with fewer than `capacity - 1` newer
  ones (`lookup_evict`), so older entries never cost a newer one its
  place. -/

namespace AgentTraceGateway

namespace Lru

universe u v

variable {κ : Type u} {ν : Type v}

abbrev Entry (κ : Type u) (ν : Type v) : Type (max u v) := Sigma fun _ : κ => ν

abbrev Table (κ : Type u) (ν : Type v) : Type (max u v) := AList fun _ : κ => ν

/-- The order in which a hash table happens to list its entries. -/
structure IterOrder (κ : Type u) (ν : Type v) where
  list : List (Entry κ ν) → List (Entry κ ν)
  perm : ∀ entries, (list entries).Perm entries

/-- Entries in the order they are stored. -/
def IterOrder.stored : IterOrder κ ν := ⟨id, fun _ => List.Perm.refl _⟩

/-- Keep the entries whose value satisfies `p`. -/
def retain (p : ν → Bool) (t : Table κ ν) : Table κ ν :=
  ⟨t.entries.filter fun e => p e.2, t.nodupKeys.sublist List.filter_sublist⟩

variable (stamp : ν → Nat)

/-- The key of the least recently used entry; among equals, the one listed
    first. -/
def oldest (order : IterOrder κ ν) (t : Table κ ν) : Option κ :=
  (List.argmin (fun e : Entry κ ν => stamp e.2) (order.list t.entries)).map (·.1)

theorem oldest_eq_none {order : IterOrder κ ν} {t : Table κ ν}
    (h : oldest stamp order t = none) : t.entries = [] := by
  have hnil : order.list t.entries = [] := by
    simpa [oldest, List.argmin_eq_none] using h
  have := order.perm t.entries
  rw [hnil] at this
  exact this.symm.eq_nil

/-! ### Lookups -/

variable [DecidableEq κ]

theorem mem_entries_iff {t : Table κ ν} {k : κ} {v : ν} :
    (⟨k, v⟩ : Entry κ ν) ∈ t.entries ↔ t.lookup k = some v :=
  (AList.mem_lookup_iff (s := t)).symm

theorem lookup_eq_iff {t t' : Table κ ν} {k : κ} :
    t.lookup k = t'.lookup k ↔
      ∀ v, (⟨k, v⟩ : Entry κ ν) ∈ t.entries ↔ (⟨k, v⟩ : Entry κ ν) ∈ t'.entries := by
  simp only [mem_entries_iff]
  exact Option.ext_iff

theorem lookup_retain (p : ν → Bool) (t : Table κ ν) (k : κ) :
    (retain p t).lookup k = (t.lookup k).filter p := by
  apply Option.ext
  intro v
  rw [← mem_entries_iff, Option.filter_eq_some_iff, ← mem_entries_iff]
  simp [retain]

/-- Tables with the same lookups hold the same entries. -/
theorem entries_perm {t t' : Table κ ν} (h : ∀ k, t.lookup k = t'.lookup k) :
    t.entries.Perm t'.entries := by
  apply (List.perm_ext_iff_of_nodup t.nodupKeys.nodup t'.nodupKeys.nodup).mpr
  rintro ⟨k, v⟩
  exact lookup_eq_iff.mp (h k) v

/-! ### What left the table -/

/-- The entries of `t` whose key is missing in `t'`. -/
def gone (t t' : Table κ ν) : List (Entry κ ν) := t.entries.filter fun e => (t'.lookup e.1).isNone

theorem mem_gone_iff {t t' : Table κ ν} {k : κ} {v : ν} :
    (⟨k, v⟩ : Entry κ ν) ∈ gone t t' ↔ t.lookup k = some v ∧ t'.lookup k = none := by
  simp [gone, mem_entries_iff]

/-- Nothing is gone where every key is still there. -/
theorem gone_eq_nil {t t' : Table κ ν} (h : ∀ k v, t.lookup k = some v → t'.lookup k ≠ none) :
    gone t t' = [] := by
  apply List.eq_nil_iff_forall_not_mem.mpr
  rintro ⟨k, v⟩ hmem
  obtain ⟨hv, hnone⟩ := mem_gone_iff.mp hmem
  exact h k v hv hnone

theorem gone_congr {t t' t'' : Table κ ν}
    (h : ∀ k v, t.lookup k = some v → t'.lookup k = t''.lookup k) : gone t t' = gone t t'' := by
  apply List.filter_congr
  rintro ⟨k, v⟩ hmem
  rw [h k v (mem_entries_iff.mp hmem)]

/-- What is gone and what is left make up the table. -/
theorem length_gone {t t' : Table κ ν} (h : ∀ k v, t'.lookup k = some v → t.lookup k = some v) :
    (gone t t').length + t'.entries.length = t.entries.length := by
  have hleft : (t.entries.filter fun e => !(t'.lookup e.1).isNone).Perm t'.entries := by
    apply (List.perm_ext_iff_of_nodup (t.nodupKeys.nodup.filter _) t'.nodupKeys.nodup).mpr
    rintro ⟨k, v⟩
    rw [List.mem_filter, mem_entries_iff, mem_entries_iff]
    cases hk : t'.lookup k with
    | none => simp
    | some w =>
      have hw := h k w hk
      simp [hw]
  rw [gone, ← hleft.length_eq]
  exact (List.length_eq_length_filter_add _).symm

/-! ### Eviction -/

theorem oldest_mem {order : IterOrder κ ν} {t : Table κ ν} {k : κ}
    (h : oldest stamp order t = some k) :
    ∃ v, t.lookup k = some v ∧ ∀ k' v', t.lookup k' = some v' → stamp v ≤ stamp v' := by
  obtain ⟨⟨k', v⟩, hmin, rfl⟩ := Option.map_eq_some_iff.mp h
  refine ⟨v, ?_, ?_⟩
  · rw [← mem_entries_iff]
    exact (order.perm _).mem_iff.mp (List.argmin_mem hmin)
  · intro k₂ v₂ h₂
    have hmem : (⟨k₂, v₂⟩ : Entry κ ν) ∈ order.list t.entries :=
      (order.perm _).mem_iff.mpr (mem_entries_iff.mpr h₂)
    exact List.le_of_mem_argmin hmem (f := fun e : Entry κ ν => stamp e.2) hmin

/-- An entry's place in the list, and the list without it. -/
theorem erase_split {t : Table κ ν} {k : κ} {v : ν} (h : t.lookup k = some v) :
    ∃ l₁ l₂, t.entries = l₁ ++ ⟨k, v⟩ :: l₂ ∧ (t.erase k).entries = l₁ ++ l₂ := by
  have hmem : k ∈ t.entries.keys := List.mem_keys_of_mem (mem_entries_iff.mpr h)
  obtain ⟨b, l₁, l₂, -, hsplit, herase⟩ := List.exists_of_kerase hmem
  have hb : t.lookup k = some b := by
    rw [← mem_entries_iff, hsplit]
    simp
  obtain rfl : v = b := by simpa [h] using hb
  exact ⟨l₁, l₂, hsplit, herase⟩

theorem length_erase {t : Table κ ν} {k : κ} {v : ν} (h : t.lookup k = some v) :
    (t.erase k).entries.length + 1 = t.entries.length := by
  obtain ⟨l₁, l₂, hsplit, herase⟩ := erase_split h
  simp only [hsplit, herase, List.length_append, List.length_cons]
  omega

/-- Writing an entry puts it in the place of the old one. -/
theorem length_insert (t : Table κ ν) (k : κ) (v : ν) :
    (t.insert k v).entries.length = (t.erase k).entries.length + 1 := by
  rw [AList.entries_insert, List.length_cons]
  rfl

/-- A missing key leaves the table as it is. -/
theorem erase_of_lookup_none {t : Table κ ν} {k : κ} (h : t.lookup k = none) : t.erase k = t :=
  AList.ext (List.kerase_of_notMem_keys (AList.lookup_eq_none.mp h))

/-- Evict the oldest entries while the table is not below the capacity. -/
def evict (order : IterOrder κ ν) (capacity : Nat) (t : Table κ ν) : Table κ ν :=
  if t.entries.length < capacity then t
  else
    match h : oldest stamp order t with
    | none => t
    | some k =>
      have : (t.erase k).entries.length < t.entries.length := by
        obtain ⟨v, hv, -⟩ := oldest_mem stamp h
        have := length_erase hv
        omega
      evict order capacity (t.erase k)
termination_by t.entries.length

/-- One turn of the eviction. -/
theorem evict_erase {order : IterOrder κ ν} {capacity : Nat} {t : Table κ ν} {k : κ}
    (hfull : ¬ t.entries.length < capacity) (hk : oldest stamp order t = some k) :
    evict stamp order capacity t = evict stamp order capacity (t.erase k) := by
  rw [evict, if_neg hfull]
  split
  · simp_all
  · rename_i k₁ hk₁
    obtain rfl : k = k₁ := by simpa [hk] using hk₁
    rfl

/-- Eviction ends below the capacity. -/
theorem length_evict (order : IterOrder κ ν) {capacity : Nat} (hcap : 1 ≤ capacity)
    (t : Table κ ν) : (evict stamp order capacity t).entries.length < capacity := by
  induction t using evict.induct stamp order capacity with
  | case1 t hlt => rwa [evict, if_pos hlt]
  | case2 t hlt hnone =>
    have hnil := oldest_eq_none stamp hnone
    rw [hnil, List.length_nil] at hlt
    omega
  | case3 t hlt k₀ hk₀ _ ih =>
    rw [evict_erase stamp hlt hk₀]
    exact ih

/-- Eviction only takes entries out. -/
theorem lookup_of_lookup_evict {order : IterOrder κ ν} {capacity : Nat} {t : Table κ ν}
    {k : κ} {v : ν} (h : (evict stamp order capacity t).lookup k = some v) :
    t.lookup k = some v := by
  induction t using evict.induct stamp order capacity with
  | case1 t hlt =>
    rw [evict, if_pos hlt] at h
    exact h
  | case2 t hlt hnone =>
    rw [evict, if_neg hlt] at h
    split at h <;> simp_all
  | case3 t hlt k₀ hk₀ _ ih =>
    rw [evict_erase stamp hlt hk₀] at h
    have herased := ih h
    by_cases heq : k = k₀
    · subst heq
      simp at herased
    · rwa [AList.lookup_erase_ne heq] at herased

/-- Eviction adds nothing. -/
theorem length_evict_le (order : IterOrder κ ν) (capacity : Nat) (t : Table κ ν) :
    (evict stamp order capacity t).entries.length ≤ t.entries.length := by
  induction t using evict.induct stamp order capacity with
  | case1 t hlt => rw [evict, if_pos hlt]
  | case2 t hlt hnone =>
    rw [evict, if_neg hlt]
    split <;> simp_all
  | case3 t hlt k₀ hk₀ _ ih =>
    obtain ⟨v, hv, -⟩ := oldest_mem stamp hk₀
    have hlen := length_erase hv
    rw [evict_erase stamp hlt hk₀]
    omega

/-- What eviction takes out is at least as old as everything it keeps. -/
theorem evicted_le_kept {order : IterOrder κ ν} {capacity : Nat} {t : Table κ ν} {k k' : κ}
    {v v' : ν} (h : t.lookup k = some v) (hout : (evict stamp order capacity t).lookup k = none)
    (hkept : (evict stamp order capacity t).lookup k' = some v') : stamp v ≤ stamp v' := by
  induction t using evict.induct stamp order capacity with
  | case1 t hlt =>
    rw [evict, if_pos hlt, h] at hout
    cases hout
  | case2 t hlt hnone =>
    have hmem := mem_entries_iff.mpr h
    rw [oldest_eq_none stamp hnone] at hmem
    cases hmem
  | case3 t hlt k₀ hk₀ _ ih =>
    obtain ⟨v₀, hv₀, hmin⟩ := oldest_mem stamp hk₀
    by_cases hk : k = k₀
    · -- the entry taken out in this turn is the oldest one
      subst hk
      obtain rfl : v₀ = v := by simpa [hv₀] using h
      exact hmin k' v' (lookup_of_lookup_evict stamp hkept)
    · rw [evict_erase stamp hlt hk₀] at hout hkept
      exact ih (by rwa [AList.lookup_erase_ne hk]) hout hkept

/-! ### Which entries stay -/

/-- How many entries are newer than a stamp. -/
def newer (t : Table κ ν) (s : Nat) : Nat := t.entries.countP fun e => s < stamp e.2

/-- Distinct keys carry distinct stamps. -/
def Distinct (t : Table κ ν) : Prop :=
  ∀ k k' v v', t.lookup k = some v → t.lookup k' = some v' → stamp v = stamp v' → k = k'

theorem newer_congr {t t' : Table κ ν} (h : ∀ k, t.lookup k = t'.lookup k) (s : Nat) :
    newer stamp t s = newer stamp t' s :=
  (entries_perm h).countP_eq _

/-- A filter that keeps everything newer than `s` does not change the count. -/
theorem newer_retain {p : ν → Bool} {t : Table κ ν} {s : Nat}
    (h : ∀ k v, t.lookup k = some v → s < stamp v → p v = true) :
    newer stamp (retain p t) s = newer stamp t s := by
  simp only [newer, retain, List.countP_filter]
  apply List.countP_congr
  rintro ⟨k, v⟩ hmem
  have := h k v (mem_entries_iff.mp hmem)
  simpa using this

/-- An entry has fewer newer ones than the table has entries. -/
theorem newer_lt_length {t : Table κ ν} {k : κ} {v : ν} (h : t.lookup k = some v) :
    newer stamp t (stamp v) < t.entries.length := by
  apply List.countP_lt_length_iff.mpr
  exact ⟨⟨k, v⟩, mem_entries_iff.mpr h, by simp⟩

/-- Taking one entry out, the others count as before unless it was newer. -/
theorem newer_erase {t : Table κ ν} {k : κ} {v : ν} (h : t.lookup k = some v) (s : Nat) :
    newer stamp t s = newer stamp (t.erase k) s + if s < stamp v then 1 else 0 := by
  obtain ⟨l₁, l₂, hsplit, herase⟩ := erase_split h
  simp only [newer, hsplit, herase, List.countP_append, List.countP_cons, decide_eq_true_eq]
  omega

theorem distinct_erase {t : Table κ ν} (h : Distinct stamp t) (k₀ : κ) :
    Distinct stamp (t.erase k₀) := by
  intro k k' v v' hk hk' heq
  have back : ∀ {j : κ} {w : ν}, (t.erase k₀).lookup j = some w → t.lookup j = some w := by
    intro j w hj
    by_cases hj₀ : j = k₀
    · subst hj₀
      simp at hj
    · rwa [AList.lookup_erase_ne hj₀] at hj
  exact h k k' v v' (back hk) (back hk') heq

/-- With distinct stamps, everything else in the table is newer than the
    oldest entry. -/
theorem newer_oldest {t : Table κ ν} (hd : Distinct stamp t) {k : κ} {v : ν}
    (hv : t.lookup k = some v)
    (hmin : ∀ k' v', t.lookup k' = some v' → stamp v ≤ stamp v') :
    newer stamp t (stamp v) + 1 = t.entries.length := by
  have hall : newer stamp (t.erase k) (stamp v) = (t.erase k).entries.length := by
    apply List.countP_eq_length.mpr
    rintro ⟨k', v'⟩ hmem
    rw [mem_entries_iff] at hmem
    by_cases hk : k' = k
    · subst hk
      simp at hmem
    · rw [AList.lookup_erase_ne hk] at hmem
      have hle := hmin k' v' hmem
      have hne : stamp v ≠ stamp v' := fun heq => hk (hd k k' v v' hv hmem heq).symm
      simp only [decide_eq_true_eq]
      omega
  have herase := newer_erase stamp hv (stamp v)
  have hlen := length_erase hv
  rw [if_neg (Nat.lt_irrefl _)] at herase
  omega

/-- Eviction below a capacity keeps exactly the entries with fewer than
    `capacity - 1` newer ones. -/
theorem lookup_evict (order : IterOrder κ ν) {capacity : Nat} (hcap : 1 ≤ capacity)
    (t : Table κ ν) (hd : Distinct stamp t) (k : κ) :
    (evict stamp order capacity t).lookup k
      = (t.lookup k).filter fun v => newer stamp t (stamp v) + 1 < capacity := by
  induction t using evict.induct stamp order capacity with
  | case1 t hlt =>
    -- nothing is evicted: the table is shorter than its capacity
    rw [evict, if_pos hlt]
    cases hv : t.lookup k with
    | none => rfl
    | some v =>
      have := newer_lt_length stamp hv
      rw [Option.filter_some, if_pos (by simp only [decide_eq_true_eq]; omega)]
  | case2 t hlt hnone =>
    have hnil := oldest_eq_none stamp hnone
    rw [hnil, List.length_nil] at hlt
    omega
  | case3 t hlt k₀ hk₀ _ ih =>
    obtain ⟨v₀, hv₀, hmin⟩ := oldest_mem stamp hk₀
    rw [evict_erase stamp hlt hk₀, ih (distinct_erase stamp hd k₀)]
    by_cases hk : k = k₀
    · -- the entry just evicted has every other one before it
      subst hk
      have hrank := newer_oldest stamp hd hv₀ hmin
      rw [AList.lookup_erase, hv₀, Option.filter_some,
        if_neg (by simp only [decide_eq_true_eq]; omega)]
      rfl
    · rw [AList.lookup_erase_ne hk]
      cases hv : t.lookup k with
      | none => rfl
      | some v =>
        have hsame := newer_erase stamp hv₀ (stamp v)
        rw [if_neg (by have := hmin k v hv; omega), Nat.add_zero] at hsame
        simp only [Option.filter_some, hsame]

end Lru

end AgentTraceGateway
