import Mathlib.Data.Finset.Card
import Mathlib.Data.List.TakeWhile
import AgentTraceGateway.Lib.Lru

/-! # A Table Read Off Its Log of Uses

  A table of bounded capacity that evicts the least recently used entry, and
  whose entries die when they have not been used for a time, holds nothing
  that its log of uses does not tell: an entry is there exactly when it is
  alive and fewer other keys than the capacity have been used since.

  The log lists the uses, newest first, each with the value it left. -/

namespace AgentTraceGateway

namespace Recency

universe u v

variable {κ : Type u} [DecidableEq κ]

/-! ### Depth -/

/-- The uses since the last use of a key. -/
def since (uses : List κ) (k : κ) : List κ := uses.takeWhile fun k' => k' ≠ k

/-- How many other keys have been used since the last use of a key. -/
def depth (uses : List κ) (k : κ) : Nat := (since uses k).toFinset.card

theorem since_cons_self (uses : List κ) (k : κ) : since (k :: uses) k = [] := by
  simp [since]

theorem since_cons_ne {k k' : κ} (h : k' ≠ k) (uses : List κ) :
    since (k' :: uses) k = k' :: since uses k := by
  simp [since, h]

theorem not_mem_since (uses : List κ) (k : κ) : k ∉ since uses k := fun hmem => by
  simpa using List.mem_takeWhile_imp hmem

/-- What was used since a key was used is used since every earlier one. -/
theorem since_subset {uses : List κ} {k k' : κ} (h : k' ∈ since uses k) :
    since uses k' ⊆ since uses k := by
  induction uses with
  | nil => exact absurd h List.not_mem_nil
  | cons a uses ih =>
    by_cases ha : a = k
    · rw [ha, since_cons_self] at h
      exact absurd h List.not_mem_nil
    · rw [since_cons_ne ha] at h ⊢
      by_cases ha' : a = k'
      · rw [ha', since_cons_self]
        exact List.nil_subset _
      · rw [since_cons_ne ha']
        have hmem : k' ∈ since uses k := (List.mem_cons.mp h).resolve_left (Ne.symm ha')
        exact List.cons_subset_cons a (ih hmem)

/-- A key that was used later is not as deep. -/
theorem depth_lt {uses : List κ} {k k' : κ} (h : k' ∈ since uses k) :
    depth uses k' < depth uses k := by
  refine Finset.card_lt_card (Finset.ssubset_iff_subset_ne.mpr ⟨?_, fun heq => ?_⟩)
  · exact fun a ha => List.mem_toFinset.mpr (since_subset h (List.mem_toFinset.mp ha))
  · exact not_mem_since uses k' (List.mem_toFinset.mp (heq ▸ List.mem_toFinset.mpr h))

/-- Of two keys that were used one was used later. -/
theorem mem_since_or {uses : List κ} {k k' : κ} (hk : k ∈ uses) (hk' : k' ∈ uses) (hne : k ≠ k') :
    k' ∈ since uses k ∨ k ∈ since uses k' := by
  induction uses with
  | nil => exact absurd hk List.not_mem_nil
  | cons a uses ih =>
    by_cases ha : a = k
    · rw [ha, since_cons_ne hne]
      exact Or.inr List.mem_cons_self
    · by_cases ha' : a = k'
      · rw [ha', since_cons_ne (Ne.symm hne)]
        exact Or.inl List.mem_cons_self
      · rw [since_cons_ne ha, since_cons_ne ha']
        have hmem : k ∈ uses := (List.mem_cons.mp hk).resolve_left (Ne.symm ha)
        have hmem' : k' ∈ uses := (List.mem_cons.mp hk').resolve_left (Ne.symm ha')
        exact (ih hmem hmem').imp (List.mem_cons_of_mem a) (List.mem_cons_of_mem a)

theorem depth_cons_self (uses : List κ) (k : κ) : depth (k :: uses) k = 0 := by
  rw [depth, since_cons_self]
  rfl

/-- A use of another key makes a key deeper, unless that key was used since. -/
theorem depth_cons_ne {k k' : κ} (h : k' ≠ k) (uses : List κ) :
    depth (k' :: uses) k = depth uses k + if k' ∈ since uses k then 0 else 1 := by
  rw [depth, since_cons_ne h, List.toFinset_cons, depth]
  split_ifs with hmem
  · rw [Finset.insert_eq_of_mem (List.mem_toFinset.mpr hmem), Nat.add_zero]
  · rw [Finset.card_insert_of_notMem fun hin => hmem (List.mem_toFinset.mp hin)]

/-! ### Logs -/

variable {ν : Type v} (stamp : ν → Nat)

/-- Later uses have later stamps. -/
def Ordered (log : List (κ × ν)) : Prop := log.Pairwise fun a b => stamp b.2 < stamp a.2

def keys (log : List (κ × ν)) : List κ := log.map (·.1)

theorem lookup_mem {log : List (κ × ν)} {k : κ} {v : ν} (h : log.lookup k = some v) :
    (k, v) ∈ log := by
  obtain ⟨front, back, rfl, -⟩ := List.lookup_eq_some_iff.mp h
  exact List.mem_append_right _ List.mem_cons_self

theorem lookup_cons_ne {k k' : κ} (h : k ≠ k') (v : ν) (log : List (κ × ν)) :
    ((k', v) :: log).lookup k = log.lookup k := by
  rw [List.lookup_cons, beq_eq_false_iff_ne.mpr h]

/-- What was used since has a later stamp. -/
theorem mem_since {log : List (κ × ν)} (hlog : Ordered stamp log) {k : κ} {v : ν}
    (hk : log.lookup k = some v) (k' : κ) :
    k' ∈ since (keys log) k ↔ ∃ v', log.lookup k' = some v' ∧ stamp v < stamp v' := by
  induction log with
  | nil => cases hk
  | cons e log ih =>
    obtain ⟨a, w⟩ := e
    obtain ⟨hfirst, hrest⟩ := List.pairwise_cons.mp hlog
    show k' ∈ since (a :: keys log) k ↔ _
    by_cases ha : a = k
    · -- nothing was used since, and no stamp is later
      rw [ha, since_cons_self]
      rw [ha, List.lookup_cons_self] at hk
      obtain rfl := Option.some.inj hk
      refine ⟨fun hmem => absurd hmem List.not_mem_nil, ?_⟩
      rintro ⟨v', hv', hlt⟩
      rcases List.mem_cons.mp (lookup_mem hv') with heq | hmem
      · obtain ⟨-, rfl⟩ := Prod.mk.inj heq
        exact absurd hlt (Nat.lt_irrefl _)
      · exact absurd (hfirst _ hmem) (Nat.not_lt_of_gt hlt)
    · rw [lookup_cons_ne (Ne.symm ha)] at hk
      rw [since_cons_ne ha, List.mem_cons, ih hrest hk]
      by_cases ha' : k' = a
      · rw [ha', List.lookup_cons_self]
        exact ⟨fun _ => ⟨w, rfl, hfirst _ (lookup_mem hk)⟩, fun _ => Or.inl rfl⟩
      · rw [lookup_cons_ne ha', or_iff_right ha']

/-- What the last use of a key left. -/
def last (log : List (κ × ν)) (k : κ) : Option ν := log.lookup k

theorem last_cons_self (log : List (κ × ν)) (k : κ) (v : ν) : last ((k, v) :: log) k = some v :=
  List.lookup_cons_self

theorem last_cons_ne {k k' : κ} (h : k ≠ k') (v : ν) (log : List (κ × ν)) :
    last ((k', v) :: log) k = last log k := lookup_cons_ne h v log

/-- The value of a key, if it is alive and not too deep. -/
def recollect (capacity : Nat) (live : ν → Bool) (log : List (κ × ν)) (k : κ) : Option ν :=
  (last log k).filter fun v => live v && decide (depth (keys log) k < capacity)

theorem recollect_some {capacity : Nat} {live : ν → Bool} {log : List (κ × ν)} {k : κ} {v : ν}
    (h : last log k = some v) (hlive : live v = true) (hdepth : depth (keys log) k < capacity) :
    recollect capacity live log k = some v := by
  rw [recollect, h, Option.filter_some_pos]
  rw [hlive, decide_eq_true hdepth]
  rfl

theorem mem_keys {log : List (κ × ν)} {k : κ} {v : ν} (h : log.lookup k = some v) : k ∈ keys log :=
  List.mem_map_of_mem (lookup_mem h)

/-! ### Tables and their logs -/

/-- The table holds what the log tells of the entries that are alive. -/
structure Holds (capacity : Nat) (live : ν → Bool) (log : List (κ × ν)) (t : Lru.Table κ ν) :
    Prop where
  ordered : Ordered stamp log
  known : ∀ k v, t.lookup k = some v → log.lookup k = some v
  kept : ∀ k v, log.lookup k = some v → live v = true → depth (keys log) k < capacity →
    t.lookup k = some v
  within : ∀ k v, t.lookup k = some v → live v = true → depth (keys log) k < capacity

section table

variable {stamp : ν → Nat} {capacity : Nat} {live : ν → Bool} {log : List (κ × ν)}
  {t : Lru.Table κ ν}

theorem holds_nil : Holds stamp capacity live ([] : List (κ × ν)) ∅ where
  ordered := List.Pairwise.nil
  known := fun _ _ h => by cases h
  kept := fun _ _ h => by cases h
  within := fun _ _ h => by cases h

/-- The entry of a key is read off the log. -/
theorem Holds.lookup_live (h : Holds stamp capacity live log t) (k : κ) :
    (t.lookup k).filter live = recollect capacity live log k := by
  refine Option.ext fun v => ?_
  rw [recollect, last, Option.filter_eq_some_iff, Option.filter_eq_some_iff, Bool.and_eq_true, decide_eq_true_eq]
  constructor
  · exact fun ⟨hv, hlive⟩ => ⟨h.known k v hv, hlive, h.within k v hv hlive⟩
  · exact fun ⟨hv, hlive, hdepth⟩ => ⟨h.kept k v hv hlive hdepth, hlive⟩

/-- Entries die, and the table may drop the dead ones. -/
theorem Holds.expire (h : Holds stamp capacity live log t) {live' : ν → Bool} {t' : Lru.Table κ ν}
    (hdies : ∀ v, live' v = true → live v = true)
    (hsub : ∀ k v, t'.lookup k = some v → t.lookup k = some v)
    (hkept : ∀ k v, t.lookup k = some v → live' v = true → t'.lookup k = some v) :
    Holds stamp capacity live' log t' where
  ordered := h.ordered
  known := fun k v hv => h.known k v (hsub k v hv)
  kept := fun k v hv hlive hdepth => hkept k v (h.kept k v hv (hdies v hlive) hdepth) hlive
  within := fun k v hv hlive => h.within k v (hsub k v hv) (hdies v hlive)

/-- Distinct entries have distinct stamps. -/
theorem Holds.distinct (h : Holds stamp capacity live log t) : Lru.Distinct stamp t := by
  intro k k' v v' hv hv' heq
  by_contra hne
  have hlog := h.known k v hv
  have hlog' := h.known k' v' hv'
  rcases mem_since_or (mem_keys hlog) (mem_keys hlog') hne with hmem | hmem
  · obtain ⟨w, hw, hlt⟩ := (mem_since stamp h.ordered hlog k').mp hmem
    obtain rfl : w = v' := Option.some.inj (hw.symm.trans hlog')
    omega
  · obtain ⟨w, hw, hlt⟩ := (mem_since stamp h.ordered hlog' k).mp hmem
    obtain rfl : w = v := Option.some.inj (hw.symm.trans hlog)
    omega

/-- A key that was used since a live one is there too. -/
theorem Holds.since_kept (h : Holds stamp capacity live log t)
    (hmono : ∀ v v', stamp v < stamp v' → live v = true → live v' = true) {k k' : κ} {v : ν}
    (hv : log.lookup k = some v) (hlive : live v = true) (hdepth : depth (keys log) k < capacity)
    (hk' : k' ∈ since (keys log) k) : ∃ v', t.lookup k' = some v' ∧ stamp v < stamp v' := by
  obtain ⟨v', hv', hlt⟩ := (mem_since stamp h.ordered hv k').mp hk'
  exact ⟨v', h.kept k' v' hv' (hmono v v' hlt hlive) ((depth_lt hk').trans hdepth), hlt⟩

/-- As many entries are newer than a live one as its depth says. -/
theorem Holds.newer_eq (h : Holds stamp capacity live log t)
    (hmono : ∀ v v', stamp v < stamp v' → live v = true → live v' = true) {k : κ} {v : ν}
    (hv : t.lookup k = some v) (hlive : live v = true) :
    Lru.newer stamp t (stamp v) = depth (keys log) k := by
  have hlog := h.known k v hv
  have hdepth := h.within k v hv hlive
  -- the keys of the newer entries are the keys used since
  have hnodup : ((t.entries.filter fun e => stamp v < stamp e.2).map (·.1)).Nodup :=
    List.Nodup.sublist (List.filter_sublist.map Sigma.fst) t.nodupKeys
  have hkeys : ((t.entries.filter fun e => stamp v < stamp e.2).map (·.1)).toFinset
      = (since (keys log) k).toFinset := by
    refine Finset.ext fun k' => ?_
    rw [List.mem_toFinset, List.mem_toFinset, List.mem_map]
    constructor
    · rintro ⟨⟨a, w⟩, hmem, rfl⟩
      obtain ⟨hentry, hlt⟩ := List.mem_filter.mp hmem
      exact (mem_since stamp h.ordered hlog a).mpr
        ⟨w, h.known a w (Lru.mem_entries_iff.mp hentry), of_decide_eq_true hlt⟩
    · intro hmem
      obtain ⟨w, hw, hlt⟩ := h.since_kept hmono hlog hlive hdepth hmem
      exact ⟨⟨k', w⟩, List.mem_filter.mpr ⟨Lru.mem_entries_iff.mpr hw, decide_eq_true hlt⟩, rfl⟩
  rw [depth, ← hkeys, List.toFinset_card_of_nodup hnodup, List.length_map, Lru.newer,
    List.countP_eq_length_filter]

section use

variable {k₀ : κ} {w : ν} (hnew : ∀ e ∈ log, stamp e.2 < stamp w)

include hnew

/-- A key in the table is used again. -/
theorem Holds.use (h : Holds stamp capacity live log t) {v₀ : ν} (hfound : t.lookup k₀ = some v₀)
    (hlive₀ : live v₀ = true) :
    Holds stamp capacity live ((k₀, w) :: log) (t.insert k₀ w) := by
  have hlog₀ := h.known k₀ v₀ hfound
  have hdepth₀ := h.within k₀ v₀ hfound hlive₀
  refine ⟨List.pairwise_cons.mpr ⟨hnew, h.ordered⟩, fun k v hv => ?_, fun k v hv hlive hdepth => ?_,
    fun k v hv hlive => ?_⟩
  · by_cases hk : k = k₀
    · rw [hk, AList.lookup_insert] at hv
      rw [hk, List.lookup_cons_self, hv]
    · rw [AList.lookup_insert_ne hk] at hv
      rw [lookup_cons_ne hk, h.known k v hv]
  · by_cases hk : k = k₀
    · rw [hk, List.lookup_cons_self] at hv
      rw [hk, AList.lookup_insert, hv]
    · rw [lookup_cons_ne hk] at hv
      change depth (k₀ :: keys log) k < capacity at hdepth
      rw [depth_cons_ne (Ne.symm hk)] at hdepth
      rw [AList.lookup_insert_ne hk, h.kept k v hv hlive (by omega)]
  · show depth (k₀ :: keys log) k < capacity
    by_cases hk : k = k₀
    · rw [hk, depth_cons_self]
      omega
    · rw [AList.lookup_insert_ne hk] at hv
      rw [depth_cons_ne (Ne.symm hk)]
      have hdepth := h.within k v hv hlive
      split_ifs with hsince
      · omega
      · -- it is not as deep as the key that is used
        have hmem := (mem_since_or (mem_keys hlog₀) (mem_keys (h.known k v hv)) (Ne.symm hk)).resolve_right
          hsince
        have hlt := depth_lt hmem
        omega

/-- A key that is not in the table is used: the table makes room for it. -/
theorem Holds.use_new (h : Holds stamp capacity live log t)
    (hmono : ∀ v v', stamp v < stamp v' → live v = true → live v' = true)
    (hcapacity : 1 ≤ capacity) (order : Lru.IterOrder κ ν) (hnone : t.lookup k₀ = none) :
    Holds stamp capacity live ((k₀, w) :: log)
      ((Lru.evict stamp order capacity t).insert k₀ w) := by
  have hevict := Lru.lookup_evict stamp order hcapacity t h.distinct
  refine ⟨List.pairwise_cons.mpr ⟨hnew, h.ordered⟩, fun k v hv => ?_, fun k v hv hlive hdepth => ?_,
    fun k v hv hlive => ?_⟩
  · by_cases hk : k = k₀
    · rw [hk, AList.lookup_insert] at hv
      rw [hk, List.lookup_cons_self, hv]
    · rw [AList.lookup_insert_ne hk] at hv
      rw [lookup_cons_ne hk, h.known k v (Lru.lookup_of_lookup_evict stamp hv)]
  · by_cases hk : k = k₀
    · rw [hk, List.lookup_cons_self] at hv
      rw [hk, AList.lookup_insert, hv]
    · rw [lookup_cons_ne hk] at hv
      change depth (k₀ :: keys log) k < capacity at hdepth
      rw [depth_cons_ne (Ne.symm hk)] at hdepth
      have hfound := h.kept k v hv hlive (by omega)
      -- the new key was not used since, or it would be there
      have hsince : k₀ ∉ since (keys log) k := fun hmem => by
        obtain ⟨v', hv', -⟩ := h.since_kept hmono hv hlive (by omega) hmem
        rw [hnone] at hv'
        cases hv'
      rw [if_neg hsince] at hdepth
      rw [AList.lookup_insert_ne hk, hevict, hfound, Option.filter_some_pos]
      rw [h.newer_eq hmono hfound hlive]
      exact decide_eq_true hdepth
  · show depth (k₀ :: keys log) k < capacity
    by_cases hk : k = k₀
    · rw [hk, depth_cons_self]
      omega
    · rw [AList.lookup_insert_ne hk, hevict] at hv
      obtain ⟨hfound, hroom⟩ := Option.filter_eq_some_iff.mp hv
      rw [h.newer_eq hmono hfound hlive] at hroom
      have hroom := of_decide_eq_true hroom
      rw [depth_cons_ne (Ne.symm hk)]
      split_ifs <;> omega

end use

end table

end Recency

end AgentTraceGateway
