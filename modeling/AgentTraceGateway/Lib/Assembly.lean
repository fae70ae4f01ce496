import Mathlib.Data.List.Induction
import Mathlib.Data.List.Sort

/-! # Assembling Keyed Fragments

  Fragments arrive in any order, each under a key. The fragments of one key
  extend one entry, which is opened when the key is first seen. Whatever the
  interleaving, an entry ends up as its own fragments put together in order,
  and sorting by key forgets who came first. -/

namespace AgentTraceGateway

namespace Assembly

variable {κ α β : Type} [DecidableEq κ]

/-- The entry at a key is extended in place, or opened at the end. -/
def upsert (extend : α → α) (empty : α) (k : κ) : List (κ × α) → List (κ × α)
  | [] => [(k, extend empty)]
  | (i, a) :: rest =>
    if i = k then (i, extend a) :: rest else (i, a) :: upsert extend empty k rest

-- How a fragment extends an entry, the entry before any, and a fragment's key.
variable (extend : β → α → α) (empty : α) (key : β → κ)

def assemble (fragments : List β) : List (κ × α) :=
  fragments.foldl (fun entries x => upsert (extend x) empty (key x) entries) []

/-- The fragments of one key, put together in the order they came. -/
def gathered (fragments : List β) (k : κ) : α :=
  (fragments.filter fun x => key x = k).foldl (fun a x => extend x a) empty

/-! ### One fragment -/

theorem upsert_of_not_mem (f : α → α) {k : κ} : ∀ {entries : List (κ × α)},
    k ∉ entries.map Prod.fst → upsert f empty k entries = entries ++ [(k, f empty)] := by
  intro entries
  induction entries with
  | nil => exact fun _ => rfl
  | cons e entries ih =>
    intro h
    obtain ⟨hne, hrest⟩ := List.ne_and_not_mem_of_not_mem_cons h
    rw [upsert, if_neg (Ne.symm hne), ih hrest, List.cons_append]

/-- A key that is there keeps its place. -/
theorem upsert_keys_of_mem (f : α → α) {k : κ} : ∀ {entries : List (κ × α)},
    k ∈ entries.map Prod.fst →
    (upsert f empty k entries).map Prod.fst = entries.map Prod.fst := by
  intro entries
  induction entries with
  | nil => intro h; cases h
  | cons e entries ih =>
    intro h
    by_cases hk : e.1 = k
    · rw [upsert, if_pos hk]
      rfl
    · have hrest : k ∈ entries.map Prod.fst := (List.mem_cons.mp h).resolve_left (Ne.symm hk)
      rw [upsert, if_neg hk, List.map_cons, List.map_cons, ih hrest]

/-- An entry after an update was there before under another key, or is the
    updated one. -/
theorem mem_upsert (f : α → α) {k : κ} : ∀ {entries : List (κ × α)} {p : κ × α},
    (entries.map Prod.fst).Nodup → k ∈ entries.map Prod.fst →
    p ∈ upsert f empty k entries →
    (p.1 ≠ k ∧ p ∈ entries) ∨ ∃ a, p = (k, f a) ∧ (k, a) ∈ entries := by
  intro entries
  induction entries with
  | nil => intro p _ h; cases h
  | cons e entries ih =>
    intro p hnodup hk hp
    obtain ⟨hfresh, hnodup⟩ := List.nodup_cons.mp hnodup
    by_cases he : e.1 = k
    · rw [upsert, if_pos he] at hp
      rcases List.mem_cons.mp hp with rfl | hp
      · exact Or.inr ⟨e.2, by rw [he], by rw [← he]; exact List.mem_cons_self⟩
      · refine Or.inl ⟨?_, List.mem_cons_of_mem e hp⟩
        intro hpk
        exact hfresh (he ▸ hpk ▸ List.mem_map_of_mem hp)
    · have hrest : k ∈ entries.map Prod.fst := (List.mem_cons.mp hk).resolve_left (Ne.symm he)
      rw [upsert, if_neg he] at hp
      rcases List.mem_cons.mp hp with rfl | hp
      · exact Or.inl ⟨he, List.mem_cons_self⟩
      · rcases ih hnodup hrest hp with ⟨hne, hmem⟩ | ⟨a, hpa, hmem⟩
        · exact Or.inl ⟨hne, List.mem_cons_of_mem e hmem⟩
        · exact Or.inr ⟨a, hpa, List.mem_cons_of_mem e hmem⟩

/-! ### All fragments -/

/-- What holds of the entries after some fragments: one entry for each key
    seen, with that key's fragments put together. -/
structure Assembled (fragments : List β) (entries : List (κ × α)) : Prop where
  nodup : (entries.map Prod.fst).Nodup
  keys : ∀ k, k ∈ entries.map Prod.fst ↔ k ∈ fragments.map key
  entry : ∀ p ∈ entries, p.2 = gathered extend empty key fragments p.1

variable {extend empty key}

theorem gathered_concat (fragments : List β) (x : β) (k : κ) :
    gathered extend empty key (fragments ++ [x]) k
      = if key x = k then extend x (gathered extend empty key fragments k)
        else gathered extend empty key fragments k := by
  by_cases hk : key x = k
  · simp [gathered, List.filter_append, hk]
  · simp [gathered, List.filter_append, hk]

theorem gathered_of_not_mem {fragments : List β} {k : κ} (h : k ∉ fragments.map key) :
    gathered extend empty key fragments k = empty := by
  have hnone : fragments.filter (fun x => key x = k) = [] := by
    apply List.filter_eq_nil_iff.mpr
    intro x hx hk
    exact h (of_decide_eq_true hk ▸ List.mem_map_of_mem hx)
  rw [gathered, hnone]
  rfl

/-- One more fragment. -/
theorem Assembled.step {fragments : List β} {entries : List (κ × α)}
    (h : Assembled extend empty key fragments entries) (x : β) :
    Assembled extend empty key (fragments ++ [x])
      (upsert (extend x) empty (key x) entries) := by
  by_cases hseen : key x ∈ entries.map Prod.fst
  · -- The key has an entry: it is extended, the others stay.
    have hkeys := upsert_keys_of_mem empty (extend x) hseen
    refine ⟨hkeys ▸ h.nodup, ?_, ?_⟩
    · intro k
      rw [hkeys, h.keys, List.map_append, List.mem_append, List.map_singleton, List.mem_singleton]
      constructor
      · exact Or.inl
      · rintro (hk | rfl)
        · exact hk
        · exact (h.keys _).mp hseen
    · intro p hp
      rw [gathered_concat]
      rcases mem_upsert empty (extend x) h.nodup hseen hp with ⟨hne, hmem⟩ | ⟨a, rfl, hmem⟩
      · rw [if_neg (Ne.symm hne)]
        exact h.entry p hmem
      · rw [if_pos rfl, ← h.entry (key x, a) hmem]
  · -- The key is new: its entry starts from the empty one.
    have hadd := upsert_of_not_mem empty (extend x) hseen
    have hfresh : key x ∉ fragments.map key := fun hmem => hseen ((h.keys _).mpr hmem)
    refine ⟨?_, ?_, ?_⟩
    · rw [hadd, List.map_append, List.nodup_append]
      refine ⟨h.nodup, List.nodup_singleton _, ?_⟩
      intro a ha b hb hab
      rw [List.map_singleton, List.mem_singleton] at hb
      rw [hab, hb] at ha
      exact hseen ha
    · intro k
      rw [hadd, List.map_append, List.mem_append, h.keys, List.map_append, List.mem_append,
        List.map_singleton, List.map_singleton]
    · intro p hp
      rw [gathered_concat]
      rw [hadd, List.mem_append, List.mem_singleton] at hp
      rcases hp with hp | rfl
      · have hne : key x ≠ p.1 := fun hk => hseen (hk ▸ List.mem_map_of_mem hp)
        rw [if_neg hne]
        exact h.entry p hp
      · rw [if_pos rfl, gathered_of_not_mem hfresh]

theorem assemble_assembled (fragments : List β) :
    Assembled extend empty key fragments (assemble extend empty key fragments) := by
  induction fragments using List.reverseRecOn with
  | nil =>
    refine ⟨List.nodup_nil, fun k => Iff.rfl, ?_⟩
    intro p hp
    cases hp
  | append_singleton fragments x ih =>
    have hstep := ih.step x
    rwa [assemble, List.foldl_append]

/-- In key order the entries are the keys with what was gathered for each. -/
theorem sorted_assemble [LE κ] [DecidableLE κ] [Std.IsLinearOrder κ] {fragments : List β}
    {ks : List κ} (hsorted : ks.Pairwise (· ≤ ·)) (hnodup : ks.Nodup)
    (hkeys : ∀ k, k ∈ ks ↔ k ∈ fragments.map key) :
    (assemble extend empty key fragments).insertionSort (fun a b => a.1 ≤ b.1)
      = ks.map fun k => (k, gathered extend empty key fragments k) := by
  have hall : Assembled extend empty key fragments (assemble extend empty key fragments) :=
    assemble_assembled fragments
  have htotal : Std.Total (fun a b : κ × α => a.1 ≤ b.1) :=
    ⟨fun a b => Std.Total.total a.1 b.1⟩
  have htrans : IsTrans (κ × α) (fun a b => a.1 ≤ b.1) :=
    ⟨fun a b c => Std.IsPreorder.le_trans a.1 b.1 c.1⟩
  have hperm := List.perm_insertionSort (fun a b : κ × α => a.1 ≤ b.1)
    (assemble extend empty key fragments)
  -- Both sides are sorted by key, so it is enough that they are permutations.
  refine @List.Perm.eq_of_pairwise _ (fun a b : κ × α => a.1 ≤ b.1) _ _ ?_ ?_ ?_ ?_
  · -- Two entries that are not apart have one key, so one value.
    intro a b ha hb hab hba
    obtain ⟨k, _, rfl⟩ := List.mem_map.mp hb
    have hk : a.1 = k := Std.IsPartialOrder.le_antisymm _ _ hab hba
    have ha' := hall.entry a (hperm.mem_iff.mp ha)
    exact Prod.ext hk (hk ▸ ha')
  · exact List.pairwise_insertionSort _ _
  · exact List.pairwise_map.mpr hsorted
  · refine hperm.trans ?_
    apply (List.perm_ext_iff_of_nodup (List.Nodup.of_map _ hall.nodup) ?_).mpr
    · intro p
      rw [List.mem_map]
      constructor
      · intro hp
        have hmem := (hkeys p.1).mpr ((hall.keys p.1).mp (List.mem_map_of_mem hp))
        exact ⟨p.1, hmem, Prod.ext rfl (hall.entry p hp).symm⟩
      · rintro ⟨k, hk, rfl⟩
        obtain ⟨p, hp, rfl⟩ := List.mem_map.mp ((hall.keys k).mpr ((hkeys k).mp hk))
        rw [← hall.entry p hp]
        exact hp
    · apply List.Nodup.map _ hnodup
      intro a b hab
      exact congrArg Prod.fst hab

end Assembly

end AgentTraceGateway
