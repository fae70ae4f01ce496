import Mathlib.Algebra.Order.Ring.Int
import Mathlib.Data.List.Count
import Mathlib.Tactic.Tauto

/-! # One Entry of a List

  A table of parties is a list, and a step replaces or removes one entry of
  it. What is counted over the table then moves by what that one entry was
  and is: the rest of the list is the same before and after.

  The library names nothing of any program. `split_entry` takes the list
  apart at the entry; the other lemmas say what it means for a count and for
  a sum. -/

namespace Entries

universe u v

variable {α : Type u} {β : Type v}

/-- A list at one of its entries: in front of it, the entry, behind it. -/
theorem split_entry {l : List α} {i : Nat} {a : α} (h : l[i]? = some a) :
    ∃ front back, l = front ++ a :: back ∧ l.eraseIdx i = front ++ back ∧
      ∀ a', l.set i a' = front ++ a' :: back := by
  obtain ⟨hi, rfl⟩ := List.getElem?_eq_some_iff.mp h
  refine ⟨l.take i, l.drop (i + 1), ?_, List.eraseIdx_eq_take_drop_succ l i, fun a' => ?_⟩
  · rw [List.getElem_cons_drop, List.take_append_drop]
  · rw [List.set_eq_take_append_cons_drop, if_pos hi]

/-- A member of a list is the one that is replaced, or stays. -/
theorem mem_or_mem_set {l : List α} {i : Nat} {a q : α} (a' : α) (ha : l[i]? = some a)
    (hq : q ∈ l) : q = a ∨ q ∈ l.set i a' := by
  obtain ⟨front, back, hl, -, hset⟩ := split_entry ha
  rw [hl, List.mem_append, List.mem_cons] at hq
  rw [hset, List.mem_append, List.mem_cons]
  tauto

theorem count_flatMap_set [DecidableEq β] (f : α → List β) (r : β) {a : α} (a' : α)
    {l : List α} {i : Nat} (h : l[i]? = some a) :
    ((l.set i a').flatMap f).count r + (f a).count r
      = (l.flatMap f).count r + (f a').count r := by
  obtain ⟨front, back, hl, -, hset⟩ := split_entry h
  rw [hset, hl]
  simp only [List.flatMap_append, List.flatMap_cons, List.count_append]
  omega

theorem countP_set_add (p : α → Bool) {a : α} (a' : α) {l : List α} {i : Nat}
    (h : l[i]? = some a) :
    (l.set i a').countP p + (if p a then 1 else 0) = l.countP p + (if p a' then 1 else 0) := by
  obtain ⟨front, back, hl, -, hset⟩ := split_entry h
  rw [hset, hl]
  simp only [List.countP_append, List.countP_cons]
  omega

theorem sum_map_set (f : α → Int) {a : α} (a' : α) {l : List α} {i : Nat} (h : l[i]? = some a) :
    ((l.set i a').map f).sum + f a = (l.map f).sum + f a' := by
  obtain ⟨front, back, hl, -, hset⟩ := split_entry h
  rw [hset, hl]
  simp only [List.map_append, List.map_cons, List.sum_append, List.sum_cons]
  omega

theorem sum_map_eraseIdx (f : α → Int) {a : α} {l : List α} {i : Nat} (h : l[i]? = some a) :
    ((l.eraseIdx i).map f).sum + f a = (l.map f).sum := by
  obtain ⟨front, back, hl, herase, -⟩ := split_entry h
  rw [herase, hl]
  simp only [List.map_append, List.map_cons, List.sum_append, List.sum_cons]
  omega

end Entries
