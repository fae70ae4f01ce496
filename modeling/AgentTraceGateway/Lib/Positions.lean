import Mathlib.Data.List.Basic

/-! # Positions in a Filtered List

  A run is often looked at through a filter: some of its events have an image
  in another run, the others have none. An event with an image stands in the
  image run at the number of images before it, and this keeps the order. -/

namespace Positions

universe u v

variable {α : Type u} {β : Type v} (f : α → Option β)

/-- The position in the image of what stands at `n`. -/
def image (l : List α) (n : Nat) : Nat := ((l.take n).filterMap f).length

theorem image_mono (l : List α) {n m : Nat} (h : n ≤ m) : image f l n ≤ image f l m :=
  (((List.take_prefix_take_left h).sublist).filterMap f).length_le

variable {f}

theorem image_succ {l : List α} {n : Nat} {x : α} {y : β} (hx : l[n]? = some x)
    (hy : f x = some y) : image f l (n + 1) = image f l n + 1 := by
  unfold image
  rw [List.take_add_one, hx, List.filterMap_append, List.length_append]
  simp [hy]

/-- The image of an entry. -/
theorem getElem?_image {l : List α} {n : Nat} {x : α} {y : β} (hx : l[n]? = some x)
    (hy : f x = some y) : (l.filterMap f)[image f l n]? = some y := by
  have hsplit : l = l.take n ++ x :: l.drop (n + 1) := by
    obtain ⟨hn, rfl⟩ := List.getElem?_eq_some_iff.mp hx
    rw [List.getElem_cons_drop, List.take_append_drop]
  have himage : l.filterMap f
      = (l.take n).filterMap f ++ y :: (l.drop (n + 1)).filterMap f := by
    conv_lhs => rw [hsplit]
    rw [List.filterMap_append, List.filterMap_cons_some hy]
  rw [himage]
  unfold image
  rw [List.getElem?_append_right (Nat.le_refl _), Nat.sub_self, List.getElem?_cons_zero]

/-- An entry with an image stands before all later ones. -/
theorem image_lt {l : List α} {n m : Nat} {x : α} {y : β} (hx : l[n]? = some x)
    (hy : f x = some y) (h : n < m) : image f l n < image f l m := by
  have hsucc := image_succ hx hy
  have hmono := image_mono f l (show n + 1 ≤ m from h)
  omega

theorem lt_of_image_lt {l : List α} {n m : Nat} (h : image f l n < image f l m) : n < m := by
  by_contra hle
  have hmono := image_mono f l (Nat.le_of_not_lt hle)
  omega

/-- Every entry of the image comes from an entry. -/
theorem exists_of_image : ∀ {l : List α} {k : Nat} {y : β}, (l.filterMap f)[k]? = some y →
    ∃ n x, l[n]? = some x ∧ f x = some y ∧ image f l n = k := by
  intro l
  induction l with
  | nil => intro k y h; cases h
  | cons a l ih =>
    intro k y h
    cases ha : f a with
    | none =>
      rw [List.filterMap_cons_none ha] at h
      obtain ⟨n, x, hx, hy, hk⟩ := ih h
      refine ⟨n + 1, x, hx, hy, ?_⟩
      unfold image at hk ⊢
      rw [List.take_succ_cons, List.filterMap_cons_none ha, hk]
    | some b =>
      rw [List.filterMap_cons_some ha] at h
      cases k with
      | zero =>
        rw [List.getElem?_cons_zero] at h
        cases h
        exact ⟨0, a, rfl, ha, rfl⟩
      | succ k =>
        rw [List.getElem?_cons_succ] at h
        obtain ⟨n, x, hx, hy, hk⟩ := ih h
        refine ⟨n + 1, x, hx, hy, ?_⟩
        unfold image at hk ⊢
        rw [List.take_succ_cons, List.filterMap_cons_some ha, List.length_cons, hk]

end Positions
