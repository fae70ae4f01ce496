import Mathlib.Data.List.Infix

/-! # The Longest Suffix That Fits

  A queue over budget drops its oldest entries one by one until the rest
  fits. It is left with the longest of its suffixes that fit. -/

namespace AgentTraceGateway

namespace Suffix

universe u

variable {α : Type u} (fits : List α → Bool)

/-- Drop from the front until the rest fits; nothing is left when no
    suffix does. -/
def drop_until : List α → List α
  | [] => []
  | a :: l => if fits (a :: l) then a :: l else drop_until l

theorem drop_until_suffix (l : List α) : drop_until fits l <:+ l := by
  induction l with
  | nil => exact List.suffix_refl []
  | cons a l ih =>
    unfold drop_until
    split
    · exact List.suffix_refl _
    · exact ih.trans (List.suffix_cons a l)

theorem drop_until_fits (l : List α) :
    fits (drop_until fits l) = true ∨ drop_until fits l = [] := by
  induction l with
  | nil => exact Or.inr rfl
  | cons a l ih =>
    unfold drop_until
    split
    · rename_i hfits
      exact Or.inl hfits
    · exact ih

/-- No suffix that fits is longer than what is left. -/
theorem length_le_drop_until {l s : List α} (hs : s <:+ l) (hfits : fits s = true) :
    s.length ≤ (drop_until fits l).length := by
  induction l with
  | nil => exact hs.length_le
  | cons a l ih =>
    unfold drop_until
    split
    · exact hs.length_le
    · rename_i hover
      rcases List.suffix_cons_iff.mp hs with rfl | hs
      · exact absurd hfits hover
      · exact ih hs

end Suffix

end AgentTraceGateway
