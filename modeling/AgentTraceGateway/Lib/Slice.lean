import Mathlib.Data.List.Basic

/-! # Byte Offsets into a Text

  A `str` is sliced at byte offsets. A slice panics beyond the end and inside
  a character, so it succeeds exactly at the offsets between two characters.
  An offset that a search over the characters returned is one of these.

  The library names nothing of any program. It offers:

  - `slice_at`: both halves of a slice, `none` for a panic;
  - `slice_at_eq_some_iff`: a slice succeeds between two characters;
  - `find_offset`: where a search stops, and that it can be sliced at. -/

namespace AgentTraceGateway

namespace Text

/-- The bytes of a run of characters. -/
def byte_len : List Char → Nat
  | [] => 0
  | c :: rest => c.utf8Size + byte_len rest

/-- `&s[..n]` and `&s[n..]`; `none` when the slice panics. -/
def slice_at : Nat → List Char → Option (List Char × List Char)
  | 0, s => some ([], s)
  | _ + 1, [] => none
  | n + 1, c :: rest =>
    if c.utf8Size ≤ n + 1 then
      (slice_at (n + 1 - c.utf8Size) rest).map fun halves => (c :: halves.1, halves.2)
    else none

/-- `str::find` of the first character that passes, or the length. -/
def find_offset (p : Char → Bool) : List Char → Nat
  | [] => 0
  | c :: rest => if p c then 0 else c.utf8Size + find_offset p rest

theorem slice_at_append (front rest : List Char) :
    slice_at (byte_len front) (front ++ rest) = some (front, rest) := by
  induction front with
  | nil =>
    cases rest <;> rfl
  | cons c front ih =>
    have hpos := c.utf8Size_pos
    obtain ⟨n, hn⟩ : ∃ n, c.utf8Size + byte_len front = n + 1 :=
      ⟨c.utf8Size + byte_len front - 1, by omega⟩
    have hrest : n + 1 - c.utf8Size = byte_len front := by omega
    rw [byte_len, hn, List.cons_append, slice_at, if_pos (by omega), hrest, ih]
    rfl

/-- A slice succeeds between two characters, and nowhere else. -/
theorem slice_at_eq_some_iff {s front rest : List Char} : ∀ {n : Nat},
    slice_at n s = some (front, rest) ↔ s = front ++ rest ∧ byte_len front = n := by
  have hsplit : ∀ (s : List Char) (n : Nat) (front rest : List Char),
      slice_at n s = some (front, rest) → s = front ++ rest ∧ byte_len front = n := by
    intro s
    induction s with
    | nil =>
      intro n front rest h
      cases n with
      | zero =>
        cases h
        exact ⟨rfl, rfl⟩
      | succ n => cases h
    | cons c s ih =>
      intro n front rest h
      cases n with
      | zero =>
        cases h
        exact ⟨rfl, rfl⟩
      | succ n =>
        rw [slice_at] at h
        split at h
        · obtain ⟨⟨front', rest'⟩, hrest, heq⟩ := Option.map_eq_some_iff.mp h
          cases heq
          obtain ⟨rfl, hlen⟩ := ih _ _ _ hrest
          refine ⟨rfl, ?_⟩
          rw [byte_len, hlen]
          omega
        · cases h
  intro n
  constructor
  · exact hsplit s n front rest
  · rintro ⟨rfl, rfl⟩
    exact slice_at_append front rest

theorem find_offset_eq (p : Char → Bool) (s : List Char) :
    find_offset p s = byte_len (s.takeWhile fun c => !p c) := by
  induction s with
  | nil => rfl
  | cons c s ih =>
    rw [find_offset, List.takeWhile_cons]
    cases p c with
    | true => rfl
    | false =>
      rw [ih]
      rfl

/-- A text can be sliced where a search stops. -/
theorem slice_at_find (p : Char → Bool) (s : List Char) :
    slice_at (find_offset p s) s
      = some (s.takeWhile fun c => !p c, s.dropWhile fun c => !p c) := by
  apply slice_at_eq_some_iff.mpr
  exact ⟨List.takeWhile_append_dropWhile.symm, (find_offset_eq p s).symm⟩

/-- Characters of one byte each are counted by their bytes. -/
theorem byte_len_of_ascii {s : List Char} (h : ∀ c ∈ s, c.utf8Size = 1) :
    byte_len s = s.length := by
  induction s with
  | nil => rfl
  | cons c s ih =>
    rw [byte_len, h c List.mem_cons_self, ih fun d hd => h d (List.mem_cons_of_mem c hd),
      List.length_cons]
    omega

end Text

end AgentTraceGateway
