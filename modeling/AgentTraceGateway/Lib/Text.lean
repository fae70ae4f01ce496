import Mathlib.Algebra.Group.Nat.Defs
import Mathlib.Data.List.Basic
import Mathlib.Data.List.DropRight
import Mathlib.Data.List.Infix

/-! # Text Operations

  The string operations of Rust's `str` that the standard library of Lean
  spells differently or not at all, over `List Char`: Unicode trimming,
  prefixes and suffixes, substring search, ASCII case folding and decimal
  parsing. -/

namespace AgentTraceGateway

namespace Text

/-- The Unicode `White_Space` property (`char::is_whitespace`). -/
def is_whitespace (c : Char) : Bool :=
  (0x09 ≤ c.toNat && c.toNat ≤ 0x0D) || c.toNat == 0x20 || c.toNat == 0x85
    || c.toNat == 0xA0 || c.toNat == 0x1680 || (0x2000 ≤ c.toNat && c.toNat ≤ 0x200A)
    || c.toNat == 0x2028 || c.toNat == 0x2029 || c.toNat == 0x202F || c.toNat == 0x205F
    || c.toNat == 0x3000

/-- `str::trim`. -/
def trim_chars (s : List Char) : List Char :=
  ((s.dropWhile is_whitespace).reverse.dropWhile is_whitespace).reverse

def trim (s : String) : String := String.ofList (trim_chars s.toList)

/-- `str::is_empty` of the trimmed text: only white space. -/
def is_blank (s : String) : Bool := (trim_chars s.toList).isEmpty

/-- `str::starts_with`. -/
def starts_with (s pat : String) : Bool := pat.toList.isPrefixOf s.toList

/-- `str::contains`. -/
def contains (s pat : String) : Bool := decide (pat.toList <:+: s.toList)

/-- `str::strip_prefix`. -/
def strip_prefix_chars (s : List Char) (pat : List Char) : Option (List Char) :=
  s.dropPrefix? pat

/-- `str::strip_suffix`. -/
def strip_suffix_chars (s : List Char) (pat : List Char) : Option (List Char) :=
  (s.dropSuffix? pat)

/-- `str::split_once`: around the first occurrence. -/
def split_once (pat : List Char) : List Char → Option (List Char × List Char)
  | [] => if pat.isEmpty then some ([], []) else none
  | c :: s =>
    match strip_prefix_chars (c :: s) pat with
    | some rest => some ([], rest)
    | none => (split_once pat s).map fun halves => (c :: halves.1, halves.2)

/-- `str::rsplit_once` at a character: around the last occurrence. -/
def rsplit_once (pat : Char) : List Char → Option (List Char × List Char)
  | [] => none
  | c :: s =>
    match rsplit_once pat s with
    | some halves => some (c :: halves.1, halves.2)
    | none => if c = pat then some ([], s) else none

/-- `str::trim_end_matches` of a character. -/
def trim_end_matches (pat : Char) (s : List Char) : List Char := s.rdropWhile (· == pat)

/-- `char::to_ascii_lowercase`. -/
def ascii_lower (c : Char) : Char :=
  if 0x41 ≤ c.toNat && c.toNat ≤ 0x5A then Char.ofNat (c.toNat + 0x20) else c

/-- `str::eq_ignore_ascii_case`. -/
def eq_ignore_ascii_case (a b : List Char) : Bool :=
  a.map ascii_lower == b.map ascii_lower

/-- `char::is_ascii_digit`. -/
def is_ascii_digit (c : Char) : Bool := 0x30 ≤ c.toNat && c.toNat ≤ 0x39

/-- `char::is_ascii_hexdigit`. -/
def is_ascii_hexdigit (c : Char) : Bool :=
  (0x30 ≤ c.toNat && c.toNat ≤ 0x39) || (0x41 ≤ c.toNat && c.toNat ≤ 0x46)
    || (0x61 ≤ c.toNat && c.toNat ≤ 0x66)

/-- `str::get(..n)`: the first `n` bytes, when they end on a character
    boundary. -/
def get_to : Nat → List Char → Option (List Char)
  | 0, _ => some []
  | _ + 1, [] => none
  | n + 1, c :: rest =>
    if c.utf8Size ≤ n + 1 then (get_to (n + 1 - c.utf8Size) rest).map (c :: ·) else none

/-- The value of a decimal digit. -/
def digit (c : Char) : Option Nat :=
  if 0x30 ≤ c.toNat && c.toNat ≤ 0x39 then some (c.toNat - 0x30) else none

def decimal_from (acc : Nat) : List Char → Option Nat
  | [] => some acc
  | c :: rest => (digit c).bind fun d => decimal_from (acc * 10 + d) rest

/-- `str::parse` of an unsigned integer below `bound`: an optional `+`, then
    one digit or more. -/
def parse_uint (bound : Nat) (s : String) : Option Nat :=
  let digits := (strip_prefix_chars s.toList ['+']).getD s.toList
  if digits.isEmpty then none
  else (decimal_from 0 digits).filter (· < bound)

/-- `[T]::join`: the pieces with `sep` between them. -/
def join (sep : String) : List String → String
  | [] => ""
  | [s] => s
  | s :: t :: rest => s ++ sep ++ join sep (t :: rest)

/-- The bytes of a text in UTF-8 (`str::len`). -/
def len (s : String) : Nat := s.utf8ByteSize

/-! ### Trimming -/

/-- A trimmed text begins with no white space. -/
theorem head_trim_chars (s : List Char) : ∀ c ∈ (trim_chars s).head?, is_whitespace c = false := by
  intro c hc
  -- it is a prefix of what is left when the front is dropped
  have hprefix : trim_chars s <+: s.dropWhile is_whitespace := by
    have hsuffix := List.dropWhile_suffix (l := (s.dropWhile is_whitespace).reverse) is_whitespace
    rw [← List.reverse_prefix, List.reverse_reverse] at hsuffix
    exact hsuffix
  obtain ⟨rest, hrest⟩ := hprefix
  obtain ⟨tail, htail⟩ := List.head?_eq_some_iff.mp (Option.mem_def.mp hc)
  rw [htail, List.cons_append] at hrest
  have hhead := List.head?_dropWhile_not is_whitespace s
  rw [← hrest] at hhead
  exact hhead

/-- And ends with none. -/
theorem last_trim_chars (s : List Char) :
    ∀ c ∈ (trim_chars s).getLast?, is_whitespace c = false := by
  intro c hc
  have hhead := List.head?_dropWhile_not is_whitespace (s.dropWhile is_whitespace).reverse
  rw [trim_chars, List.getLast?_reverse, Option.mem_def] at hc
  rw [hc] at hhead
  exact hhead

/-- A text without white space at its ends is trimmed already. -/
theorem trim_chars_eq_self {s : List Char} (hhead : ∀ c ∈ s.head?, is_whitespace c = false)
    (hlast : ∀ c ∈ s.getLast?, is_whitespace c = false) : trim_chars s = s := by
  have hdrop : ∀ l : List Char, (∀ c ∈ l.head?, is_whitespace c = false) →
      l.dropWhile is_whitespace = l := by
    intro l hl
    cases l with
    | nil => rfl
    | cons c l =>
      apply List.dropWhile_cons_of_neg
      rw [hl c rfl]
      exact Bool.false_ne_true
  rw [trim_chars, hdrop s hhead, hdrop s.reverse, List.reverse_reverse]
  rw [List.head?_reverse]
  exact hlast

/-! ### Splitting -/

/-- What was stripped is put back in front. -/
theorem strip_prefix_chars_eq {s pat rest : List Char} (h : strip_prefix_chars s pat = some rest) :
    s = pat ++ rest := by
  obtain ⟨front, hfront, heq⟩ := List.dropPrefix?_eq_some_iff.mp h
  rw [hfront, eq_of_beq heq]

/-- The halves of a split make the text again. -/
theorem split_once_eq {pat : List Char} : ∀ {s a b : List Char},
    split_once pat s = some (a, b) → s = a ++ pat ++ b := by
  intro s
  induction s with
  | nil =>
    intro a b h
    unfold split_once at h
    split at h
    · rename_i hempty
      cases h
      rw [List.isEmpty_iff.mp hempty]
      rfl
    · cases h
  | cons c s ih =>
    intro a b h
    unfold split_once at h
    split at h
    · rename_i rest hstrip
      cases h
      exact strip_prefix_chars_eq hstrip
    · obtain ⟨⟨front, back⟩, hrest, heq⟩ := Option.map_eq_some_iff.mp h
      cases heq
      rw [ih hrest]
      rfl

/-- The first occurrence is the one after a text without its first
    character. -/
theorem split_once_first {c : Char} (pat : List Char) {front : List Char} (hfront : c ∉ front)
    (tail : List Char) :
    split_once (c :: pat) (front ++ (c :: pat ++ tail)) = some (front, tail) := by
  induction front with
  | nil =>
    have hstrip : strip_prefix_chars (c :: pat ++ tail) (c :: pat) = some tail := by
      apply List.dropPrefix?_eq_some_iff.mpr
      exact ⟨c :: pat, rfl, by simp⟩
    rw [List.nil_append, List.cons_append, split_once]
    rw [List.cons_append] at hstrip
    simp only [hstrip]
  | cons d front ih =>
    obtain ⟨hne, hrest⟩ := List.ne_and_not_mem_of_not_mem_cons hfront
    have hstrip : strip_prefix_chars (d :: (front ++ (c :: pat ++ tail))) (c :: pat) = none := by
      cases hs : strip_prefix_chars (d :: (front ++ (c :: pat ++ tail))) (c :: pat) with
      | none => rfl
      | some rest =>
        have heq := strip_prefix_chars_eq hs
        rw [List.cons_append] at heq
        exact absurd (List.cons.inj heq).1.symm hne
    rw [List.cons_append, split_once]
    simp only [hstrip, ih hrest, Option.map_some]

theorem rsplit_once_eq {pat : Char} : ∀ {s a b : List Char},
    rsplit_once pat s = some (a, b) → s = a ++ pat :: b := by
  intro s
  induction s with
  | nil =>
    intro a b h
    cases h
  | cons c s ih =>
    intro a b h
    unfold rsplit_once at h
    split at h
    · rename_i halves hrest
      cases h
      rw [ih hrest]
      rfl
    · split at h
      · rename_i hc
        cases h
        rw [hc]
        rfl
      · cases h

/-- The last occurrence is the one before a text without any. -/
theorem rsplit_once_last {pat : Char} {tail : List Char} (htail : pat ∉ tail) :
    ∀ front : List Char, rsplit_once pat (front ++ pat :: tail) = some (front, tail) := by
  have hnone : ∀ text : List Char, pat ∉ text → rsplit_once pat text = none := by
    intro text
    induction text with
    | nil => exact fun _ => rfl
    | cons c text ih =>
      intro h
      obtain ⟨hne, hrest⟩ := List.ne_and_not_mem_of_not_mem_cons h
      rw [rsplit_once, ih hrest]
      exact if_neg (Ne.symm hne)
  intro front
  induction front with
  | nil =>
    rw [List.nil_append, rsplit_once, hnone tail htail]
    exact if_pos rfl
  | cons c front ih => rw [List.cons_append, rsplit_once, ih]

/-- The pieces between the separators have none of them, and what they have
    is in the text. -/
theorem splitOn_pieces (sep : Char) : ∀ text : List Char, ∀ piece ∈ text.splitOn sep,
    sep ∉ piece ∧ piece ⊆ text := by
  intro text
  induction text with
  | nil =>
    intro piece hpiece
    obtain rfl := List.mem_singleton.mp hpiece
    exact ⟨List.not_mem_nil, List.Subset.refl _⟩
  | cons c text ih =>
    intro piece hpiece
    rw [List.splitOn_cons_eq_if_modifyHead] at hpiece
    split at hpiece
    · rcases List.mem_cons.mp hpiece with rfl | hpiece
      · exact ⟨List.not_mem_nil, List.nil_subset _⟩
      · obtain ⟨hsep, hsub⟩ := ih piece hpiece
        exact ⟨hsep, List.subset_cons_of_subset c hsub⟩
    · rename_i hc
      cases hlines : text.splitOn sep with
      | nil => exact absurd hlines (List.splitOn_ne_nil sep text)
      | cons first rest =>
        rw [hlines] at hpiece ih
        rcases List.mem_cons.mp hpiece with rfl | hpiece
        · -- the first piece grows by a character that is no separator
          obtain ⟨hsep, hsub⟩ := ih first List.mem_cons_self
          have hne : sep ≠ c := fun h => hc (beq_iff_eq.mpr h.symm)
          exact ⟨List.not_mem_cons_of_ne_of_not_mem hne hsep, List.cons_subset_cons c hsub⟩
        · obtain ⟨hsep, hsub⟩ := ih piece (List.mem_cons_of_mem first hpiece)
          exact ⟨hsep, List.subset_cons_of_subset c hsub⟩

/-! ### Tests for one character -/

theorem strip_char_eq_none {c : Char} {s : List Char} (h : s.head? ≠ some c) :
    strip_prefix_chars s [c] = none := by
  cases hstrip : strip_prefix_chars s [c] with
  | none => rfl
  | some rest =>
    rw [strip_prefix_chars_eq hstrip] at h
    exact absurd rfl h

theorem strip_char_cons (c : Char) (rest : List Char) :
    strip_prefix_chars (c :: rest) [c] = some rest := by
  simp [strip_prefix_chars, List.dropPrefix?]

theorem mem_dropWhile_of_not {p : Char → Bool} {c : Char} {s : List Char} (hmem : c ∈ s)
    (hc : p c = false) : c ∈ s.dropWhile p := by
  rw [← List.takeWhile_append_dropWhile (p := p) (l := s), List.mem_append] at hmem
  rcases hmem with hfront | hback
  · rw [List.mem_takeWhile_imp hfront] at hc
    cases hc
  · exact hback

/-- A text with a character that is no white space is not blank. -/
theorem is_blank_of_mem {c : Char} {s : String} (hmem : c ∈ s.toList)
    (hc : is_whitespace c = false) : is_blank s = false := by
  have hkept := mem_dropWhile_of_not (List.mem_reverse.mpr (mem_dropWhile_of_not hmem hc)) hc
  rw [is_blank, trim_chars, List.isEmpty_eq_false_iff]
  exact List.ne_nil_of_mem (List.mem_reverse.mpr hkept)

/-! ### Numbers as text -/

theorem decimal_from_digits : ∀ (p : List Char) (acc n : Nat),
    decimal_from acc p = some n → p.all is_ascii_digit = true := by
  intro p
  induction p with
  | nil => intro _ _ _; rfl
  | cons c p ih =>
    intro acc n h
    rw [decimal_from] at h
    obtain ⟨d, hd, hrest⟩ := Option.bind_eq_some_iff.mp h
    have hc : is_ascii_digit c = true := by
      unfold digit at hd
      split_ifs at hd with hdigit
      exact hdigit
    rw [List.all_cons, hc, ih _ n hrest]
    rfl

/-- A number without a sign is made of digits. -/
theorem parse_uint_digits {bound n : Nat} {p : List Char}
    (h : parse_uint bound (String.ofList p) = some n) (hsign : p.head? ≠ some '+') :
    (!p.isEmpty && p.all is_ascii_digit) = true := by
  unfold parse_uint at h
  rw [String.toList_ofList, strip_char_eq_none hsign, Option.getD_none] at h
  dsimp only at h
  split_ifs at h with hempty
  obtain ⟨hdigits, -⟩ := Option.filter_eq_some_iff.mp h
  rw [decimal_from_digits p 0 n hdigits, Bool.and_true, Bool.not_eq_true']
  exact Bool.eq_false_iff.mpr hempty

theorem parse_uint_lt {bound n : Nat} {s : String} (h : parse_uint bound s = some n) :
    n < bound := by
  unfold parse_uint at h
  dsimp only at h
  split_ifs at h
  exact of_decide_eq_true (Option.filter_eq_some_iff.mp h).2

/-- A number is written in digits. -/
theorem digits_of_nat {n : Nat} {c : Char} (h : c ∈ (toString n).toList) : c.isDigit = true := by
  rw [Nat.toString_eq_repr, Nat.toList_repr] at h
  exact Nat.isDigit_of_mem_toDigits (by decide) (by decide) h

/-- Digits are the number they stand for. -/
theorem decimal_from_of_digits {p : List Char} (h : ∀ c ∈ p, c.isDigit = true) (acc : Nat) :
    decimal_from acc p = some (Nat.ofDigitChars 10 p acc) := by
  induction p generalizing acc with
  | nil => rfl
  | cons c p ih =>
    have hc := h c List.mem_cons_self
    rw [Char.isDigit_iff_toNat] at hc
    have hdigit : digit c = some (c.toNat - '0'.toNat) := by
      rw [digit, if_pos (by simpa using hc)]
      rfl
    rw [decimal_from, hdigit, Option.bind_some, ih fun d hd => h d (List.mem_cons_of_mem c hd),
      Nat.ofDigitChars_cons, Nat.mul_comm]

/-- A number is parsed from its decimal, if it is below the bound. -/
theorem parse_uint_toString (n bound : Nat) :
    parse_uint bound (toString n) = if n < bound then some n else none := by
  have hdigits : ∀ c ∈ (toString n).toList, c.isDigit = true := fun c hc => digits_of_nat hc
  have hsign : (toString n).toList.head? ≠ some '+' := fun hhead =>
    absurd (hdigits '+' (List.mem_of_mem_head? hhead)) (by decide)
  have hsome : (toString n).toList.isEmpty = false := by
    rw [Nat.toString_eq_repr, Nat.toList_repr, List.isEmpty_eq_false_iff]
    exact Nat.toDigits_ne_nil
  rw [parse_uint, strip_char_eq_none hsign, Option.getD_none, if_neg (by rw [hsome]; decide),
    decimal_from_of_digits hdigits, Nat.toString_eq_repr, Nat.toList_repr,
    Nat.ofDigitChars_ten_toDigits, Option.filter_some]
  simp only [decide_eq_true_eq]

theorem parse_uint_number {n bound : Nat} (h : n < bound) :
    parse_uint bound (toString n) = some n := by
  rw [parse_uint_toString, if_pos h]

/-- A number is read back from its digits. -/
theorem toString_chars_inj {m n : Nat} (h : (toString m).toList = (toString n).toList) :
    m = n := by
  rw [Nat.toString_eq_repr, Nat.toList_repr, Nat.toString_eq_repr, Nat.toList_repr] at h
  rw [← Nat.ofDigitChars_ten_toDigits (n := m), h, Nat.ofDigitChars_ten_toDigits]

/-! ### Joining -/

/-- A separator between any two pieces. -/
theorem length_join (sep : String) : ∀ pieces : List String,
    (join sep pieces).length
      = (String.join pieces).length + (pieces.length - 1) * sep.length := by
  intro pieces
  induction pieces using join.induct with
  | case1 => simp [join]
  | case2 s => simp [join]
  | case3 s t rest ih =>
    have hfirst : (String.join (s :: t :: rest)).length
        = s.length + (String.join (t :: rest)).length := by
      rw [String.join_cons, String.length_append]
    rw [join, String.length_append, String.length_append, ih, hfirst]
    simp only [List.length_cons, Nat.add_sub_cancel, Nat.add_mul, Nat.one_mul]
    omega

/-- Joined pieces are the pieces one after the other exactly when nothing
    stands between two of them. -/
theorem join_eq_string_join_iff {sep : String} (hsep : sep ≠ "") (pieces : List String) :
    String.join pieces = join sep pieces ↔ pieces.length ≤ 1 := by
  constructor
  · intro h
    have hlen := congrArg String.length h
    have hpos : sep.length ≠ 0 := fun h0 => hsep (String.length_eq_zero_iff.mp h0)
    rw [length_join, Nat.left_eq_add, Nat.mul_eq_zero] at hlen
    have := hlen.resolve_right hpos
    omega
  · intro h
    match pieces, h with
    | [], _ => rfl
    | [s], _ => simp [join]

example : trim " \tpad\r\n" = "pad" := by decide

end Text

end AgentTraceGateway
