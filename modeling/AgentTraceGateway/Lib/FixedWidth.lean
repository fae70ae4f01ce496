import Mathlib.Data.List.Forall2
import Mathlib.Data.String.Basic

/-! # Fixed-Width Fields

  A text of decimal fields, each of a fixed width and closed by a mark. Such
  a text is read back field by field, and two of them are ordered as their
  fields are: the widths are equal, so the first character that differs is
  in the first field that differs.

  The library names nothing of any program. It offers:

  - `digits`: a number in a fixed width, with its length, its value and its
    order;
  - `print` and `read`: a layout of fields, written and read;
  - `read_print`, `print_lt_print_iff`: the round trip and the order. -/

namespace AgentTraceGateway.FixedWidth

/-! ### Texts of one length -/

/-- Behind fronts of one length the rest decides only where the fronts agree. -/
theorem append_lt_append_iff {s t : List Char} : ∀ {a b : List Char}, a.length = b.length →
    (a ++ s < b ++ t ↔ a < b ∨ a = b ∧ s < t)
  | [], [], _ => by simp
  | x :: a, y :: b, h => by
    have ih := append_lt_append_iff (s := s) (t := t) (Nat.succ.inj h)
    rw [List.cons_append, List.cons_append, List.cons_lt_cons_iff, List.cons_lt_cons_iff, ih,
      List.cons.injEq]
    tauto

/-! ### Digits -/

/-- A number in decimal, filled with zeros to a width. -/
def digits (width n : Nat) : List Char :=
  List.replicate (width - (Nat.toDigits 10 n).length) '0' ++ Nat.toDigits 10 n

theorem length_digits {width n : Nat} (hwidth : 0 < width) (h : n < 10 ^ width) :
    (digits width n).length = width := by
  have hlen : (Nat.toDigits 10 n).length ≤ width :=
    (Nat.length_toDigits_le_iff (by decide) hwidth).mpr h
  rw [digits, List.length_append, List.length_replicate]
  omega

theorem digits_isDigit {width n : Nat} : ∀ c ∈ digits width n, c.isDigit = true := by
  intro c hc
  rcases List.mem_append.mp hc with hzero | hdigit
  · rw [List.eq_of_mem_replicate hzero]
    rfl
  · exact Nat.isDigit_of_mem_toDigits (by decide) (by decide) hdigit

/-- A number is the value of its digits. -/
theorem ofDigitChars_digits (width n : Nat) : Nat.ofDigitChars 10 (digits width n) 0 = n := by
  rw [digits, Nat.ofDigitChars_append, Nat.ofDigitChars_replicate_zero, Nat.mul_zero,
    Nat.ofDigitChars_ten_toDigits]

theorem digit_le_nine {c : Char} (h : c.isDigit = true) :
    '0'.toNat ≤ c.toNat ∧ c.toNat - '0'.toNat ≤ 9 := by
  obtain ⟨hlow, hhigh⟩ := Char.isDigit_iff_toNat.mp h
  have hspan : '9'.toNat = '0'.toNat + 9 := rfl
  omega

/-- The first digit counts for its place. -/
theorem ofDigitChars_cons_zero (c : Char) (text : List Char) :
    Nat.ofDigitChars 10 (c :: text) 0
      = 10 ^ text.length * (c.toNat - '0'.toNat) + Nat.ofDigitChars 10 text 0 := by
  rw [Nat.ofDigitChars_cons, Nat.mul_zero, Nat.zero_add, Nat.ofDigitChars_eq_ofDigitChars_zero]

theorem ofDigitChars_lt : ∀ {text : List Char}, (∀ c ∈ text, c.isDigit = true) →
    Nat.ofDigitChars 10 text 0 < 10 ^ text.length
  | [], _ => by simp
  | c :: text, h => by
    have hc := (digit_le_nine (h c List.mem_cons_self)).2
    have htext := ofDigitChars_lt fun d hd => h d (List.mem_cons_of_mem c hd)
    rw [ofDigitChars_cons_zero, List.length_cons, Nat.pow_succ]
    calc 10 ^ text.length * (c.toNat - '0'.toNat) + Nat.ofDigitChars 10 text 0
        < 10 ^ text.length * (c.toNat - '0'.toNat) + 10 ^ text.length :=
          Nat.add_lt_add_left htext _
      _ = 10 ^ text.length * (c.toNat - '0'.toNat + 1) := by rw [Nat.mul_add, Nat.mul_one]
      _ ≤ 10 ^ text.length * 10 := Nat.mul_le_mul_left _ (by omega)

/-- Digits of one length are ordered as their values. -/
theorem lt_of_digits_lt : ∀ {a b : List Char}, a.length = b.length →
    (∀ c ∈ a, c.isDigit = true) → (∀ c ∈ b, c.isDigit = true) → a < b →
    Nat.ofDigitChars 10 a 0 < Nat.ofDigitChars 10 b 0
  | [], [], _, _, _, h => absurd h (List.lt_irrefl [])
  | x :: a, y :: b, hlen, ha, hb, h => by
    have hlen' : a.length = b.length := Nat.succ.inj hlen
    have hx := digit_le_nine (ha x List.mem_cons_self)
    have hy := digit_le_nine (hb y List.mem_cons_self)
    rw [ofDigitChars_cons_zero, ofDigitChars_cons_zero, hlen']
    rcases List.cons_lt_cons_iff.mp h with hlt | ⟨rfl, hrest⟩
    · have hvalue : x.toNat < y.toNat := hlt
      have hbound := ofDigitChars_lt fun d hd => ha d (List.mem_cons_of_mem x hd)
      rw [hlen'] at hbound
      calc 10 ^ b.length * (x.toNat - '0'.toNat) + Nat.ofDigitChars 10 a 0
          < 10 ^ b.length * (x.toNat - '0'.toNat) + 10 ^ b.length := Nat.add_lt_add_left hbound _
        _ = 10 ^ b.length * (x.toNat - '0'.toNat + 1) := by rw [Nat.mul_add, Nat.mul_one]
        _ ≤ 10 ^ b.length * (y.toNat - '0'.toNat) := Nat.mul_le_mul_left _ (by omega)
        _ ≤ _ := Nat.le_add_right _ _
    · exact Nat.add_lt_add_left (lt_of_digits_lt hlen'
        (fun d hd => ha d (List.mem_cons_of_mem x hd))
        (fun d hd => hb d (List.mem_cons_of_mem x hd)) hrest) _

/-- Two numbers in one width are ordered as their texts. -/
theorem digits_lt_digits_iff {width m n : Nat} (hwidth : 0 < width) (hm : m < 10 ^ width)
    (hn : n < 10 ^ width) : digits width m < digits width n ↔ m < n := by
  have hforth : ∀ {i j : Nat}, i < 10 ^ width → j < 10 ^ width → digits width i < digits width j →
      i < j := by
    intro i j hi hj h
    have hlen : (digits width i).length = (digits width j).length := by
      rw [length_digits hwidth hi, length_digits hwidth hj]
    have hvalue := lt_of_digits_lt hlen digits_isDigit digits_isDigit h
    rwa [ofDigitChars_digits, ofDigitChars_digits] at hvalue
  constructor
  · exact hforth hm hn
  · intro h
    rcases lt_trichotomy (digits width m) (digits width n) with hlt | heq | hgt
    · exact hlt
    · have hvalue : m = n := by rw [← ofDigitChars_digits width m, heq, ofDigitChars_digits]
      omega
    · have := hforth hn hm hgt
      omega

theorem digits_inj {width m n : Nat} (h : digits width m = digits width n) : m = n := by
  rw [← ofDigitChars_digits width m, h, ofDigitChars_digits]

/-! ### Layouts -/

/-- The fields of a text in order: each field's width and the mark behind it. -/
abbrev Layout := List (Nat × Char)

def print : Layout → List Nat → List Char
  | (width, mark) :: layout, n :: ns => digits width n ++ mark :: print layout ns
  | _, _ => []

/-- Every field has its digits and its mark, and nothing is left over. -/
def read : Layout → List Char → Option (List Nat)
  | [], text => if text.isEmpty then some [] else none
  | (width, mark) :: layout, text =>
    let field := text.take width
    if field.length = width ∧ field.all Char.isDigit ∧ (text.drop width).head? = some mark then
      (read layout (text.drop (width + 1))).map (Nat.ofDigitChars 10 field 0 :: ·)
    else none

/-- The numbers that a layout has room for. -/
def Fits (layout : Layout) (ns : List Nat) : Prop :=
  List.Forall₂ (fun field n => 0 < field.1 ∧ n < 10 ^ field.1) layout ns

/-- What is printed is read back. -/
theorem read_print {layout : Layout} {ns : List Nat} (h : Fits layout ns) :
    read layout (print layout ns) = some ns := by
  induction h with
  | nil => rfl
  | @cons field n layout ns hfield _ ih =>
    obtain ⟨width, mark⟩ := field
    have hlen : (digits width n).length = width := length_digits hfield.1 hfield.2
    have htake : (digits width n ++ mark :: print layout ns).take width = digits width n :=
      List.take_left' hlen
    have hdrop : (digits width n ++ mark :: print layout ns).drop width
        = mark :: print layout ns := List.drop_left' hlen
    have hrest : (digits width n ++ mark :: print layout ns).drop (width + 1)
        = print layout ns := by
      rw [← List.drop_drop, hdrop, List.drop_one, List.tail_cons]
    have hall : (digits width n).all Char.isDigit = true := List.all_eq_true.mpr digits_isDigit
    rw [print, read]
    rw [htake, hdrop, hrest, if_pos ⟨hlen, hall, rfl⟩, ih, ofDigitChars_digits]
    rfl

/-- Printed texts are ordered as their fields, the first field first. -/
theorem print_lt_print_iff {layout : Layout} {ms ns : List Nat} (hms : Fits layout ms)
    (hns : Fits layout ns) : print layout ms < print layout ns ↔ ms < ns := by
  induction hms generalizing ns with
  | nil =>
    cases hns
    exact ⟨fun h => absurd h (List.lt_irrefl []), fun h => absurd h (List.lt_irrefl [])⟩
  | @cons field m layout ms hm _ ih =>
    obtain ⟨width, mark⟩ := field
    cases hns with
    | @cons _ n _ ns hn hrest =>
      have hlen : (digits width m).length = (digits width n).length := by
        rw [length_digits hm.1 hm.2, length_digits hn.1 hn.2]
      have hmark : mark :: print layout ms < mark :: print layout ns ↔ ms < ns := by
        rw [List.cons_lt_cons_iff, ih hrest]
        exact ⟨fun h => h.elim (fun hlt => absurd hlt (lt_irrefl mark)) And.right,
          fun h => Or.inr ⟨rfl, h⟩⟩
      have heq : digits width m = digits width n ↔ m = n := ⟨digits_inj, fun h => by rw [h]⟩
      rw [print, print, append_lt_append_iff hlen, hmark, digits_lt_digits_iff hm.1 hm.2 hn.2, heq,
        List.cons_lt_cons_iff]

end AgentTraceGateway.FixedWidth
