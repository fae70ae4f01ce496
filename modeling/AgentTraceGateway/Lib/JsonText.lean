import Mathlib.Data.List.TakeWhile
import Mathlib.Data.String.Basic

/-! # JSON Texts

  A reader for JSON texts and a compact printer, over one kind of tree. The
  reader takes the whole grammar: white space, every escape, surrogate pairs
  and numbers of any form. The printer is free in how it escapes a character
  as long as the reader takes the escape back.

  The library names nothing of any program. It offers:

  - `Tree`, with `Valid`: a number is written as the grammar has it;
  - `Escape`: an escaping that the reader takes back;
  - `print` and `read`, with `read_print`: what is printed is read back;
  - `print_injective`: two trees that print alike are one. -/

namespace AgentTraceGateway.JsonText

/-- A JSON document. A number carries the text it is written as. -/
inductive Tree where
  | null
  | bool (b : Bool)
  | number (text : List Char)
  | string (s : List Char)
  | array (items : List Tree)
  | object (entries : List (List Char × Tree))
  deriving Repr

/-! ### Characters -/

/-- White space between tokens. -/
def is_space (c : Char) : Bool := c = ' ' || c = '\t' || c = '\n' || c = '\r'

/-- A character that occurs in numbers. -/
def number_char (c : Char) : Bool :=
  c.isDigit || c = '-' || c = '+' || c = '.' || c = 'e' || c = 'E'

theorem number_char_ne {c d : Char} (hc : number_char c = true) (hd : number_char d = false) :
    c ≠ d := by
  rintro rfl
  rw [hc] at hd
  cases hd

theorem number_char_not_space {c : Char} (hc : number_char c = true) : is_space c = false := by
  have hne : ∀ d, number_char d = false → c ≠ d := fun d hd => number_char_ne hc hd
  simp [is_space, hne ' ' rfl, hne '\t' rfl, hne '\n' rfl, hne '\r' rfl]

/-- The rest behind the next token, if that is `c`. -/
def expect (c : Char) (text : List Char) : Option (List Char) :=
  match text.dropWhile is_space with
  | [] => none
  | d :: rest => if d = c then some rest else none

theorem expect_hit {c : Char} (h : is_space c = false) (rest : List Char) :
    expect c (c :: rest) = some rest := by
  simp [expect, h]

theorem expect_miss {c d : Char} (h : is_space d = false) (hne : d ≠ c) (rest : List Char) :
    expect c (d :: rest) = none := by
  simp [expect, h, hne]

/-! ### Numbers -/

/-- An exponent, or nothing. -/
def is_exponent : List Char → Bool
  | [] => true
  | c :: rest =>
    let digits := if rest.head? = some '+' ∨ rest.head? = some '-' then rest.tail else rest
    (c = 'e' || c = 'E') && !digits.isEmpty && digits.all Char.isDigit

/-- A fraction with its exponent, or an exponent alone. -/
def is_fraction (text : List Char) : Bool :=
  if text.head? = some '.' then
    (text.tail.head?).any Char.isDigit && is_exponent (text.tail.dropWhile Char.isDigit)
  else is_exponent text

/-- An unsigned number: no zero stands in front of another digit. -/
def is_unsigned : List Char → Bool
  | [] => false
  | c :: rest =>
    if c = '0' then is_fraction rest
    else c.isDigit && is_fraction (rest.dropWhile Char.isDigit)

/-- A number as the grammar has it. -/
def is_number (text : List Char) : Bool :=
  text.all number_char && is_unsigned (if text.head? = some '-' then text.tail else text)

theorem is_number_chars {text : List Char} (h : is_number text = true) :
    ∀ c ∈ text, number_char c = true :=
  List.all_eq_true.mp (Bool.and_eq_true_iff.mp h).1

theorem is_number_ne_nil {text : List Char} (h : is_number text = true) : text ≠ [] := by
  rintro rfl
  cases h

/-- A number in decimal, without a sign, is one. -/
theorem is_number_of_digits {text : List Char} (hdigit : ∀ c ∈ text, c.isDigit = true)
    (hne : text ≠ []) (hzero : text.head? = some '0' → text = ['0']) : is_number text = true := by
  obtain ⟨c, rest, rfl⟩ := List.exists_cons_of_ne_nil hne
  have hc : c.isDigit = true := hdigit c List.mem_cons_self
  have hrest : rest.dropWhile Char.isDigit = [] :=
    List.dropWhile_eq_nil_iff.mpr fun d hd => hdigit d (List.mem_cons_of_mem c hd)
  have hchars : (c :: rest).all number_char = true := by
    refine List.all_eq_true.mpr fun d hd => ?_
    simp [number_char, hdigit d hd]
  have hsign : c ≠ '-' := by
    rintro rfl
    cases hc
  have hunsigned : is_unsigned (c :: rest) = true := by
    rw [is_unsigned]
    by_cases hz : c = '0'
    · have hnil : rest = [] := by simpa [hz] using hzero (by rw [hz, List.head?_cons])
      rw [if_pos hz, hnil]
      rfl
    · rw [if_neg hz, hc, hrest]
      rfl
  rw [is_number, hchars, List.head?_cons, if_neg (by simpa using hsign), hunsigned]
  rfl

/-! ### Strings -/

def nibble (c : Char) : Option Nat :=
  if c.isDigit then some (c.toNat - '0'.toNat)
  else if 'a' ≤ c ∧ c ≤ 'f' then some (c.toNat - 'a'.toNat + 10)
  else if 'A' ≤ c ∧ c ≤ 'F' then some (c.toNat - 'A'.toNat + 10)
  else none

/-- Four hexadecimal digits. -/
def code_unit : List Char → Option (Nat × List Char)
  | a :: b :: c :: d :: rest => do
    let a ← nibble a
    let b ← nibble b
    let c ← nibble c
    let d ← nibble d
    some (((a * 16 + b) * 16 + c) * 16 + d, rest)
  | _ => none

/-- The low half of a surrogate pair, behind the high one. -/
def low_surrogate (high : Nat) : List Char → Option (Char × List Char)
  | '\\' :: 'u' :: rest => (code_unit rest).bind fun low =>
    if 0xDC00 ≤ low.1 ∧ low.1 < 0xE000 then
      some (Char.ofNat (0x10000 + (high - 0xD800) * 0x400 + (low.1 - 0xDC00)), low.2)
    else none
  | _ => none

/-- A character by its code units. A surrogate without its other half is no
    character. -/
def unicode (text : List Char) : Option (Char × List Char) :=
  (code_unit text).bind fun unit =>
    if unit.1 < 0xD800 ∨ 0xE000 ≤ unit.1 then some (Char.ofNat unit.1, unit.2)
    else if unit.1 < 0xDC00 then low_surrogate unit.1 unit.2
    else none

/-- The character a short escape stands for. -/
def short_escape (c : Char) : Option Char :=
  if c = '"' ∨ c = '\\' ∨ c = '/' then some c
  else if c = 'b' then some (Char.ofNat 0x08)
  else if c = 'f' then some (Char.ofNat 0x0C)
  else if c = 'n' then some '\n'
  else if c = 'r' then some '\r'
  else if c = 't' then some '\t'
  else none

/-- One character of a string, escaped or not. -/
def string_char : List Char → Option (Char × List Char)
  | [] => none
  | c :: rest =>
    if c = '\\' then
      match rest with
      | [] => none
      | e :: rest => if e = 'u' then unicode rest else (short_escape e).map fun d => (d, rest)
    else if c = '"' ∨ c.toNat < 0x20 then none
    else some (c, rest)

/-- The characters up to the closing quote. -/
def chars : Nat → List Char → Option (List Char × List Char)
  | 0, _ => none
  | n + 1, text =>
    if text.head? = some '"' then some ([], text.tail)
    else (string_char text).bind fun c => (chars n c.2).map fun s => (c.1 :: s.1, s.2)

/-- A way to write characters inside a string that the reader takes back. -/
structure Escape where
  text : Char → List Char
  reads : ∀ c rest, string_char (text c ++ rest) = some (c, rest)

/-- A written character does not start with a quote. -/
theorem Escape.head_ne_quote (esc : Escape) (c : Char) (rest : List Char) :
    (esc.text c ++ rest).head? ≠ some '"' := by
  intro hquote
  have hread := esc.reads c rest
  cases htext : esc.text c ++ rest with
  | nil => rw [htext] at hquote; cases hquote
  | cons d tail =>
    rw [htext] at hread hquote
    obtain rfl : d = '"' := by simpa using hquote
    simp [string_char] at hread

theorem Escape.text_ne_nil (esc : Escape) (c : Char) : esc.text c ≠ [] := by
  intro hnil
  have hread := esc.reads c []
  rw [hnil] at hread
  simp [string_char] at hread

/-! ### The printer -/

section printer

variable (esc : Escape)

def quote (s : List Char) : List Char := '"' :: (s.flatMap esc.text ++ ['"'])

mutual

/-- The compact text, without white space. -/
def print : Tree → List Char
  | .null => ['n', 'u', 'l', 'l']
  | .bool true => ['t', 'r', 'u', 'e']
  | .bool false => ['f', 'a', 'l', 's', 'e']
  | .number text => text
  | .string s => quote esc s
  | .array items => '[' :: (print_items items ++ [']'])
  | .object entries => '\x7b' :: (print_entries entries ++ ['\x7d'])

/-- Array items, comma separated. -/
def print_items : List Tree → List Char
  | [] => []
  | [v] => print v
  | v :: w :: rest => print v ++ ',' :: print_items (w :: rest)

/-- Object entries, comma separated. -/
def print_entries : List (List Char × Tree) → List Char
  | [] => []
  | [(k, v)] => quote esc k ++ ':' :: print v
  | (k, v) :: e :: rest => quote esc k ++ ':' :: (print v ++ ',' :: print_entries (e :: rest))

end

end printer

/-! ### The reader -/

/-- The rest of a literal whose first character has been read. -/
def literal (word : List Char) (v : Tree) (text : List Char) : Option (Tree × List Char) :=
  if word.isPrefixOf text then some (v, text.drop word.length) else none

/-- The longest number at the front. -/
def number (text : List Char) : Option (Tree × List Char) :=
  let front := text.takeWhile number_char
  if is_number front then some (.number front, text.dropWhile number_char) else none

mutual

/-- A value and what is left behind it. The fuel bounds the nesting. -/
def value : Nat → List Char → Option (Tree × List Char)
  | 0, _ => none
  | n + 1, text =>
    match text.dropWhile is_space with
    | [] => none
    | c :: rest =>
      if c = '"' then (chars n rest).map fun s => (.string s.1, s.2)
      else if c = '[' then
        match expect ']' rest with
        | some rest => some (.array [], rest)
        | none => (items n rest).map fun vs => (.array vs.1, vs.2)
      else if c = '\x7b' then
        match expect '\x7d' rest with
        | some rest => some (.object [], rest)
        | none => (entries n rest).map fun es => (.object es.1, es.2)
      else if c = 't' then literal ['r', 'u', 'e'] (.bool true) rest
      else if c = 'f' then literal ['a', 'l', 's', 'e'] (.bool false) rest
      else if c = 'n' then literal ['u', 'l', 'l'] .null rest
      else number (c :: rest)

/-- One item or more, up to the closing bracket. -/
def items : Nat → List Char → Option (List Tree × List Char)
  | 0, _ => none
  | n + 1, text => (value n text).bind fun v =>
    match expect ',' v.2 with
    | some rest => (items n rest).map fun vs => (v.1 :: vs.1, vs.2)
    | none => (expect ']' v.2).map fun rest => ([v.1], rest)

/-- One entry or more, up to the closing brace. -/
def entries : Nat → List Char → Option (List (List Char × Tree) × List Char)
  | 0, _ => none
  | n + 1, text => (expect '"' text).bind fun rest => (chars n rest).bind fun k =>
    (expect ':' k.2).bind fun rest => (value n rest).bind fun v =>
      match expect ',' v.2 with
      | some rest => (entries n rest).map fun es => ((k.1, v.1) :: es.1, es.2)
      | none => (expect '\x7d' v.2).map fun rest => ([(k.1, v.1)], rest)

end

/-- A JSON text: one value, with nothing but white space around it. -/
def read (text : List Char) : Option Tree :=
  (value (text.length + 1) text).bind fun v => if v.2.all is_space then some v.1 else none

/-! ### What is printed is read back -/

mutual

/-- Every number is written as the grammar has it. -/
def Tree.Valid : Tree → Prop
  | .number text => is_number text = true
  | .array items => ItemsValid items
  | .object entries => EntriesValid entries
  | _ => True

def ItemsValid : List Tree → Prop
  | [] => True
  | v :: rest => v.Valid ∧ ItemsValid rest

def EntriesValid : List (List Char × Tree) → Prop
  | [] => True
  | e :: rest => e.2.Valid ∧ EntriesValid rest

end

/-- A number in front of `rest` ends there. -/
def Ends (rest : List Char) : Prop := ∀ c ∈ rest.head?, number_char c = false

theorem ends_nil : Ends [] := fun c hc => by cases hc

theorem ends_cons {c : Char} (h : number_char c = false) (rest : List Char) : Ends (c :: rest) := by
  intro d hd
  obtain rfl : c = d := by simpa using hd
  exact h

section round_trip

variable (esc : Escape)

/-- The head of a printed value is no white space and no closing mark. -/
theorem print_head {t : Tree} (h : t.Valid) :
    ∃ c text, print esc t = c :: text ∧ is_space c = false ∧ c ≠ ']' := by
  cases t with
  | null => exact ⟨_, _, by rw [print], rfl, by decide⟩
  | bool b => cases b <;> exact ⟨_, _, by rw [print], rfl, by decide⟩
  | string s => exact ⟨_, _, by rw [print, quote], rfl, by decide⟩
  | array items => exact ⟨_, _, by rw [print], rfl, by decide⟩
  | object entries => exact ⟨_, _, by rw [print], rfl, by decide⟩
  | number text =>
    have hnumber : is_number text = true := h
    obtain ⟨c, tail, rfl⟩ := List.exists_cons_of_ne_nil (is_number_ne_nil hnumber)
    have hc := is_number_chars hnumber c List.mem_cons_self
    exact ⟨c, tail, by rw [print], number_char_not_space hc, number_char_ne hc rfl⟩

theorem print_items_head {v : Tree} (h : v.Valid) (rest : List Tree) :
    ∃ c text, print_items esc (v :: rest) = c :: text ∧ is_space c = false ∧ c ≠ ']' := by
  obtain ⟨c, text, hprint, hspace, hclose⟩ := print_head esc h
  cases rest with
  | nil => exact ⟨c, text, by rw [print_items, hprint], hspace, hclose⟩
  | cons w rest =>
    exact ⟨c, _, by rw [print_items, hprint, List.cons_append], hspace, hclose⟩

theorem print_entries_head (e : List Char × Tree) (rest : List (List Char × Tree)) :
    ∃ text, print_entries esc (e :: rest) = '"' :: text := by
  cases rest with
  | nil => exact ⟨_, by rw [print_entries, quote, List.cons_append]⟩
  | cons e' rest => exact ⟨_, by rw [print_entries, quote, List.cons_append]⟩

/-- The characters of a string are read back one by one. -/
theorem chars_print (rest : List Char) : ∀ (s : List Char) (n : Nat),
    (s.flatMap esc.text).length < n →
      chars n (s.flatMap esc.text ++ '"' :: rest) = some (s, rest) := by
  intro s
  induction s with
  | nil =>
    intro n hn
    obtain ⟨m, rfl⟩ := Nat.exists_eq_succ_of_ne_zero (Nat.ne_of_gt (Nat.zero_lt_of_lt hn))
    rfl
  | cons c s ih =>
    intro n hn
    obtain ⟨m, rfl⟩ := Nat.exists_eq_succ_of_ne_zero (Nat.ne_of_gt (Nat.zero_lt_of_lt hn))
    have hpos : 0 < (esc.text c).length := List.length_pos_iff.mpr (esc.text_ne_nil c)
    rw [List.flatMap_cons, List.length_append] at hn
    rw [List.flatMap_cons, List.append_assoc, chars, if_neg (esc.head_ne_quote c _), esc.reads,
      Option.bind_some, ih m (by omega)]
    rfl

theorem literal_print (word : List Char) (v : Tree) (rest : List Char) :
    literal word v (word ++ rest) = some (v, rest) := by
  rw [literal, if_pos (List.isPrefixOf_iff_prefix.mpr (List.prefix_append word rest)),
    List.drop_left]

/-- A number is taken whole. -/
theorem number_print {text : List Char} (h : is_number text = true) {rest : List Char}
    (hends : Ends rest) : number (text ++ rest) = some (.number text, rest) := by
  have htake : (text ++ rest).takeWhile number_char = text := by
    rw [List.takeWhile_append_of_pos (is_number_chars h)]
    cases rest with
    | nil => simp
    | cons c rest => simp [hends c rfl]
  have hdrop : (text ++ rest).dropWhile number_char = rest := by
    rw [List.dropWhile_append_of_pos (is_number_chars h)]
    cases rest with
    | nil => rfl
    | cons c rest => simp [hends c rfl]
  rw [number, htake, hdrop, if_pos h]

theorem value_number {text : List Char} (h : is_number text = true) (n : Nat) {rest : List Char}
    (hends : Ends rest) :
    value (n + 1) (print esc (.number text) ++ rest) = some (.number text, rest) := by
  have hnumber := number_print h hends
  have hchars := is_number_chars h
  rw [print]
  obtain ⟨c, tail, rfl⟩ := List.exists_cons_of_ne_nil (is_number_ne_nil h)
  have hc : number_char c = true := hchars c List.mem_cons_self
  have hdrop : (c :: tail ++ rest).dropWhile is_space = c :: (tail ++ rest) := by
    rw [List.cons_append, List.dropWhile_cons_of_neg (by simp [number_char_not_space hc])]
  rw [value, hdrop]
  dsimp only
  rw [if_neg (number_char_ne hc rfl), if_neg (number_char_ne hc rfl),
    if_neg (number_char_ne hc rfl), if_neg (number_char_ne hc rfl),
    if_neg (number_char_ne hc rfl), if_neg (number_char_ne hc rfl)]
  exact hnumber

theorem value_string {s : List Char} {n : Nat} (h : (s.flatMap esc.text).length < n)
    (rest : List Char) :
    value (n + 1) (print esc (.string s) ++ rest) = some (.string s, rest) := by
  have hvalue : value (n + 1) (print esc (.string s) ++ rest)
      = (chars n (s.flatMap esc.text ++ ['"'] ++ rest)).map fun s => (.string s.1, s.2) := by
    rw [print, quote]
    rfl
  rw [hvalue, List.append_assoc, List.singleton_append, chars_print esc rest s n h]
  rfl

/-- A bracket opens an array; its first item does not close it. -/
theorem value_array {v : Tree} {vs : List Tree} {rest : List Char} {n : Nat} (hv : v.Valid)
    (h : items n (print_items esc (v :: vs) ++ ']' :: rest) = some (v :: vs, rest)) :
    value (n + 1) (print esc (.array (v :: vs)) ++ rest) = some (.array (v :: vs), rest) := by
  obtain ⟨c, text, hhead, hspace, hclose⟩ := print_items_head esc hv vs
  have hvalue : value (n + 1) (print esc (.array (v :: vs)) ++ rest)
      = match expect ']' (print_items esc (v :: vs) ++ [']'] ++ rest) with
        | some rest => some (.array [], rest)
        | none => (items n (print_items esc (v :: vs) ++ [']'] ++ rest)).map fun vs =>
            (.array vs.1, vs.2) := by
    rw [print]
    rfl
  rw [hvalue, List.append_assoc, List.singleton_append, h, hhead, List.cons_append,
    expect_miss hspace hclose]
  rfl

theorem value_object {e : List Char × Tree} {es : List (List Char × Tree)} {rest : List Char}
    {n : Nat}
    (h : entries n (print_entries esc (e :: es) ++ '\x7d' :: rest) = some (e :: es, rest)) :
    value (n + 1) (print esc (.object (e :: es)) ++ rest) = some (.object (e :: es), rest) := by
  obtain ⟨text, hhead⟩ := print_entries_head esc e es
  have hvalue : value (n + 1) (print esc (.object (e :: es)) ++ rest)
      = match expect '\x7d' (print_entries esc (e :: es) ++ ['\x7d'] ++ rest) with
        | some rest => some (.object [], rest)
        | none => (entries n (print_entries esc (e :: es) ++ ['\x7d'] ++ rest)).map fun es =>
            (.object es.1, es.2) := by
    rw [print]
    rfl
  rw [hvalue, List.append_assoc, List.singleton_append, h, hhead, List.cons_append,
    expect_miss rfl (by decide)]
  rfl

/-- The last item, in front of the closing bracket. -/
theorem items_last {v : Tree} {rest : List Char} {n : Nat}
    (h : value n (print esc v ++ ']' :: rest) = some (v, ']' :: rest)) :
    items (n + 1) (print_items esc [v] ++ ']' :: rest) = some ([v], rest) := by
  rw [print_items, items, h, Option.bind_some, expect_miss rfl (by decide), expect_hit rfl]
  rfl

/-- An item in front of more. -/
theorem items_more {v w : Tree} {vs : List Tree} {rest : List Char} {n : Nat}
    (h : value n (print esc v ++ ',' :: (print_items esc (w :: vs) ++ ']' :: rest))
      = some (v, ',' :: (print_items esc (w :: vs) ++ ']' :: rest)))
    (hmore : items n (print_items esc (w :: vs) ++ ']' :: rest) = some (w :: vs, rest)) :
    items (n + 1) (print_items esc (v :: w :: vs) ++ ']' :: rest) = some (v :: w :: vs, rest) := by
  rw [print_items, List.append_assoc, List.cons_append, items, h, Option.bind_some,
    expect_hit rfl]
  dsimp only
  rw [hmore]
  rfl

/-- The key of an entry, up to its value. -/
theorem entries_key {k : List Char} {n : Nat} (h : (k.flatMap esc.text).length < n)
    (text : List Char) :
    entries (n + 1) (quote esc k ++ ':' :: text) = (value n text).bind fun v =>
      match expect ',' v.2 with
      | some rest => (entries n rest).map fun es => ((k, v.1) :: es.1, es.2)
      | none => (expect '\x7d' v.2).map fun rest => ([(k, v.1)], rest) := by
  rw [quote, List.cons_append, List.append_assoc, List.singleton_append, entries, expect_hit rfl,
    Option.bind_some, chars_print esc _ k n h, Option.bind_some, expect_hit rfl, Option.bind_some]

theorem entries_last {k : List Char} {v : Tree} {rest : List Char} {n : Nat}
    (hk : (k.flatMap esc.text).length < n)
    (h : value n (print esc v ++ '\x7d' :: rest) = some (v, '\x7d' :: rest)) :
    entries (n + 1) (print_entries esc [(k, v)] ++ '\x7d' :: rest) = some ([(k, v)], rest) := by
  rw [print_entries, List.append_assoc, List.cons_append, entries_key esc hk, h, Option.bind_some,
    expect_miss rfl (by decide), expect_hit rfl]
  rfl

theorem entries_more {k : List Char} {v : Tree} {e : List Char × Tree}
    {es : List (List Char × Tree)} {rest : List Char} {n : Nat}
    (hk : (k.flatMap esc.text).length < n)
    (h : value n (print esc v ++ ',' :: (print_entries esc (e :: es) ++ '\x7d' :: rest))
      = some (v, ',' :: (print_entries esc (e :: es) ++ '\x7d' :: rest)))
    (hmore : entries n (print_entries esc (e :: es) ++ '\x7d' :: rest) = some (e :: es, rest)) :
    entries (n + 1) (print_entries esc ((k, v) :: e :: es) ++ '\x7d' :: rest)
      = some ((k, v) :: e :: es, rest) := by
  rw [print_entries, List.append_assoc, List.cons_append, List.append_assoc, List.cons_append,
    entries_key esc hk, h, Option.bind_some, expect_hit rfl]
  dsimp only
  rw [hmore]
  rfl

/-- A printed value is read back, with what stands behind it left over; so
    are items and entries up to their closing mark. The induction is on the
    fuel, which the length of the text bounds. -/
theorem value_print : ∀ n : Nat,
    (∀ (t : Tree) (rest : List Char), t.Valid → (print esc t).length < n → Ends rest →
      value n (print esc t ++ rest) = some (t, rest)) ∧
    (∀ (v : Tree) (vs : List Tree) (rest : List Char), ItemsValid (v :: vs) →
      (print_items esc (v :: vs)).length + 1 < n →
      items n (print_items esc (v :: vs) ++ ']' :: rest) = some (v :: vs, rest)) ∧
    (∀ (e : List Char × Tree) (es : List (List Char × Tree)) (rest : List Char),
      EntriesValid (e :: es) → (print_entries esc (e :: es)).length + 1 < n →
      entries n (print_entries esc (e :: es) ++ '\x7d' :: rest) = some (e :: es, rest)) := by
  intro n
  induction n with
  | zero =>
    refine ⟨fun _ _ _ h => ?_, fun _ _ _ _ h => ?_, fun _ _ _ _ h => ?_⟩
    all_goals exact absurd h (Nat.not_lt_zero _)
  | succ n ih =>
    obtain ⟨ihvalue, ihitems, ihentries⟩ := ih
    refine ⟨?_, ?_, ?_⟩
    · intro t rest ht hn hrest
      cases t with
      | null => exact literal_print ['u', 'l', 'l'] .null rest
      | bool b =>
        cases b with
        | true => exact literal_print ['r', 'u', 'e'] (.bool true) rest
        | false => exact literal_print ['a', 'l', 's', 'e'] (.bool false) rest
      | number text => exact value_number esc ht n hrest
      | string s =>
        rw [print, quote, List.length_cons, List.length_append, List.length_singleton] at hn
        exact value_string esc (by omega) rest
      | array vs =>
        cases vs with
        | nil => rfl
        | cons v vs =>
          rw [print, List.length_cons, List.length_append, List.length_singleton] at hn
          exact value_array esc ht.1 (ihitems v vs rest ht (by omega))
      | object es =>
        cases es with
        | nil => rfl
        | cons e es =>
          rw [print, List.length_cons, List.length_append, List.length_singleton] at hn
          exact value_object esc (ihentries e es rest ht (by omega))
    · intro v vs rest hvs hn
      cases vs with
      | nil =>
        rw [print_items] at hn
        exact items_last esc (ihvalue v _ hvs.1 (by omega) (ends_cons rfl rest))
      | cons w vs =>
        rw [print_items, List.length_append, List.length_cons] at hn
        exact items_more esc (ihvalue v _ hvs.1 (by omega) (ends_cons rfl _))
          (ihitems w vs rest hvs.2 (by omega))
    · intro e es rest hes hn
      obtain ⟨k, v⟩ := e
      cases es with
      | nil =>
        rw [print_entries, quote, List.length_append, List.length_cons, List.length_append,
          List.length_singleton, List.length_cons] at hn
        exact entries_last esc (by omega) (ihvalue v _ hes.1 (by omega) (ends_cons rfl rest))
      | cons e' es =>
        rw [print_entries, quote, List.length_append, List.length_cons, List.length_append,
          List.length_singleton, List.length_cons, List.length_append, List.length_cons] at hn
        exact entries_more esc (by omega) (ihvalue v _ hes.1 (by omega) (ends_cons rfl _))
          (ihentries e' es rest hes.2 (by omega))

/-- What is printed is read back. -/
theorem read_print {t : Tree} (h : t.Valid) : read (print esc t) = some t := by
  have hvalue := (value_print esc ((print esc t).length + 1)).1 t [] h (Nat.lt_succ_self _) ends_nil
  rw [List.append_nil] at hvalue
  rw [read, hvalue]
  rfl

/-- Two trees that print alike are one. -/
theorem print_injective {t u : Tree} (ht : t.Valid) (hu : u.Valid)
    (h : print esc t = print esc u) : t = u := by
  have hread := read_print esc ht
  rw [h, read_print esc hu] at hread
  exact (Option.some.inj hread).symm

end round_trip

/-! ### Data in a tree -/

/-- A string of a program. -/
def str (s : String) : Tree := .string s.toList

/-- A natural number in decimal. -/
def nat (n : Nat) : Tree := .number (Nat.toDigits 10 n)

/-- A structure: its fields in order. -/
def fields (entries : List (String × Tree)) : Tree :=
  .object (entries.map fun e => (e.1.toList, e.2))

namespace Tree

def as_str : Tree → Option String
  | .string s => some (String.ofList s)
  | _ => none

def as_nat : Tree → Option Nat
  | .number text => if text.all Char.isDigit then some (Nat.ofDigitChars 10 text 0) else none
  | _ => none

def as_bool : Tree → Option Bool
  | .bool b => some b
  | _ => none

def as_array : Tree → Option (List Tree)
  | .array items => some items
  | _ => none

/-- The items of an array, each of them read. -/
def as_list {α : Type} (read : Tree → Option α) (t : Tree) : Option (List α) :=
  t.as_array.bind fun items => items.mapM read

/-- What may be missing is read where it is there. -/
def optional {α : Type} (read : Tree → Option α) : Option Tree → Option (Option α)
  | some t => (read t).map some
  | none => some none

/-- The first entry of an object with a key. -/
def get (t : Tree) (key : String) : Option Tree :=
  match t with
  | .object entries => entries.lookup key.toList
  | _ => none

end Tree

@[simp] theorem as_str_str (s : String) : (str s).as_str = some s := by
  simp [str, Tree.as_str]

@[simp] theorem as_nat_nat (n : Nat) : (nat n).as_nat = some n := by
  have hdigits : (Nat.toDigits 10 n).all Char.isDigit = true :=
    List.all_eq_true.mpr fun c hc => Nat.isDigit_of_mem_toDigits (by decide) (by decide) hc
  rw [nat, Tree.as_nat, if_pos hdigits, Nat.ofDigitChars_ten_toDigits]

@[simp] theorem as_bool_bool (b : Bool) : (Tree.bool b).as_bool = some b := rfl

@[simp] theorem as_array_array (items : List Tree) : (Tree.array items).as_array = some items := rfl

/-- What is written item by item is read item by item. -/
theorem as_list_array {α : Type} {write : α → Tree} {read : Tree → Option α} {l : List α}
    (h : ∀ a ∈ l, read (write a) = some a) : (Tree.array (l.map write)).as_list read = some l := by
  show (l.map write).mapM read = some l
  induction l with
  | nil => rfl
  | cons a l ih =>
    rw [List.map_cons, List.mapM_cons, h a List.mem_cons_self,
      ih fun b hb => h b (List.mem_cons_of_mem a hb)]
    rfl

theorem as_list_single {α : Type} (read : Tree → Option α) (t : Tree) :
    (Tree.array [t]).as_list read = (read t).map fun a => [a] := by
  show [t].mapM read = _
  rw [List.mapM_cons]
  cases read t <;> rfl

theorem optional_map {α : Type} {write : α → Tree} {read : Tree → Option α}
    (h : ∀ a, read (write a) = some a) (o : Option α) :
    Tree.optional read (o.map write) = some o := by
  cases o with
  | none => rfl
  | some a =>
    rw [Option.map_some, Tree.optional, h]
    rfl

@[simp] theorem get_fields (entries : List (String × Tree)) (key : String) :
    (fields entries).get key = entries.lookup key := by
  unfold fields Tree.get
  dsimp only
  induction entries with
  | nil => rfl
  | cons e entries ih =>
    have hkey : (key.toList == e.1.toList) = (key == e.1) := by
      rw [Bool.eq_iff_iff, beq_iff_eq, beq_iff_eq, String.toList_inj]
    rw [List.map_cons, List.lookup_cons, List.lookup_cons, ih, hkey]

@[simp] theorem str_valid (s : String) : (str s).Valid := trivial

@[simp] theorem bool_valid (b : Bool) : (Tree.bool b).Valid := trivial

@[simp] theorem null_valid : Tree.null.Valid := trivial

/-- A digit sequence of a number does not start with a zero, except for the
    zero itself. -/
theorem toDigits_zero_head : ∀ n : Nat,
    (Nat.toDigits 10 n).head? = some '0' → Nat.toDigits 10 n = ['0'] := by
  intro n
  induction n using Nat.strong_induction_on with
  | _ n ih =>
    intro h
    by_cases hn : n < 10
    · rw [Nat.toDigits_of_lt_base hn] at h ⊢
      rw [← Option.some.inj h]
    · -- the head is the head of the tenth part, which is not zero
      have hten : 10 ≤ n := Nat.le_of_not_lt hn
      rw [Nat.toDigits_of_base_le (by decide) hten, List.head?_append,
        Option.or_of_isSome (by simp [Nat.toDigits_ne_nil])] at h
      have hfront := ih (n / 10) (by omega) h
      have hzero : n / 10 = 0 := by
        rw [← Nat.ofDigitChars_ten_toDigits (n := n / 10), hfront]
        rfl
      omega

@[simp] theorem nat_valid (n : Nat) : (nat n).Valid :=
  is_number_of_digits (fun c hc => Nat.isDigit_of_mem_toDigits (by decide) (by decide) hc)
    Nat.toDigits_ne_nil (toDigits_zero_head n)

theorem items_valid_iff (items : List Tree) : ItemsValid items ↔ ∀ t ∈ items, t.Valid := by
  induction items with
  | nil => simp [ItemsValid]
  | cons t items ih => simp [ItemsValid, ih]

theorem entries_valid_iff (entries : List (List Char × Tree)) :
    EntriesValid entries ↔ ∀ e ∈ entries, e.2.Valid := by
  induction entries with
  | nil => simp [EntriesValid]
  | cons e entries ih => simp [EntriesValid, ih]

@[simp] theorem array_valid_iff (items : List Tree) :
    (Tree.array items).Valid ↔ ∀ t ∈ items, t.Valid := by
  rw [Tree.Valid, items_valid_iff]

@[simp] theorem fields_valid_iff (entries : List (String × Tree)) :
    (fields entries).Valid ↔ ∀ e ∈ entries, e.2.Valid := by
  rw [fields, Tree.Valid, entries_valid_iff, List.forall_mem_map]

/-! ### Structures with fields left out -/

/-- The fields that have a value. -/
def present (slots : List (String × Option Tree)) : List (String × Tree) :=
  slots.filterMap fun slot => slot.2.map fun v => (slot.1, v)

theorem lookup_present : ∀ {slots : List (String × Option Tree)} {key : String} {o : Option Tree},
    (slots.map (·.1)).Nodup → (key, o) ∈ slots → (present slots).lookup key = o
  | [], _, _, _, hmem => absurd hmem List.not_mem_nil
  | (k, v) :: slots, key, o, hkeys, hmem => by
    obtain ⟨hk, hrest⟩ := List.nodup_cons.mp hkeys
    rcases List.mem_cons.mp hmem with heq | hmem
    · -- no later field has the key
      obtain ⟨rfl, rfl⟩ := Prod.mk.inj heq
      have hnone : (present slots).lookup key = none :=
        List.lookup_eq_none_iff.mpr fun e he => bne_iff_ne.mpr fun hkey => by
          obtain ⟨slot, hslot, hvalue⟩ := List.mem_filterMap.mp he
          obtain ⟨t, -, rfl⟩ := Option.map_eq_some_iff.mp hvalue
          exact hk (List.mem_map.mpr ⟨slot, hslot, hkey.symm⟩)
      cases o with
      | none => exact hnone
      | some t =>
        show ((key, t) :: present slots).lookup key = some t
        rw [List.lookup_cons_self]
    · have hne : key ≠ k := fun heq => hk (heq ▸ List.mem_map.mpr ⟨(key, o), hmem, rfl⟩)
      have ih := lookup_present hrest hmem
      cases v with
      | none => exact ih
      | some t =>
        show ((k, t) :: present slots).lookup key = o
        rw [List.lookup_cons, beq_eq_false_iff_ne.mpr hne]
        exact ih

/-- A field is read as it was given, or not there. -/
theorem get_present {slots : List (String × Option Tree)} (hkeys : (slots.map (·.1)).Nodup)
    {i : Nat} {key : String} {o : Option Tree} (h : slots[i]? = some (key, o)) :
    (fields (present slots)).get key = o := by
  rw [get_fields, lookup_present hkeys (List.mem_of_getElem? h)]

/-- A value, if there is one, is well formed. -/
def SlotValid (o : Option Tree) : Prop := ∀ v, o = some v → v.Valid

@[simp] theorem slot_valid_none : SlotValid none := fun _ hv => by cases hv

@[simp] theorem slot_valid_some (v : Tree) : SlotValid (some v) ↔ v.Valid :=
  ⟨fun h => h v rfl, fun h _ hv => Option.some.inj hv ▸ h⟩

theorem slot_valid_map {α : Type} {write : α → Tree} (h : ∀ a, (write a).Valid) (o : Option α) :
    SlotValid (o.map write) := by
  cases o with
  | none => exact slot_valid_none
  | some a => exact (slot_valid_some _).mpr (h a)

theorem present_valid {slots : List (String × Option Tree)}
    (h : ∀ slot ∈ slots, SlotValid slot.2) : (fields (present slots)).Valid := by
  rw [fields_valid_iff]
  intro e he
  obtain ⟨slot, hslot, hvalue⟩ := List.mem_filterMap.mp he
  obtain ⟨v, hv, rfl⟩ := Option.map_eq_some_iff.mp hvalue
  exact h slot hslot v hv

end AgentTraceGateway.JsonText
