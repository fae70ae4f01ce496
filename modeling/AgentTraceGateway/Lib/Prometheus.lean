import AgentTraceGateway.Lib.FixedWidth
import Mathlib.Data.List.Forall2
import Mathlib.Data.List.Nodup
import Mathlib.Data.List.TakeWhile
import Mathlib.Algebra.Field.Rat

/-! # The Prometheus Text Format

  A page of metrics is a sequence of lines: what a metric means (`# HELP`),
  of what kind it is (`# TYPE`), and samples, which carry a name, labels and a
  value. Label values are quoted and may hold any text, with the backslash,
  the quote and the line feed escaped.

  The reader takes a page apart line by line and refuses it as soon as one
  line is malformed. It reads the decimals of a value exactly, as the format
  writes them; a server that stores floating point numbers rounds them
  afterwards. A line is `Written` as a text if the
  reader takes that text for that line, and a page of written lines is read
  as these lines. -/

namespace AgentTraceGateway

namespace Prometheus

/-! ### Pages -/

/-- A value at one time, of the series that the name and the labels make. -/
structure Sample where
  name : List Char
  labels : List (List Char × List Char) := []
  value : ℚ
  deriving DecidableEq

inductive Line where
  | help (name text : List Char)
  | type (name kind : List Char)
  | sample (s : Sample)
  deriving DecidableEq

/-- What identifies a series. -/
def Sample.series (s : Sample) : List Char × List (List Char × List Char) := (s.name, s.labels)

/-- The samples of a page. -/
def samples (lines : List Line) : List Sample :=
  lines.filterMap fun
    | .sample s => some s
    | _ => none

/-- The value of a series. -/
def value_of (lines : List Line) (series : List Char × List (List Char × List Char)) : Option ℚ :=
  ((samples lines).find? fun s => s.series = series).map (·.value)

def KINDS : List (List Char) :=
  ["counter".toList, "gauge".toList, "histogram".toList, "summary".toList, "untyped".toList]

/-! ### The reader -/

/-- The text behind a word. -/
def after (word text : List Char) : Option (List Char) :=
  if word.isPrefixOf text then some (text.drop word.length) else none

def name_char (c : Char) : Bool := c.isAlphanum || c = '_' || c = ':'

/-- A name is not empty and begins with no digit. -/
def is_name (s : List Char) : Bool := s.all name_char && s.head?.any fun c => !c.isDigit

/-- The name at the front of a text. -/
def name (text : List Char) : Option (List Char × List Char) :=
  if is_name (text.takeWhile name_char) then
    some (text.takeWhile name_char, text.dropWhile name_char)
  else none

/-- What a backslash stands for with the character behind it. -/
def unescape (c : Char) : Option Char :=
  if c = '\\' then some '\\'
  else if c = '"' then some '"'
  else if c = 'n' then some '\n'
  else none

/-- The text up to the closing quote. -/
def quoted : List Char → Option (List Char × List Char)
  | [] => none
  | c :: rest =>
    if c = '"' then some ([], rest)
    else if c = '\\' then
      match rest with
      | [] => none
      | e :: rest =>
        (unescape e).bind fun d => (quoted rest).map fun r => (d :: r.1, r.2)
    else (quoted rest).map fun r => (c :: r.1, r.2)

/-- One label. -/
def label (text : List Char) : Option ((List Char × List Char) × List Char) :=
  (name text).bind fun key =>
    (after ['=', '"'] key.2).bind fun rest =>
      (quoted rest).map fun value => ((key.1, value.1), value.2)

/-- Labels up to the closing brace; the fuel bounds their number. -/
def labels : Nat → List Char → Option (List (List Char × List Char) × List Char)
  | 0, _ => none
  | n + 1, text =>
    (label text).bind fun l =>
      match after [','] l.2 with
      | some rest => (labels n rest).map fun r => (l.1 :: r.1, r.2)
      | none => (after ['\x7d'] l.2).map fun rest => ([l.1], rest)

/-- The labels of a sample, if it has any. -/
def label_set (text : List Char) : Option (List (List Char × List Char) × List Char) :=
  match after ['\x7b'] text with
  | some rest => labels rest.length rest
  | none => some ([], text)

/-- A decimal number. -/
def number (text : List Char) : Option ℚ :=
  let whole := text.takeWhile Char.isDigit
  if whole.isEmpty then none
  else
    match text.dropWhile Char.isDigit with
    | [] => some (Nat.ofDigitChars 10 whole 0)
    | c :: frac =>
      if c = '.' && !frac.isEmpty && frac.all Char.isDigit then
        some (Nat.ofDigitChars 10 whole 0 + Nat.ofDigitChars 10 frac 0 / 10 ^ frac.length)
      else none

def sample (text : List Char) : Option Sample :=
  (name text).bind fun n =>
    (label_set n.2).bind fun ls =>
      (after [' '] ls.2).bind fun rest =>
        (number rest).map fun v => { name := n.1, labels := ls.1, value := v }

/-- A help text has its backslashes and line feeds escaped. -/
def help_text : List Char → Option (List Char)
  | [] => some []
  | c :: rest =>
    if c = '\\' then
      match rest with
      | [] => none
      | e :: rest =>
        if e = '"' then none
        else (unescape e).bind fun d => (help_text rest).map fun r => d :: r
    else (help_text rest).map fun r => c :: r

/-- A line that begins like a comment is a help text or a type; comments of
    other kinds are not written by anyone here. -/
def line (text : List Char) : Option Line :=
  match after "# HELP ".toList text with
  | some rest =>
    (name rest).bind fun n =>
      (after [' '] n.2).bind fun rest => (help_text rest).map fun t => .help n.1 t
  | none =>
    match after "# TYPE ".toList text with
    | some rest =>
      (name rest).bind fun n =>
        (after [' '] n.2).bind fun kind => if kind ∈ KINDS then some (.type n.1 kind) else none
    | none => (sample text).map .sample

/-- A page; empty lines are skipped. -/
def read (text : List Char) : Option (List Line) :=
  ((text.splitOn '\n').filter fun piece => !piece.isEmpty).mapM line

/-! ### Reading back -/

theorem after_append (word rest : List Char) : after word (word ++ rest) = some rest := by
  rw [after, if_pos (List.isPrefixOf_iff_prefix.mpr (List.prefix_append word rest)),
    List.drop_left]

theorem after_cons_ne {c d : Char} (h : c ≠ d) (word rest : List Char) :
    after (c :: word) (d :: rest) = none := by
  refine if_neg fun hfront => ?_
  have hhead := List.isPrefixOf_iff_prefix.mp hfront
  exact h (List.cons_prefix_cons.mp hhead).1

/-- What follows a name does not go on with it. -/
def EndsName (rest : List Char) : Prop := ∀ c ∈ rest.head?, name_char c = false

theorem ends_name_cons {c : Char} (h : name_char c = false) (rest : List Char) :
    EndsName (c :: rest) := by
  intro d hd
  cases hd
  exact h

theorem name_print {s rest : List Char} (hname : is_name s = true) (hrest : EndsName rest) :
    name (s ++ rest) = some (s, rest) := by
  have hall : ∀ c ∈ s, name_char c = true :=
    List.all_eq_true.mp (Bool.and_eq_true_iff.mp hname).1
  have hnone : rest.takeWhile name_char = [] ∧ rest.dropWhile name_char = rest := by
    cases rest with
    | nil => exact ⟨rfl, rfl⟩
    | cons c rest =>
      have hc := hrest c rfl
      exact ⟨List.takeWhile_cons_of_neg (by simp [hc]), List.dropWhile_cons_of_neg (by simp [hc])⟩
  rw [name, List.takeWhile_append_of_pos hall, List.dropWhile_append_of_pos hall, hnone.1, hnone.2,
    List.append_nil, if_pos hname]

theorem is_name_append {s t : List Char} (hs : is_name s = true)
    (ht : t.all name_char = true) : is_name (s ++ t) = true := by
  obtain ⟨hall, hhead⟩ := Bool.and_eq_true_iff.mp hs
  cases s with
  | nil => cases hhead
  | cons c s =>
    rw [is_name, List.all_append, hall, ht]
    exact hhead

/-- How a label value is written. -/
def escape (c : Char) : List Char :=
  if c = '\\' then ['\\', '\\']
  else if c = '"' then ['\\', '"']
  else if c = '\n' then ['\\', 'n']
  else [c]

theorem quoted_escaped {e d : Char} (h : unescape e = some d) (text : List Char) :
    quoted ('\\' :: e :: text) = (quoted text).map fun r => (d :: r.1, r.2) := by
  simp [quoted, h]

theorem quoted_plain {c : Char} (hquote : c ≠ '"') (hslash : c ≠ '\\') (text : List Char) :
    quoted (c :: text) = (quoted text).map fun r => (c :: r.1, r.2) := by
  rw [quoted.eq_def]
  dsimp only
  rw [if_neg hquote, if_neg hslash]

theorem quoted_close (text : List Char) : quoted ('"' :: text) = some ([], text) := by
  rw [quoted.eq_def]
  rfl

/-- Any text is read back from between its quotes. -/
theorem quoted_escape (rest : List Char) : ∀ s : List Char,
    quoted (s.flatMap escape ++ '"' :: rest) = some (s, rest) := by
  intro s
  induction s with
  | nil => exact quoted_close rest
  | cons c s ih =>
    rw [List.flatMap_cons, List.append_assoc]
    -- three characters are escaped, each by a letter of its own
    by_cases hslash : c = '\\'
    · rw [escape, if_pos hslash, hslash]
      show quoted ('\\' :: '\\' :: (s.flatMap escape ++ '"' :: rest)) = _
      rw [quoted_escaped rfl, ih]
      rfl
    · by_cases hquote : c = '"'
      · rw [escape, if_neg hslash, if_pos hquote, hquote]
        show quoted ('\\' :: '"' :: (s.flatMap escape ++ '"' :: rest)) = _
        rw [quoted_escaped rfl, ih]
        rfl
      · by_cases hfeed : c = '\n'
        · rw [escape, if_neg hslash, if_neg hquote, if_pos hfeed, hfeed]
          show quoted ('\\' :: 'n' :: (s.flatMap escape ++ '"' :: rest)) = _
          rw [quoted_escaped rfl, ih]
          rfl
        · rw [escape, if_neg hslash, if_neg hquote, if_neg hfeed]
          show quoted (c :: (s.flatMap escape ++ '"' :: rest)) = _
          rw [quoted_plain hquote hslash, ih]
          rfl

/-- An escaped text stays on its line. -/
theorem escape_one_line (s : List Char) : '\n' ∉ s.flatMap escape := by
  intro hmem
  obtain ⟨c, -, hc⟩ := List.mem_flatMap.mp hmem
  unfold escape at hc
  split_ifs at hc with hslash hquote hfeed
  · simp at hc
  · simp at hc
  · simp at hc
  · exact hfeed (List.mem_singleton.mp hc).symm

/-! ### Labels -/

/-- A label as it is written. -/
def print_label (l : List Char × List Char) : List Char :=
  l.1 ++ ['=', '"'] ++ (l.2.flatMap escape ++ ['"'])

theorem label_print {l : List Char × List Char} (hname : is_name l.1 = true) (rest : List Char) :
    label (print_label l ++ rest) = some (l, rest) := by
  have hends : EndsName ('=' :: '"' :: (l.2.flatMap escape ++ '"' :: rest)) :=
    ends_name_cons (by decide) _
  have htext : print_label l ++ rest = l.1 ++ '=' :: '"' :: (l.2.flatMap escape ++ '"' :: rest) := by
    simp [print_label]
  rw [label, htext, name_print hname hends, Option.bind_some]
  show (after ['=', '"'] (['=', '"'] ++ (l.2.flatMap escape ++ '"' :: rest))).bind _ = _
  rw [after_append, Option.bind_some, quoted_escape]
  rfl

/-- Labels as they are written, up to the closing brace. -/
def print_labels : List (List Char × List Char) → List Char
  | [] => []
  | [l] => print_label l ++ ['\x7d']
  | l :: m :: rest => print_label l ++ ',' :: print_labels (m :: rest)

theorem labels_print (rest : List Char) : ∀ (ls : List (List Char × List Char)) (n : Nat),
    ls ≠ [] → (∀ l ∈ ls, is_name l.1 = true) → ls.length ≤ n →
    labels n (print_labels ls ++ rest) = some (ls, rest)
  | [], _, hne, _, _ => absurd rfl hne
  | _ :: _, 0, _, _, hlen => by simp at hlen
  | [l], n + 1, _, hnames, _ => by
    have htext : print_labels [l] ++ rest = print_label l ++ '\x7d' :: rest := by
      simp [print_labels]
    rw [labels, htext, label_print (hnames l List.mem_cons_self), Option.bind_some]
    rfl
  | l :: m :: ls, n + 1, _, hnames, hlen => by
    have htext : print_labels (l :: m :: ls) ++ rest
        = print_label l ++ ',' :: (print_labels (m :: ls) ++ rest) := by
      simp [print_labels]
    have hrest := labels_print rest (m :: ls) n (List.cons_ne_nil m ls)
      (fun x hx => hnames x (List.mem_cons_of_mem l hx)) (Nat.le_of_succ_le_succ hlen)
    have hcomma : after [','] (',' :: (print_labels (m :: ls) ++ rest))
        = some (print_labels (m :: ls) ++ rest) := after_append [','] _
    rw [labels, htext, label_print (hnames l List.mem_cons_self), Option.bind_some, hcomma]
    dsimp only
    rw [hrest]
    rfl

theorem label_set_print {ls : List (List Char × List Char)} (hne : ls ≠ [])
    (hnames : ∀ l ∈ ls, is_name l.1 = true) (rest : List Char) :
    label_set ('\x7b' :: (print_labels ls ++ rest)) = some (ls, rest) := by
  have hopen : after ['\x7b'] ('\x7b' :: (print_labels ls ++ rest))
      = some (print_labels ls ++ rest) := after_append ['\x7b'] _
  -- every label takes up text, so the fuel suffices
  have hlen : ∀ ls : List (List Char × List Char), ls.length ≤ (print_labels ls).length := by
    intro ls
    induction ls with
    | nil => exact Nat.le_refl 0
    | cons l ls ih =>
      cases ls with
      | nil => simp [print_labels]
      | cons m ls =>
        simp only [print_labels, List.length_append, List.length_cons] at ih ⊢
        omega
  rw [label_set, hopen]
  refine labels_print rest ls _ hne hnames ?_
  rw [List.length_append]
  exact Nat.le_add_right_of_le (hlen ls)

theorem print_labels_one_line {ls : List (List Char × List Char)}
    (hnames : ∀ l ∈ ls, '\n' ∉ l.1) : '\n' ∉ print_labels ls := by
  have hlabel : ∀ l ∈ ls, '\n' ∉ print_label l := by
    intro l hl
    have hvalue := escape_one_line l.2
    simp [print_label, hnames l hl, hvalue]
  induction ls with
  | nil => exact List.not_mem_nil
  | cons l ls ih =>
    have hhead := hlabel l List.mem_cons_self
    have hrest := ih (fun x hx => hnames x (List.mem_cons_of_mem l hx))
      (fun x hx => hlabel x (List.mem_cons_of_mem l hx))
    cases ls with
    | nil => simp [print_labels, hhead]
    | cons m ls => simp [print_labels, hhead, hrest]

/-! ### Numbers -/

theorem digits_front {s : List Char} (rest : List Char) (hdigits : ∀ c ∈ s, c.isDigit = true)
    (hrest : ∀ c ∈ rest.head?, c.isDigit = false) :
    (s ++ rest).takeWhile Char.isDigit = s ∧ (s ++ rest).dropWhile Char.isDigit = rest := by
  rw [List.takeWhile_append_of_pos hdigits, List.dropWhile_append_of_pos hdigits]
  cases rest with
  | nil => exact ⟨List.append_nil s, rfl⟩
  | cons c rest =>
    have hc := hrest c rfl
    exact ⟨by simp [hc], by simp [hc]⟩

/-- A whole number is read as itself. -/
theorem number_whole (n : Nat) : number (Nat.toDigits 10 n) = some (n : ℚ) := by
  have hdigits : ∀ c ∈ Nat.toDigits 10 n, c.isDigit = true :=
    fun c hc => Nat.isDigit_of_mem_toDigits (by decide) (by decide) hc
  obtain ⟨htake, hdrop⟩ := digits_front [] hdigits fun c hc => by cases hc
  rw [List.append_nil] at htake hdrop
  unfold number
  dsimp only
  rw [htake, hdrop, if_neg (by simp [Nat.toDigits_ne_nil]), Nat.ofDigitChars_ten_toDigits]

/-- A decimal fraction is read exactly. -/
theorem number_fraction {a b width : Nat} (hwidth : 0 < width) (hb : b < 10 ^ width) :
    number (Nat.toDigits 10 a ++ '.' :: FixedWidth.digits width b)
      = some (a + b / 10 ^ width : ℚ) := by
  have hdigits : ∀ c ∈ Nat.toDigits 10 a, c.isDigit = true :=
    fun c hc => Nat.isDigit_of_mem_toDigits (by decide) (by decide) hc
  obtain ⟨htake, hdrop⟩ := digits_front ('.' :: FixedWidth.digits width b) hdigits
    fun c hc => by cases hc; rfl
  have hlen := FixedWidth.length_digits hwidth hb
  have hfrac : (FixedWidth.digits width b).isEmpty = false := by
    rw [List.isEmpty_eq_false_iff, ← List.length_pos_iff, hlen]
    exact hwidth
  have hall : (FixedWidth.digits width b).all Char.isDigit = true :=
    List.all_eq_true.mpr FixedWidth.digits_isDigit
  unfold number
  dsimp only
  rw [htake, hdrop, if_neg (by simp [Nat.toDigits_ne_nil])]
  dsimp only
  rw [hfrac, hall, if_pos (by decide), Nat.ofDigitChars_ten_toDigits,
    FixedWidth.ofDigitChars_digits, hlen]

/-! ### Lines -/

/-- A text that a page may hold as one line, and how it is read. -/
structure Written (text : List Char) (l : Line) : Prop where
  reads : line text = some l
  one_line : '\n' ∉ text
  not_blank : text ≠ []

theorem help_text_plain : ∀ text : List Char, '\\' ∉ text → help_text text = some text := by
  intro text
  induction text with
  | nil => exact fun _ => rfl
  | cons c text ih =>
    intro h
    have hc : c ≠ '\\' := fun hc => h (hc ▸ List.mem_cons_self)
    have hrest := ih fun hmem => h (List.mem_cons_of_mem c hmem)
    rw [help_text.eq_def]
    dsimp only
    rw [if_neg hc, hrest]
    rfl

theorem name_one_line {s : List Char} (h : is_name s = true) : '\n' ∉ s := fun hmem =>
  absurd (List.all_eq_true.mp (Bool.and_eq_true_iff.mp h).1 _ hmem) (by decide)

theorem written_help {n text : List Char} (hname : is_name n = true) (hplain : '\\' ∉ text)
    (hline : '\n' ∉ text) : Written ("# HELP ".toList ++ (n ++ ' ' :: text)) (.help n text) := by
  refine ⟨?_, ?_, by simp⟩
  · have hspace : after [' '] (' ' :: text) = some text := after_append [' '] text
    rw [line, after_append]
    dsimp only
    rw [name_print hname (ends_name_cons (by decide) text), Option.bind_some]
    dsimp only
    rw [hspace, Option.bind_some, help_text_plain text hplain]
    rfl
  · have hn := name_one_line hname
    simp [hn, hline]

theorem written_type {n kind : List Char} (hname : is_name n = true) (hkind : kind ∈ KINDS) :
    Written ("# TYPE ".toList ++ (n ++ ' ' :: kind)) (.type n kind) := by
  refine ⟨?_, ?_, by simp⟩
  · have hspace : after [' '] (' ' :: kind) = some kind := after_append [' '] kind
    have hhelp : after "# HELP ".toList ("# TYPE ".toList ++ (n ++ ' ' :: kind)) = none := by
      simp [after]
    rw [line, hhelp, after_append]
    dsimp only
    rw [name_print hname (ends_name_cons (by decide) kind), Option.bind_some]
    dsimp only
    rw [hspace, Option.bind_some, if_pos hkind]
  · have hn := name_one_line hname
    have hk : '\n' ∉ kind := by
      have hall : ∀ k ∈ KINDS, '\n' ∉ k := by decide
      exact hall kind hkind
    simp [hn, hk]

/-- The labels of a sample as they are written. -/
def print_label_set : List (List Char × List Char) → List Char
  | [] => []
  | l :: ls => '\x7b' :: print_labels (l :: ls)

theorem written_sample {s : Sample} {value : List Char} (hname : is_name s.name = true)
    (hlabels : ∀ l ∈ s.labels, is_name l.1 = true) (hvalue : number value = some s.value)
    (hline : '\n' ∉ value) :
    Written (s.name ++ (print_label_set s.labels ++ ' ' :: value)) (.sample s) := by
  have hset : label_set (print_label_set s.labels ++ ' ' :: value)
      = some (s.labels, ' ' :: value) := by
    cases hls : s.labels with
    | nil => rfl
    | cons l ls =>
      rw [hls] at hlabels
      exact label_set_print (List.cons_ne_nil l ls) hlabels _
  have hends : EndsName (print_label_set s.labels ++ ' ' :: value) := by
    cases s.labels with
    | nil => exact ends_name_cons (by decide) value
    | cons l ls => exact ends_name_cons (by decide) _
  have hspace : after [' '] (' ' :: value) = some value := after_append [' '] value
  have hsample : sample (s.name ++ (print_label_set s.labels ++ ' ' :: value)) = some s := by
    rw [sample, name_print hname hends, Option.bind_some]
    dsimp only
    rw [hset, Option.bind_some]
    dsimp only
    rw [hspace, Option.bind_some, hvalue]
    rfl
  obtain ⟨c, rest, hcons⟩ : ∃ c rest, s.name = c :: rest := by
    cases hs : s.name with
    | nil => rw [hs] at hname; cases hname
    | cons c rest => exact ⟨c, rest, rfl⟩
  -- no name begins like a comment
  have hhead : c ≠ '#' := by
    intro hc
    have hall := List.all_eq_true.mp (Bool.and_eq_true_iff.mp hname).1
    have hchar := hall c (by rw [hcons]; exact List.mem_cons_self)
    rw [hc] at hchar
    exact absurd hchar (by decide)
  refine ⟨?_, ?_, by rw [hcons]; simp⟩
  · have hcomment : ∀ word : List Char,
        after ('#' :: word) (s.name ++ (print_label_set s.labels ++ ' ' :: value)) = none := by
      intro word
      rw [hcons]
      exact after_cons_ne (Ne.symm hhead) _ _
    rw [line, show "# HELP ".toList = '#' :: " HELP ".toList from rfl, hcomment,
      show "# TYPE ".toList = '#' :: " TYPE ".toList from rfl, hcomment, hsample]
    rfl
  · have hn := name_one_line hname
    have hset : '\n' ∉ print_label_set s.labels := by
      cases hls : s.labels with
      | nil => exact List.not_mem_nil
      | cons l ls =>
        rw [hls] at hlabels
        have hls := print_labels_one_line fun x hx => name_one_line (hlabels x hx)
        simp [print_label_set, hls]
    simp [hn, hset, hline]

/-! ### Whole pages -/

theorem splitOn_lines : ∀ texts : List (List Char), (∀ text ∈ texts, '\n' ∉ text) →
    (texts.flatMap (· ++ ['\n'])).splitOn '\n' = texts ++ [[]] := by
  intro texts
  induction texts with
  | nil => exact fun _ => rfl
  | cons text texts ih =>
    intro h
    have hrest := ih fun t ht => h t (List.mem_cons_of_mem text ht)
    rw [List.flatMap_cons, List.append_assoc, List.singleton_append,
      List.splitOn_append_cons_self_of_not_mem (h text List.mem_cons_self), hrest]
    rfl

/-- A piece of a page, read as these lines. -/
def Page (text : List Char) (lines : List Line) : Prop :=
  ∃ texts, text = texts.flatMap (· ++ ['\n']) ∧ List.Forall₂ Written texts lines

theorem Page.nil : Page [] [] := ⟨[], rfl, .nil⟩

theorem Page.line {text : List Char} {l : Line} (h : Written text l) : Page (text ++ ['\n']) [l] :=
  ⟨[text], (List.append_nil _).symm, .cons h .nil⟩

theorem Page.append {text text' : List Char} {lines lines' : List Line} (h : Page text lines)
    (h' : Page text' lines') : Page (text ++ text') (lines ++ lines') := by
  obtain ⟨texts, rfl, hall⟩ := h
  obtain ⟨texts', rfl, hall'⟩ := h'
  exact ⟨texts ++ texts', List.flatMap_append.symm, List.rel_append hall hall'⟩

theorem Page.join {α : Type} {write : α → List Char} {lines : α → List Line} : ∀ l : List α,
    (∀ a ∈ l, Page (write a) (lines a)) → Page (l.flatMap write) (l.flatMap lines)
  | [], _ => .nil
  | a :: l, h => by
    rw [List.flatMap_cons, List.flatMap_cons]
    exact (h a List.mem_cons_self).append
      (Page.join l fun b hb => h b (List.mem_cons_of_mem a hb))

theorem Page.append_text {s t : String} {lines lines' : List Line} (h : Page s.toList lines)
    (h' : Page t.toList lines') : Page (s ++ t).toList (lines ++ lines') := by
  rw [String.toList_append]
  exact h.append h'

theorem Page.join_text {α : Type} {write : α → String} {lines : α → List Line} (l : List α)
    (h : ∀ a ∈ l, Page (write a).toList (lines a)) :
    Page (String.join (l.map write)).toList (l.flatMap lines) := by
  rw [String.toList_join, List.flatMap_map]
  exact Page.join l h

/-- A page is read as its lines. -/
theorem Page.read {text : List Char} {lines : List Line} (h : Page text lines) :
    read text = some lines := by
  obtain ⟨texts, rfl, h⟩ := h
  have hone : ∀ text ∈ texts, '\n' ∉ text ∧ text ≠ [] := by
    induction h with
    | nil => exact fun _ hmem => absurd hmem List.not_mem_nil
    | cons hwritten _ ih =>
      exact List.forall_mem_cons.mpr ⟨⟨hwritten.one_line, hwritten.not_blank⟩, ih⟩
  -- behind the last line feed there is an empty piece
  have hkept : ((texts ++ [[]]).filter fun piece => !piece.isEmpty) = texts := by
    have hall : ∀ text ∈ texts, (!text.isEmpty) = true := fun text ht => by simp [(hone text ht).2]
    rw [List.filter_append, List.filter_eq_self.mpr hall]
    exact List.append_nil texts
  rw [Prometheus.read, splitOn_lines texts fun text ht => (hone text ht).1, hkept]
  clear hone hkept
  induction h with
  | nil => rfl
  | cons hwritten _ ih =>
    rw [List.mapM_cons, hwritten.reads, ih]
    rfl

theorem samples_append (lines lines' : List Line) :
    samples (lines ++ lines') = samples lines ++ samples lines' :=
  List.filterMap_append

theorem samples_flatMap {α : Type} (lines : α → List Line) (l : List α) :
    samples (l.flatMap lines) = l.flatMap fun a => samples (lines a) :=
  List.filterMap_flatMap

theorem samples_map (l : List Sample) : samples (l.map .sample) = l := by
  rw [samples, List.filterMap_map]
  exact List.filterMap_some

/-- Families of series are distinct where each is, and their samples go by
    names of which none is the front of another. -/
theorem nodup_families {α : Type} {l : List α} {base : α → List Char} {family : α → List Sample}
    (hnodup : ∀ a ∈ l, ((family a).map Sample.series).Nodup)
    (hbase : ∀ a ∈ l, ∀ s ∈ family a, base a <+: s.name)
    (hapart : (l.map base).Pairwise fun b c => ¬ b <+: c ∧ ¬ c <+: b) :
    ((l.flatMap family).map Sample.series).Nodup := by
  rw [List.map_flatMap, List.nodup_flatMap]
  refine ⟨hnodup, (List.pairwise_map.mp hapart).imp_of_mem ?_⟩
  intro a b ha hb hab series hsa hsb
  obtain ⟨s, hs, rfl⟩ := List.mem_map.mp hsa
  obtain ⟨t, ht, hseries⟩ := List.mem_map.mp hsb
  -- a name of both families begins with both bases
  have hname : t.name = s.name := congrArg Prod.fst hseries
  have hfront := hbase b hb t ht
  rw [hname] at hfront
  rcases List.prefix_or_prefix_of_prefix (hbase a ha s hs) hfront with h | h
  · exact hab.1 h
  · exact hab.2 h

/-- Where no two samples are of one series, a sample is found by its own. -/
theorem value_of_sample {lines : List Line}
    (hdistinct : ((samples lines).map Sample.series).Nodup) {s : Sample} (hs : s ∈ samples lines) :
    value_of lines s.series = some s.value := by
  have hfound : (samples lines).find? (fun t => t.series = s.series) = some s := by
    have hsome : ((samples lines).find? fun t => t.series = s.series).isSome = true := by
      rw [List.find?_isSome]
      exact ⟨s, hs, decide_eq_true rfl⟩
    obtain ⟨t, ht⟩ := Option.isSome_iff_exists.mp hsome
    have hseries : t.series = s.series := by simpa using List.find?_some ht
    rw [ht, List.inj_on_of_nodup_map hdistinct (List.mem_of_find?_eq_some ht) hs hseries]
  rw [value_of, hfound]
  rfl

end Prometheus

end AgentTraceGateway
