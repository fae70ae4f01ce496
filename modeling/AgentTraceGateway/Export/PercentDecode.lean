import AgentTraceGateway.Export.Secrecy
import AgentTraceGateway.Lib.CutText

/-! # Percent-Encoded Credentials

  A userinfo is percent-decoded before it is sent: a `%` in front of two
  hexadecimal digits makes one byte, and everything else stands for itself.
  The decoder reads the digits as a slice of two bytes, which is no slice
  where it ends inside a character, and with a number parser, which takes a
  sign for a digit. Where neither happens the decoder does what it should. -/

namespace AgentTraceGateway

/-! ### Decoding by characters -/

/-- The value of a hexadecimal digit. -/
def digit_value (c : Char) : Option Nat :=
  if '0' ≤ c ∧ c ≤ '9' then some (c.toNat - '0'.toNat)
  else if 'A' ≤ c ∧ c ≤ 'F' then some (c.toNat - 'A'.toNat + 10)
  else if 'a' ≤ c ∧ c ≤ 'f' then some (c.toNat - 'a'.toNat + 10)
  else none

/-- The byte of two hexadecimal digits. -/
def octet (h l : Char) : Option UInt8 :=
  (digit_value h).bind fun a => (digit_value l).map fun b => UInt8.ofNat (a * 16 + b)

/-- The bytes a percent-encoded text stands for. -/
def unescaped : List Char → Bytes
  | [] => []
  | c :: rest =>
    if c = '%' then
      match rest with
      | h :: l :: tail =>
        match octet h l with
        | some v => v :: unescaped tail
        | none => 0x25 :: unescaped (h :: l :: tail)
      | short => 0x25 :: unescaped short
    else String.utf8EncodeChar c ++ unescaped rest

example : unescaped "p%40s%zé%4".toList = utf8_bytes "p@s%zé%4" := by decide +kernel

/-- What follows a `%` is read as it should be: the slice ends between two
    characters, and does not begin with a sign. -/
def PlainBehind : List Char → Prop
  | [] => True
  | c :: rest =>
    c.utf8Size ≤ 2 ∧
      (c.utf8Size = 1 →
        ∀ d ∈ rest.head?, d.utf8Size = 1 ∧ ¬ (c = '+' ∧ (digit_value d).isSome = true))

/-- Every `%` of a text is. -/
def PlainlyEncoded (s : List Char) : Prop :=
  ∀ front rest, s = front ++ '%' :: rest → PlainBehind rest

theorem plainly_encoded_nil : PlainlyEncoded [] := by
  intro front rest heq
  cases front <;> cases heq

/-- Only a `%` matters. -/
theorem plainly_encoded_cons_of_ne {c : Char} (hc : c ≠ '%') (rest : List Char) :
    PlainlyEncoded (c :: rest) ↔ PlainlyEncoded rest := by
  constructor
  · intro h front behind heq
    exact h (c :: front) behind (congrArg (c :: ·) heq)
  · intro h front behind heq
    cases front with
    | nil => exact absurd (List.cons.inj heq).1 hc
    | cons d front => exact h front behind (List.cons.inj heq).2

theorem plainly_encoded_percent (rest : List Char) :
    PlainlyEncoded ('%' :: rest) ↔ PlainBehind rest ∧ PlainlyEncoded rest := by
  constructor
  · intro h
    refine ⟨h [] rest rfl, fun front behind heq => ?_⟩
    exact h ('%' :: front) behind (congrArg ('%' :: ·) heq)
  · rintro ⟨hfirst, hrest⟩ front behind heq
    cases front with
    | nil =>
      rw [← (List.cons.inj heq).2]
      exact hfirst
    | cons d front => exact hrest front behind (List.cons.inj heq).2

/-! ### Digits -/

theorem digit_value_ascii {c : Char} {n : Nat} (h : digit_value c = some n) :
    c.toNat < 0x80 ∧ n < 16 := by
  have hle : ∀ lo hi : Char, lo ≤ c ∧ c ≤ hi → lo.toNat ≤ c.toNat ∧ c.toNat ≤ hi.toNat :=
    fun lo hi hin => ⟨UInt32.le_iff_toNat_le.mp hin.1, UInt32.le_iff_toNat_le.mp hin.2⟩
  unfold digit_value at h
  split_ifs at h with h0 hA ha
  · have := hle _ _ h0
    cases h
    simp only [Char.reduceToNat] at this ⊢
    omega
  · have := hle _ _ hA
    cases h
    simp only [Char.reduceToNat] at this ⊢
    omega
  · have := hle _ _ ha
    cases h
    simp only [Char.reduceToNat] at this ⊢
    omega

/-- A digit's byte has the digit's value. -/
theorem hex_value_ascii {c : Char} (hc : c.toNat < 0x80) :
    hex_value (UInt8.ofNat c.toNat) = (digit_value c).map UInt8.ofNat := by
  have hall : ∀ n < 0x80, hex_value (UInt8.ofNat n) = (digit_value (Char.ofNat n)).map UInt8.ofNat := by
    decide +kernel
  rw [hall c.toNat hc, Char.ofNat_toNat]

/-- The bytes of longer characters are no digits. -/
theorem hex_value_longer {b : UInt8} (hb : 0xC0 ≤ b.toNat) : hex_value b = none := by
  have hall : ∀ n < 0x100, 0xC0 ≤ n → hex_value (UInt8.ofNat n) = none := by decide +kernel
  rw [← UInt8.ofNat_toNat (x := b)]
  exact hall b.toNat b.toNat_lt hb

/-- A pair of digits is the byte they stand for. -/
theorem from_hex_pair_ascii {h l : Char} (hh : h.toNat < 0x80) (hl : l.toNat < 0x80)
    (hsign : h ≠ '+') :
    from_hex_pair (UInt8.ofNat h.toNat) (UInt8.ofNat l.toNat) = octet h l := by
  have hbyte : UInt8.ofNat h.toNat ≠ 0x2B := by
    intro heq
    apply hsign
    have hnat := congrArg UInt8.toNat heq
    rw [UInt8.toNat_ofNat', Nat.mod_eq_of_lt (by omega)] at hnat
    rw [← Char.ofNat_toNat h, hnat]
    rfl
  rw [from_hex_pair, if_neg hbyte, hex_value_ascii hh, hex_value_ascii hl, octet]
  cases digit_value h with
  | none => rfl
  | some a =>
    cases digit_value l with
    | none => rfl
    | some b => simp [UInt8.ofNat_add, UInt8.ofNat_mul]

/-- A sign in front of a digit is read as no digit. -/
theorem from_hex_pair_sign {l : Char} (hl : l.toNat < 0x80) :
    from_hex_pair (UInt8.ofNat '+'.toNat) (UInt8.ofNat l.toNat) = (digit_value l).map UInt8.ofNat := by
  rw [from_hex_pair, if_pos (by decide), hex_value_ascii hl]

/-- No other pair makes a byte. -/
theorem octet_eq_none_of_longer {h l : Char} (hlong : ¬ (h.toNat < 0x80 ∧ l.toNat < 0x80)) :
    octet h l = none := by
  unfold octet
  cases hh : digit_value h with
  | none => rfl
  | some a =>
    cases hl : digit_value l with
    | none => rfl
    | some b => exact absurd ⟨(digit_value_ascii hh).1, (digit_value_ascii hl).1⟩ hlong

theorem octet_no_percent {h l : Char} {v : UInt8} (hv : octet h l = some v) :
    h ≠ '%' ∧ l ≠ '%' := by
  have hpercent : digit_value '%' = none := by decide
  constructor
  · rintro rfl
    simp [octet, hpercent] at hv
  · rintro rfl
    cases hh : digit_value h <;> simp [octet, hpercent, hh] at hv

/-! ### The decoder by characters -/

/-- The bytes of characters. -/
def encoded (s : List Char) : Bytes := s.flatMap String.utf8EncodeChar

@[simp] theorem encoded_nil : encoded [] = [] := rfl

@[simp] theorem encoded_cons (c : Char) (s : List Char) :
    encoded (c :: s) = String.utf8EncodeChar c ++ encoded s := List.flatMap_cons

/-- Encoded characters start at a boundary. -/
theorem at_boundary_encoded (s : List Char) : at_boundary (encoded s) = true := by
  cases s with
  | nil => rfl
  | cons c s =>
    obtain ⟨b, rest, henc, hb⟩ := Utf8.head_utf8EncodeChar c
    rw [encoded_cons, henc]
    show (!(b &&& 0xC0 == 0x80)) = true
    rw [hb]
    rfl

/-- The bytes behind a character's first one do not. -/
theorem at_boundary_inside {c : Char} {b : UInt8} {bs : Bytes}
    (hb : b ∈ (String.utf8EncodeChar c).tail) : at_boundary (b :: bs) = false := by
  have hcont : ∀ k < 0x40, at_boundary [UInt8.ofNat (k + 0x80)] = false := by decide +kernel
  obtain ⟨k, hk, rfl⟩ := Utf8.tail_utf8EncodeChar c hb
  exact hcont k hk

/-- No byte of another character is a `%`. -/
theorem percent_not_mem_utf8EncodeChar {c : Char} (hc : c ≠ '%') :
    (0x25 : UInt8) ∉ String.utf8EncodeChar c := by
  have hcont : ∀ k < 0x40, (0x25 : UInt8) ≠ UInt8.ofNat (k + 0x80) := by decide +kernel
  by_cases hascii : c.toNat < 0x80
  · rw [Utf8.utf8EncodeChar_one hascii, List.mem_singleton]
    intro heq
    apply hc
    have hnat := congrArg UInt8.toNat heq
    rw [UInt8.toNat_ofNat', Nat.mod_eq_of_lt (by omega)] at hnat
    rw [← Char.ofNat_toNat c, ← hnat]
    rfl
  · obtain ⟨b, rest, henc, hb⟩ := Utf8.utf8EncodeChar_longer hascii
    intro hmem
    rw [henc, List.mem_cons] at hmem
    rcases hmem with rfl | hmem
    · exact absurd hb (by decide)
    · obtain ⟨k, hk, heq⟩ := Utf8.tail_utf8EncodeChar c (b := 0x25) (by rw [henc]; exact hmem)
      exact hcont k hk heq

/-- Another character stands for itself. -/
theorem percent_decode_bytes_char {c : Char} (hc : c ≠ '%') (bs : Bytes) :
    percent_decode_bytes (String.utf8EncodeChar c ++ bs)
      = (percent_decode_bytes bs).map (String.utf8EncodeChar c ++ ·) := by
  have hno := percent_not_mem_utf8EncodeChar hc
  generalize String.utf8EncodeChar c = enc at hno ⊢
  induction enc with
  | nil => simp
  | cons b enc ih =>
    have hb : b ≠ 0x25 := fun heq => hno (heq ▸ List.mem_cons_self)
    rw [List.cons_append, percent_decode_bytes_cons_of_ne hb,
      ih fun hmem => hno (List.mem_cons_of_mem _ hmem), Option.map_map]
    rfl

/-- What a `%` does with the characters behind it. -/
inductive Behind (rest : List Char) : Prop
  /-- It panics. -/
  | cut (unread : ¬ PlainBehind rest)
      (step : percent_decode_bytes (0x25 :: encoded rest) = none)
  /-- It is decoded with a sign and a digit. -/
  | signed (l : Char) (tail : List Char) (v : UInt8) (behind : rest = '+' :: l :: tail)
      (unread : ¬ PlainBehind rest) (control : v.toNat < 0x10)
      (step : percent_decode_bytes (0x25 :: encoded rest)
        = (percent_decode_bytes (encoded tail)).map (v :: ·))
  /-- It is decoded with two digits. -/
  | digits (h l : Char) (tail : List Char) (v : UInt8) (behind : rest = h :: l :: tail)
      (read : PlainBehind rest) (pair : octet h l = some v)
      (step : percent_decode_bytes (0x25 :: encoded rest)
        = (percent_decode_bytes (encoded tail)).map (v :: ·))
  /-- It stands for itself. -/
  | alone (read : PlainBehind rest)
      (no_pair : ∀ h l tail, rest = h :: l :: tail → octet h l = none)
      (step : percent_decode_bytes (0x25 :: encoded rest)
        = (percent_decode_bytes (encoded rest)).map (0x25 :: ·))

/-- Behind a `%`, a character of two bytes is a slice with no digit in it, and a
    longer one is cut. -/
theorem behind_longer {c : Char} (hc : ¬ c.toNat < 0x80) (rest : List Char) :
    Behind (c :: rest) := by
  have hone : c.utf8Size ≠ 1 := fun h => hc ((Utf8.utf8Size_eq_one_iff c).mp h)
  have hsize := String.length_utf8EncodeChar c
  obtain ⟨b, enc, henc, hb⟩ := Utf8.utf8EncodeChar_longer hc
  rw [henc, List.length_cons] at hsize
  match enc with
  | [] => exact absurd hsize.symm hone
  | [b₂] =>
    refine .alone ⟨Nat.le_of_eq hsize.symm, fun h => absurd h hone⟩ ?_ ?_
    · intro h l tail heq
      cases heq
      exact octet_eq_none_of_longer fun hboth => hc hboth.1
    · have hpair : from_hex_pair b b₂ = none := by
        rw [from_hex_pair, if_neg, hex_value_longer hb]
        · rfl
        · rintro rfl
          exact absurd hb (by decide)
      rw [encoded_cons, henc]
      exact percent_decode_bytes_no_pair (at_boundary_encoded rest) hpair
  | b₂ :: b₃ :: enc =>
    have hlong : ¬ c.utf8Size ≤ 2 := by
      rw [List.length_cons, List.length_cons] at hsize
      omega
    refine .cut (fun h => hlong h.1) ?_
    rw [encoded_cons, henc]
    exact percent_decode_bytes_cut (at_boundary_inside (c := c) (by simp [henc]))

/-- Behind a `%`, two ASCII characters are the slice. -/
theorem behind_ascii {h l : Char} (hh : h.toNat < 0x80) (hl : l.toNat < 0x80)
    (tail : List Char) : Behind (h :: l :: tail) := by
  have hsize : h.utf8Size = 1 := (Utf8.utf8Size_eq_one_iff h).mpr hh
  have hsize' : l.utf8Size = 1 := (Utf8.utf8Size_eq_one_iff l).mpr hl
  have hslice := at_boundary_encoded tail
  have hbytes : encoded (h :: l :: tail)
      = UInt8.ofNat h.toNat :: UInt8.ofNat l.toNat :: encoded tail := by
    rw [encoded_cons, encoded_cons, Utf8.utf8EncodeChar_one hh, Utf8.utf8EncodeChar_one hl]
    rfl
  have hplain : PlainBehind (h :: l :: tail) ↔ ¬ (h = '+' ∧ (digit_value l).isSome = true) := by
    simp [PlainBehind, hsize, hsize']
  by_cases hsign : h = '+'
  · subst hsign
    have hpair := from_hex_pair_sign hl
    cases hdigit : digit_value l with
    | none =>
      rw [hdigit] at hpair
      refine .alone (hplain.mpr (by simp [hdigit])) ?_ ?_
      · intro h l tail heq
        cases heq
        rfl
      · rw [hbytes]
        exact percent_decode_bytes_no_pair hslice hpair
    | some n =>
      rw [hdigit] at hpair
      refine .signed l tail (UInt8.ofNat n) rfl (fun h => hplain.mp h (by simp [hdigit])) ?_ ?_
      · have hn := (digit_value_ascii hdigit).2
        rwa [UInt8.toNat_ofNat', Nat.mod_eq_of_lt (by omega)]
      · rw [hbytes]
        exact percent_decode_bytes_pair hslice hpair
  · have hpair := from_hex_pair_ascii hh hl hsign
    have hread := hplain.mpr fun h => hsign h.1
    cases hoctet : octet h l with
    | none =>
      rw [hoctet] at hpair
      refine .alone hread ?_ ?_
      · intro h l tail heq
        cases heq
        exact hoctet
      · rw [hbytes]
        exact percent_decode_bytes_no_pair hslice hpair
    | some v =>
      rw [hoctet] at hpair
      refine .digits h l tail v rfl hread hoctet ?_
      rw [hbytes]
      exact percent_decode_bytes_pair hslice hpair

theorem behind_percent (rest : List Char) : Behind rest := by
  match rest with
  | [] => exact .alone trivial (fun _ _ _ heq => nomatch heq) (percent_decode_bytes_short nofun)
  | [c] =>
    by_cases hc : c.toNat < 0x80
    · have hsize : c.utf8Size = 1 := (Utf8.utf8Size_eq_one_iff c).mpr hc
      refine .alone ⟨by omega, fun _ => nofun⟩ (fun _ _ _ heq => nomatch heq) ?_
      rw [encoded_cons, Utf8.utf8EncodeChar_one hc]
      exact percent_decode_bytes_short nofun
    · exact behind_longer hc []
  | h :: l :: tail =>
    by_cases hh : h.toNat < 0x80
    · by_cases hl : l.toNat < 0x80
      · exact behind_ascii hh hl tail
      · -- the slice ends behind the first byte of the second character
        have hsize : h.utf8Size = 1 := (Utf8.utf8Size_eq_one_iff h).mpr hh
        obtain ⟨b, enc, henc, hb⟩ := Utf8.utf8EncodeChar_longer hl
        refine .cut (fun hplain => ?_) ?_
        · exact hl ((Utf8.utf8Size_eq_one_iff l).mp (hplain.2 hsize l rfl).1)
        · match enc with
          | [] =>
            have hlen := String.length_utf8EncodeChar l
            rw [henc] at hlen
            exact absurd ((Utf8.utf8Size_eq_one_iff l).mp hlen.symm) hl
          | b₂ :: enc =>
            rw [encoded_cons, encoded_cons, henc, Utf8.utf8EncodeChar_one hh]
            exact percent_decode_bytes_cut (at_boundary_inside (c := l) (by simp [henc]))
    · exact behind_longer hh (l :: tail)

/-! ### What decoding gives -/

/-- Decoding panics, or gives a control character where a `%` should be. -/
def Diverges (out : Option Bytes) (bytes : Bytes) : Prop :=
  ∀ decoded, out = some decoded → ∃ front v behind behind', v.toNat < 0x10 ∧
    decoded = front ++ v :: behind ∧ bytes = front ++ 0x25 :: behind'

theorem diverges_append {out : Option Bytes} {bytes : Bytes} (h : Diverges out bytes)
    (front : Bytes) : Diverges (out.map (front ++ ·)) (front ++ bytes) := by
  intro decoded hout
  obtain ⟨decoded, hdecoded, rfl⟩ := Option.map_eq_some_iff.mp hout
  obtain ⟨mid, v, behind, behind', hv, rfl, rfl⟩ := h decoded hdecoded
  exact ⟨front ++ mid, v, behind, behind', hv, by simp, by simp⟩

/-- A text that has another control character in place of a `%` is another
    text, whatever stands behind it. -/
theorem lossy_ne_of_diverges {out : Option Bytes} {bytes : Bytes} (h : Diverges out bytes) :
    out.map (fun decoded => String.ofList (utf8_lossy decoded))
      ≠ some (String.ofList (utf8_lossy bytes)) := by
  intro heq
  obtain ⟨decoded, hdecoded, htext⟩ := Option.map_eq_some_iff.mp heq
  obtain ⟨front, v, behind, behind', hv, rfl, rfl⟩ := h decoded hdecoded
  have hchars := String.ofList_injective htext
  have hascii : v < 0x80 := UInt8.lt_iff_toNat_lt.mpr (Nat.lt_trans hv (by decide))
  rw [utf8_lossy_append_ascii hascii, utf8_lossy_append_ascii (by decide)] at hchars
  have hchar := (List.cons.inj (List.append_cancel_left hchars)).1
  have hcontrol : ∀ n < 0x10, Char.ofNat n ≠ Char.ofNat (0x25 : UInt8).toNat := by decide +kernel
  exact hcontrol _ hv hchar

theorem unescaped_cons_of_ne {c : Char} (hc : c ≠ '%') (rest : List Char) :
    unescaped (c :: rest) = String.utf8EncodeChar c ++ unescaped rest := by
  conv_lhs => rw [unescaped.eq_def]
  exact if_neg hc

theorem unescaped_alone {rest : List Char}
    (h : ∀ h l tail, rest = h :: l :: tail → octet h l = none) :
    unescaped ('%' :: rest) = 0x25 :: unescaped rest := by
  match rest with
  | [] => rfl
  | [_] => rfl
  | a :: l :: tail =>
    rw [unescaped, if_pos rfl]
    simp only [h a l tail rfl]

theorem unescaped_pair {h l : Char} {v : UInt8} (hv : octet h l = some v) (tail : List Char) :
    unescaped ('%' :: h :: l :: tail) = v :: unescaped tail := by
  rw [unescaped, if_pos rfl]
  simp only [hv]

/-- Decoding does what it should exactly where every `%` is read so, and gives
    another text everywhere else. -/
theorem decodes_or_diverges (s : List Char) :
    (PlainlyEncoded s ∧ percent_decode_bytes (encoded s) = some (unescaped s)) ∨
      (¬ PlainlyEncoded s ∧ Diverges (percent_decode_bytes (encoded s)) (unescaped s)) := by
  -- a pair of digits takes two characters more, so the induction is on the length
  induction hlen : s.length using Nat.strongRecOn generalizing s with
  | ind n ih =>
  subst hlen
  cases s with
  | nil => exact Or.inl ⟨plainly_encoded_nil, rfl⟩
  | cons c rest =>
    by_cases hc : c = '%'
    · subst hc
      rw [encoded_cons, Utf8.utf8EncodeChar_one (by decide), plainly_encoded_percent]
      change _ ∧ percent_decode_bytes (0x25 :: encoded rest) = _ ∨
        _ ∧ Diverges (percent_decode_bytes (0x25 :: encoded rest)) _
      cases behind_percent rest with
      | cut unread step =>
        refine Or.inr ⟨fun h => unread h.1, ?_⟩
        rw [step]
        exact fun _ h => nomatch h
      | signed l tail v behind unread control step =>
        refine Or.inr ⟨fun h => unread h.1, ?_⟩
        intro decoded hdecoded
        rw [step] at hdecoded
        obtain ⟨bytes, -, rfl⟩ := Option.map_eq_some_iff.mp hdecoded
        refine ⟨[], v, bytes, unescaped rest, control, rfl, unescaped_alone ?_⟩
        rintro h l tail heq
        rw [behind] at heq
        cases heq
        rfl
      | digits h l tail v behind read pair step =>
        subst behind
        obtain ⟨hh, hl⟩ := octet_no_percent pair
        rw [step, unescaped_pair pair, plainly_encoded_cons_of_ne hh,
          plainly_encoded_cons_of_ne hl]
        rcases ih tail.length (by simp only [List.length_cons]; omega) tail rfl with
          ⟨hplain, hout⟩ | ⟨hplain, hout⟩
        · exact Or.inl ⟨⟨read, hplain⟩, by rw [hout]; rfl⟩
        · exact Or.inr ⟨fun h => hplain h.2, diverges_append hout [v]⟩
      | alone read no_pair step =>
        rw [step, unescaped_alone no_pair]
        rcases ih rest.length (Nat.lt_succ_self _) rest rfl with ⟨hplain, hout⟩ | ⟨hplain, hout⟩
        · exact Or.inl ⟨⟨read, hplain⟩, by rw [hout]; rfl⟩
        · exact Or.inr ⟨fun h => hplain h.2, diverges_append hout [0x25]⟩
    · rw [encoded_cons, percent_decode_bytes_char hc, unescaped_cons_of_ne hc,
        plainly_encoded_cons_of_ne hc]
      rcases ih rest.length (Nat.lt_succ_self _) rest rfl with ⟨hplain, hout⟩ | ⟨hplain, hout⟩
      · exact Or.inl ⟨hplain, by rw [hout]; rfl⟩
      · exact Or.inr ⟨hplain, diverges_append hout _⟩

/-- A userinfo is decoded as it should be exactly where no slice behind a `%`
    ends inside a character or begins with a sign. -/
theorem percent_decode_iff (s : String) :
    percent_decode s = some (String.ofList (utf8_lossy (unescaped s.toList))) ↔
      PlainlyEncoded s.toList := by
  rw [percent_decode, utf8_bytes_eq]
  change (percent_decode_bytes (encoded s.toList)).map _ = _ ↔ _
  rcases decodes_or_diverges s.toList with ⟨hplain, hout⟩ | ⟨hplain, hout⟩
  · rw [hout]
    exact iff_of_true rfl hplain
  · exact iff_of_false (lossy_ne_of_diverges hout) hplain

/-- A `%` in front of a letter and a euro sign panics, and one in front of a
    sign and a digit makes a line feed. -/
theorem percent_decode_misread :
    percent_decode "%a€" = none ∧ percent_decode "%+a" = some "\n" ∧
      ¬ ∀ s, percent_decode s = some (String.ofList (utf8_lossy (unescaped s.toList))) := by
  have hpanic : percent_decode "%a€" = none := by decide +kernel
  refine ⟨hpanic, by decide +kernel, fun hall => ?_⟩
  have := hall "%a€"
  rw [hpanic] at this
  cases this

end AgentTraceGateway
