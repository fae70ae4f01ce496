import Mathlib.Algebra.Group.Nat.Defs
import Mathlib.Data.List.Basic
import Mathlib.Tactic.Common

/-! # UTF-8 Decoding of Byte Lists

  Byte-level text decoding, one byte at a time. The decoder is a small
  machine that is either between characters or owes some continuation
  bytes; an ill-formed maximal prefix is replaced by one `U+FFFD`, and the
  byte that revealed it is read again as the start of a character.

  The library names nothing of any program. It offers:

  - `utf8_lossy`: decoding with replacement (total);
  - `utf8_strict`: decoding that fails on ill-formed input;
  - `utf8_lossy_append_ascii`: an ASCII byte is a cut point, so decoding
    distributes over a concatenation at it;
  - `utf8_lossy_utf8_bytes`: a text is read back from its bytes.
-/

namespace AgentTraceGateway

/-- A buffer of raw bytes. -/
abbrev Bytes : Type := List UInt8

namespace Utf8

/-- The replacement character. -/
def replacement : Char := Char.ofNat 0xFFFD

/-! ### The machine -/

/-- A character in progress: the continuation bytes still owed, the code
    point bits read so far, and the range the next byte must lie in. -/
structure Pending where
  owed : Nat
  bits : Nat
  low : UInt8
  high : UInt8
  deriving DecidableEq, Repr

/-- What one byte does: the machine's next state, the characters it emits,
    and whether the input was well formed so far. -/
structure Out where
  next : Option Pending
  chars : List Char
  ok : Bool
  deriving DecidableEq, Repr

/-- The first byte of a character (Unicode Table 3-7, well-formed byte
    sequences). -/
def start (b : UInt8) : Out :=
  if b < 0x80 then ⟨none, [Char.ofNat b.toNat], true⟩
  else if 0xC2 ≤ b ∧ b ≤ 0xDF then ⟨some ⟨1, b.toNat % 0x20, 0x80, 0xBF⟩, [], true⟩
  else if b = 0xE0 then ⟨some ⟨2, 0, 0xA0, 0xBF⟩, [], true⟩
  else if b = 0xED then ⟨some ⟨2, 0xD, 0x80, 0x9F⟩, [], true⟩
  else if 0xE1 ≤ b ∧ b ≤ 0xEF then ⟨some ⟨2, b.toNat % 0x10, 0x80, 0xBF⟩, [], true⟩
  else if b = 0xF0 then ⟨some ⟨3, 0, 0x90, 0xBF⟩, [], true⟩
  else if b = 0xF4 then ⟨some ⟨3, 4, 0x80, 0x8F⟩, [], true⟩
  else if 0xF1 ≤ b ∧ b ≤ 0xF3 then ⟨some ⟨3, b.toNat % 0x08, 0x80, 0xBF⟩, [], true⟩
  else ⟨none, [replacement], false⟩

/-- One byte of input. A byte outside the expected range ends the pending
    sequence as ill-formed and is read again from between characters. -/
def step (q : Option Pending) (b : UInt8) : Out :=
  match q with
  | none => start b
  | some p =>
    if p.low ≤ b ∧ b ≤ p.high then
      let bits := p.bits * 0x40 + b.toNat % 0x40
      if p.owed ≤ 1 then ⟨none, [Char.ofNat bits], true⟩
      else ⟨some ⟨p.owed - 1, bits, 0x80, 0xBF⟩, [], true⟩
    else
      let o := start b
      ⟨o.next, replacement :: o.chars, false⟩

/-- A sequence cut short by the end of input is replaced as one. -/
def flush : Option Pending → List Char
  | none => []
  | some _ => [replacement]

/-- Decode with replacement from machine state `q`. -/
def lossy_from : Option Pending → Bytes → List Char
  | q, [] => flush q
  | q, b :: bs => (step q b).chars ++ lossy_from (step q b).next bs

/-- Decode from machine state `q`, failing at the first ill-formed sequence. -/
def strict_from : Option Pending → Bytes → Option (List Char)
  | none, [] => some []
  | some _, [] => none
  | q, b :: bs =>
    if (step q b).ok then (strict_from (step q b).next bs).map ((step q b).chars ++ ·)
    else none

end Utf8

/-- Decoding with every ill-formed sequence replaced by `U+FFFD`. -/
def utf8_lossy (bs : Bytes) : List Char := Utf8.lossy_from none bs

/-- Decoding of well-formed input only. -/
def utf8_strict (bs : Bytes) : Option (List Char) := Utf8.strict_from none bs

/-- The UTF-8 bytes of a string. -/
def utf8_bytes (s : String) : Bytes := s.toUTF8.data.toList

namespace Utf8

/-! ### ASCII bytes are cut points -/

/-- An ASCII byte is never a continuation byte. -/
def Bounded (q : Option Pending) : Prop := ∀ p, q = some p → 0x80 ≤ p.low

theorem start_bounded (b : UInt8) : Bounded (start b).next := by
  intro p hp
  unfold start at hp
  split_ifs at hp <;> cases hp <;> simp only <;> decide

theorem step_bounded {q : Option Pending} (hq : Bounded q) (b : UInt8) :
    Bounded (step q b).next := by
  cases q with
  | none => exact start_bounded b
  | some p =>
    intro p' hp'
    simp only [step] at hp'
    split_ifs at hp' with hin howed
    · cases hp'
      exact UInt8.le_refl _
    · exact start_bounded b p' hp'

theorem start_ascii {b : UInt8} (hb : b < 0x80) :
    start b = ⟨none, [Char.ofNat b.toNat], true⟩ := by
  unfold start
  rw [if_pos hb]

/-- An ASCII byte flushes what is pending and then stands for itself. -/
theorem step_ascii {q : Option Pending} (hq : Bounded q) {b : UInt8} (hb : b < 0x80) :
    (step q b).next = none ∧ (step q b).chars = flush q ++ [Char.ofNat b.toNat] := by
  cases q with
  | none => simp [step, start_ascii hb, flush]
  | some p =>
    have hlow : ¬ (p.low ≤ b ∧ b ≤ p.high) := by
      rintro ⟨hle, -⟩
      have h80 := hq p rfl
      exact absurd (UInt8.lt_of_lt_of_le hb (UInt8.le_trans h80 hle)) (UInt8.lt_irrefl b)
    simp [step, hlow, start_ascii hb, flush]

theorem lossy_from_append_ascii {b : UInt8} (hb : b < 0x80) (y : Bytes) :
    ∀ (x : Bytes) (q : Option Pending), Bounded q →
      lossy_from q (x ++ b :: y)
        = lossy_from q x ++ Char.ofNat b.toNat :: lossy_from none y
  | [], q, hq => by
    obtain ⟨hnext, hchars⟩ := step_ascii hq hb
    simp [lossy_from, hnext, hchars]
  | c :: x, q, hq => by
    have ih := lossy_from_append_ascii hb y x (step q c).next (step_bounded hq c)
    simp [lossy_from, ih]

/-- Strict decoding, where it succeeds, is lossy decoding. -/
theorem lossy_from_of_strict :
    ∀ (bs : Bytes) (q : Option Pending) (t : List Char),
      strict_from q bs = some t → lossy_from q bs = t
  | [], none, t, h => by simpa [strict_from, lossy_from, flush] using h
  | [], some _, t, h => by simp [strict_from] at h
  | b :: bs, q, t, h => by
    simp only [strict_from] at h
    split_ifs at h with hok
    obtain ⟨u, hu, rfl⟩ := Option.map_eq_some_iff.mp h
    rw [lossy_from, lossy_from_of_strict bs _ u hu]

end Utf8

/-- Decoding distributes over a concatenation at an ASCII byte. -/
theorem utf8_lossy_append_ascii {b : UInt8} (hb : b < 0x80) (x y : Bytes) :
    utf8_lossy (x ++ b :: y) = utf8_lossy x ++ Char.ofNat b.toNat :: utf8_lossy y :=
  Utf8.lossy_from_append_ascii hb y x none (fun _ h => nomatch h)

/-- Where the input is well formed, nothing is replaced. -/
theorem utf8_lossy_of_strict {bs : Bytes} {t : List Char} (h : utf8_strict bs = some t) :
    utf8_lossy bs = t :=
  Utf8.lossy_from_of_strict bs none t h

namespace Utf8

/-! ### Encoded text -/

theorem start_two : ∀ k < 0x20, 2 ≤ k →
    start (UInt8.ofNat (k + 0xC0)) = ⟨some ⟨1, k, 0x80, 0xBF⟩, [], true⟩ := by
  decide

theorem start_three : ∀ k < 0x10, start (UInt8.ofNat (k + 0xE0))
    = ⟨some ⟨2, k, if k = 0 then 0xA0 else 0x80, if k = 0xD then 0x9F else 0xBF⟩, [], true⟩ := by
  decide

theorem start_four : ∀ k < 5, start (UInt8.ofNat (k + 0xF0))
    = ⟨some ⟨3, k, if k = 0 then 0x90 else 0x80, if k = 4 then 0x8F else 0xBF⟩, [], true⟩ := by
  decide

/-- The machine reads one character of the bytes, and nothing is ill formed. -/
def Emits : Option Pending → Bytes → Char → Prop
  | _, [], _ => False
  | q, [b], c => step q b = ⟨none, [c], true⟩
  | q, b :: bs, c => ∃ p, step q b = ⟨some p, [], true⟩ ∧ Emits (some p) bs c

theorem Emits.lossy (c : Char) (rest : Bytes) : ∀ (bs : Bytes) (q : Option Pending),
    Emits q bs c → lossy_from q (bs ++ rest) = c :: lossy_from none rest
  | [], _, h => absurd h id
  | [b], q, h => by
    have hstep : step q b = ⟨none, [c], true⟩ := h
    rw [List.singleton_append, lossy_from, hstep]
    rfl
  | b :: b' :: bs, q, ⟨p, hstep, hp⟩ => by
    rw [List.cons_append, lossy_from, hstep]
    exact Emits.lossy c rest (b' :: bs) (some p) hp

theorem Emits.strict (c : Char) (rest : Bytes) : ∀ (bs : Bytes) (q : Option Pending),
    Emits q bs c → strict_from q (bs ++ rest) = (strict_from none rest).map (c :: ·)
  | [], _, h => absurd h id
  | [b], q, h => by
    have hstep : step q b = ⟨none, [c], true⟩ := h
    rw [List.singleton_append, strict_from, hstep]
    rfl
  | b :: b' :: bs, q, ⟨p, hstep, hp⟩ => by
    have hrest := Emits.strict c rest (b' :: bs) (some p) hp
    rw [List.cons_append, strict_from, hstep, if_pos rfl, hrest, Option.map_map]
    rfl

/-- A continuation byte in the range that is due adds its six bits. -/
theorem step_continuation {owed bits k : Nat} {low high : UInt8} (hk : k < 0x40)
    (hlow : low.toNat ≤ k + 0x80) (hhigh : k + 0x80 ≤ high.toNat) :
    step (some ⟨owed + 1, bits, low, high⟩) (UInt8.ofNat (k + 0x80))
      = if owed = 0 then ⟨none, [Char.ofNat (bits * 0x40 + k)], true⟩
        else ⟨some ⟨owed, bits * 0x40 + k, 0x80, 0xBF⟩, [], true⟩ := by
  have hbyte : (UInt8.ofNat (k + 0x80)).toNat = k + 0x80 := by
    rw [UInt8.toNat_ofNat']
    omega
  generalize UInt8.ofNat (k + 0x80) = b at hbyte
  have hin : low ≤ b ∧ b ≤ high := by
    rw [UInt8.le_iff_toNat_le, UInt8.le_iff_toNat_le, hbyte]
    exact ⟨hlow, hhigh⟩
  have hbits : (k + 0x80) % 0x40 = k := by omega
  by_cases howed : owed = 0
  · simp [step, hin, hbyte, hbits, howed]
  · simp [step, hin, hbyte, hbits, howed]

theorem lossy_from_continuation {owed bits k : Nat} {low high : UInt8} (hk : k < 0x40)
    (hlow : low.toNat ≤ k + 0x80) (hhigh : k + 0x80 ≤ high.toNat) (bs : Bytes) :
    lossy_from (some ⟨owed + 1, bits, low, high⟩) (UInt8.ofNat (k + 0x80) :: bs)
      = if owed = 0 then Char.ofNat (bits * 0x40 + k) :: lossy_from none bs
        else lossy_from (some ⟨owed, bits * 0x40 + k, 0x80, 0xBF⟩) bs := by
  rw [lossy_from, step_continuation hk hlow hhigh]
  by_cases howed : owed = 0
  · simp [howed]
  · simp [howed]

/-- A character is read from its encoding. -/
theorem emits_utf8EncodeChar (c : Char) : Emits none (String.utf8EncodeChar c) c := by
  have hvalid : c.val.toNat.isValidChar := c.valid
  have hchar : Char.ofNat c.val.toNat = c := Char.ofNat_toNat c
  unfold String.utf8EncodeChar
  generalize c.val.toNat = v at hvalid hchar
  simp only []
  split_ifs with h₁ h₂ h₃
  · have hnat : (UInt8.ofNat v).toNat = v := by
      rw [UInt8.toNat_ofNat']
      omega
    have hascii : UInt8.ofNat v < 0x80 := by
      rw [UInt8.lt_iff_toNat_lt, hnat]
      exact Nat.lt_succ_of_le h₁
    simp [Emits, step, start_ascii hascii, hnat, hchar]
  · have hlead := start_two (v / 64 % 0x20) (by omega) (by omega)
    have hbits : v / 64 % 0x20 * 0x40 + v % 0x40 = v := by omega
    refine ⟨_, hlead, ?_⟩
    rw [Emits, step_continuation (by omega) (by simp) (by simp; omega), if_pos rfl, hbits, hchar]
  · have hlead := start_three (v / 4096 % 0x10) (by omega)
    have hbits : (v / 4096 % 0x10 * 0x40 + v / 64 % 0x40) * 0x40 + v % 0x40 = v := by omega
    -- no overlong form, and no surrogate
    have hlow : (if v / 4096 % 0x10 = 0 then 0xA0 else 0x80 : UInt8).toNat
        ≤ v / 64 % 0x40 + 0x80 := by
      split_ifs
      · simp
        omega
      · simp
    have hhigh : v / 64 % 0x40 + 0x80
        ≤ (if v / 4096 % 0x10 = 0xD then 0x9F else 0xBF : UInt8).toNat := by
      split_ifs <;> simp <;> omega
    refine ⟨_, hlead, _, step_continuation (by omega) hlow hhigh, ?_⟩
    rw [Emits, step_continuation (by omega) (by simp) (by simp; omega), if_pos rfl, hbits, hchar]
  · have hlead := start_four (v / 262144 % 0x08) (by omega)
    have hbits : ((v / 262144 % 0x08 * 0x40 + v / 4096 % 0x40) * 0x40 + v / 64 % 0x40) * 0x40
        + v % 0x40 = v := by omega
    have hlow : (if v / 262144 % 0x08 = 0 then 0x90 else 0x80 : UInt8).toNat
        ≤ v / 4096 % 0x40 + 0x80 := by
      split_ifs
      · simp
        omega
      · simp
    have hhigh : v / 4096 % 0x40 + 0x80
        ≤ (if v / 262144 % 0x08 = 4 then 0x8F else 0xBF : UInt8).toNat := by
      split_ifs <;> simp <;> omega
    refine ⟨_, hlead, _, step_continuation (by omega) hlow hhigh, _,
      step_continuation (by omega) (by simp) (by simp; omega), ?_⟩
    rw [Emits, step_continuation (by omega) (by simp) (by simp; omega), if_pos rfl, hbits, hchar]

/-- A character is read back from its encoding. -/
theorem lossy_from_utf8EncodeChar (c : Char) (bs : Bytes) :
    lossy_from none (String.utf8EncodeChar c ++ bs) = c :: lossy_from none bs :=
  Emits.lossy c bs _ none (emits_utf8EncodeChar c)

end Utf8

theorem utf8_bytes_eq (s : String) : utf8_bytes s = s.toList.flatMap String.utf8EncodeChar := by
  have henc : s.toUTF8 = s.toList.utf8Encode := String.utf8Encode_toList.symm
  rw [utf8_bytes, henc]
  simp [List.utf8Encode]

/-- A text is read back from its bytes. -/
theorem utf8_lossy_utf8_bytes (s : String) : utf8_lossy (utf8_bytes s) = s.toList := by
  rw [utf8_bytes_eq, utf8_lossy]
  induction s.toList with
  | nil => rfl
  | cons c text ih => rw [List.flatMap_cons, Utf8.lossy_from_utf8EncodeChar, ih]

/-- The bytes of a text are well formed. -/
theorem utf8_strict_utf8_bytes (s : String) : utf8_strict (utf8_bytes s) = some s.toList := by
  rw [utf8_bytes_eq, utf8_strict]
  induction s.toList with
  | nil => rfl
  | cons c text ih =>
    rw [List.flatMap_cons, Utf8.Emits.strict c _ _ none (Utf8.emits_utf8EncodeChar c), ih]
    rfl

/-! ### ASCII text -/

/-- An ASCII text as bytes, one a character. -/
def ascii_bytes (text : List Char) : Bytes := text.map fun c => UInt8.ofNat c.toNat

/-- An ASCII text reads back from its bytes. -/
theorem utf8_lossy_ascii {text : List Char} (h : ∀ c ∈ text, c.toNat < 0x80) :
    utf8_lossy (ascii_bytes text) = text := by
  unfold utf8_lossy
  induction text with
  | nil => rfl
  | cons c text ih =>
    have hc : c.toNat < 0x80 := h c List.mem_cons_self
    have hnat : (UInt8.ofNat c.toNat).toNat = c.toNat := by
      rw [UInt8.toNat_ofNat']
      exact Nat.mod_eq_of_lt (Nat.lt_trans hc (by decide))
    have hascii : UInt8.ofNat c.toNat < 0x80 := by
      rw [UInt8.lt_iff_toNat_lt, hnat]
      exact hc
    have hstart := Utf8.start_ascii hascii
    rw [hnat, Char.ofNat_toNat] at hstart
    have ih := ih fun d hd => h d (List.mem_cons_of_mem c hd)
    show (Utf8.start _).chars ++ Utf8.lossy_from (Utf8.start _).next (ascii_bytes text) = _
    rw [hstart, ih]
    rfl

example : utf8_lossy [0x68, 0xD0, 0xBF, 0xE2, 0x82, 0x0A] = ['h', 'п', '\uFFFD', '\n'] := by
  decide

end AgentTraceGateway
