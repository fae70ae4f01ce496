import AgentTraceGateway.Lib.Utf8
import Mathlib.Data.List.Lemmas

/-! # Numbers, Masks and Hexadecimal Text over Byte Lists

  Big-endian numbers of a given width (`to_be_bytes`, `from_be_bytes`), the
  cyclic exclusive-or of a byte string with a key, and hexadecimal text. -/

namespace AgentTraceGateway

/-- A SHA-256 digest. -/
abbrev Digest : Type := { bytes : Bytes // bytes.length = 32 }

/-! ### Limits -/

/-- A limit raised to one is positive. -/
theorem raised_pos (n : Nat) : 1 ≤ max n 1 := Nat.le_max_right n 1

/-! ### Big-endian numbers -/

/-- The low `8 * width` bits of a number, most significant byte first. -/
def be_bytes : Nat → Nat → Bytes
  | 0, _ => []
  | width + 1, n => be_bytes width (n / 256) ++ [UInt8.ofNat n]

/-- The number that big-endian bytes spell. -/
def be_nat (bs : Bytes) : Nat := bs.foldl (fun n b => n * 256 + b.toNat) 0

@[simp] theorem be_bytes_length (width n : Nat) : (be_bytes width n).length = width := by
  induction width generalizing n with
  | zero => rfl
  | succ width ih => simp [be_bytes, ih]

/-- Reading back gives the number again, if it fits the width. -/
theorem be_nat_be_bytes (width n : Nat) (h : n < 256 ^ width) :
    be_nat (be_bytes width n) = n := by
  induction width generalizing n with
  | zero =>
    have : n = 0 := by simpa using h
    simp [be_bytes, be_nat, this]
  | succ width ih =>
    have hdiv : n / 256 < 256 ^ width := by
      rw [Nat.div_lt_iff_lt_mul (by decide), ← Nat.pow_succ]
      exact h
    have hread := ih (n / 256) hdiv
    simp only [be_nat] at hread
    simp only [be_bytes, be_nat, List.foldl_append, hread, List.foldl_cons, List.foldl_nil,
      UInt8.toNat_ofNat']
    omega

/-- Numbers within the width have different bytes. -/
theorem be_bytes_injective {width m n : Nat} (hm : m < 256 ^ width) (hn : n < 256 ^ width)
    (h : be_bytes width m = be_bytes width n) : m = n := by
  rw [← be_nat_be_bytes width m hm, ← be_nat_be_bytes width n hn, h]

/-! ### Masks -/

/-- Exclusive-or with a key repeated over the bytes. -/
def xor_mask (key payload : Bytes) : Bytes :=
  payload.mapIdx fun i b => b ^^^ key.getD (i % key.length) 0

@[simp] theorem xor_mask_length (key payload : Bytes) :
    (xor_mask key payload).length = payload.length := by
  simp [xor_mask]

/-- The same mask twice cancels. -/
@[simp] theorem xor_mask_xor_mask (key payload : Bytes) :
    xor_mask key (xor_mask key payload) = payload := by
  apply List.ext_getElem
  · simp
  · intro i h₁ h₂
    simp only [xor_mask, List.getElem_mapIdx]
    rw [UInt8.xor_assoc, UInt8.xor_self, UInt8.xor_zero]

/-! ### Hexadecimal -/

/-- Lower-case hexadecimal digit. -/
def hex_digit (n : Nat) : Char :=
  if n < 10 then Char.ofNat (0x30 + n) else Char.ofNat (0x61 + (n - 10))

/-- Two digits for each byte (`hex::encode`). -/
def hex_chars (bs : Bytes) : List Char :=
  bs.flatMap fun b => [hex_digit (b.toNat / 16), hex_digit (b.toNat % 16)]

def hex_encode (bs : Bytes) : String := String.ofList (hex_chars bs)

/-- The first `2 * n` digits are the digits of the first `n` bytes. -/
theorem take_hex_chars (n : Nat) (bs : Bytes) :
    (hex_chars bs).take (2 * n) = hex_chars (bs.take n) := by
  induction n generalizing bs with
  | zero => rfl
  | succ n ih =>
    cases bs with
    | nil => rfl
    | cons b bs =>
      have hcons : ∀ b bs, hex_chars (b :: bs)
          = hex_digit (b.toNat / 16) :: hex_digit (b.toNat % 16) :: hex_chars bs :=
        fun _ _ => rfl
      rw [Nat.mul_succ, List.take_succ_cons, hcons, hcons, List.take_succ_cons,
        List.take_succ_cons, ih]

private theorem hex_digit_inj : ∀ m < 16, ∀ n < 16, hex_digit m = hex_digit n → m = n := by
  decide

theorem hex_chars_injective : Function.Injective hex_chars := by
  intro xs
  induction xs with
  | nil =>
    intro ys h
    cases ys with
    | nil => rfl
    | cons y ys => cases h
  | cons x xs ih =>
    intro ys h
    cases ys with
    | nil => cases h
    | cons y ys =>
      obtain ⟨hhigh, hlow, hrest⟩ :
          hex_digit (x.toNat / 16) = hex_digit (y.toNat / 16) ∧
            hex_digit (x.toNat % 16) = hex_digit (y.toNat % 16) ∧ hex_chars xs = hex_chars ys := by
        simpa [hex_chars] using h
      have hx := x.toNat_lt
      have hy := y.toNat_lt
      have hq := hex_digit_inj _ (by omega) _ (by omega) hhigh
      have hr := hex_digit_inj _ (by omega) _ (by omega) hlow
      have hxy : x = y := by
        apply UInt8.toNat_inj.mp
        omega
      rw [hxy, ih hrest]

/-- Strings are their bytes. -/
theorem utf8_bytes_injective : Function.Injective utf8_bytes := by
  intro s t h
  apply String.toByteArray_inj.mp
  exact ByteArray.ext (Array.toList_inj.mp h)

end AgentTraceGateway
