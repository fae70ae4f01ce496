import AgentTraceGateway.Lib.Bytes

/-! # SHA-256

  An executable SHA-256 over byte lists. A block is compressed in sixty-four
  rounds, each of which takes the oldest word of a sixteen-word window of
  the message schedule and appends the next one. -/

namespace AgentTraceGateway

namespace Sha256

/-- The chaining state. -/
structure Regs where
  a : UInt32
  b : UInt32
  c : UInt32
  d : UInt32
  e : UInt32
  f : UInt32
  g : UInt32
  h : UInt32
  deriving DecidableEq, Repr

def round_constants : List UInt32 :=
  [0x428a2f98, 0x71374491, 0xb5c0fbcf, 0xe9b5dba5, 0x3956c25b, 0x59f111f1, 0x923f82a4, 0xab1c5ed5,
   0xd807aa98, 0x12835b01, 0x243185be, 0x550c7dc3, 0x72be5d74, 0x80deb1fe, 0x9bdc06a7, 0xc19bf174,
   0xe49b69c1, 0xefbe4786, 0x0fc19dc6, 0x240ca1cc, 0x2de92c6f, 0x4a7484aa, 0x5cb0a9dc, 0x76f988da,
   0x983e5152, 0xa831c66d, 0xb00327c8, 0xbf597fc7, 0xc6e00bf3, 0xd5a79147, 0x06ca6351, 0x14292967,
   0x27b70a85, 0x2e1b2138, 0x4d2c6dfc, 0x53380d13, 0x650a7354, 0x766a0abb, 0x81c2c92e, 0x92722c85,
   0xa2bfe8a1, 0xa81a664b, 0xc24b8b70, 0xc76c51a3, 0xd192e819, 0xd6990624, 0xf40e3585, 0x106aa070,
   0x19a4c116, 0x1e376c08, 0x2748774c, 0x34b0bcb5, 0x391c0cb3, 0x4ed8aa4a, 0x5b9cca4f, 0x682e6ff3,
   0x748f82ee, 0x78a5636f, 0x84c87814, 0x8cc70208, 0x90befffa, 0xa4506ceb, 0xbef9a3f7, 0xc67178f2]

def initial : Regs :=
  ⟨0x6a09e667, 0xbb67ae85, 0x3c6ef372, 0xa54ff53a,
    0x510e527f, 0x9b05688c, 0x1f83d9ab, 0x5be0cd19⟩

def rotate_right (x n : UInt32) : UInt32 := (x >>> n) ||| (x <<< (32 - n))

/-- The message with its delimiter, zeros and bit length. -/
def pad (message : Bytes) : Bytes :=
  message ++ 0x80 :: List.replicate ((119 - message.length % 64) % 64) 0
    ++ be_bytes 8 (8 * message.length)

def words : Bytes → List UInt32
  | a :: b :: c :: d :: rest => UInt32.ofNat (be_nat [a, b, c, d]) :: words rest
  | _ => []

/-- The word that follows a window of the message schedule. -/
def next_word (window : List UInt32) : UInt32 :=
  let w1 := window.getD 1 0
  let w14 := window.getD 14 0
  let s0 := rotate_right w1 7 ^^^ rotate_right w1 18 ^^^ (w1 >>> 3)
  let s1 := rotate_right w14 17 ^^^ rotate_right w14 19 ^^^ (w14 >>> 10)
  window.getD 0 0 + s0 + window.getD 9 0 + s1

def round (st : Regs × List UInt32) (k : UInt32) : Regs × List UInt32 :=
  let r := st.1
  let s1 := rotate_right r.e 6 ^^^ rotate_right r.e 11 ^^^ rotate_right r.e 25
  let ch := (r.e &&& r.f) ^^^ (~~~r.e &&& r.g)
  let t1 := r.h + s1 + ch + k + st.2.getD 0 0
  let s0 := rotate_right r.a 2 ^^^ rotate_right r.a 13 ^^^ rotate_right r.a 22
  let maj := (r.a &&& r.b) ^^^ (r.a &&& r.c) ^^^ (r.b &&& r.c)
  (⟨t1 + (s0 + maj), r.a, r.b, r.c, r.d + t1, r.e, r.f, r.g⟩,
    st.2.drop 1 ++ [next_word st.2])

def compress (r : Regs) (block : List UInt32) : Regs :=
  let last := (round_constants.foldl round (r, block)).1
  ⟨r.a + last.a, r.b + last.b, r.c + last.c, r.d + last.d,
    r.e + last.e, r.f + last.f, r.g + last.g, r.h + last.h⟩

/-- Compress the blocks one after another. -/
def absorb : Nat → Regs → List UInt32 → Regs
  | 0, r, _ => r
  | blocks + 1, r, ws => absorb blocks (compress r (ws.take 16)) (ws.drop 16)

def Regs.bytes (r : Regs) : Bytes :=
  [r.a, r.b, r.c, r.d, r.e, r.f, r.g, r.h].flatMap fun w => be_bytes 4 w.toNat

theorem regs_bytes_length (r : Regs) : r.bytes.length = 32 := by
  simp [Regs.bytes]

/-- `Sha256::digest`. -/
def digest (message : Bytes) : { bytes : Bytes // bytes.length = 32 } :=
  let padded := pad message
  ⟨(absorb (padded.length / 64) initial (words padded)).bytes, regs_bytes_length _⟩

example : hex_encode (digest (utf8_bytes "abc")).val
    = "ba7816bf8f01cfea414140de5dae2223b00361a396177a9cb410ff61f20015ad" := by
  decide +kernel

end Sha256

end AgentTraceGateway
