import Ecdsa.Bytes

/-!
# The SHA-256 compression function

`compress` mixes one block of 64 bytes into a chaining value of eight words: the block's sixteen
words are extended to a schedule of 64, each schedule word drives one round, and the result is added
to the chaining value word by word.
-/

namespace Ecdsa.Sha256

/-- A chaining value: eight 32-bit words. -/
structure Chain where
  a : UInt32
  b : UInt32
  c : UInt32
  d : UInt32
  e : UInt32
  f : UInt32
  g : UInt32
  h : UInt32
  deriving DecidableEq, Repr

/-- The chaining value before the first block. -/
def initial : Chain where
  a := 0x6a09e667
  b := 0xbb67ae85
  c := 0x3c6ef372
  d := 0xa54ff53a
  e := 0x510e527f
  f := 0x9b05688c
  g := 0x1f83d9ab
  h := 0x5be0cd19

/-- The constants added in the 64 rounds. -/
def roundConstants : List UInt32 := [
  0x428a2f98, 0x71374491, 0xb5c0fbcf, 0xe9b5dba5, 0x3956c25b, 0x59f111f1, 0x923f82a4, 0xab1c5ed5,
  0xd807aa98, 0x12835b01, 0x243185be, 0x550c7dc3, 0x72be5d74, 0x80deb1fe, 0x9bdc06a7, 0xc19bf174,
  0xe49b69c1, 0xefbe4786, 0x0fc19dc6, 0x240ca1cc, 0x2de92c6f, 0x4a7484aa, 0x5cb0a9dc, 0x76f988da,
  0x983e5152, 0xa831c66d, 0xb00327c8, 0xbf597fc7, 0xc6e00bf3, 0xd5a79147, 0x06ca6351, 0x14292967,
  0x27b70a85, 0x2e1b2138, 0x4d2c6dfc, 0x53380d13, 0x650a7354, 0x766a0abb, 0x81c2c92e, 0x92722c85,
  0xa2bfe8a1, 0xa81a664b, 0xc24b8b70, 0xc76c51a3, 0xd192e819, 0xd6990624, 0xf40e3585, 0x106aa070,
  0x19a4c116, 0x1e376c08, 0x2748774c, 0x34b0bcb5, 0x391c0cb3, 0x4ed8aa4a, 0x5b9cca4f, 0x682e6ff3,
  0x748f82ee, 0x78a5636f, 0x84c87814, 0x8cc70208, 0x90befffa, 0xa4506ceb, 0xbef9a3f7, 0xc67178f2]

/-- A word turned right by `n` places, for `n` between 1 and 31. -/
def rotr (w : UInt32) (n : UInt32) : UInt32 :=
  (w >>> n) ||| (w <<< (32 - n))

/-- Bitwise choice: where `e` is set the bit of `f`, elsewhere that of `g`. -/
def choose (e f g : UInt32) : UInt32 :=
  (e &&& f) ^^^ (~~~e &&& g)

/-- Bitwise majority. -/
def majority (a b c : UInt32) : UInt32 :=
  (a &&& b) ^^^ (a &&& c) ^^^ (b &&& c)

/-- The word that follows the given ones in the schedule. They are listed latest first. -/
def nextWord (latest : List UInt32) : UInt32 :=
  let near := latest.getD 1 0
  let far := latest.getD 14 0
  (rotr near 17 ^^^ rotr near 19 ^^^ (near >>> 10)) + latest.getD 6 0 +
    (rotr far 7 ^^^ rotr far 18 ^^^ (far >>> 3)) + latest.getD 15 0

/-- Extends a schedule, listed latest first, by so many words. -/
def extend : Nat → List UInt32 → List UInt32
  | 0, latest => latest
  | n + 1, latest => extend n (nextWord latest :: latest)

/-- The big-endian words of a byte string whose length is a multiple of four. -/
def words : Bytes → List UInt32
  | b₀ :: b₁ :: b₂ :: b₃ :: rest =>
    ((b₀.toUInt32 <<< 24) ||| (b₁.toUInt32 <<< 16) ||| (b₂.toUInt32 <<< 8) ||| b₃.toUInt32)
      :: words rest
  | _ => []

/-- The 64 words that drive the rounds of one block. -/
def schedule (block : Bytes) : List UInt32 :=
  (extend 48 (words block).reverse).reverse

/-- One round, driven by a constant and a schedule word. -/
def round (s : Chain) (kw : UInt32 × UInt32) : Chain :=
  let t₁ := s.h + (rotr s.e 6 ^^^ rotr s.e 11 ^^^ rotr s.e 25) + choose s.e s.f s.g + kw.1 + kw.2
  let t₂ := (rotr s.a 2 ^^^ rotr s.a 13 ^^^ rotr s.a 22) + majority s.a s.b s.c
  { a := t₁ + t₂, b := s.a, c := s.b, d := s.c, e := s.d + t₁, f := s.e, g := s.f, h := s.g }

/-- Word-wise sum of two chaining values. -/
def Chain.add (s t : Chain) : Chain where
  a := s.a + t.a
  b := s.b + t.b
  c := s.c + t.c
  d := s.d + t.d
  e := s.e + t.e
  f := s.f + t.f
  g := s.g + t.g
  h := s.h + t.h

/-- Mixes a block of 64 bytes into a chaining value. -/
def compress (s : Chain) (block : Bytes) : Chain :=
  s.add ((roundConstants.zip (schedule block)).foldl round s)

/-- The words of a chaining value, most significant byte first. -/
def Chain.toBytes (s : Chain) : Bytes :=
  [s.a, s.b, s.c, s.d, s.e, s.f, s.g, s.h].flatMap fun w => Bytes.ofNat 4 w.toNat

theorem Chain.length_toBytes (s : Chain) : s.toBytes.length = 32 := by
  simp [Chain.toBytes, Bytes.length_ofNat]

end Ecdsa.Sha256
