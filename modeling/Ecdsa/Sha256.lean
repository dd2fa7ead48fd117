import Ecdsa.Digest
import Ecdsa.Sha256.Compress

/-!
# SHA-256

`digest` hashes a byte string: it is padded to whole blocks, and the blocks are compressed one after
the other. `absorb` does the compressing and returns what is left of the last, incomplete block;
`absorb_append` says that absorbing in two parts is absorbing the whole, which is what makes hashing
in pieces agree with hashing at once.
-/

namespace Ecdsa.Sha256

/-- Compresses every whole block of the data and returns the rest, which is shorter than a block. -/
def absorb (s : Chain) (data : Bytes) : Chain × Bytes :=
  -- something is left after 63 bytes exactly when there is a whole block
  match h : data.drop 63 with
  | [] => (s, data)
  | _ :: rest =>
    have : rest.length < data.length := by
      have := congrArg List.length h
      simp at this
      omega
    absorb (compress s (data.take 64)) rest
termination_by data.length

/-- What follows data of the given length to complete the last block: one set bit, zeros, and the
length in bits as a 64-bit number. -/
def padding (length : Nat) : Bytes :=
  -- the set bit and the length take nine bytes, so 55 bytes of data fill the last block
  0x80 :: (List.replicate ((119 - length % 64) % 64) 0 ++ Bytes.ofNat 8 (8 * length))

/-- The digest that a chaining value stands for once all blocks are absorbed. -/
def Chain.toDigest (s : Chain) : Digest :=
  ⟨s.toBytes, s.length_toBytes⟩

/-- The SHA-256 digest of a byte string. -/
def digest (data : Bytes) : Digest :=
  (absorb initial (data ++ padding data.length)).1.toDigest

-- the digests of "abc" and "hello" are the published ones
example : (digest [0x61, 0x62, 0x63]).bytes =
    [0xba, 0x78, 0x16, 0xbf, 0x8f, 0x01, 0xcf, 0xea, 0x41, 0x41, 0x40, 0xde, 0x5d, 0xae, 0x22, 0x23,
      0xb0, 0x03, 0x61, 0xa3, 0x96, 0x17, 0x7a, 0x9c, 0xb4, 0x10, 0xff, 0x61, 0xf2, 0x00, 0x15,
      0xad] := by
  decide +kernel

theorem digest_hello : (digest [0x68, 0x65, 0x6c, 0x6c, 0x6f]).bytes =
    [0x2c, 0xf2, 0x4d, 0xba, 0x5f, 0xb0, 0xa3, 0x0e, 0x26, 0xe8, 0x3b, 0x2a, 0xc5, 0xb9, 0xe2, 0x9e,
      0x1b, 0x16, 0x1e, 0x5c, 0x1f, 0xa7, 0x42, 0x5e, 0x73, 0x04, 0x33, 0x62, 0x93, 0x8b, 0x98,
      0x24] := by
  decide +kernel

theorem absorb_of_lt (s : Chain) {data : Bytes} (h : data.length < 64) :
    absorb s data = (s, data) := by
  unfold absorb
  split
  · rfl
  next heq =>
    have := congrArg List.length heq
    simp at this
    omega

theorem absorb_of_le (s : Chain) {data : Bytes} (h : 64 ≤ data.length) :
    absorb s data = absorb (compress s (data.take 64)) (data.drop 64) := by
  rw [absorb]
  split
  next heq =>
    have := congrArg List.length heq
    simp at this
    omega
  next x rest heq =>
    have : data.drop 64 = rest := by
      rw [← List.drop_drop (i := 1) (j := 63), heq]
      rfl
    rw [this]

/-- Absorbing in two parts is absorbing the whole: the rest of the first part goes in front of the
second. -/
theorem absorb_append (s : Chain) (first second : Bytes) :
    absorb s (first ++ second) =
      absorb (absorb s first).1 ((absorb s first).2 ++ second) := by
  rcases Nat.lt_or_ge first.length 64 with h | h
  · rw [absorb_of_lt s h]
  · have hw : 64 ≤ (first ++ second).length := by simp; omega
    rw [absorb_of_le s h, absorb_of_le s hw,
      List.take_append_of_le_length h, List.drop_append_of_le_length h,
      absorb_append (compress s (first.take 64)) (first.drop 64) second]
termination_by first.length
decreasing_by simp; omega

/-- The SHA-256 digest of the bytes that a caller hands over. -/
def digestSource (source : ByteSource) : Except Fault Digest :=
  source.toBytes.map digest

/-- The SHA-256 digest of a text, written in UTF-8. -/
def digestText (t : Text) : Except Fault Digest :=
  match Codec.utf8.encode t with
  | .ok data => .ok (digest data)
  | .error failure => .error (.encoding failure)

end Ecdsa.Sha256
