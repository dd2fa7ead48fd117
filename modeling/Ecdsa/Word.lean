import Ecdsa.ByteSource

/-!
# 256-bit words

Coordinates and signature components are written as 32 bytes, most significant first. `read` takes a
word out of longer data and says where it ends, `write` refuses numbers that do not fit.
-/

namespace Ecdsa.Word

/-- The word at an offset, and the offset after it. An offset below zero counts from the end. -/
def read (data : Bytes) (offset : Int) : Except Fault (Nat × Int) :=
  if data.length < offset + 32 then .error .wordTruncated
  else .ok (Bytes.toNat (Bytes.slice data offset (offset + 32)), offset + 32)

/-- How many numbers have 32 bytes. -/
def count : Nat := 1 <<< 256

/-- A number as 32 bytes. -/
def write (value : Int) : Except Fault Bytes :=
  if 0 ≤ value ∧ value < count then .ok (Bytes.ofNat 32 value.toNat) else .error .tooWide

end Ecdsa.Word
