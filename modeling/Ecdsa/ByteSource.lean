import Ecdsa.Fault

/-!
# What callers hand over as bytes

Operations that work on bytes also take a list of numbers, a count of zero bytes, and refuse the
rest. `toBytes` is the conversion; a text or nothing at all is never bytes.
-/

namespace Ecdsa

/-- A value given where bytes are expected. -/
inductive ByteSource where
  /-- Bytes as they are. -/
  | bytes (data : Bytes)
  /-- One number for each byte. -/
  | items (values : List Int)
  /-- So many zero bytes. -/
  | zeros (count : Int)
  /-- Characters, which are not bytes until an encoding is chosen. -/
  | text (characters : Text)
  /-- Nothing. -/
  | absent
  deriving DecidableEq, Repr

namespace ByteSource

/-- A number as a byte. -/
def byte (value : Int) : Except Fault UInt8 :=
  if 0 ≤ value ∧ value < 256 then .ok (UInt8.ofNat value.toNat) else .error .notAByte

/-- Counts are signed 64-bit words: they stay below this number, and its negative is the least. -/
def countLimit : Int := 0x8000000000000000

/-- What a byte string takes beside its bytes. The sum has to be a count as well. -/
def overhead : Int := 33

/-- No memory holds this many bytes. -/
def memoryLimit : Int := 0x10000000000

/-- The number of bytes that a count asks for. -/
def zeroCount (count : Int) : Except Fault Nat :=
  if count < -countLimit ∨ countLimit ≤ count + overhead then .error .tooWide
  else if count < 0 then .error .negativeCount
  else if memoryLimit ≤ count then .error .outOfMemory
  else .ok count.toNat

/-- The bytes that a value stands for. -/
def toBytes : ByteSource → Except Fault Bytes
  | .bytes data => .ok data
  | .items values => values.mapM byte
  | .zeros count => (zeroCount count).map fun n => List.replicate n 0
  | .text _ => .error .notBytes
  | .absent => .error .notBytes

/-- How many bytes a value stands for. Those that a count asks for need not be made for it. -/
def length : ByteSource → Except Fault Nat
  | .zeros count => zeroCount count
  | source => source.toBytes.map List.length

/-- The number of items of a value that is a sequence. -/
def size? : ByteSource → Option Nat
  | .bytes data => some data.length
  | .items values => some values.length
  | .zeros _ => none
  | .text characters => some characters.length
  | .absent => none

instance : Coe Bytes ByteSource := ⟨.bytes⟩

@[simp] theorem toBytes_bytes (data : Bytes) : toBytes (.bytes data) = .ok data := rfl

/-- The length told in advance is the length of the bytes, and fails as they do. -/
theorem length_eq (source : ByteSource) : source.length = source.toBytes.map List.length := by
  cases source with
  | zeros count =>
    simp only [length, toBytes]
    cases zeroCount count with
    | error fault => rfl
    | ok n => simp [Except.map]
  | _ => rfl

end ByteSource

end Ecdsa
