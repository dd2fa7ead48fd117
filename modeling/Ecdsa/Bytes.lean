import Ecdsa.Radix

/-!
# Byte strings

A byte string is a list of bytes. `toNat` reads it as a big-endian number, `ofNat` writes a number
at a fixed width and `minimal` at the smallest one; `slice` cuts out a stretch between two bounds
that may be counted from the end; `hex` shows the bytes.
-/

namespace Ecdsa

/-- A byte string, first byte first. -/
abbrev Bytes := List UInt8

namespace Bytes

/-- The big-endian number a byte string stands for. -/
def toNat (data : Bytes) : Nat :=
  Radix.value 256 (data.map UInt8.toNat)

/-- The low `width` bytes of `n`, most significant first. -/
def ofNat (width n : Nat) : Bytes :=
  (Radix.fixedDigits 256 width n).map UInt8.ofNat

/-- The shortest byte string that stands for `n`: no byte at all for zero. -/
def minimal (n : Nat) : Bytes :=
  (Radix.digits 256 n).map UInt8.ofNat

@[simp] theorem length_ofNat (width n : Nat) : (ofNat width n).length = width := by
  simp [ofNat, Radix.length_fixedDigits]

/-- Where a bound falls in a sequence: a negative bound counts from the end, not past the start. -/
def bound (length : Nat) (i : Int) : Nat :=
  if i < 0 then (i + length).toNat else i.toNat

/-- The bytes from one bound up to, not including, another. -/
def slice (data : Bytes) (start stop : Int) : Bytes :=
  (data.take (bound data.length stop)).drop (bound data.length start)

/-- The lower-case hexadecimal digit of a number below sixteen. -/
def hexDigit (n : Nat) : Char :=
  if n < 10 then Char.ofNat (48 + n) else Char.ofNat (87 + n)

/-- A number in lower-case hexadecimal, at least `width` digits long. -/
def hexNumber (width n : Nat) : String :=
  let ds := Radix.digits 16 n
  String.ofList (List.replicate (width - ds.length) '0' ++ ds.map hexDigit)

/-- A byte string in lower-case hexadecimal, two digits a byte. -/
def hex (data : Bytes) : String :=
  String.ofList (data.flatMap fun b => [hexDigit (b.toNat / 16), hexDigit (b.toNat % 16)])

end Bytes

end Ecdsa
