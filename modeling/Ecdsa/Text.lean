import Ecdsa.Bytes

/-!
# Text as code points

A text is a list of code points and may hold surrogates, which no encoding can write. A codec writes
the code points it admits; the first stretch of others is reported with its position, counted in
code points (`Codec.failure?`). `trimRight` drops the blanks at the end of a text.
-/

namespace Ecdsa

/-- A code point, surrogates included. -/
abbrev CodePoint := Fin 0x110000

/-- A text: its code points in order. -/
abbrev Text := List CodePoint

namespace CodePoint

/-- The code point of a character. -/
def ofChar (c : Char) : CodePoint :=
  ⟨c.toNat, by
    have h := c.valid
    simp only [UInt32.isValidChar, Nat.isValidChar] at h
    simp only [Char.toNat]
    omega⟩

/-- Surrogates stand for no character. -/
def isSurrogate (c : CodePoint) : Bool :=
  0xd800 ≤ c.val && c.val ≤ 0xdfff

/-- White space: the separators of Unicode and the control characters that move the cursor or
separate records. -/
def isBlank (c : CodePoint) : Bool :=
  (0x09 ≤ c.val && c.val ≤ 0x0d) || (0x1c ≤ c.val && c.val ≤ 0x20) || c.val == 0x85 ||
    c.val == 0xa0 || c.val == 0x1680 || (0x2000 ≤ c.val && c.val ≤ 0x200a) || c.val == 0x2028 ||
    c.val == 0x2029 || c.val == 0x202f || c.val == 0x205f || c.val == 0x3000

/-- The escape that names a code point: two, four or eight hexadecimal digits, as few as suffice. -/
def escape (c : CodePoint) : String :=
  if c.val < 0x100 then "\\x" ++ Bytes.hexNumber 2 c.val
  else if c.val < 0x10000 then "\\u" ++ Bytes.hexNumber 4 c.val
  else "\\U" ++ Bytes.hexNumber 8 c.val

end CodePoint

namespace Text

/-- The text of a string. -/
def ofString (s : String) : Text :=
  s.toList.map CodePoint.ofChar

/-- A text as a string; only surrogates, which a string cannot hold, are lost. -/
def toString (t : Text) : String :=
  String.ofList (t.map fun c => Char.ofNat c.val)

/-- A text without the blanks at its end. -/
def trimRight (t : Text) : Text :=
  (t.reverse.dropWhile CodePoint.isBlank).reverse

end Text

/-- The two encodings of text in use. -/
inductive Codec where
  | ascii
  | utf8
  deriving DecidableEq, Repr

/-- A stretch of neighbouring code points that an encoding cannot write. -/
structure EncodingFailure where
  codec : Codec
  first : CodePoint
  start : Nat
  length : Nat
  deriving DecidableEq, Repr

namespace Codec

/-- The name under which an encoding is reported. -/
def name : Codec → String
  | .ascii => "ascii"
  | .utf8 => "utf-8"

/-- Why an encoding refuses a code point. -/
def refusal : Codec → String
  | .ascii => "ordinal not in range(128)"
  | .utf8 => "surrogates not allowed"

/-- The code points that an encoding can write. -/
def admits : Codec → CodePoint → Bool
  | .ascii, c => c.val < 0x80
  | .utf8, c => !c.isSurrogate

/-- The bytes of one admitted code point. -/
def units : Codec → CodePoint → Bytes
  | .ascii, c => [UInt8.ofNat c.val]
  | .utf8, c =>
    let n := c.val
    if n < 0x80 then [UInt8.ofNat n]
    else if n < 0x800 then [UInt8.ofNat (0xc0 + n / 0x40), UInt8.ofNat (0x80 + n % 0x40)]
    else if n < 0x10000 then
      [UInt8.ofNat (0xe0 + n / 0x1000), UInt8.ofNat (0x80 + n / 0x40 % 0x40),
        UInt8.ofNat (0x80 + n % 0x40)]
    else
      [UInt8.ofNat (0xf0 + n / 0x40000), UInt8.ofNat (0x80 + n / 0x1000 % 0x40),
        UInt8.ofNat (0x80 + n / 0x40 % 0x40), UInt8.ofNat (0x80 + n % 0x40)]

/-- The first stretch of code points that an encoding refuses, if there is one. -/
def failure? (codec : Codec) (t : Text) : Option EncodingFailure :=
  match t.dropWhile codec.admits with
  | [] => none
  | first :: rest =>
    some {
      codec
      first
      start := (t.takeWhile codec.admits).length
      length := 1 + (rest.takeWhile fun c => !codec.admits c).length }

/-- The bytes of a text, or the stretch that stands in the way. -/
def encode (codec : Codec) (t : Text) : Except EncodingFailure Bytes :=
  match codec.failure? t with
  | some failure => .error failure
  | none => .ok (t.flatMap codec.units)

/-- A text is refused exactly if it holds a code point that the encoding does not admit. -/
theorem failure?_eq_none_iff (codec : Codec) (t : Text) :
    codec.failure? t = none ↔ ∀ c ∈ t, codec.admits c = true := by
  induction t with
  | nil => simp [failure?]
  | cons c t ih =>
    by_cases h : codec.admits c = true
    · have ht : codec.failure? (c :: t) = none ↔ codec.failure? t = none := by
        simp only [failure?, List.dropWhile_cons, h, if_true]
        split <;> simp
      simp [ht, ih, h]
    · simp [failure?, h]

end Codec

/-- One refused code point is shown, of several only the positions of the first and the last. -/
def EncodingFailure.message (f : EncodingFailure) : String :=
  "'" ++ f.codec.name ++ "' codec can't encode " ++
    (if f.length = 1 then
      "character '" ++ f.first.escape ++ "' in position " ++ toString f.start
    else
      "characters in position " ++ toString f.start ++ "-" ++
        toString (f.start + f.length - 1)) ++
    ": " ++ f.codec.refusal

end Ecdsa
