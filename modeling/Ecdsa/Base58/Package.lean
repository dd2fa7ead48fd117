import Ecdsa.Radix
import Ecdsa.Sha256

/-!
# The package behind base58 text

Bytes are turned into text and back by a package of its own, which is a parameter of everything here
that has to do with texts (`Package`). What is relied on is what the package is documented to do
(`Documented`): which symbols it uses, that leading zero bytes are leading first symbols and the rest
is one number in two bases (`IsNumeral`), which texts it refuses and how, that blanks at the end of a
text are skipped, and what the variants with a checksum do on top. That reading undoes writing is not
among these facts.
-/

namespace Ecdsa.Base58

/-- How the package fails. -/
inductive Failure where
  /-- It refuses what it was given, and says why. -/
  | refusal (message : String)
  /-- Something else goes wrong. -/
  | other (kind : String)
  deriving DecidableEq, Repr

/-- A package that writes bytes in base 58 and reads them back. -/
class Package where
  /-- The text of some bytes. -/
  write : Bytes → Text
  /-- The bytes of a text. -/
  read : Text → Except Failure Bytes
  /-- The text of some bytes and their checksum. -/
  writeChecked : Bytes → Text
  /-- The bytes of a text that has a checksum. -/
  readChecked : Text → Except Failure Bytes
  /-- The bytes that are written if a text is given in place of bytes. -/
  scrub : Text → Except EncodingFailure Bytes

/-! ## The format -/

/-- The 58 symbols of the Bitcoin alphabet: no zero and no capital O, no capital I and no small l. -/
def bitcoinAlphabet : Text :=
  ['1', '2', '3', '4', '5', '6', '7', '8', '9',
    'A', 'B', 'C', 'D', 'E', 'F', 'G', 'H', 'J', 'K', 'L', 'M', 'N', 'P', 'Q', 'R', 'S', 'T', 'U',
    'V', 'W', 'X', 'Y', 'Z',
    'a', 'b', 'c', 'd', 'e', 'f', 'g', 'h', 'i', 'j', 'k', 'm', 'n', 'o', 'p', 'q', 'r', 's', 't',
    'u', 'v', 'w', 'x', 'y', 'z'].map CodePoint.ofChar

/-- The symbol that stands for zero. -/
def zeroSymbol : CodePoint :=
  CodePoint.ofChar '1'

/-- The symbol of a digit. -/
def symbol (d : Nat) : CodePoint :=
  bitcoinAlphabet.getD d zeroSymbol

/-- Whether a text is the numeral of some bytes: a zero symbol for each zero byte at the front, and
then the digits, without a leading zero, of the number that the other bytes stand for. -/
def IsNumeral (t : Text) (data : Bytes) : Prop :=
  ∃ (zeros : Nat) (ds : List Nat) (rest : Bytes),
    t = List.replicate zeros zeroSymbol ++ ds.map symbol ∧ data = List.replicate zeros 0 ++ rest ∧
      (∀ d ∈ ds, d < 58) ∧ ds.head? ≠ some 0 ∧ rest.head? ≠ some 0 ∧
      Radix.value 58 ds = Bytes.toNat rest

/-! ## The documented behaviour -/

/-- What the package is documented to do. -/
class Documented [Package] : Prop where
  /-- Bytes are written as a numeral over the alphabet. -/
  write_isNumeral (data : Bytes) : IsNumeral (Package.write data) data
  /-- Blanks at the end of a text are skipped. -/
  read_trimRight (t : Text) : Package.read t.trimRight = Package.read t
  /-- A text over the alphabet is read, as bytes that it is the numeral of. -/
  read_symbols {t : Text} (h : ∀ c ∈ t, c ∈ bitcoinAlphabet) :
    ∃ data, Package.read t = .ok data ∧ IsNumeral t data
  /-- A text that is not ASCII is refused as that. -/
  read_not_ascii {t : Text} {failure : EncodingFailure}
    (h : Codec.ascii.failure? t.trimRight = some failure) :
    Package.read t = .error (.refusal failure.message)
  /-- Any other text with a character outside the alphabet is refused. -/
  read_not_symbol {t : Text} (hascii : Codec.ascii.failure? t.trimRight = none)
    (h : ∃ c ∈ t.trimRight, c ∉ bitcoinAlphabet) :
    ∃ message, Package.read t = .error (.refusal message)
  /-- A checksum is the first four bytes of the doubled digest, and is written behind the bytes. -/
  writeChecked_eq (data : Bytes) : Package.writeChecked data =
    Package.write (data ++ (Sha256.digest (Sha256.digest data).bytes).bytes.take 4)
  /-- The last four bytes that are read are compared with the checksum of those before them. -/
  readChecked_of_read {t : Text} {raw : Bytes} (h : Package.read t = .ok raw) :
    Package.readChecked t =
      let data := raw.take (raw.length - 4)
      if raw.drop (raw.length - 4) = (Sha256.digest (Sha256.digest data).bytes).bytes.take 4
        then .ok data else .error (.refusal "Invalid checksum")
  /-- What cannot be read has no checksum either. -/
  readChecked_of_failure {t : Text} {failure : Failure} (h : Package.read t = .error failure) :
    Package.readChecked t = .error failure

end Ecdsa.Base58
