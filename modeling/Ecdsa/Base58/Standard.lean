import Ecdsa.Base58.Package

/-!
# The package in use

Bytes are written digit by digit and read by looking the symbols up. Of a text that cannot be read, the
first stretch that is not ASCII is reported, or else the first character that is no symbol.
-/

namespace Ecdsa.Base58.Standard

/-- Writes bytes in base 58. -/
def write (data : Bytes) : Text :=
  (data.takeWhile (· == 0)).map (fun _ => zeroSymbol) ++
    (Radix.digits 58 (Bytes.toNat data)).map symbol

/-- The digits of symbols; the first code point that is no symbol is reported. -/
def digits : Text → Except Failure (List Nat)
  | [] => .ok []
  | c :: rest =>
    match bitcoinAlphabet.idxOf? c with
    | some d => (digits rest).map (d :: ·)
    | none => .error (.refusal ("Invalid character " ++ Text.quoted [c]))

/-- Reads symbols: leading zero symbols are zero bytes, the rest is a number in base 58. -/
def readSymbols (symbols : Text) : Except Failure Bytes := do
  let ds ← digits (symbols.dropWhile (· == zeroSymbol))
  pure ((symbols.takeWhile (· == zeroSymbol)).map (fun _ => 0) ++
    Bytes.minimal (Radix.value 58 ds))

/-- Reads a text that may end in blanks. What is not ASCII is refused before any symbol is read. -/
def read (t : Text) : Except Failure Bytes :=
  match Codec.ascii.failure? t.trimRight with
  | some failure => .error (.refusal failure.message)
  | none => readSymbols t.trimRight

/-- The first four bytes of the doubled digest. -/
def checksum (data : Bytes) : Bytes :=
  (Sha256.digest (Sha256.digest data).bytes).bytes.take 4

/-- Takes the checksum off. Fewer than four bytes are a checksum of nothing. -/
def removeChecksum (raw : Bytes) : Except Failure Bytes :=
  let data := raw.take (raw.length - 4)
  if raw.drop (raw.length - 4) = checksum data then .ok data
  else .error (.refusal "Invalid checksum")

scoped instance package : Package where
  write := write
  read := read
  writeChecked data := write (data ++ checksum data)
  readChecked t := (read t).bind removeChecksum
  scrub := Codec.ascii.encode

end Ecdsa.Base58.Standard
