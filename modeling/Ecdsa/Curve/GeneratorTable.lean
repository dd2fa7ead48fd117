import Ecdsa.Curve.Point

/-!
# Tables of generator multiples

A table holds, for every window of `width` bits, the multiples of the base point that a digit in
that window stands for: row `i` has `j · 2^(width · i) · G` at place `j`, with denominator one. A
multiple of the base point is then the sum of one entry for each digit, and needs no doubling
(`mulGenerator`).

Parameters are not checked. Negative numbers have the digits of their two's complement.
-/

namespace Ecdsa

/-- The number of bits of a number. -/
def bitLength (n : Nat) : Nat :=
  if n = 0 then 0 else n.log2 + 1

/-- The place that an index names in a sequence: a negative one counts from the end. -/
def place? (length : Nat) (i : Int) : Option Nat :=
  let j := if i < 0 then i + length else i
  if 0 ≤ j ∧ j < length then some j.toNat else none

/-- Multiples of the base point of `C`, one row for each window. -/
structure GeneratorTable (C : Curve) where
  width : Nat
  rows : List (List (Point C))
  deriving DecidableEq, Repr

namespace GeneratorTable

variable {C : Curve}

/-- How many digits a window of so many bits has. -/
def digitCount (width : Nat) : Nat :=
  1 <<< width

/-- The first `count` members of a sequence that starts at `first` and goes on by adding `base`,
and the member after them. -/
def progression (base : Point C) : Nat → Point C → Except Fault (List (Point C) × Point C)
  | 0, first => .ok ([], first)
  | count + 1, first => do
    let next ← (← first.add base).normalize
    let (rest, last) ← progression base count next
    pure (first :: rest, last)

/-- So many rows, the first of them for windows that count in steps of `base`. -/
def rowsFrom (width : Nat) : Nat → Point C → Except Fault (List (List (Point C)))
  | 0, _ => .ok []
  | count + 1, base => do
    let (row, next) ← progression base (digitCount width) Point.infinity
    let rest ← rowsFrom width count next
    pure (row :: rest)

/-- The number of windows that cover the order of the base point. -/
def windows (C : Curve) (width : Nat) : Nat :=
  (bitLength C.n.natAbs + width - 1) / width

/-- The table of a curve for windows of a width of at least one bit. -/
def build (C : Curve) (width : Int) : Except Fault (GeneratorTable C) :=
  if width < 1 then .error .windowTooNarrow
  else do
    let rows ← rowsFrom width.toNat (windows C width.toNat) (Point.generator C)
    pure ⟨width.toNat, rows⟩

/-- The lengths of the rows, each once, in increasing order. -/
def rowLengths (T : GeneratorTable C) : List Nat :=
  (T.rows.map List.length).mergeSort.eraseDups

/-- The entry of a row that a digit stands for. -/
def entry (row : List (Point C)) (digit : Nat) : Except Fault (Point C) :=
  match row[digit]? with
  | some P => .ok P
  | none => .error .outsideTable

/-- The entry in row `i` at place `j`; either may be counted from the end. -/
def entryAt (T : GeneratorTable C) (i j : Int) : Except Fault (Point C) := do
  match place? T.rows.length i with
  | none => throw .outsideTable
  | some i =>
    let row := T.rows.getD i []
    match place? row.length j with
    | none => throw .outsideTable
    | some j => entry row j

/-- Adds to `sum` the entries for the digits of `k`, lowest digit first, one row for each digit, until
no digit is left. A zero digit adds nothing. -/
def addDigits (width : Nat) : List (List (Point C)) → Int → Point C → Except Fault (Point C)
  | [], _, sum => .ok sum
  | row :: rest, k, sum =>
    if k = 0 then .ok sum
    else do
      let digit := (k % digitCount width).toNat
      let sum ← if digit = 0 then pure sum else do sum.add (← entry row digit)
      addDigits width rest (k / digitCount width) sum

/-- A multiple of the base point, read off the table. -/
def mulGenerator (T : GeneratorTable C) (k : Int) : Except Fault (Point C) :=
  if C.n = 0 then .error .zeroModulus
  else addDigits T.width T.rows (k.fmod C.n) Point.infinity

/-- A multiple of a point, the factor taken modulo the order of the base point of `C`. -/
def mul {D : Curve} (_T : GeneratorTable C) (P : Point D) (k : Int) : Except Fault (Point D) :=
  if C.n = 0 then .error .zeroModulus else P.scalarMult (k.fmod C.n)

/-- The sum of a multiple of the base point and a multiple of another point. -/
def addTwoMul (T : GeneratorTable C) (u v : Int) (P : Point C) : Except Fault (Point C) := do
  let base ← T.mulGenerator u
  base.add (← T.mul P v)

end GeneratorTable

end Ecdsa
