/-!
# Positional notation

Numbers written in a base, most significant digit first: `value` reads a list of digits, `digits`
writes a number without leading zeros, `fixedDigits` writes its low digits at a given width.
Byte strings are base 256 and base58 texts are base 58, so both rest on these three functions.
-/

namespace Ecdsa.Radix

/-- The number that a list of digits writes, most significant digit first. -/
def value (base : Nat) (ds : List Nat) : Nat :=
  ds.foldl (fun acc d => acc * base + d) 0

/-- Puts the digits of `n` in front of `tail`. -/
def digitsOnto (base n : Nat) (tail : List Nat) : List Nat :=
  if h : 1 < base ∧ n ≠ 0 then
    have := Nat.div_lt_self (Nat.pos_of_ne_zero h.2) h.1
    digitsOnto base (n / base) (n % base :: tail)
  else tail
termination_by n

/-- The shortest list of digits that writes `n`; zero is written by no digit at all. -/
def digits (base n : Nat) : List Nat :=
  digitsOnto base n []

/-- The low `width` digits of `n`, leading zeros included. -/
def fixedDigits (base : Nat) : Nat → Nat → List Nat
  | 0, _ => []
  | width + 1, n => fixedDigits base width (n / base) ++ [n % base]

/-! ## Reading and writing undo each other -/

theorem value_nil (base : Nat) : value base [] = 0 := rfl

theorem value_concat (base : Nat) (ds : List Nat) (d : Nat) :
    value base (ds ++ [d]) = value base ds * base + d := by
  simp [value]

theorem length_fixedDigits (base : Nat) :
    ∀ width n : Nat, (fixedDigits base width n).length = width
  | 0, _ => rfl
  | width + 1, n => by simp [fixedDigits, length_fixedDigits base width]

/-- The digits of a number in front of others are its digits alone, and then the others. -/
theorem digitsOnto_eq (base n : Nat) (tail : List Nat) :
    digitsOnto base n tail = digits base n ++ tail := by
  induction n using Nat.strongRecOn generalizing tail with
  | ind n ih =>
    unfold digits
    rw [digitsOnto]
    conv => rhs; rw [digitsOnto]
    split
    next h =>
      have hlt := Nat.div_lt_self (Nat.pos_of_ne_zero h.2) h.1
      rw [ih _ hlt (n % base :: tail), ih _ hlt [n % base]]
      simp
    next => rfl

theorem digits_zero (base : Nat) : digits base 0 = [] := by
  simp [digits, digitsOnto]

/-- The last digit is the remainder by the base; the digits before it write the quotient. -/
theorem digits_of_pos {base n : Nat} (hb : 1 < base) (hn : n ≠ 0) :
    digits base n = digits base (n / base) ++ [n % base] := by
  conv => lhs; rw [digits, digitsOnto, dif_pos ⟨hb, hn⟩]
  exact digitsOnto_eq base (n / base) [n % base]

/-- The digits of a number write that number. -/
theorem value_digits {base : Nat} (hb : 1 < base) (n : Nat) : value base (digits base n) = n := by
  induction n using Nat.strongRecOn with
  | ind n ih =>
    by_cases hn : n = 0
    · rw [hn, digits_zero, value_nil]
    · rw [digits_of_pos hb hn, value_concat,
        ih _ (Nat.div_lt_self (Nat.pos_of_ne_zero hn) hb), Nat.div_add_mod']

end Ecdsa.Radix
