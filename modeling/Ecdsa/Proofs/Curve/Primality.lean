import Mathlib
import Ecdsa.Proofs.Curve.Lift

/-!
# Primes by Lucas's test

A number `p` is prime if some power of a base is one modulo `p` at exponent `p − 1` but at no
exponent (p − 1) / q, for the primes `q` that divide `p − 1`. A list of such tests certifies a number
when each of these primes is known already, or tested further down the list (`Certifies.prime`). The
tests use the powers that roots are taken with, so that 256-bit numbers are certified by evaluation.
-/

namespace Ecdsa

/-- Lucas's test for a number: a base, and the prime factors of the predecessor, each as often as it
divides. -/
structure LucasTest where
  number : ℕ
  base : ℕ
  factors : List ℕ

namespace LucasTest

/-- Whether a number passes its test, given numbers that are known to be prime. -/
def Passes (known : List ℕ) (t : LucasTest) : Prop :=
  1 < t.number ∧ t.factors.prod = t.number - 1 ∧
    powerMod t.number t.base (t.number - 1) = 1 ∧
    ∀ q ∈ t.factors, q ∈ known ∧ powerMod t.number t.base ((t.number - 1) / q) ≠ 1

instance (known : List ℕ) (t : LucasTest) : Decidable (t.Passes known) :=
  inferInstanceAs (Decidable (_ ∧ _ ∧ _ ∧ _))

/-- A list of tests in which every number passes, given the known primes and those further down. -/
def Certifies (known : List ℕ) : List LucasTest → Prop
  | [] => True
  | t :: rest => t.Passes (rest.map number ++ known) ∧ Certifies known rest

instance decidableCertifies (known : List ℕ) :
    (tests : List LucasTest) → Decidable (Certifies known tests)
  | [] => inferInstanceAs (Decidable True)
  | t :: rest =>
    have := decidableCertifies known rest
    inferInstanceAs (Decidable (t.Passes (rest.map number ++ known) ∧ Certifies known rest))

theorem pow_eq_one_iff {n : ℕ} (hn : 1 < n) (b e : ℕ) :
    (b : ZMod n) ^ e = 1 ↔ powerMod n b e = 1 := by
  have hpos : (0 : ℤ) < n := by omega
  have hrange := powerMod_range hpos b e
  have hpow : ((powerMod n b e : ℤ) : ZMod n) = (b : ZMod n) ^ e := by
    rw [(ZMod.intCast_eq_intCast_iff _ _ n).mpr (powerMod_modEq hpos b e)]
    push_cast
    rfl
  rw [← hpow, ← Int.cast_one, ZMod.intCast_eq_intCast_iff, Int.ModEq,
    Int.emod_eq_of_lt hrange.1 hrange.2, Int.emod_eq_of_lt one_pos.le (by omega)]

theorem Passes.prime {known : List ℕ} {t : LucasTest} (h : t.Passes known)
    (hknown : ∀ q ∈ known, q.Prime) : t.number.Prime := by
  obtain ⟨hlt, hprod, hone, hfactors⟩ := h
  have hprime : ∀ q ∈ t.factors, q.Prime := by
    intro q hq
    exact hknown q (hfactors q hq).1
  refine lucas_primality t.number t.base ((pow_eq_one_iff hlt _ _).mpr hone) ?_
  intro q hq hdvd
  rw [← hprod] at hdvd
  have hmem := mem_list_primes_of_dvd_prod hq.prime (fun r hr => (hprime r hr).prime) hdvd
  exact (pow_eq_one_iff hlt _ _).not.mpr (hfactors q hmem).2

/-- Every number of a list of tests that certifies is prime. -/
theorem Certifies.prime {known : List ℕ} (hknown : ∀ q ∈ known, q.Prime) {tests : List LucasTest}
    (h : Certifies known tests) : ∀ q ∈ tests.map number, q.Prime := by
  induction tests with
  | nil => simp
  | cons t rest ih =>
    have hrest := ih h.2
    have hlater : ∀ q ∈ rest.map number ++ known, q.Prime := by
      intro q hq
      exact (List.mem_append.mp hq).elim (hrest q) (hknown q)
    rw [List.map_cons, List.forall_mem_cons]
    exact ⟨h.1.prime hlater, hrest⟩

end LucasTest

end Ecdsa
