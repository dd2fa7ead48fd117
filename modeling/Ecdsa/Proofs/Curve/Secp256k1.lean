import Mathlib
import Ecdsa.Curve.Secp256k1
import Ecdsa.Proofs.Curve.Primality
import Ecdsa.Proofs.Curve.Table

/-!
# secp256k1 is as it is meant

The modulus and the order are prime, the curve is elliptic, the base point lies on it and has the
order it is said to have, and the shared table can be built. Primality is certified by Lucas's tests;
the order of the base point is found by running the ladder once.
-/

namespace Ecdsa

/-- The small primes that the tests below rest on. -/
def smallPrimes : List ℕ :=
  [2, 3, 5, 7, 11, 17, 29, 31, 41, 53, 59, 97, 109, 149, 293, 461, 631, 797, 971, 1373, 1627,
    1871, 2011, 2621, 2657, 2731, 4051, 4423, 5323, 7723, 9349, 13441, 16699, 20113, 24809, 28181,
    41201, 85831, 96557, 120233]

/-- Lucas's tests for the order, the modulus, and the large primes that divide their predecessors. -/
def primalityTests : List LucasTest :=
  [
    ⟨115792089237316195423570985008687907852837564279074904382605163141518161494337, 7,
      [2, 2, 2, 2, 2, 2, 3, 149, 631, 107361793816595537, 174723607534414371449,
        341948486974166000522343609283189]⟩,
    ⟨107361793816595537, 3, [2, 2, 2, 2, 16699, 85831, 4681609]⟩,
    ⟨4681609, 23, [2, 2, 2, 3, 97, 2011]⟩,
    ⟨174723607534414371449, 3, [2, 2, 2, 17, 59, 4051, 120233, 44706919]⟩,
    ⟨44706919, 6, [2, 3, 797, 9349]⟩,
    ⟨341948486974166000522343609283189, 2, [2, 2, 3, 3, 3, 109, 29047611873442575647497758179]⟩,
    ⟨29047611873442575647497758179, 2, [2, 293, 305873, 545358713, 297159362677]⟩,
    ⟨545358713, 5, [2, 2, 2, 41, 59, 28181]⟩,
    ⟨297159362677, 2, [2, 2, 3, 3, 11, 461, 1627771]⟩,
    ⟨1627771, 3, [2, 3, 5, 29, 1871]⟩,
    ⟨305873, 3, [2, 2, 2, 2, 7, 2731]⟩,
    ⟨115792089237316195423570985008687907853269984665640564039457584007908834671663, 3,
      [2, 3, 7, 13441, 205115282021455665897114700593932402728804164701536103180137503955397371]⟩,
    ⟨205115282021455665897114700593932402728804164701536103180137503955397371, 10,
      [2, 3, 5, 29, 29, 31, 7723, 132896956044521568488119,
        255515944373312847190720520512484175977]⟩,
    ⟨132896956044521568488119, 6, [2, 3, 22149492674086928081353]⟩,
    ⟨22149492674086928081353, 5, [2, 2, 2, 3, 5323, 173378833005251801]⟩,
    ⟨173378833005251801, 6, [2, 2, 2, 5, 5, 2621, 24809, 13331831]⟩,
    ⟨13331831, 13, [2, 5, 971, 1373]⟩,
    ⟨255515944373312847190720520512484175977, 3,
      [2, 2, 2, 7, 7, 11, 1627, 2657, 4423, 41201, 96557, 7240687, 107590001]⟩,
    ⟨107590001, 3, [2, 2, 2, 2, 5, 5, 5, 5, 7, 29, 53]⟩,
    ⟨7240687, 3, [2, 3, 1206781]⟩,
    ⟨1206781, 10, [2, 2, 3, 5, 20113]⟩]

theorem smallPrimes_prime : ∀ q ∈ smallPrimes, q.Prime := by
  simp only [smallPrimes, List.forall_mem_cons]
  norm_num

theorem primalityTests_certify : LucasTest.Certifies smallPrimes primalityTests := by
  decide +kernel

theorem secp256k1_p_prime : secp256k1.p.toNat.Prime :=
  primalityTests_certify.prime smallPrimes_prime _ (by decide +kernel)

theorem secp256k1_n_prime : secp256k1.n.toNat.Prime :=
  primalityTests_certify.prime smallPrimes_prime _ (by decide +kernel)

instance secp256k1_isElliptic : secp256k1.IsElliptic where
  out := secp256k1_p_prime
  three_lt := by decide +kernel
  discriminant := by decide +kernel

theorem secp256k1_contains_base : secp256k1.Contains secp256k1.gx secp256k1.gy := by
  decide +kernel

/-- Whether a computation gave a point at infinity. -/
def Point.gaveInfinity {C : Curve} : Except Fault (Point C) → Bool
  | .ok P => decide P.IsInfinity
  | .error _ => false

/-- The order annihilates the base point. -/
theorem secp256k1_n_zsmul_base : secp256k1.n • secp256k1.base = 0 := by
  have hG := Point.onCurve_generator secp256k1_contains_base
  obtain ⟨R, hR, -, hRv⟩ := Point.scalarMult_spec hG (k := secp256k1.n) (by decide)
  have hrun : Point.gaveInfinity ((Point.generator secp256k1).scalarMult secp256k1.n) = true := by
    decide +kernel
  rw [hR] at hrun
  rw [Curve.base, ← hRv]
  exact Point.value_of_isInfinity (of_decide_eq_true hrun)

/-- The table shared by all verifications can be built, and is one of generator multiples. -/
theorem GeneratorTable.shared_spec : ∃ T, shared = .ok T ∧ T.IsTable :=
  build_spec secp256k1_contains_base (by decide)

end Ecdsa
