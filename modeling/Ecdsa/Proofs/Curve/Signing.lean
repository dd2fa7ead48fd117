import Mathlib
import Ecdsa.Proofs.Curve.Acceptance

/-!
# Signing

A signature of `z` with the private key `d` and the nonce `k` is the pair of `signR` and `signS`.
Unless one of them is zero it verifies, and so does the pair with the opposite second number
(`Verifies.opposite`): it is the pair that the opposite nonce gives.
-/

namespace Ecdsa.Curve

variable {C : Curve} [C.IsElliptic]

/-- The first number of a signature with the nonce `k`: the abscissa of k · G modulo the order. -/
noncomputable def signR (C : Curve) [C.IsElliptic] (k : ℤ) : ℤ :=
  (abscissa? (k • C.base)).getD 0 % C.n

/-- The second number of a signature with the nonce `k`: (z + r · d) / k modulo the order. -/
noncomputable def signS (C : Curve) [C.IsElliptic] (d k z : ℤ) : ℤ :=
  ((k : ZMod C.n.toNat)⁻¹ * (z + C.signR k * d : ℤ)).val

theorem signS_range (hN : C.n.toNat.Prime) (d k z : ℤ) :
    0 ≤ C.signS d k z ∧ C.signS d k z < C.n := by
  have : NeZero C.n.toNat := ⟨hN.ne_zero⟩
  have hlt := ZMod.val_lt ((k : ZMod C.n.toNat)⁻¹ * ((z + C.signR k * d : ℤ) : ZMod C.n.toNat))
  unfold signS
  omega

theorem signS_mul (hN : C.n.toNat.Prime) {k : ℤ} (hk : 1 ≤ k ∧ k < C.n) (d z : ℤ) :
    C.signS d k z * k ≡ z + C.signR k * d [ZMOD C.n] := by
  have : Fact C.n.toNat.Prime := ⟨hN⟩
  have hn : ((C.n.toNat : ℕ) : ℤ) = C.n := Int.toNat_of_nonneg (by omega)
  have hk0 : (k : ZMod C.n.toNat) ≠ 0 := by
    rw [Ne, ZMod.intCast_zmod_eq_zero_iff_dvd, hn]
    intro h
    have := Int.le_of_dvd (by omega) h
    omega
  rw [← hn, ← ZMod.intCast_eq_intCast_iff, signS]
  push_cast [ZMod.natCast_zmod_val]
  rw [mul_comm, mul_inv_cancel_left₀ hk0]

/-- The second number is the only residue that solves the signing relation. -/
theorem signS_eq (hN : C.n.toNat.Prime) {d k s z : ℤ} (hk : 1 ≤ k ∧ k < C.n)
    (hs : 0 ≤ s ∧ s < C.n) (h : s * k ≡ z + C.signR k * d [ZMOD C.n]) : C.signS d k z = s := by
  obtain ⟨w, -, hw⟩ := exists_inverse hN hk
  have hrange := signS_range hN d k z
  have hmod : C.signS d k z ≡ s [ZMOD C.n] := by
    calc C.signS d k z ≡ C.signS d k z * (k * w) [ZMOD C.n] := by
          simpa using (hw.mul_left (C.signS d k z)).symm
      _ = C.signS d k z * k * w := by ring
      _ ≡ s * k * w [ZMOD C.n] := ((signS_mul hN hk d z).trans h.symm).mul_right w
      _ = s * (k * w) := by ring
      _ ≡ s [ZMOD C.n] := by simpa using hw.mul_left s
  rwa [Int.ModEq, Int.emod_eq_of_lt hrange.1 hrange.2, Int.emod_eq_of_lt hs.1 hs.2] at hmod

/-- The first number, from the coordinates of a multiple of the base point that was computed. -/
theorem signR_eq (hG : C.Contains C.gx C.gy) {k x y : ℤ} (hk : 0 ≤ k)
    (h : ((Point.generator C).scalarMult k).bind Point.toAffine = .ok (some (x, y))) :
    C.signR k = x % C.n := by
  rw [signR, abscissa?, base, Point.coordinates?_of_scalarMult (Point.onCurve_generator hG) hk h]
  rfl

/-- A pair that is signed is a signature unless one of the numbers is zero. -/
theorem isSignature_sign (hN : C.n.toNat.Prime) {d k z : ℤ} (hk : 1 ≤ k ∧ k < C.n)
    (hr : C.signR k ≠ 0) (hs : C.signS d k z ≠ 0) :
    C.IsSignature d (C.signR k) (C.signS d k z) z := by
  have hsr := signS_range hN d k z
  have hr₀ : 0 ≤ C.signR k := Int.emod_nonneg _ (by omega)
  have hr₁ : C.signR k < C.n := Int.emod_lt_of_pos _ (by omega)
  refine ⟨⟨by omega, hr₁⟩, ⟨by omega, hsr.2⟩, k, hk, ?_, signS_mul hN hk d z⟩
  cases hx : abscissa? (k • C.base) with
  | none => exact absurd (by rw [signR, hx]; rfl) hr
  | some x => exact ⟨x, rfl, by rw [signR, hx, Option.getD_some]⟩

/-- With a pair also the one with the opposite second number verifies, as the sum of the verification
equation becomes the opposite point. -/
theorem Verifies.opposite (hn : C.n • C.base = 0) {A : C.Group} (hA : C.n • A = 0) {r s z : ℤ}
    (h : Verifies A r s z) : Verifies A r (C.n - s) z := by
  obtain ⟨hr, hs, hA0, -, w, -, hsw, x, hx, hxr⟩ := h
  have hpos : 0 < C.n := by omega
  have hneg : -w % C.n ≡ -w [ZMOD C.n] := Int.mod_modEq _ _
  have hw' : (C.n - s) * (-w % C.n) ≡ 1 [ZMOD C.n] := by
    calc (C.n - s) * (-w % C.n) ≡ (C.n - s) * -w [ZMOD C.n] := hneg.mul_left _
      _ = s * w + C.n * -w := by ring
      _ ≡ s * w [ZMOD C.n] := Int.modEq_iff_dvd.mpr ⟨w, by ring⟩
      _ ≡ 1 [ZMOD C.n] := hsw
  -- each summand turns into its opposite
  have hopp (B : C.Group) (hB : C.n • B = 0) (v : ℤ) :
      (v * (-w % C.n) % C.n) • B = -((v * w % C.n) • B) := by
    rw [← neg_zsmul]
    refine zsmul_eq_of_modEq hB ?_
    calc v * (-w % C.n) % C.n ≡ v * (-w % C.n) [ZMOD C.n] := Int.mod_modEq _ _
      _ ≡ v * -w [ZMOD C.n] := hneg.mul_left v
      _ = -(v * w) := by ring
      _ ≡ -(v * w % C.n) [ZMOD C.n] := (Int.mod_modEq _ _).symm.neg
  refine ⟨hr, ⟨by omega, by omega⟩, hA0, gcd_eq_one_of_inverse hw', -w % C.n,
    ⟨Int.emod_nonneg _ hpos.ne', Int.emod_lt_of_pos _ hpos⟩, hw', x, ?_, hxr⟩
  rw [hopp C.base hn z, hopp A hA r, ← neg_add, abscissa?_neg]
  exact hx

/-- The smaller of two opposite second numbers verifies if one of them does. -/
theorem Verifies.min_opposite (hn : C.n • C.base = 0) {A : C.Group} (hA : C.n • A = 0) {r s z : ℤ}
    (h : Verifies A r s z) : Verifies A r (min s (C.n - s)) z := by
  rcases min_choice s (C.n - s) with hmin | hmin
  · rwa [hmin]
  · rw [hmin]
    exact h.opposite hn hA

end Ecdsa.Curve
