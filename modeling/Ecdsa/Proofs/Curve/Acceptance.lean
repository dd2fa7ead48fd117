import Mathlib
import Ecdsa.Curve.Acceptance
import Ecdsa.Proofs.Curve.Table

/-!
# What is accepted

On a table of generator multiples `accepts` never fails, and its answer is verification as it is
stated in the group (`Curve.Verifies`). With a base point of prime order, and under the point of a
private key, verifying is the same as coming from a nonce (`Curve.IsSignature`): the sum of the
verification equation is k · G for the nonce `k`, and conversely its factor is a nonce.

Neither statement assumes anything of the numbers `r`, `s` and `z`. Where the order is not prime an
`s` may have no inverse, and then nothing verifies.
-/

namespace Ecdsa

namespace Curve

variable {C : Curve} [C.IsElliptic]

/-- Verification as it is stated in the group: both numbers are in range, the public point is not
the neutral element, `s` has an inverse `w` modulo the order, and `r` is modulo the order the
abscissa of the finite point (z · w) · G + (r · w) · A. -/
def Verifies (A : C.Group) (r s z : ℤ) : Prop :=
  (0 < r ∧ r < C.n) ∧ (0 < s ∧ s < C.n) ∧ A ≠ 0 ∧ Int.gcd s C.n = 1 ∧
    ∃ w, (0 ≤ w ∧ w < C.n) ∧ s * w ≡ 1 [ZMOD C.n] ∧
      ∃ x, abscissa? ((z * w % C.n) • C.base + (r * w % C.n) • A) = some x ∧ x % C.n = r

/-- The signing relation: the pair (r, s) comes from some nonce `k` for the private key `d` and the
number `z`. -/
def IsSignature (C : Curve) [C.IsElliptic] (d r s z : ℤ) : Prop :=
  (0 < r ∧ r < C.n) ∧ (0 < s ∧ s < C.n) ∧
    ∃ k, (1 ≤ k ∧ k < C.n) ∧ (∃ x, abscissa? (k • C.base) = some x ∧ x % C.n = r) ∧
      s * k ≡ z + r * d [ZMOD C.n]

/-! ## Multiples of a base point of prime order -/

omit [C.IsElliptic] in
/-- Below a prime order every number has an inverse. -/
theorem exists_inverse (hN : C.n.toNat.Prime) {k : ℤ} (hk : 1 ≤ k ∧ k < C.n) :
    ∃ w, (0 ≤ w ∧ w < C.n) ∧ k * w ≡ 1 [ZMOD C.n] := by
  have hgcd : Int.gcd k C.n = 1 := by
    rw [Int.gcd_def, show k.natAbs = k.toNat by omega, show C.n.natAbs = C.n.toNat by omega]
    exact (Nat.coprime_of_lt_prime (by omega) (by omega) hN).symm
  have hw := inverse?_eq k (show C.n ≠ 0 by omega)
  rw [if_pos ⟨by omega, by omega, hgcd⟩, inverse?_eq_some_iff (by omega)] at hw
  exact ⟨_, hw.2⟩

theorem base_ne_zero (hG : C.Contains C.gx C.gy) : C.base ≠ 0 := by
  obtain ⟨hxy, hbase⟩ := base_eq_some hG
  rw [hbase]
  exact WeierstrassCurve.Affine.Point.some_ne_zero hxy

/-- Below a prime order no multiple of a point vanishes but the zeroth. -/
theorem zsmul_ne_zero {A : C.Group} (hA : A ≠ 0) (hN : C.n.toNat.Prime) (hn : C.n • A = 0) {k : ℤ}
    (hk : 1 ≤ k ∧ k < C.n) : k • A ≠ 0 := by
  intro hzero
  obtain ⟨w, -, hw⟩ := exists_inverse hN hk
  apply hA
  calc A = (k * w) • A := by rw [zsmul_eq_of_modEq hn hw, one_zsmul]
    _ = 0 := by rw [mul_comm, mul_zsmul, hzero, zsmul_zero]

/-! ## Signatures are what verifies -/

/-- A pair that comes from a nonce verifies: the nonce is what the sum is a multiple by. -/
theorem IsSignature.verifies (hG : C.Contains C.gx C.gy) (hN : C.n.toNat.Prime)
    (hn : C.n • C.base = 0) {d r s z : ℤ} (hd : 1 ≤ d ∧ d < C.n) (h : C.IsSignature d r s z) :
    Verifies (d • C.base) r s z := by
  obtain ⟨hr, hs, k, hk, hx, hsk⟩ := h
  obtain ⟨w, hw, hsw⟩ := exists_inverse hN ⟨hs.1, hs.2⟩
  refine ⟨hr, hs, zsmul_ne_zero (base_ne_zero hG) hN hn hd, gcd_eq_one_of_inverse hsw, w, hw, hsw, ?_⟩
  have hsum : (z * w % C.n) • C.base + (r * w % C.n) • d • C.base = k • C.base := by
    rw [← mul_zsmul, ← add_zsmul]
    refine zsmul_eq_of_modEq hn ?_
    calc z * w % C.n + r * w % C.n * d
        ≡ z * w + r * w * d [ZMOD C.n] := (Int.mod_modEq _ _).add ((Int.mod_modEq _ _).mul_right d)
      _ = w * (z + r * d) := by ring
      _ ≡ w * (s * k) [ZMOD C.n] := hsk.symm.mul_left w
      _ = s * w * k := by ring
      _ ≡ 1 * k [ZMOD C.n] := hsw.mul_right k
      _ = k := one_mul k
  rwa [hsum]

/-- A pair that verifies comes from a nonce: the one that the sum is a multiple by. -/
theorem Verifies.isSignature (hn : C.n • C.base = 0) {d r s z : ℤ}
    (h : Verifies (d • C.base) r s z) : C.IsSignature d r s z := by
  obtain ⟨hr, hs, -, -, w, hw, hsw, x, hx, hxr⟩ := h
  have hpos : 0 < C.n := by omega
  -- the factor of the base point in the sum
  have hsum : (z * w % C.n) • C.base + (r * w % C.n) • d • C.base =
      ((z + r * d) * w % C.n) • C.base := by
    rw [← mul_zsmul, ← add_zsmul]
    refine zsmul_eq_of_modEq hn ?_
    calc z * w % C.n + r * w % C.n * d
        ≡ z * w + r * w * d [ZMOD C.n] := (Int.mod_modEq _ _).add ((Int.mod_modEq _ _).mul_right d)
      _ = (z + r * d) * w := by ring
      _ ≡ (z + r * d) * w % C.n [ZMOD C.n] := (Int.mod_modEq _ _).symm
  rw [hsum] at hx
  have hk0 : (z + r * d) * w % C.n ≠ 0 := by
    intro h0
    rw [h0, zero_zsmul] at hx
    simp [abscissa?, coordinates?] at hx
  have hk := Int.emod_nonneg ((z + r * d) * w) hpos.ne'
  refine ⟨hr, hs, (z + r * d) * w % C.n, ⟨by omega, Int.emod_lt_of_pos _ hpos⟩, ⟨x, hx, hxr⟩, ?_⟩
  calc s * ((z + r * d) * w % C.n) ≡ s * ((z + r * d) * w) [ZMOD C.n] :=
        (Int.mod_modEq _ _).mul_left s
    _ = s * w * (z + r * d) := by ring
    _ ≡ 1 * (z + r * d) [ZMOD C.n] := hsw.mul_right _
    _ = z + r * d := one_mul _

end Curve

namespace GeneratorTable

variable {C : Curve} [C.IsElliptic]

/-! ## The verification equation -/

theorem sumAffine_spec {T : GeneratorTable C} (hT : T.IsTable) (hn : 1 ≤ C.n) (u v : ℤ)
    {Q : Point C} (hQ : Q.OnCurve) :
    T.sumAffine u v Q =
      .ok (Curve.coordinates? ((u % C.n) • C.base + (v % C.n) • Q.value)) := by
  rw [sumAffine_eq]
  exact (addTwoMul_spec hT hn u v hQ).toAffine

/-- With numbers in range, a finite public point and an inverse of `s`, all that is left to check is
the abscissa of the sum. -/
theorem accepts_of_inverse {T : GeneratorTable C} (hT : T.IsTable) {Q : Point C} (hQ : Q.OnCurve)
    {r s w : ℤ} (z : ℤ) (hr : 0 < r ∧ r < C.n) (hs : 0 < s ∧ s < C.n) (hinf : ¬Q.IsInfinity)
    (hw : inverse? s C.n = .ok (some w)) :
    ∃ b, T.accepts Q r s z = .ok b ∧ (b = true ↔
      ∃ x, Curve.abscissa? ((z * w % C.n) • C.base + (r * w % C.n) • Q.value) = some x ∧
        x % C.n = r) := by
  have hn : 0 ≤ C.n := by omega
  have hsum := sumAffine_spec hT (by omega) ((z * w).fmod C.n) ((r * w).fmod C.n) hQ
  rw [Int.fmod_eq_emod_of_nonneg _ hn, Int.fmod_eq_emod_of_nonneg _ hn, Int.emod_emod,
    Int.emod_emod] at hsum
  rw [accepts, if_neg (by simp [hr, hs]), if_neg hinf, hw]
  simp only [bind, Except.bind, pure, Except.pure, Int.fmod_eq_emod_of_nonneg _ hn, hsum,
    Curve.abscissa?]
  cases Curve.coordinates? ((z * w % C.n) • C.base + (r * w % C.n) • Q.value) with
  | none => exact ⟨false, rfl, by simp⟩
  | some xy => exact ⟨decide (xy.1 % C.n = r), rfl, by simp⟩

/-- Acceptance never fails on the curve, and is verification in the group. -/
theorem accepts_spec {T : GeneratorTable C} (hT : T.IsTable) (hn : 1 ≤ C.n) {Q : Point C}
    (hQ : Q.OnCurve) (r s z : ℤ) :
    ∃ b, T.accepts Q r s z = .ok b ∧ (b = true ↔ Curve.Verifies Q.value r s z) := by
  by_cases hrange : 0 < r ∧ r < C.n ∧ 0 < s ∧ s < C.n
  swap
  · refine ⟨false, by rw [accepts, if_pos hrange]; rfl, ?_⟩
    simp only [Bool.false_eq_true, false_iff]
    intro h
    exact hrange ⟨h.1.1, h.1.2, h.2.1.1, h.2.1.2⟩
  obtain ⟨hr₀, hr₁, hs₀, hs₁⟩ := hrange
  by_cases hinf : Q.IsInfinity
  · refine ⟨false, ?_, ?_⟩
    · rw [accepts, if_neg (by simp [hr₀, hr₁, hs₀, hs₁]), if_pos hinf]
      rfl
    · simp only [Bool.false_eq_true, false_iff]
      intro h
      exact h.2.2.1 (Point.value_of_isInfinity hinf)
  by_cases hgcd : Int.gcd s C.n = 1
  swap
  · refine ⟨false, ?_, ?_⟩
    · rw [accepts, if_neg (by simp [hr₀, hr₁, hs₀, hs₁]), if_neg hinf,
        inverse?_eq s (by omega), if_neg (by tauto)]
      rfl
    · simp only [Bool.false_eq_true, false_iff]
      intro h
      exact hgcd h.2.2.2.1
  obtain ⟨w, hw⟩ : ∃ w, inverse? s C.n = .ok (some w) := by
    rw [inverse?_eq s (by omega), if_pos ⟨hs₀.le, by omega, hgcd⟩]
    exact ⟨_, rfl⟩
  obtain ⟨-, hwr, hsw⟩ := (inverse?_eq_some_iff (by omega)).mp hw
  obtain ⟨b, hb, hiff⟩ := accepts_of_inverse hT hQ z ⟨hr₀, hr₁⟩ ⟨hs₀, hs₁⟩ hinf hw
  refine ⟨b, hb, hiff.trans ?_⟩
  refine ⟨?_, ?_⟩
  · intro hx
    exact ⟨⟨hr₀, hr₁⟩, ⟨hs₀, hs₁⟩, hQ.value_eq_zero_iff.not.mpr hinf, hgcd, w, hwr, hsw, hx⟩
  · intro h
    obtain ⟨-, -, -, -, w', hwr', hsw', hx⟩ := h
    rwa [eq_of_inverse hwr' hwr hsw' hsw] at hx

theorem accepts_eq_true_iff {T : GeneratorTable C} (hT : T.IsTable) (hn : 1 ≤ C.n) {Q : Point C}
    (hQ : Q.OnCurve) (r s z : ℤ) :
    T.accepts Q r s z = .ok true ↔ Curve.Verifies Q.value r s z := by
  obtain ⟨b, hb, hiff⟩ := accepts_spec hT hn hQ r s z
  rw [hb, Except.ok.injEq]
  exact hiff

/-- On a table built for a curve, acceptance never fails and is verification in the group. Neither
the width of the windows nor the coordinates that the public point is given in make a difference. -/
theorem build_accepts_iff_verifies (hG : C.Contains C.gx C.gy) (hn : 1 ≤ C.n) {width : ℤ}
    (hw : 1 ≤ width) {Q : Point C} (hQ : Q.OnCurve) (r s z : ℤ) :
    ∃ b, (build C width).bind (·.accepts Q r s z) = .ok b ∧
      (b = true ↔ Curve.Verifies Q.value r s z) ∧
      ∀ width' ≥ 1, ∀ Q' : Point C, Q'.OnCurve → Q'.value = Q.value →
        (build C width').bind (·.accepts Q' r s z) = .ok b := by
  have hrun : ∀ width' ≥ 1, ∀ Q' : Point C, Q'.OnCurve →
      ∃ b, (build C width').bind (·.accepts Q' r s z) = .ok b ∧
        (b = true ↔ Curve.Verifies Q'.value r s z) := by
    intro width' hw' Q' hQ'
    obtain ⟨T, hT, htable⟩ := build_spec hG hw'
    rw [hT]
    exact accepts_spec htable hn hQ' r s z
  obtain ⟨b, hb, hiff⟩ := hrun width hw Q hQ
  refine ⟨b, hb, hiff, ?_⟩
  intro width' hw' Q' hQ' hval
  obtain ⟨b', hb', hiff'⟩ := hrun width' hw' Q' hQ'
  rw [hb', Bool.eq_iff_iff.mpr (hiff'.trans (hval ▸ hiff.symm))]

/-- With an order that is not the order of the base point, and a digest number below zero: nine times
the base point and five times the public point are added. -/
theorem small_verifies :
    Curve.Verifies (⟨32, 37, 24⟩ : Point (Curve.small 12)).value 11 7 (-21) := by
  have hQ : (⟨32, 37, 24⟩ : Point (Curve.small 12)).OnCurve :=
    Or.inr ⟨by decide, by decide, by decide, by decide⟩
  obtain ⟨b, hb, hiff, -⟩ := build_accepts_iff_verifies (Curve.small_contains 12)
    (show (1 : ℤ) ≤ 12 by norm_num) (show (1 : ℤ) ≤ 5 by norm_num) hQ 11 7 (-21)
  have hrun : (build (Curve.small 12) 5).bind
      (·.accepts (⟨32, 37, 24⟩ : Point (Curve.small 12)) 11 7 (-21)) = .ok true := by
    cbv
  rw [hrun, Except.ok.injEq] at hb
  exact hiff.mp hb.symm

/-- **Acceptance is the signing relation.** Under the point of a private key, exactly those pairs are
accepted that come from some nonce. -/
theorem build_accepts_iff_isSignature (hG : C.Contains C.gx C.gy) (hN : C.n.toNat.Prime)
    (hn : C.n • C.base = 0) {width : ℤ} (hw : 1 ≤ width) {d : ℤ} (hd : 1 ≤ d ∧ d < C.n)
    {Q : Point C} (hQ : Q.OnCurve) (hQd : Q.value = d • C.base) (r s z : ℤ) :
    ∃ b, (build C width).bind (·.accepts Q r s z) = .ok b ∧ (b = true ↔ C.IsSignature d r s z) := by
  obtain ⟨T, hT, htable⟩ := build_spec hG hw
  obtain ⟨b, hb, hiff⟩ := accepts_spec htable (by omega) hQ r s z
  rw [hQd] at hiff
  rw [hT]
  exact ⟨b, hb, hiff.trans ⟨fun h => h.isSignature hn, fun h => h.verifies hG hN hn hd⟩⟩

/-- On the small curve, for the private key 5 and a digest number above the order. -/
theorem small_isSignature : (Curve.small 31).IsSignature 5 25 28 40 := by
  obtain ⟨hkey, hvalue⟩ := Curve.smallKey_spec
  obtain ⟨b, hb, hiff⟩ := build_accepts_iff_isSignature (Curve.small_contains 31)
    (show Nat.Prime 31 by norm_num) Curve.small_order (show (1 : ℤ) ≤ 2 by norm_num)
    (show (1 : ℤ) ≤ 5 ∧ (5 : ℤ) < 31 by norm_num) hkey hvalue 25 28 40
  have hrun : (build (Curve.small 31) 2).bind (·.accepts Curve.smallKey 25 28 40) = .ok true := by
    cbv
  rw [hrun, Except.ok.injEq] at hb
  exact hiff.mp hb.symm

end GeneratorTable

end Ecdsa
