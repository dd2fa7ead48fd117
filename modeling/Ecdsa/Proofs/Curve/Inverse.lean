import Mathlib
import Ecdsa.Curve.Inverse

/-!
# What Euclid's run finds

`inverse?_eq_some_iff` says for every nonzero modulus, of either sign, when a number has an inverse
and which one it is; `inverse?_eq` that there is always an answer. `inverse?_exact` puts the two
together with the end of the run, which comes after at most as many rounds as the modulus is large
(`euclid_stops`).

The run keeps two facts: each remainder is `a` times its coefficient modulo `m`, and the greatest
common divisor of the two remainders never changes. So the last remainder is the greatest common
divisor of `a` and `m` up to its sign, and the sign is that of the modulus.
-/

namespace Ecdsa

/-! ## One run -/

theorem fmod_nonpos_of_neg (a : ℤ) {m : ℤ} (h : m < 0) : a.fmod m ≤ 0 := by
  have := Int.fmod_nonneg_of_pos (-a) (show 0 < -m by omega)
  rw [show a.fmod m = -((-a).fmod (-m)) by rw [Int.neg_fmod_neg, neg_neg]]
  omega

/-- The coefficient of the last remainder multiplies `a` to that remainder. -/
theorem euclid_modEq {a m : ℤ} (r₀ r₁ c₀ c₁ : ℤ) (h₀ : c₀ * a ≡ r₀ [ZMOD m])
    (h₁ : c₁ * a ≡ r₁ [ZMOD m]) :
    (euclid r₀ r₁ c₀ c₁).2 * a ≡ (euclid r₀ r₁ c₀ c₁).1 [ZMOD m] := by
  fun_induction euclid r₀ r₁ c₀ c₁ with
  | case1 r₀ c₀ c₁ => exact h₀
  | case2 r₀ r₁ c₀ c₁ h _ ih =>
    refine ih h₁ ?_
    rw [Int.fmod_def, sub_mul, mul_comm r₁, mul_assoc]
    exact h₀.sub (h₁.mul_left _)

/-- The last remainder is the greatest common divisor up to its sign. -/
theorem natAbs_euclid_fst (r₀ r₁ c₀ c₁ : ℤ) :
    (euclid r₀ r₁ c₀ c₁).1.natAbs = Int.gcd r₀ r₁ := by
  fun_induction euclid r₀ r₁ c₀ c₁ with
  | case1 r₀ c₀ c₁ => simp
  | case2 r₀ r₁ c₀ c₁ h _ ih =>
    rw [ih, Int.fmod_def, Int.gcd_comm, Int.gcd_sub_mul_left_left]

/-- Remainders that start at or above zero stay there. -/
theorem euclid_fst_nonneg (r₀ r₁ c₀ c₁ : ℤ) (h₀ : 0 ≤ r₀) (h₁ : 0 ≤ r₁) :
    0 ≤ (euclid r₀ r₁ c₀ c₁).1 := by
  fun_induction euclid r₀ r₁ c₀ c₁ with
  | case1 r₀ c₀ c₁ => exact h₀
  | case2 r₀ r₁ c₀ c₁ h _ ih =>
    exact ih h₁ (Int.fmod_nonneg_of_pos r₀ (by omega))

theorem euclid_fst_nonpos (r₀ r₁ c₀ c₁ : ℤ) (h₀ : r₀ ≤ 0) (h₁ : r₁ ≤ 0) :
    (euclid r₀ r₁ c₀ c₁).1 ≤ 0 := by
  fun_induction euclid r₀ r₁ c₀ c₁ with
  | case1 r₀ c₀ c₁ => exact h₀
  | case2 r₀ r₁ c₀ c₁ h _ ih =>
    exact ih h₁ (fmod_nonpos_of_neg r₀ (by omega))

/-! ## The rounds of a run -/

/-- What stands between two rounds: the two latest remainders and their coefficients. -/
structure EuclidState where
  r₀ : ℤ
  r₁ : ℤ
  c₀ : ℤ
  c₁ : ℤ

namespace EuclidState

/-- One round. Only the remainder of a division by the later remainder is new. -/
def next (s : EuclidState) : EuclidState :=
  ⟨s.r₁, s.r₀.fmod s.r₁, s.c₁, s.c₀ - s.r₀.fdiv s.r₁ * s.c₁⟩

/-- Whether exactly so many rounds are gone through: then the later remainder is zero for the first
time. -/
def StopsAfter (s : EuclidState) (k : ℕ) : Prop :=
  (next^[k] s).r₁ = 0 ∧ ∀ j < k, (next^[j] s).r₁ ≠ 0

theorem stopsAfter_zero {s : EuclidState} (h : s.r₁ = 0) : s.StopsAfter 0 :=
  ⟨h, fun j hj => absurd hj (Nat.not_lt_zero j)⟩

theorem StopsAfter.succ {s : EuclidState} {k : ℕ} (h : s.r₁ ≠ 0) (hnext : s.next.StopsAfter k) :
    s.StopsAfter (k + 1) := by
  refine ⟨hnext.1, ?_⟩
  intro j hj
  cases j with
  | zero => exact h
  | succ j => exact hnext.2 j (Nat.lt_of_succ_lt_succ hj)

end EuclidState

/-- The run goes from round to round until a remainder is zero, and gives what stands before it. As
remainders get smaller, there are no more rounds than the first divisor is large. -/
theorem euclid_stops (r₀ r₁ c₀ c₁ : ℤ) : ∃ k ≤ r₁.natAbs,
    EuclidState.StopsAfter ⟨r₀, r₁, c₀, c₁⟩ k ∧
      euclid r₀ r₁ c₀ c₁ =
        ((EuclidState.next^[k] ⟨r₀, r₁, c₀, c₁⟩).r₀, (EuclidState.next^[k] ⟨r₀, r₁, c₀, c₁⟩).c₀) := by
  fun_induction euclid r₀ r₁ c₀ c₁ with
  | case1 r₀ c₀ c₁ => exact ⟨0, Nat.zero_le _, EuclidState.stopsAfter_zero rfl, rfl⟩
  | case2 r₀ r₁ c₀ c₁ h hlt ih =>
    obtain ⟨k, hk, hstops, hlast⟩ := ih
    exact ⟨k + 1, by omega, hstops.succ h, hlast⟩

/-! ## Inverses -/

/-- Two numbers with the same inverse in range are the same. -/
theorem eq_of_inverse {a m v w : ℤ} (hv : 0 ≤ v ∧ v < m) (hw : 0 ≤ w ∧ w < m)
    (hav : a * v ≡ 1 [ZMOD m]) (haw : a * w ≡ 1 [ZMOD m]) : v = w := by
  have h : v ≡ w [ZMOD m] := by
    calc v = 1 * v := by ring
      _ ≡ (a * w) * v [ZMOD m] := (haw.mul_right v).symm
      _ = (a * v) * w := by ring
      _ ≡ 1 * w [ZMOD m] := hav.mul_right w
      _ = w := by ring
  rwa [Int.ModEq, Int.emod_eq_of_lt hv.1 hv.2, Int.emod_eq_of_lt hw.1 hw.2] at h

theorem gcd_eq_one_of_inverse {a m w : ℤ} (h : a * w ≡ 1 [ZMOD m]) : Int.gcd a m = 1 := by
  obtain ⟨t, ht⟩ := Int.modEq_iff_dvd.mp h
  rw [← Int.isCoprime_iff_gcd_eq_one]
  exact ⟨w, t, by linear_combination -ht⟩

theorem natAbs_euclid_fmod (a m : ℤ) : (euclid (a.fmod m) m 1 0).1.natAbs = Int.gcd a m := by
  rw [natAbs_euclid_fst, Int.fmod_def, Int.gcd_sub_mul_left_left]

/-- The run for `a` modulo `m` ends with one exactly if the modulus is positive and prime to `a`. -/
theorem euclid_fst_eq_one_iff {a m : ℤ} (hm : m ≠ 0) :
    (euclid (a.fmod m) m 1 0).1 = 1 ↔ 0 < m ∧ Int.gcd a m = 1 := by
  have hgcd := natAbs_euclid_fmod a m
  rcases Int.lt_or_gt_of_ne hm with hneg | hpos
  · have := euclid_fst_nonpos (a.fmod m) m 1 0 (fmod_nonpos_of_neg a hneg) hneg.le
    omega
  · have := euclid_fst_nonneg (a.fmod m) m 1 0 (Int.fmod_nonneg_of_pos a hpos) hpos.le
    omega

theorem euclid_fmod_modEq (a m : ℤ) :
    a * (euclid (a.fmod m) m 1 0).2 ≡ (euclid (a.fmod m) m 1 0).1 [ZMOD m] := by
  rw [mul_comm]
  refine euclid_modEq (a.fmod m) m 1 0 ?_ ?_
  · rw [one_mul, Int.fmod_def]
    exact (Int.modEq_iff_dvd).mpr ⟨-a.fdiv m, by ring⟩
  · rw [zero_mul]
    exact (Int.modEq_zero_iff_dvd.mpr dvd_rfl).symm

/-- For a nonzero modulus there is always an answer, and it is an inverse exactly if `a` is not
negative, the modulus is positive, and the two have no common factor. -/
theorem inverse?_eq {m : ℤ} (a : ℤ) (hm : m ≠ 0) :
    inverse? a m = .ok (if 0 ≤ a ∧ 0 < m ∧ Int.gcd a m = 1
      then some ((euclid (a.fmod m) m 1 0).2.fmod m) else none) := by
  unfold inverse?
  by_cases ha : a < 0
  · rw [if_pos ha, if_neg (by omega)]
  · simp only [if_neg ha, if_neg hm, euclid_fst_eq_one_iff hm, show 0 ≤ a by omega, true_and]

/-- An inverse is found exactly if there is one below the modulus, and it is the one. -/
theorem inverse?_eq_some_iff {a m w : ℤ} (hm : m ≠ 0) :
    inverse? a m = .ok (some w) ↔ 0 ≤ a ∧ (0 ≤ w ∧ w < m) ∧ a * w ≡ 1 [ZMOD m] := by
  rw [inverse?_eq a hm, Except.ok.injEq, Option.ite_none_right_eq_some, Option.some.injEq]
  -- what the run leaves is an inverse in range whenever there is one
  have hrun : 0 < m → Int.gcd a m = 1 →
      (0 ≤ (euclid (a.fmod m) m 1 0).2.fmod m ∧ (euclid (a.fmod m) m 1 0).2.fmod m < m) ∧
        a * (euclid (a.fmod m) m 1 0).2.fmod m ≡ 1 [ZMOD m] := by
    intro hpos hgcd
    refine ⟨⟨Int.fmod_nonneg_of_pos _ hpos, Int.fmod_lt_of_pos _ hpos⟩, ?_⟩
    rw [Int.fmod_eq_emod_of_nonneg _ hpos.le]
    refine ((Int.mod_modEq _ m).mul_left a).trans ?_
    have hrun := euclid_fmod_modEq a m
    rwa [(euclid_fst_eq_one_iff hm).mpr ⟨hpos, hgcd⟩] at hrun
  refine ⟨?_, ?_⟩
  · intro h
    obtain ⟨⟨ha, hpos, hgcd⟩, rfl⟩ := h
    exact ⟨ha, hrun hpos hgcd⟩
  · intro h
    obtain ⟨ha, hw, haw⟩ := h
    have hpos : 0 < m := by omega
    have hgcd := gcd_eq_one_of_inverse haw
    exact ⟨⟨ha, hpos, hgcd⟩, eq_of_inverse (hrun hpos hgcd).1 hw (hrun hpos hgcd).2 haw⟩

/-- **Inverses are exact for all integers.** For a modulus other than zero the run ends. An inverse is
found exactly for a number that is not negative and has no factor in common with a positive modulus; it
is the only inverse below the modulus. In every other case the answer is that there is none. -/
theorem inverse?_exact {m : ℤ} (hm : m ≠ 0) (a : ℤ) :
    (∃ k ≤ m.natAbs, EuclidState.StopsAfter ⟨a.fmod m, m, 1, 0⟩ k ∧
      euclid (a.fmod m) m 1 0 =
        ((EuclidState.next^[k] ⟨a.fmod m, m, 1, 0⟩).r₀,
          (EuclidState.next^[k] ⟨a.fmod m, m, 1, 0⟩).c₀)) ∧
    ((∃ v, inverse? a m = .ok (some v)) ↔ 0 ≤ a ∧ 1 ≤ m ∧ Int.gcd a m = 1) ∧
    (∀ v, inverse? a m = .ok (some v) → (0 ≤ v ∧ v < m) ∧ a * v ≡ 1 [ZMOD m] ∧
      ∀ w, 0 ≤ w ∧ w < m → a * w ≡ 1 [ZMOD m] → w = v) ∧
    (¬(0 ≤ a ∧ 1 ≤ m ∧ Int.gcd a m = 1) → inverse? a m = .ok none) := by
  refine ⟨euclid_stops (a.fmod m) m 1 0, ?_, ?_, ?_⟩
  · rw [inverse?_eq a hm]
    simp only [Except.ok.injEq, Option.ite_none_right_eq_some, Option.some.injEq, exists_and_left,
      exists_eq', and_true]
    exact Iff.rfl
  · intro v hv
    obtain ⟨-, hrange, hmul⟩ := (inverse?_eq_some_iff hm).mp hv
    refine ⟨hrange, hmul, ?_⟩
    intro w hw hmulw
    exact eq_of_inverse hw hrange hmulw hmul
  · intro hnot
    rw [inverse?_eq a hm]
    exact congrArg Except.ok (if_neg hnot)

/-- A number above its modulus, the same for the opposite modulus, and zero for the modulus one. -/
theorem inverse?_exact_ten : (∃ v, inverse? 10 7 = .ok (some v) ∧ 10 * v ≡ 1 [ZMOD 7]) ∧
    inverse? 10 (-7) = .ok none ∧ ∃ v, inverse? 0 1 = .ok (some v) ∧ 0 ≤ v ∧ v < 1 := by
  obtain ⟨-, hten, hmul, -⟩ := inverse?_exact (show (7 : ℤ) ≠ 0 by decide) 10
  obtain ⟨-, -, -, hopposite⟩ := inverse?_exact (show (-7 : ℤ) ≠ 0 by decide) 10
  obtain ⟨-, hzero, hrange, -⟩ := inverse?_exact (show (1 : ℤ) ≠ 0 by decide) 0
  obtain ⟨v, hv⟩ := hten.mpr (by decide)
  obtain ⟨w, hw⟩ := hzero.mpr (by decide)
  exact ⟨⟨v, hv, (hmul v hv).2.1⟩, hopposite (by decide), w, hw, (hrange w hw).1⟩

end Ecdsa
