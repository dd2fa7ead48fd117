import Ecdsa.Fault

/-!
# Inverses modulo an integer

`inverse? a m` is the number below `m` that multiplies `a` to one modulo `m`. It is found by
Euclid's algorithm: every remainder of the run is `a` times a coefficient modulo `m`, so when the
last remainder is one, its coefficient is the inverse. A negative `a` has no inverse here, and
modulo zero nothing is asked.
-/

namespace Ecdsa

/-- A remainder is smaller than its divisor, whatever the signs. -/
theorem natAbs_fmod_lt (a : Int) {m : Int} (h : m ≠ 0) : (a.fmod m).natAbs < m.natAbs := by
  rcases Int.lt_or_gt_of_ne h with hneg | hpos
  · have he : a.fmod m = -((-a).fmod (-m)) := by rw [Int.neg_fmod_neg, Int.neg_neg]
    have h₁ := Int.fmod_nonneg_of_pos (-a) (show 0 < -m by omega)
    have h₂ := Int.fmod_lt_of_pos (-a) (show 0 < -m by omega)
    omega
  · have h₁ := Int.fmod_nonneg_of_pos a hpos
    have h₂ := Int.fmod_lt_of_pos a hpos
    omega

/-- Euclid's algorithm from two remainders and their coefficients to the last remainder that is not
zero, and its coefficient. Quotients are rounded down. -/
def euclid (r₀ r₁ c₀ c₁ : Int) : Int × Int :=
  if h : r₁ = 0 then (r₀, c₀)
  else
    have := natAbs_fmod_lt r₀ h
    euclid r₁ (r₀.fmod r₁) c₁ (c₀ - r₀.fdiv r₁ * c₁)
termination_by r₁.natAbs

/-- The inverse of `a` modulo `m`, if `a` is not negative and has one. -/
def inverse? (a m : Int) : Except Fault (Option Int) :=
  if a < 0 then .ok none
  else if m = 0 then .error .zeroModulus
  else
    let last := euclid (a.fmod m) m 1 0
    .ok (if last.1 = 1 then some (last.2.fmod m) else none)

end Ecdsa
