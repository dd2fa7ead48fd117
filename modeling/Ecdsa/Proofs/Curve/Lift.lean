import Mathlib
import Ecdsa.Curve.Lift
import Ecdsa.Proofs.Curve.Field

/-!
# The point above an abscissa, in the field

`liftX` tries one number, a power of the cubic (`candidate`), and gives the point above it whose
ordinate has the wanted parity (`liftX_eq`). What is found lies on the curve whatever the modulus: the
candidate is checked by squaring, and the opposite of an ordinate is an ordinate
(`contains_withParity`).

When the modulus is a prime `p` = 3 (mod 4), the point is found whenever there is one (`liftX_spec`,
`liftX_exact`). Two things are behind it. The power (p + 1) / 4 of a square is a root of it, because the
power (p − 1) / 2 of a square is one (`root_sq`); and of two opposite ordinates that do not vanish one
is odd and one is even, so that from any ordinate the one of the wanted parity is found
(`withParity_eq`).
-/

namespace Ecdsa

/-! ## Powers -/

/-- Repeated squaring gives the power up to a multiple of the modulus. -/
theorem powerMod_modEq {m : ℤ} (hm : 0 < m) (b : ℤ) (e : ℕ) : powerMod m b e ≡ b ^ e [ZMOD m] := by
  have hfmod (v : ℤ) : v.fmod m ≡ v [ZMOD m] := by
    rw [Int.fmod_eq_emod_of_nonneg v hm.le]
    exact Int.mod_modEq v m
  fun_induction powerMod m b e with
  | case1 b =>
    rw [pow_zero]
    exact hfmod 1
  | case2 b e h _ rest hodd ih =>
    calc (rest * b).fmod m ≡ rest * b [ZMOD m] := hfmod _
      _ ≡ (b * b) ^ (e / 2) * b [ZMOD m] := (ih.trans ((hfmod _).pow _)).mul_right b
      _ = b ^ (2 * (e / 2) + 1) := by rw [← sq, ← pow_mul, pow_succ]
      _ = b ^ e := by rw [← hodd, Nat.div_add_mod]
  | case3 b e h _ rest heven ih =>
    calc rest ≡ (b * b) ^ (e / 2) [ZMOD m] := ih.trans ((hfmod _).pow _)
      _ = b ^ (2 * (e / 2)) := by rw [← sq, ← pow_mul]
      _ = b ^ e := by rw [Nat.mul_div_cancel' (by omega)]

theorem powerMod_range {m : ℤ} (hm : 0 < m) (b : ℤ) (e : ℕ) :
    0 ≤ powerMod m b e ∧ powerMod m b e < m := by
  fun_induction powerMod m b e with
  | case1 b => exact ⟨Int.fmod_nonneg_of_pos _ hm, Int.fmod_lt_of_pos _ hm⟩
  | case2 b e h _ rest hodd ih => exact ⟨Int.fmod_nonneg_of_pos _ hm, Int.fmod_lt_of_pos _ hm⟩
  | case3 b e h _ rest heven ih => exact ih

namespace Curve

variable {C : Curve}

/-! ## Any modulus -/

/-- The number that is tried for an ordinate. -/
def candidate (C : Curve) (x : ℤ) : ℤ :=
  powerMod C.p (C.cubic x) ((C.p + 1) / 4).toNat

theorem contains_withParity (odd : Bool) {x y : ℤ} (h : C.Contains x y) :
    C.Contains x (C.withParity odd y) := by
  unfold withParity
  split
  next => exact h
  next hy =>
    obtain ⟨hrange, heq⟩ := h
    refine ⟨by omega, ?_⟩
    have hsq : (C.p - y) * (C.p - y) - y * y = C.p * (C.p - 2 * y) := by ring
    rw [← heq, reduce, reduce, Int.fmod_eq_fmod_iff_fmod_sub_eq_zero, hsq, Int.mul_fmod_right]

/-- What is found depends on one number alone: whether it is an ordinate, and on its parity. -/
theorem liftX_eq (h₃ : C.p % 4 = 3) (x : ℤ) (odd : Bool) :
    C.liftX x odd = .ok (if C.Contains x (C.candidate x) ∧
        isOdd (C.withParity odd (C.candidate x)) = odd
      then some (Point.affine x (C.withParity odd (C.candidate x))) else none) := by
  have hfmod : C.p.fmod 4 = 3 := by rw [Int.fmod_eq_emod_of_nonneg _ (by norm_num), h₃]
  rw [liftX, if_neg (by simp [hfmod])]
  by_cases hx : x < 0 ∨ C.p ≤ x
  · have hout : ¬C.Contains x (C.candidate x) := by
      intro h
      have := h.1
      omega
    rw [if_pos hx, if_neg fun h => hout h.1]
  · rw [if_neg hx]
    -- for a reduced number the comparison is all that being on the curve takes
    have hrange := powerMod_range (m := C.p) (by omega) (C.cubic x) ((C.p + 1) / 4).toNat
    have hiff : C.reduce (C.candidate x * C.candidate x) = C.cubic x ↔
        C.Contains x (C.candidate x) :=
      ⟨fun h => ⟨⟨by omega, by omega, hrange⟩, h⟩, And.right⟩
    exact congrArg Except.ok (if_congr (and_congr_left fun _ => hiff) rfl rfl)

/-- A point that is found lies on the curve and has the wanted parity. -/
theorem contains_of_liftX {x : ℤ} {odd : Bool} {P : Point C} (h : C.liftX x odd = .ok (some P)) :
    ∃ y, P = Point.affine x y ∧ C.Contains x y ∧ isOdd y = odd := by
  by_cases h₃ : C.p.fmod 4 = 3
  · rw [Int.fmod_eq_emod_of_nonneg _ (by norm_num)] at h₃
    rw [liftX_eq h₃, Except.ok.injEq, Option.ite_none_right_eq_some, Option.some.injEq] at h
    obtain ⟨⟨hc, hpar⟩, rfl⟩ := h
    exact ⟨_, rfl, contains_withParity odd hc, hpar⟩
  · rw [liftX, if_pos h₃] at h
    exact absurd h nofun

section Prime

variable [Fact C.p.toNat.Prime]

@[simp] theorem cast_powerMod (b : ℤ) (e : ℕ) : (powerMod C.p b e : C.Field) = b ^ e := by
  rw [(cast_eq_cast_iff _ _).mpr (powerMod_modEq p_pos b e), Int.cast_pow]

/-! ## Roots -/

/-- The power (p + 1) / 4 of a square is a root of it. -/
theorem root_sq (h₃ : C.p % 4 = 3) {v y : C.Field} (hy : y ^ 2 = v) :
    (v ^ ((C.p + 1) / 4).toNat) ^ 2 = v := by
  have hexp : 2 * (((C.p + 1) / 4).toNat * 2) = C.p.toNat - 1 + 2 := by
    have := p_pos (C := C)
    omega
  rcases eq_or_ne y 0 with rfl | hne
  · rw [← hy, ← pow_mul, ← pow_mul, hexp]
    simp
  · rw [← hy, ← pow_mul, ← pow_mul, hexp, pow_add, ZMod.pow_card_sub_one_eq_one hne, one_mul]

theorem cast_cubic (x : ℤ) : (C.cubic x : C.Field) = (x : C.Field) ^ 3 + C.a * x + C.b := by
  rw [cubic, cast_reduce]
  push_cast
  ring

/-- If some point lies above a number, then the candidate is an ordinate there. -/
theorem contains_candidate (h₃ : C.p % 4 = 3) {x y : ℤ} (h : C.Contains x y) :
    C.Contains x (C.candidate x) := by
  obtain ⟨hx, -, heq⟩ := (contains_iff x y).mp h
  refine (contains_iff x _).mpr ⟨hx, powerMod_range p_pos _ _, ?_⟩
  rw [candidate, cast_powerMod, ← cast_cubic]
  exact root_sq h₃ (heq.trans (cast_cubic x).symm)

/-! ## The two ordinates -/

/-- Two ordinates above one abscissa are equal or opposite, and zero is its own opposite. -/
theorem eq_or_eq_of_contains {x y y' : ℤ} (h : C.Contains x y) (h' : C.Contains x y') :
    y' = y ∨ (y' = C.p - y ∧ y ≠ 0) := by
  obtain ⟨-, hy, heq⟩ := (contains_iff x y).mp h
  obtain ⟨-, hy', heq'⟩ := (contains_iff x y').mp h'
  rcases sq_eq_sq_iff_eq_or_eq_neg.mp (heq'.trans heq.symm) with hsame | hopp
  · exact Or.inl (eq_of_cast_eq hy' hy hsame)
  by_cases h0 : y = 0
  · subst h0
    exact Or.inl (eq_of_cast_eq hy' hy (by simpa using hopp))
  · exact Or.inr ⟨eq_of_cast_eq hy' ⟨by omega, by omega⟩ (hopp.trans (cast_p_sub y).symm), h0⟩

/-- Modulo an odd prime an ordinate of the wanted parity is found from any ordinate. -/
theorem withParity_eq (hp : C.p % 2 = 1) {x y y' : ℤ} (h : C.Contains x y)
    (h' : C.Contains x y') : C.withParity (isOdd y') y = y' := by
  rcases eq_or_eq_of_contains h h' with rfl | ⟨rfl, h0⟩
  · rw [withParity, if_pos (Or.inl rfl)]
  · rw [withParity, if_neg]
    intro h
    rcases h with hpar | hzero
    · rw [isOdd, isOdd, Bool.eq_iff_iff, beq_iff_eq, beq_iff_eq] at hpar
      omega
    · exact h0 hzero

/-- A point above a number is found when its parity is asked for. -/
theorem liftX_of_contains (h₃ : C.p % 4 = 3) {x y : ℤ} (h : C.Contains x y) :
    C.liftX x (isOdd y) = .ok (some (Point.affine x y)) := by
  have hcand := contains_candidate h₃ h
  have hy := withParity_eq (by omega) hcand h
  rw [liftX_eq h₃, hy, if_pos ⟨hcand, rfl⟩]

/-- The point of the given parity above a number is found exactly if there is one. -/
theorem liftX_spec (h₃ : C.p % 4 = 3) (x : ℤ) (odd : Bool) :
    ∃ found, C.liftX x odd = .ok found ∧
      ∀ P, found = some P ↔ ∃ y, P = Point.affine x y ∧ C.Contains x y ∧ isOdd y = odd := by
  refine ⟨_, liftX_eq h₃ x odd, ?_⟩
  intro P
  rw [← Except.ok.injEq, ← liftX_eq h₃]
  refine ⟨contains_of_liftX, ?_⟩
  intro h
  obtain ⟨y, rfl, hc, rfl⟩ := h
  exact liftX_of_contains h₃ hc

theorem isSquare_of_contains {x y : ℤ} (h : C.Contains x y) :
    IsSquare ((x ^ 3 + C.a * x + C.b : ℤ) : C.Field) := by
  obtain ⟨-, -, heq⟩ := (contains_iff x y).mp h
  push_cast
  exact ⟨y, by rw [← heq, sq]⟩

/-- Where the cubic vanishes, zero is the only ordinate. -/
theorem eq_zero_of_contains {x y : ℤ} (h₀ : C.Contains x 0) (h : C.Contains x y) : y = 0 := by
  rcases eq_or_eq_of_contains h₀ h with hy | ⟨-, hne⟩
  · exact hy
  · exact absurd rfl hne

end Prime

/-! ## Exactly the points of the curve -/

/-- **The point above an abscissa is found exactly if there is one.** Whatever the modulus, a point that
is found has the abscissa, lies on the curve with denominator one, and has the wanted parity; nothing
is found outside the residues. Modulo a prime nothing is found only where there is no such point, as
above a number whose cubic is no square, or for an odd ordinate where the cubic vanishes; and the point
that is found is the only one. -/
theorem liftX_exact (h₃ : C.p % 4 = 3) (x : ℤ) (odd : Bool) :
    ∃ found, C.liftX x odd = .ok found ∧
      (∀ P, found = some P → ∃ y, P = ⟨x, y, 1⟩ ∧ C.Contains x y ∧ isOdd y = odd) ∧
      (x < 0 ∨ C.p ≤ x → found = none) ∧
      (C.p.toNat.Prime →
        (found = none ↔ ¬∃ y, C.Contains x y ∧ isOdd y = odd) ∧
        (∀ y, C.Contains x y → isOdd y = odd → found = some ⟨x, y, 1⟩) ∧
        (¬IsSquare ((x ^ 3 + C.a * x + C.b : ℤ) : C.Field) → found = none) ∧
        (C.Contains x 0 → odd = true → found = none)) := by
  obtain ⟨found, hfound⟩ : ∃ found, C.liftX x odd = .ok found := ⟨_, liftX_eq h₃ x odd⟩
  have hsound (P : Point C) (hP : found = some P) :
      ∃ y, P = ⟨x, y, 1⟩ ∧ C.Contains x y ∧ isOdd y = odd :=
    contains_of_liftX (hfound.trans (congrArg Except.ok hP))
  have hnone (h : ∀ y, C.Contains x y → isOdd y ≠ odd) : found = none := by
    refine Option.eq_none_iff_forall_ne_some.mpr ?_
    intro P hP
    obtain ⟨y, -, hc, hpar⟩ := hsound P hP
    exact h y hc hpar
  refine ⟨found, hfound, hsound, ?_, ?_⟩
  · intro hx
    refine hnone ?_
    intro y hc
    have := hc.1
    omega
  · intro hprime
    have : Fact C.p.toNat.Prime := ⟨hprime⟩
    have hsome (y : ℤ) (hc : C.Contains x y) (hpar : isOdd y = odd) : found = some ⟨x, y, 1⟩ := by
      rw [← Except.ok.injEq, ← hfound, ← hpar]
      exact liftX_of_contains h₃ hc
    refine ⟨⟨?_, ?_⟩, hsome, ?_, ?_⟩
    · intro hno h
      obtain ⟨y, hc, hpar⟩ := h
      rw [hsome y hc hpar] at hno
      exact absurd hno nofun
    · intro hno
      exact hnone fun y hc hpar => hno ⟨y, hc, hpar⟩
    · intro hsquare
      exact hnone fun y hc _ => hsquare (isSquare_of_contains hc)
    · intro h₀ hodd
      -- zero is even, and there is no other ordinate to go to
      refine hnone ?_
      intro y hc hpar
      rw [eq_zero_of_contains h₀ hc, hodd] at hpar
      exact absurd hpar (by decide)

/-- Modulo 7 the cubic x³ + 6 vanishes at one, and only the even ordinate zero lies there. -/
theorem liftX_exact_zero :
    (⟨7, 0, 0, 6, 0, 0⟩ : Curve).liftX 1 true = .ok none ∧
      (⟨7, 0, 0, 6, 0, 0⟩ : Curve).liftX 1 false = .ok (some ⟨1, 0, 1⟩) := by
  have hprime : (7 : ℤ).toNat.Prime := by decide
  have hzero : (⟨7, 0, 0, 6, 0, 0⟩ : Curve).Contains 1 0 := by decide
  obtain ⟨found, hodd, -, -, hexact⟩ :=
    liftX_exact (C := ⟨7, 0, 0, 6, 0, 0⟩) (by decide) 1 true
  obtain ⟨found', heven, -, -, hexact'⟩ :=
    liftX_exact (C := ⟨7, 0, 0, 6, 0, 0⟩) (by decide) 1 false
  have hno := (hexact hprime).2.2.2 hzero rfl
  have hyes := (hexact' hprime).2.1 0 hzero rfl
  rw [hodd, heven, hno, hyes]
  exact ⟨rfl, rfl⟩

end Curve

end Ecdsa
