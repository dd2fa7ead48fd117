import Mathlib
import Ecdsa.Proofs.Curve.Acceptance

/-!
# How much is accepted beside a signature

Under one public point, a pair of numbers is accepted for at most four digest numbers, and a digest
number with a first number for at most two second numbers in the lower half
(`build_encard_accepted_le`).

Both are counts of points. With a modulus below twice the order only two abscissas are left that can
be `r` modulo the order (`eq_or_eq_add_of_emod`), and above each lie at most two points, opposite to
each other (`encard_abscissa_le`). A point is a multiple of the base point by one nonce only
(`zsmul_eq_zsmul_iff`), and the nonce settles the digest number; for the second number not even the
point is needed, as opposite nonces give opposite second numbers, of which one is in the lower half
(`IsSignature.s_unique`).
-/

namespace Ecdsa

/-! ## Counting -/

theorem encard_pair_le {α : Type} (a b : α) : ({a, b} : Set α).encard ≤ 2 := by
  calc ({a, b} : Set α).encard ≤ ({b} : Set α).encard + 1 := Set.encard_insert_le {b} a
    _ = 2 := by rw [Set.encard_singleton, one_add_one_eq_two]

/-- If each member of a set is matched with a member of another, and none of those with two, the
first set is no larger than the second. -/
theorem encard_le_of_matched {α β : Type} [Nonempty β] {S : Set α} {T : Set β} (R : α → β → Prop)
    (hmatch : ∀ a ∈ S, ∃ b ∈ T, R a b)
    (hone : ∀ a ∈ S, ∀ a' ∈ S, ∀ b, R a b → R a' b → a = a') : S.encard ≤ T.encard := by
  choose! f hf hR using hmatch
  refine Set.encard_le_encard_of_injOn (f := f) hf ?_
  intro a ha a' ha' heq
  have hb := hR a' ha'
  rw [← heq] at hb
  exact hone a ha a' ha' (f a) (hR a ha) hb

namespace Curve

variable {C : Curve}

/-! ## Numbers modulo the order -/

/-- With a modulus below twice the order, only two residues are a number modulo the order. -/
theorem eq_or_eq_add_of_emod (hp : C.p < 2 * C.n) {x r : ℤ} (hx : 0 ≤ x ∧ x < C.p)
    (h : x % C.n = r) : x = r ∨ x = r + C.n := by
  subst h
  rcases lt_or_ge x C.n with hlt | hge
  · exact Or.inl (Int.emod_eq_of_lt hx.1 hlt).symm
  · right
    rw [← Int.sub_emod_right, Int.emod_eq_of_lt (by omega) (by omega), sub_add_cancel]

/-- Below a prime order a factor cancels. -/
theorem modEq_of_mul_modEq (hN : C.n.toNat.Prime) {k : ℤ} (hk : 1 ≤ k ∧ k < C.n) {a b : ℤ}
    (h : a * k ≡ b * k [ZMOD C.n]) : a ≡ b [ZMOD C.n] := by
  obtain ⟨w, -, hw⟩ := exists_inverse hN hk
  calc a = a * 1 := (mul_one a).symm
    _ ≡ a * (k * w) [ZMOD C.n] := hw.symm.mul_left a
    _ = a * k * w := by ring
    _ ≡ b * k * w [ZMOD C.n] := h.mul_right w
    _ = b * (k * w) := by ring
    _ ≡ b * 1 [ZMOD C.n] := hw.mul_left b
    _ = b := mul_one b

theorem eq_of_modEq {a b : ℤ} (ha : 0 ≤ a ∧ a < C.n) (hb : 0 ≤ b ∧ b < C.n)
    (h : a ≡ b [ZMOD C.n]) : a = b := by
  rwa [Int.ModEq, Int.emod_eq_of_lt ha.1 ha.2, Int.emod_eq_of_lt hb.1 hb.2] at h

/-- In the lower half no two numbers are opposite, and no two are congruent. -/
theorem eq_of_modEq_or_neg {a b : ℤ} (ha : 1 ≤ a ∧ a ≤ C.n / 2) (hb : 1 ≤ b ∧ b ≤ C.n / 2)
    (h : a ≡ b [ZMOD C.n] ∨ a ≡ -b [ZMOD C.n]) : a = b := by
  rcases h with hsame | hopp
  · exact eq_of_modEq ⟨by omega, by omega⟩ ⟨by omega, by omega⟩ hsame
  · -- the sum is a positive multiple of the order, so both are half of it
    obtain ⟨t, ht⟩ := Int.modEq_iff_dvd.mp hopp
    have hle : C.n ≤ a + b := Int.le_of_dvd (by omega) ⟨-t, by linear_combination -ht⟩
    omega

/-- The nonce settles the digest number. -/
theorem digest_unique {d r s k k' z z' : ℤ} (hk : k ≡ k' [ZMOD C.n])
    (hsk : s * k ≡ z + r * d [ZMOD C.n]) (hsk' : s * k' ≡ z' + r * d [ZMOD C.n])
    (hz : 0 ≤ z ∧ z < C.n) (hz' : 0 ≤ z' ∧ z' < C.n) : z = z' := by
  refine eq_of_modEq hz hz' (Int.ModEq.add_right_cancel' (r * d) ?_)
  calc z + r * d ≡ s * k [ZMOD C.n] := hsk.symm
    _ ≡ s * k' [ZMOD C.n] := hk.mul_left s
    _ ≡ z' + r * d [ZMOD C.n] := hsk'

/-- A nonce and its opposite settle the second number, if it is in the lower half. -/
theorem low_unique (hN : C.n.toNat.Prime) {k k' s s' c : ℤ} (hk : 1 ≤ k ∧ k < C.n)
    (hkk' : k ≡ k' [ZMOD C.n] ∨ k ≡ -k' [ZMOD C.n]) (hsk : s * k ≡ c [ZMOD C.n])
    (hsk' : s' * k' ≡ c [ZMOD C.n]) (hs : 1 ≤ s ∧ s ≤ C.n / 2) (hs' : 1 ≤ s' ∧ s' ≤ C.n / 2) :
    s = s' := by
  apply eq_of_modEq_or_neg hs hs'
  rcases hkk' with hsame | hopp
  · left
    apply modEq_of_mul_modEq hN hk
    calc s * k ≡ c [ZMOD C.n] := hsk
      _ ≡ s' * k' [ZMOD C.n] := hsk'.symm
      _ ≡ s' * k [ZMOD C.n] := hsame.symm.mul_left s'
  · right
    apply modEq_of_mul_modEq hN hk
    calc s * k ≡ c [ZMOD C.n] := hsk
      _ ≡ s' * k' [ZMOD C.n] := hsk'.symm
      _ = -s' * -k' := by ring
      _ ≡ -s' * k [ZMOD C.n] := hopp.symm.mul_left (-s')

variable [C.IsElliptic]

/-! ## Points above abscissas -/

theorem abscissa?_range {A : C.Group} {x : ℤ} (h : abscissa? A = some x) : 0 ≤ x ∧ x < C.p := by
  cases A with
  | zero => cases h
  | some u v huv =>
    obtain rfl : (u.val : ℤ) = x := Option.some.inj h
    have hlt := ZMod.val_lt u
    have hp := cast_p (C := C)
    omega

/-- Points above one abscissa are equal or opposite. -/
theorem eq_or_eq_neg_of_abscissa? {A B : C.Group} {x : ℤ} (hA : abscissa? A = some x)
    (hB : abscissa? B = some x) : A = B ∨ A = -B := by
  cases A with
  | zero => cases hA
  | some u v huv =>
    cases B with
    | zero => cases hB
    | some u' v' huv' =>
      have hval : (u.val : ℤ) = u'.val := Option.some.inj (hA.trans hB.symm)
      obtain rfl : u = u' := ZMod.val_injective _ (by exact_mod_cast hval)
      rcases WeierstrassCurve.Affine.Y_eq_of_X_eq huv.1 huv'.1 rfl with rfl | rfl
      · exact Or.inl rfl
      · exact Or.inr rfl

theorem encard_abscissa_le (x : ℤ) : {A : C.Group | abscissa? A = some x}.encard ≤ 2 := by
  rcases Set.eq_empty_or_nonempty {A : C.Group | abscissa? A = some x} with hempty | hne
  · simp [hempty]
  · obtain ⟨B, hB⟩ := hne
    have hsub : {A : C.Group | abscissa? A = some x} ⊆ {B, -B} := by
      intro A hA
      exact eq_or_eq_neg_of_abscissa? hA hB
    exact (Set.encard_le_encard hsub).trans (encard_pair_le B (-B))

/-- The points with an abscissa that is `r` modulo the order. -/
def pointsAbove (C : Curve) [C.IsElliptic] (r : ℤ) : Set C.Group :=
  {A | ∃ x, abscissa? A = some x ∧ x % C.n = r}

theorem encard_pointsAbove_le (hp : C.p < 2 * C.n) (r : ℤ) : (C.pointsAbove r).encard ≤ 4 := by
  have hsub : C.pointsAbove r ⊆
      {A | abscissa? A = some r} ∪ {A | abscissa? A = some (r + C.n)} := by
    intro A hA
    obtain ⟨x, hx, hxr⟩ := hA
    rcases eq_or_eq_add_of_emod hp (abscissa?_range hx) hxr with rfl | rfl
    · exact Or.inl hx
    · exact Or.inr hx
  calc (C.pointsAbove r).encard
      ≤ ({A | abscissa? A = some r} ∪ {A | abscissa? A = some (r + C.n)} : Set C.Group).encard :=
        Set.encard_le_encard hsub
    _ ≤ {A : C.Group | abscissa? A = some r}.encard +
          {A : C.Group | abscissa? A = some (r + C.n)}.encard := Set.encard_union_le _ _
    _ ≤ 2 + 2 := add_le_add (encard_abscissa_le r) (encard_abscissa_le (r + C.n))
    _ = 4 := by norm_num

/-- Multiples of a point of prime order are equal exactly for factors that are congruent. -/
theorem zsmul_eq_zsmul_iff {A : C.Group} (hA : A ≠ 0) (hN : C.n.toNat.Prime) (hn : C.n • A = 0)
    {a b : ℤ} : a • A = b • A ↔ a ≡ b [ZMOD C.n] := by
  have : Fact C.n.toNat.Prime := ⟨hN⟩
  have hcast : (C.n.toNat : ℤ) = C.n := Int.toNat_of_nonneg (by have := hN.pos; omega)
  have horder : addOrderOf A = C.n.toNat := by
    refine addOrderOf_eq_prime ?_ hA
    rw [← natCast_zsmul, hcast, hn]
  rw [zsmul_eq_zsmul_iff_modEq, horder, hcast]

/-! ## What can be signed -/

/-- At most four digest numbers below the order share a signature. -/
theorem encard_digests_le (hG : C.Contains C.gx C.gy) (hN : C.n.toNat.Prime)
    (hn : C.n • C.base = 0) (hp : C.p < 2 * C.n) (d r s : ℤ) :
    {z | (0 ≤ z ∧ z < C.n) ∧ C.IsSignature d r s z}.encard ≤ 4 := by
  -- a digest number is matched with the multiple of the base point by its nonce
  refine (encard_le_of_matched
    (fun z A => ∃ k, A = k • C.base ∧ s * k ≡ z + r * d [ZMOD C.n]) ?_ ?_).trans
      (encard_pointsAbove_le hp r)
  · intro z hz
    obtain ⟨-, -, -, k, -, hx, hsk⟩ := hz
    exact ⟨k • C.base, hx, k, rfl, hsk⟩
  · intro z hz z' hz' A hA hA'
    obtain ⟨k, rfl, hsk⟩ := hA
    obtain ⟨k', hkk', hsk'⟩ := hA'
    rw [zsmul_eq_zsmul_iff (base_ne_zero hG) hN hn] at hkk'
    exact digest_unique hkk' hsk hsk' hz.1 hz'.1

/-- At most two second numbers in the lower half go with a digest number and a first number. -/
theorem encard_low_le (hG : C.Contains C.gx C.gy) (hN : C.n.toNat.Prime)
    (hn : C.n • C.base = 0) (hp : C.p < 2 * C.n) (d r z : ℤ) :
    {s | (1 ≤ s ∧ s ≤ C.n / 2) ∧ C.IsSignature d r s z}.encard ≤ 2 := by
  -- a second number is matched with the abscissa that its nonce gives
  refine (encard_le_of_matched (T := {r, r + C.n}) (fun s x => ∃ k, (1 ≤ k ∧ k < C.n) ∧
    abscissa? (k • C.base) = some x ∧ s * k ≡ z + r * d [ZMOD C.n]) ?_ ?_).trans
      (encard_pair_le r (r + C.n))
  · intro s hs
    obtain ⟨-, -, -, k, hk, ⟨x, hx, hxr⟩, hsk⟩ := hs
    exact ⟨x, eq_or_eq_add_of_emod hp (abscissa?_range hx) hxr, k, hk, hx, hsk⟩
  · intro s hs s' hs' x hx hx'
    obtain ⟨k, hk, hx, hsk⟩ := hx
    obtain ⟨k', -, hx', hsk'⟩ := hx'
    have hkk' : k ≡ k' [ZMOD C.n] ∨ k ≡ -k' [ZMOD C.n] := by
      rw [← zsmul_eq_zsmul_iff (base_ne_zero hG) hN hn,
        ← zsmul_eq_zsmul_iff (base_ne_zero hG) hN hn, neg_zsmul]
      exact eq_or_eq_neg_of_abscissa? hx hx'
    exact low_unique hN hk hkk' hsk hsk' hs.1 hs'.1

end Curve

namespace GeneratorTable

variable {C : Curve} [C.IsElliptic]

/-- **Tampering is bounded.** Under the point of a private key, whatever the other numbers are, at
most four digest numbers below the order are accepted, and at most two second numbers in the lower
half. -/
theorem build_encard_accepted_le (hG : C.Contains C.gx C.gy) (hN : C.n.toNat.Prime)
    (hn : C.n • C.base = 0) (hp : C.p < 2 * C.n) {width : ℤ} (hw : 1 ≤ width) {d : ℤ}
    (hd : 1 ≤ d ∧ d < C.n) {Q : Point C} (hQ : Q.OnCurve) (hQd : Q.value = d • C.base) :
    ∃ T, build C width = .ok T ∧ (∀ r s z, ∃ b, T.accepts Q r s z = .ok b) ∧
      (∀ r s, {z | (0 ≤ z ∧ z < C.n) ∧ T.accepts Q r s z = .ok true}.encard ≤ 4) ∧
      ∀ r z, {s | (1 ≤ s ∧ s ≤ C.n / 2) ∧ T.accepts Q r s z = .ok true}.encard ≤ 2 := by
  obtain ⟨T, hT, htable⟩ := build_spec hG hw
  have hpos : 1 ≤ C.n := by omega
  have hsignature (r s z : ℤ) (h : T.accepts Q r s z = .ok true) : C.IsSignature d r s z := by
    rw [accepts_eq_true_iff htable hpos hQ, hQd] at h
    exact h.isSignature hn
  refine ⟨T, hT, ?_, ?_, ?_⟩
  · intro r s z
    obtain ⟨b, hb, -⟩ := accepts_spec htable hpos hQ r s z
    exact ⟨b, hb⟩
  · intro r s
    refine (Set.encard_le_encard ?_).trans (Curve.encard_digests_le hG hN hn hp d r s)
    intro z hz
    exact ⟨hz.1, hsignature r s z hz.2⟩
  · intro r z
    refine (Set.encard_le_encard ?_).trans (Curve.encard_low_le hG hN hn hp d r z)
    intro s hs
    exact ⟨hs.1, hsignature r s z hs.2⟩

/-- On the small curve both bounds are reached: above 7 and above 38 = 7 + 31 there are two points
each. -/
theorem small_encard_accepted : ∃ T, build (Curve.small 31) 2 = .ok T ∧
    {z : ℤ | (0 ≤ z ∧ z < 31) ∧ T.accepts Curve.smallKey 7 3 z = .ok true}.encard = 4 ∧
    {s : ℤ | (1 ≤ s ∧ s ≤ 31 / 2) ∧ T.accepts Curve.smallKey 7 s 9 = .ok true}.encard = 2 := by
  obtain ⟨T, hT, -, hdigests, hlow⟩ := build_encard_accepted_le (Curve.small_contains 31)
    (show Nat.Prime 31 by norm_num) Curve.small_order (show (43 : ℤ) < 2 * 31 by norm_num)
    (show (1 : ℤ) ≤ 2 by norm_num) (show (1 : ℤ) ≤ 5 ∧ (5 : ℤ) < 31 by norm_num)
    Curve.smallKey_spec.1 Curve.smallKey_spec.2
  refine ⟨T, hT, le_antisymm (hdigests 7 3) ?_, le_antisymm (hlow 7 9) ?_⟩
  · have hrun : ∀ z ∈ ({2, 10, 13, 21} : Finset ℤ),
        (0 ≤ z ∧ z < 31) ∧
          (build (Curve.small 31) 2).bind (·.accepts Curve.smallKey 7 3 z) = .ok true := by
      decide +kernel
    rw [hT] at hrun
    exact (Set.encard_coe_eq_coe_finsetCard _).symm.trans_le (Set.encard_le_encard hrun)
  · have hrun : ∀ s ∈ ({5, 9} : Finset ℤ),
        (1 ≤ s ∧ s ≤ 31 / 2) ∧
          (build (Curve.small 31) 2).bind (·.accepts Curve.smallKey 7 s 9) = .ok true := by
      decide +kernel
    rw [hT] at hrun
    exact (Set.encard_coe_eq_coe_finsetCard _).symm.trans_le (Set.encard_le_encard hrun)

end GeneratorTable

end Ecdsa
