import Mathlib
import Ecdsa.Proofs.Verification

/-!
# Opposite second numbers

With a pair `(r, s)` also `(r, n − s)` is accepted, and the other way round: the sum of the
verification equation becomes its opposite, and opposite points have one abscissa
(`GeneratorTable.accepts_sub`). Of the two second numbers exactly one is in the lower half, as the
order is odd, and `lowS` finds it (`lowS_range_iff`). So bringing `s` into the lower half gives every
pair in range one canonical form and takes nothing from what is accepted
(`Signature.opposite_alike`).
-/

namespace Ecdsa

/-! ## On any table -/

section Table

variable {C : Curve} [C.IsElliptic]

theorem Curve.verifies_sub_iff (hn : C.n • C.base = 0) {A : C.Group} (hA : C.n • A = 0)
    (r s z : ℤ) : Curve.Verifies A r (C.n - s) z ↔ Curve.Verifies A r s z := by
  refine ⟨?_, ?_⟩
  · intro h
    have hback := h.opposite hn hA
    rwa [sub_sub_cancel] at hback
  · intro h
    exact h.opposite hn hA

/-- Opposite second numbers get the same answer, under a public point that the order annihilates. -/
theorem GeneratorTable.accepts_sub {T : GeneratorTable C} (hT : T.IsTable) (hpos : 1 ≤ C.n)
    (hn : C.n • C.base = 0) {Q : Point C} (hQ : Q.OnCurve) (hQn : C.n • Q.value = 0)
    (r s z : ℤ) : T.accepts Q r (C.n - s) z = T.accepts Q r s z := by
  obtain ⟨b, hb, hiff⟩ := accepts_spec hT hpos hQ r s z
  obtain ⟨b', hb', hiff'⟩ := accepts_spec hT hpos hQ r (C.n - s) z
  have hbb' : b' = true ↔ b = true :=
    hiff'.trans ((Curve.verifies_sub_iff hn hQn r s z).trans hiff.symm)
  rw [hb, hb', Bool.eq_iff_iff.mpr hbb']

end Table

namespace Signature

/-! ## The lower half -/

theorem n_emod_two : secp256k1.n % 2 = 1 := by
  decide

theorem lowS_eq_or (s : ℤ) : lowS s = s ∨ lowS s = secp256k1.n - s := by
  unfold lowS
  split
  · exact Or.inr rfl
  · exact Or.inl rfl

/-- A number in range is brought into the lower half, and no other number gets there. -/
theorem lowS_range_iff (s : ℤ) :
    (0 < lowS s ∧ lowS s ≤ secp256k1.n / 2) ↔ 0 < s ∧ s < secp256k1.n := by
  have hodd := n_emod_two
  unfold lowS
  split <;> omega

theorem lowS_eq_min {s : ℤ} (hs : 0 < s ∧ s < secp256k1.n) :
    lowS s = min s (secp256k1.n - s) := by
  have hodd := n_emod_two
  unfold lowS
  split <;> omega

theorem lowS_of_le {s : ℤ} (hs : s ≤ secp256k1.n / 2) : lowS s = s := by
  unfold lowS
  rw [if_neg (by omega)]

theorem accepts_lowS {T : GeneratorTable secp256k1} (hT : T.IsTable) {Q : Point secp256k1}
    (hQ : Q.OnCurve) (hQn : secp256k1.n • Q.value = 0) (r s z : ℤ) :
    T.accepts Q r (lowS s) z = T.accepts Q r s z := by
  rcases lowS_eq_or s with hlow | hlow
  · rw [hlow]
  · rw [hlow]
    exact GeneratorTable.accepts_sub hT (by decide) secp256k1_n_zsmul_base hQ hQn r s z

/-! ## Normalized signatures -/

/-- Two numbers make a normalized signature exactly if both are in range. -/
theorem ofNumbers_lowS {r s : ℤ} (hr : 0 < r ∧ r < secp256k1.n) (hs : 0 < s ∧ s < secp256k1.n) :
    ∃ sig, ofNumbers r (lowS s) = .ok sig ∧ sig.r = r ∧ sig.s = lowS s :=
  ⟨_, ofNumbers_of_range hr ((lowS_range_iff s).mpr hs), rfl, rfl⟩

theorem ofNumbers_lowS_error {r s : ℤ}
    (h : ¬((0 < r ∧ r < secp256k1.n) ∧ (0 < s ∧ s < secp256k1.n))) :
    ∃ cause, ofNumbers r (lowS s) = .error (.signature cause) := by
  rcases ofNumbers_spec r (lowS s) with ⟨sig, -, hr, hs⟩ | herror
  · have hsr := sig.s_range
    rw [hs, lowS_range_iff] at hsr
    exact absurd ⟨hr ▸ sig.r_range, hsr⟩ h
  · exact herror

/-- For numbers in range, the lower half is all that is left to check. -/
theorem exists_ofNumbers_iff {r s : ℤ} (hr : 0 < r ∧ r < secp256k1.n) (hs : 0 < s) :
    (∃ sig, ofNumbers r s = .ok sig) ↔ s ≤ secp256k1.n / 2 := by
  refine ⟨?_, ?_⟩
  · intro h
    obtain ⟨sig, hsig⟩ := h
    rw [← (ofNumbers_eq_ok_iff.mp hsig).2]
    exact sig.s_range.2
  · intro h
    exact ⟨_, ofNumbers_of_range hr ⟨hs, h⟩⟩

/-- Of two opposite second numbers exactly one makes a signature as it is. -/
theorem xor_ofNumbers {r s : ℤ} (hr : 0 < r ∧ r < secp256k1.n) (hs : 0 < s ∧ s < secp256k1.n) :
    Xor (∃ sig, ofNumbers r s = .ok sig) (∃ sig, ofNumbers r (secp256k1.n - s) = .ok sig) := by
  have hodd := n_emod_two
  rw [exists_ofNumbers_iff hr hs.1, exists_ofNumbers_iff hr (by omega)]
  unfold Xor
  omega

/-- A normalized signature is read from its own bytes as it is. -/
theorem ofBytes_serialize (sig : Signature) (normalize : Bool) :
    ∃ data, sig.serialize = .ok data ∧ ofBytes data normalize = .ok sig := by
  obtain ⟨data, hdata, hform⟩ := sig.serialize_spec
  refine ⟨data, hdata, ?_⟩
  rw [ofBytes_eq_ofNumbers hform, lowS_of_le sig.s_range.2, ite_self]
  exact ofNumbers_of_range sig.r_range sig.s_range

/-- A normalized signature gets the answer that the numbers get that it was made from, on every
table. -/
theorem verify_lowS {sig : Signature} {r s : ℤ} (hr : sig.r = r) (hs : sig.s = lowS s) (m : Message)
    (k : PublicKey) (hk : secp256k1.n • k.point.value = 0) {width : ℤ} (hw : 1 ≤ width) :
    ∃ T b, GeneratorTable.build secp256k1 width = .ok T ∧
      T.accepts k.point r s m.toInt = .ok b ∧ verifyWith T m k sig = .ok b ∧
      verify m k sig = .ok b := by
  obtain ⟨T, hT, htable⟩ := GeneratorTable.build_spec secp256k1_contains_base hw
  obtain ⟨-, b, -, -, hverify, -⟩ := verify_spec m k sig
  have hb : verifyWith T m k sig = .ok b := (verifyWith_eq_verify htable m k sig).trans hverify
  refine ⟨T, b, hT, ?_, hb, hverify⟩
  rw [← accepts_lowS htable k.onCurve_point hk, ← hr, ← hs]
  exact hb

/-- **Opposite signatures verify alike, and normalizing keeps the answer.** On every table of a curve
whose base point has a prime order, and under every public point that the order annihilates, a pair
and the one with the opposite second number get the same answer. So 64 bytes that hold two numbers in
range are read, when they are normalized, as a signature with the smaller of the two second numbers:
it is read back from its own bytes, and gets the answer of the numbers as they were given. Unless
they are normalized, exactly one of the two is read. All other bytes are refused as a signature. -/
theorem opposite_alike :
    (∀ (C : Curve) [C.IsElliptic], C.Contains C.gx C.gy → C.n.toNat.Prime → C.n • C.base = 0 →
      ∀ width ≥ 1, ∀ Q : Point C, Q.OnCurve → C.n • Q.value = 0 → ∀ r s z : ℤ,
        ∃ b, (GeneratorTable.build C width).bind (·.accepts Q r s z) = .ok b ∧
          (GeneratorTable.build C width).bind (·.accepts Q r (C.n - s) z) = .ok b) ∧
    ∀ data : Bytes, data.length = 64 → ∃ r s, IsForm data r s ∧
      (¬((1 ≤ r ∧ r < secp256k1.n) ∧ (1 ≤ s ∧ s < secp256k1.n)) →
        ∃ cause, ofSource data true = .error (.signature cause)) ∧
      ((1 ≤ r ∧ r < secp256k1.n) ∧ (1 ≤ s ∧ s < secp256k1.n) →
        (∃ sig, ofSource data true = .ok sig ∧ sig.r = r ∧ sig.s = min s (secp256k1.n - s) ∧
          (∃ data', sig.serialize = .ok data' ∧ ofSource data' true = .ok sig) ∧
          ∀ (m : Message) (k : PublicKey), secp256k1.n • k.point.value = 0 → ∀ width ≥ 1,
            ∃ T b, GeneratorTable.build secp256k1 width = .ok T ∧
              T.accepts k.point r s m.toInt = .ok b ∧ verifyWith T m k sig = .ok b ∧
              verify m k sig = .ok b) ∧
        ∃ twin, writeCompact r (secp256k1.n - s) = .ok twin ∧
          Xor (∃ sig, ofSource data false = .ok sig) (∃ sig, ofSource twin false = .ok sig)) := by
  refine ⟨?_, ?_⟩
  · intro C _ hG hN hn width hw Q hQ hQn r s z
    have hpos : 1 ≤ C.n := by
      have := hN.pos
      omega
    obtain ⟨T, hT, htable⟩ := GeneratorTable.build_spec hG hw
    obtain ⟨b, hb, -⟩ := GeneratorTable.accepts_spec htable hpos hQ r s z
    rw [hT]
    exact ⟨b, hb, (GeneratorTable.accepts_sub htable hpos hn hQ hQn r s z).trans hb⟩
  intro data hlen
  obtain ⟨r, s, hform⟩ := exists_isForm_of_length hlen
  refine ⟨r, s, hform, ?_, ?_⟩
  · intro hrange
    rw [ofSource_bytes, ofBytes_eq_ofNumbers hform]
    exact ofNumbers_lowS_error hrange
  intro hrange
  obtain ⟨hr, hs⟩ := hrange
  refine ⟨?_, ?_⟩
  · obtain ⟨sig, hsig, hsr, hss⟩ := ofNumbers_lowS hr hs
    obtain ⟨data', hdata', hback⟩ := sig.ofBytes_serialize true
    refine ⟨sig, ?_, hsr, hss.trans (lowS_eq_min hs), ⟨data', hdata', ?_⟩, ?_⟩
    · rw [ofSource_bytes, ofBytes_eq_ofNumbers hform]
      exact hsig
    · rw [ofSource_bytes]
      exact hback
    · intro m k hk width hw
      exact verify_lowS hsr hss m k hk hw
  · obtain ⟨twin, htwin⟩ := exists_isForm (r := r) (s := secp256k1.n - s) ⟨by omega, hr.2⟩
      ⟨by omega, by omega⟩
    refine ⟨twin, writeCompact_eq_ok_iff.mpr htwin, ?_⟩
    simp only [ofSource_bytes, ofBytes_eq_ofNumbers hform, ofBytes_eq_ofNumbers htwin,
      Bool.false_eq_true, if_false]
    exact xor_ofNumbers hr hs

/-- On the small curve 28 is the opposite of 3. The signature of the word "hello" with the opposite
second number is read as that signature if it is normalized, is not read otherwise, and is accepted
either way. -/
theorem opposite_alike_hello :
    (GeneratorTable.build (Curve.small 31) 2).bind (·.accepts Curve.smallKey 7 28 2) = .ok true ∧
    ∃ (m : Message) (data : Bytes) (T : GeneratorTable secp256k1),
      Message.ofData hello = .ok m ∧
      data = Bytes.ofNat 32 helloSignature.r.toNat ++
        Bytes.ofNat 32 (secp256k1.n - helloSignature.s).toNat ∧
      ofSource data true = .ok helloSignature ∧ (¬∃ sig, ofSource data false = .ok sig) ∧
      GeneratorTable.build secp256k1 2 = .ok T ∧
      T.accepts helloKey.point helloSignature.r (secp256k1.n - helloSignature.s) m.toInt = .ok true ∧
      verify m helloKey helloSignature = .ok true := by
  obtain ⟨htwins, hbytes⟩ := opposite_alike
  refine ⟨?_, ?_⟩
  · have hkey : (Curve.small 31).n • Curve.smallKey.value = 0 := by
      rw [Curve.smallKey_spec.2, Curve.zsmul_zsmul_eq_zero Curve.small_order]
    obtain ⟨b, hb, hopp⟩ := htwins (Curve.small 31) (Curve.small_contains 31)
      (show Nat.Prime 31 by norm_num) Curve.small_order 2 (by norm_num) Curve.smallKey
      Curve.smallKey_spec.1 hkey 7 3 2
    have hrun : (GeneratorTable.build (Curve.small 31) 2).bind
        (·.accepts Curve.smallKey 7 3 2) = .ok true := by
      cbv
    rw [hrun, Except.ok.injEq] at hb
    rw [hb]
    exact hopp
  · have hform : IsForm (Bytes.ofNat 32 helloSignature.r.toNat ++
        Bytes.ofNat 32 (secp256k1.n - helloSignature.s).toNat) helloSignature.r
        (secp256k1.n - helloSignature.s) :=
      ⟨_, _, Word.spells_ofNat (by decide +kernel), Word.spells_ofNat (by decide +kernel), rfl⟩
    obtain ⟨r, s, hform', -, hread⟩ := hbytes _ hform.length_eq
    obtain ⟨rfl, rfl⟩ := hform.numbers_unique hform'
    obtain ⟨⟨sig, hsig, hr, hs, -, hanswer⟩, twin, htwin, hxor⟩ := hread (by decide)
    have hsame : sig = helloSignature := by
      have hnumbers := ofNumbers_eq_ok_iff.mpr ⟨hr, hs⟩
      rw [show min (secp256k1.n - helloSignature.s) (secp256k1.n - (secp256k1.n - helloSignature.s)) =
        helloSignature.s by decide, ofNumbers_eq_ok_iff.mpr ⟨rfl, rfl⟩] at hnumbers
      exact (Except.ok.inj hnumbers).symm
    subst hsame
    have hkey : secp256k1.n • helloKey.point.value = 0 := by
      rw [value_helloKey, Curve.zsmul_zsmul_eq_zero secp256k1_n_zsmul_base]
    obtain ⟨m, hm, hmessage⟩ := Message.exists_ofData digestInt_hello_lt
    obtain ⟨T, b, hT, hb, -, hverify⟩ := hanswer m helloKey hkey 2 (by norm_num)
    obtain rfl : b = true := by
      obtain ⟨-, b', -, -, hverify', hiff⟩ := verify_spec m helloKey helloSignature
      rw [hverify, Except.ok.injEq] at hverify'
      rw [hmessage] at hiff
      exact hverify'.trans (hiff.mpr hello_verifies)
    refine ⟨m, _, T, hm, rfl, hsig, ?_, hT, hb, hverify⟩
    -- the twin is read, so the bytes themselves are not
    have htwin' : ∃ sig, ofSource twin false = .ok sig := by
      rw [sub_sub_cancel, writeCompact_eq_ok_iff] at htwin
      exact ⟨_, (ofSource_bytes twin false).trans (ofBytes_of_isForm htwin)⟩
    exact fun hread => hxor.elim (fun h => h.2 htwin') (fun h => h.2 hread)

end Signature

end Ecdsa
