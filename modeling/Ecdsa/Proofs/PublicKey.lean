import Mathlib
import Ecdsa.PublicKey
import Ecdsa.Proofs.Base58
import Ecdsa.Proofs.Curve.Lift
import Ecdsa.Proofs.Curve.Secp256k1
import Ecdsa.Proofs.Sec1

/-!
# The forms of a public key

A key is made from exactly the forms of its point (`ofBytes_eq_ok_iff`). All other bytes are refused as
a public key, whatever is wrong with them: their length, their tag, or the point (`ofBytes_error`).
-/

namespace Ecdsa.PublicKey

theorem p_emod_four : secp256k1.p % 4 = 3 := by
  decide

/-- The tag of a compressed form tells the parity of the ordinate. -/
theorem tag_eq_parity_iff {tag : UInt8} {y : ℤ} :
    (tag = if y % 2 = 1 then 3 else 2) ↔ tag = 2 ∧ y % 2 = 0 ∨ tag = 3 ∧ y % 2 = 1 := by
  rcases Int.emod_two_eq_zero_or_one y with hy | hy
  · simp [hy]
  · simp [hy]

theorem ofSource_bytes (data : Bytes) : ofSource data = ofBytes data := by
  rw [ofSource_eq]
  rfl

theorem ofCoordinates_of_contains {x y : ℤ} (h : secp256k1.Contains x y) (compressed : Bool) :
    ofCoordinates x y compressed = .ok ⟨x, y, compressed, h⟩ :=
  dif_pos h

theorem ofCoordinates_of_not_contains {x y : ℤ} (h : ¬secp256k1.Contains x y) (compressed : Bool) :
    ofCoordinates x y compressed = .error (.publicKey .offCurve) :=
  dif_neg h

theorem ofBytes_of_length {data : Bytes} (h₃₃ : data.length ≠ 33) (h₆₅ : data.length ≠ 65) :
    ofBytes data = .error (.publicKey (.length data.length)) := by
  rw [ofBytes, Sec1.parse_of_length h₃₃ h₆₅]
  rfl

theorem ofBytes_of_uncompressed {data : Bytes} {x y : ℕ}
    (h : Sec1.parse data = .ok (.uncompressed x y)) : ofBytes data = ofCoordinates x y false := by
  simp only [ofBytes, h, bind, Except.bind]

/-- A compressed form of a point of the curve is read as that point. -/
theorem ofBytes_of_compressed {data : Bytes} {x : ℕ} {y : ℤ} {odd : Bool}
    (h : Sec1.parse data = .ok (.compressed x odd)) (hc : secp256k1.Contains x y)
    (hpar : Curve.isOdd y = odd) : ofBytes data = .ok ⟨x, y, true, hc⟩ := by
  obtain ⟨found, hlift, hfound⟩ := Curve.liftX_spec p_emod_four x odd
  rw [(hfound _).mpr ⟨y, rfl, hc, hpar⟩] at hlift
  rw [ofBytes, h]
  simp only [bind, Except.bind, hlift]
  exact ofCoordinates_of_contains hc true

theorem ofBytes_of_no_point {data : Bytes} {x : ℕ} {odd : Bool}
    (h : Sec1.parse data = .ok (.compressed x odd))
    (hnone : ∀ y, secp256k1.Contains x y → Curve.isOdd y ≠ odd) :
    ofBytes data = .error (.publicKey .noPointAbove) := by
  obtain ⟨found, hlift, hfound⟩ := Curve.liftX_spec p_emod_four x odd
  cases found with
  | some P =>
    obtain ⟨y, -, hc, hpar⟩ := (hfound P).mp rfl
    exact absurd hpar (hnone y hc)
  | none =>
    rw [ofBytes, h]
    simp only [bind, Except.bind, hlift]
    rfl

theorem ofBytes_of_isForm {data : Bytes} {k : PublicKey}
    (h : Sec1.IsForm data k.x k.y k.compressed) : ofBytes data = .ok k := by
  have hparse := Sec1.parse_of_isForm h
  obtain ⟨x, y, compressed, hc⟩ := k
  obtain ⟨x, rfl⟩ := Int.eq_ofNat_of_zero_le hc.1.1
  cases compressed with
  | true => exact ofBytes_of_compressed hparse hc rfl
  | false =>
    obtain ⟨y, rfl⟩ := Int.eq_ofNat_of_zero_le hc.1.2.2.1
    rw [ofBytes_of_uncompressed hparse]
    exact ofCoordinates_of_contains hc false

/-- Bytes are the form of a key, or are refused as a public key. -/
theorem ofBytes_spec (data : Bytes) :
    (∃ k : PublicKey, Sec1.IsForm data k.x k.y k.compressed) ∨
      ∃ cause, ofBytes data = .error (.publicKey cause) := by
  rcases Sec1.form_or_misfit data with ⟨x, y, compressed, -, hform⟩ | ⟨cause, hmisfit⟩
  swap
  · exact Or.inr ⟨cause, by rw [ofBytes, hmisfit.parse_eq]; rfl⟩
  have hparse := Sec1.parse_of_isForm hform
  cases compressed with
  | true =>
    -- the ordinate of the form was any of its parity; that of the point need not be this one
    by_cases hpoint : ∃ y' : ℤ, secp256k1.Contains x y' ∧ Curve.isOdd y' = Curve.isOdd y
    · obtain ⟨y', hc, hpar⟩ := hpoint
      exact Or.inl ⟨⟨x, y', true, hc⟩, hform.of_parity hpar⟩
    · exact Or.inr ⟨_, ofBytes_of_no_point hparse fun y' hc hpar => hpoint ⟨y', hc, hpar⟩⟩
  | false =>
    by_cases hc : secp256k1.Contains x y
    · exact Or.inl ⟨⟨x, y, false, hc⟩, hform⟩
    · have hread := (ofBytes_of_uncompressed hparse).trans (ofCoordinates_of_not_contains hc false)
      exact Or.inr ⟨_, hread⟩

/-- A key is read from its forms, and from nothing else. -/
theorem ofBytes_eq_ok_iff {data : Bytes} {k : PublicKey} :
    ofBytes data = .ok k ↔ Sec1.IsForm data k.x k.y k.compressed := by
  refine ⟨fun h => ?_, ofBytes_of_isForm⟩
  rcases ofBytes_spec data with ⟨k', hform⟩ | ⟨cause, herror⟩
  · rw [ofBytes_of_isForm hform] at h
    rw [← Except.ok.inj h]
    exact hform
  · rw [herror] at h
    cases h

theorem ofBytes_error {data : Bytes}
    (h : ∀ k : PublicKey, ¬Sec1.IsForm data k.x k.y k.compressed) :
    ∃ cause, ofBytes data = .error (.publicKey cause) :=
  (ofBytes_spec data).resolve_left fun ⟨k, hform⟩ => h k hform

/-! ## Writing a key -/

/-- A key is written as its form; the coordinates have 32 bytes. -/
theorem serialize_spec (k : PublicKey) (compressed : Option Bool) :
    ∃ data, k.serialize compressed = .ok data ∧
      Sec1.IsForm data k.x k.y (compressed.getD k.compressed) := by
  have hcount : secp256k1.p ≤ Word.count := by decide +kernel
  obtain ⟨⟨hx₀, hx₁, hy₀, hy₁⟩, -⟩ := k.contains
  have hx := Word.spells_ofNat ⟨hx₀, hx₁.trans_le hcount⟩
  have hy := Word.spells_ofNat ⟨hy₀, hy₁.trans_le hcount⟩
  have hform : ∃ data, Sec1.IsForm data k.x k.y (compressed.getD k.compressed) := by
    cases compressed.getD k.compressed with
    | true => exact ⟨_, _, hx, rfl⟩
    | false => exact ⟨_, _, _, hx, hy, rfl⟩
  obtain ⟨data, hdata⟩ := hform
  exact ⟨data, Sec1.write_eq_ok_iff.mpr hdata, hdata⟩

/-- The text of a key spells its form. -/
theorem toText_spec [Base58.Package] [Base58.Documented] (k : PublicKey)
    (compressed : Option Bool) (checked : Bool) :
    ∃ t data, k.toText compressed checked = .ok t ∧ Base58.Spells t checked data ∧
      Sec1.IsForm data k.x k.y (compressed.getD k.compressed) := by
  obtain ⟨data, hdata, hform⟩ := k.serialize_spec compressed
  refine ⟨_, data, ?_, Base58.spells_encode (Or.inl hform.ne_nil), hform⟩
  rw [toText, hdata]
  rfl

end Ecdsa.PublicKey
