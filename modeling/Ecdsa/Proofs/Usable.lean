import Mathlib
import Ecdsa.Proofs.TextForms
import Ecdsa.Proofs.Verification

/-!
# What is made can be used

There are several ways to make a message, a public key and a signature: from numbers, from bytes, from
texts. Each of them ends in one check, which is the same for all (`Message.exists_ofDigest_of_make`,
`PublicKey.exists_ofCoordinates_of_make`, `Signature.exists_ofNumbers_of_make`). What has passed it
is all that writing and verifying rely on, so neither ever fails on what was made (`made_usable`).
-/

namespace Ecdsa

namespace Message

/-- The ways to make a message. -/
inductive Origin where
  /-- From a digest that a caller hands over. -/
  | digest (source : ByteSource)
  /-- From the digest that hashing gave. -/
  | hash (digest : Digest)
  /-- From data that is hashed. -/
  | data (source : ByteSource)
  /-- From a text that is hashed in UTF-8. -/
  | text (t : Text)

/-- Makes a message in the given way. -/
def make : Origin → Except Fault Message
  | .digest source => ofDigestSource source
  | .hash digest => ofDigest digest.bytes
  | .data source => ofData source
  | .text t => ofText t

theorem exists_ofDigest_of_make {o : Origin} {m : Message} (h : make o = .ok m) :
    ∃ digest, ofDigest digest = .ok m := by
  cases o with
  | digest source =>
    rw [make, ofDigestSource_eq] at h
    obtain ⟨digest, -, h⟩ := bind_eq_ok_iff.mp h
    exact ⟨digest, h⟩
  | hash digest => exact ⟨digest.bytes, h⟩
  | data source =>
    obtain ⟨digest, -, h⟩ := bind_eq_ok_iff.mp h
    exact ⟨digest.bytes, h⟩
  | text t =>
    obtain ⟨digest, -, h⟩ := bind_eq_ok_iff.mp h
    exact ⟨digest.bytes, h⟩

/-- Only a digest below the order passes the check. -/
theorem toInt_lt_of_ofDigest {digest : Bytes} {m : Message} (h : ofDigest digest = .ok m) :
    m.toInt < secp256k1.n := by
  unfold ofDigest at h
  split at h
  · split at h
    next hlt =>
      cases h
      exact hlt
    next => cases h
  · cases h

/-- Messages that stand for the same number are the same. -/
theorem eq_of_toInt_eq {m m' : Message} (h : m.toInt = m'.toInt) : m = m' := by
  apply eq_of_digest_eq
  exact Bytes.eq_of_toNat_eq (m.length_digest.trans m'.length_digest.symm) (Int.natCast_inj.mp h)

end Message

namespace PublicKey

/-- The ways to make a public key. -/
inductive Origin where
  /-- From coordinates. -/
  | coordinates (x y : ℤ) (compressed : Bool)
  /-- From either byte form. -/
  | bytes (source : ByteSource)
  /-- From the text form of one. -/
  | text (source : TextSource) (checked : Bool)

/-- Makes a public key in the given way. -/
def make [Base58.Package] : Origin → Except Fault PublicKey
  | .coordinates x y compressed => ofCoordinates x y compressed
  | .bytes source => ofSource source
  | .text source checked => ofText source checked

theorem exists_ofCoordinates_of_ofBytes {data : Bytes} {k : PublicKey} (h : ofBytes data = .ok k) :
    ∃ x y compressed, ofCoordinates x y compressed = .ok k := by
  obtain ⟨form, -, h⟩ := bind_eq_ok_iff.mp h
  cases form with
  | compressed x odd =>
    obtain ⟨found, -, h⟩ := bind_eq_ok_iff.mp h
    cases found with
    | none => cases h
    | some P => exact ⟨P.x, P.y, true, h⟩
  | uncompressed x y => exact ⟨x, y, false, h⟩

theorem exists_ofCoordinates_of_make [Base58.Package] {o : Origin} {k : PublicKey}
    (h : make o = .ok k) : ∃ x y compressed, ofCoordinates x y compressed = .ok k := by
  cases o with
  | coordinates x y compressed => exact ⟨x, y, compressed, h⟩
  | bytes source =>
    rw [make, ofSource_eq] at h
    obtain ⟨data, -, h⟩ := bind_eq_ok_iff.mp h
    exact exists_ofCoordinates_of_ofBytes h
  | text source checked =>
    obtain ⟨data, -, h⟩ := bind_eq_ok_iff.mp h
    exact exists_ofCoordinates_of_ofBytes h

/-- Only coordinates of a point of the curve pass the check. -/
theorem contains_of_ofCoordinates {x y : ℤ} {compressed : Bool} {k : PublicKey}
    (h : ofCoordinates x y compressed = .ok k) : secp256k1.Contains k.x k.y := by
  by_cases hc : secp256k1.Contains x y
  · rw [ofCoordinates_of_contains hc, Except.ok.injEq] at h
    rw [← h]
    exact hc
  · rw [ofCoordinates_of_not_contains hc] at h
    cases h

/-- The points of the curve are the pairs of residues with y² = x³ + 7. -/
theorem contains_iff_modEq (x y : ℤ) : secp256k1.Contains x y ↔
    (0 ≤ x ∧ x < secp256k1.p) ∧ (0 ≤ y ∧ y < secp256k1.p) ∧
      y ^ 2 ≡ x ^ 3 + 7 [ZMOD secp256k1.p] := by
  rw [Curve.contains_iff, ← Curve.cast_eq_cast_iff, show secp256k1.a = 0 from rfl,
    show secp256k1.b = 7 from rfl]
  push_cast
  rw [zero_mul, add_zero]

end PublicKey

namespace Signature

/-- The ways to make a signature. -/
inductive Origin where
  /-- From its two numbers. -/
  | numbers (r s : ℤ)
  /-- From 64 bytes, the second number brought into the lower half or not. -/
  | bytes (source : ByteSource) (normalize : Bool)
  /-- From the text form. -/
  | text (source : TextSource) (checked : Bool)

/-- Makes a signature in the given way. -/
def make [Base58.Package] : Origin → Except Fault Signature
  | .numbers r s => ofNumbers r s
  | .bytes source normalize => ofSource source normalize
  | .text source checked => ofText source checked

theorem exists_ofNumbers_of_ofBytes {data : Bytes} {normalize : Bool} {sig : Signature}
    (h : ofBytes data normalize = .ok sig) : ∃ r s, ofNumbers r s = .ok sig := by
  obtain ⟨rs, -, h⟩ := bind_eq_ok_iff.mp h
  exact ⟨_, _, h⟩

theorem exists_ofNumbers_of_make [Base58.Package] {o : Origin} {sig : Signature}
    (h : make o = .ok sig) : ∃ r s, ofNumbers r s = .ok sig := by
  cases o with
  | numbers r s => exact ⟨r, s, h⟩
  | bytes source normalize =>
    rw [make, ofSource_eq] at h
    obtain ⟨data, -, h⟩ := bind_eq_ok_iff.mp h
    exact exists_ofNumbers_of_ofBytes h
  | text source checked =>
    obtain ⟨data, -, h⟩ := bind_eq_ok_iff.mp h
    exact exists_ofNumbers_of_ofBytes h

/-- Only numbers in range pass the check, the second one in the lower half. -/
theorem range_of_ofNumbers {r s : ℤ} {sig : Signature} (h : ofNumbers r s = .ok sig) :
    (0 < sig.r ∧ sig.r < secp256k1.n) ∧ (0 < sig.s ∧ sig.s ≤ secp256k1.n / 2) := by
  unfold ofNumbers at h
  split at h
  next hr =>
    split at h
    next hs =>
      split at h
      next hlow =>
        cases h
        exact ⟨hr, hs.1, hlow⟩
      next => cases h
    next => cases h
  next => cases h

end Signature

/-- **What is made can be used.** However a message was made, its number is not negative and below the
order, and tells it from all others. However a key was made, its coordinates are residues with
y² = x³ + 7, and either byte form is written, with 33 and 65 bytes. However a signature was made, both
numbers are in range, and it is written with 64 bytes. On any three of them verification comes to an
answer, and to the same one on the shared table and on every table that is built for the curve. -/
theorem made_usable [Base58.Package] :
    (∀ (o : Message.Origin) (m : Message), Message.make o = .ok m →
      (0 ≤ m.toInt ∧ m.toInt < secp256k1.n) ∧ ∀ m' : Message, m'.toInt = m.toInt → m' = m) ∧
    (∀ (o : PublicKey.Origin) (k : PublicKey), PublicKey.make o = .ok k →
      ((0 ≤ k.x ∧ k.x < secp256k1.p) ∧ (0 ≤ k.y ∧ k.y < secp256k1.p) ∧
        k.y ^ 2 ≡ k.x ^ 3 + 7 [ZMOD secp256k1.p]) ∧
      ∀ form : Option Bool, ∃ data, k.serialize form = .ok data ∧
        data.length = if form.getD k.compressed then 33 else 65) ∧
    (∀ (o : Signature.Origin) (sig : Signature), Signature.make o = .ok sig →
      ((1 ≤ sig.r ∧ sig.r < secp256k1.n) ∧ (1 ≤ sig.s ∧ sig.s ≤ secp256k1.n / 2)) ∧
      ∃ data, sig.serialize = .ok data ∧ data.length = 64) ∧
    ∀ (m : Message) (k : PublicKey) (sig : Signature), ∃ b, verify m k sig = .ok b ∧
      ∀ width ≥ 1, ∃ T, GeneratorTable.build secp256k1 width = .ok T ∧
        verifyWith T m k sig = .ok b := by
  refine ⟨?_, ?_, ?_, ?_⟩
  · intro o m hm
    obtain ⟨digest, hdigest⟩ := Message.exists_ofDigest_of_make hm
    refine ⟨⟨Int.natCast_nonneg _, Message.toInt_lt_of_ofDigest hdigest⟩, ?_⟩
    intro m' heq
    exact Message.eq_of_toInt_eq heq
  · intro o k hk
    obtain ⟨x, y, compressed, hcheck⟩ := PublicKey.exists_ofCoordinates_of_make hk
    refine ⟨(PublicKey.contains_iff_modEq _ _).mp (PublicKey.contains_of_ofCoordinates hcheck), ?_⟩
    intro form
    obtain ⟨data, hdata, hform⟩ := k.serialize_spec form
    exact ⟨data, hdata, hform.length_eq⟩
  · intro o sig hsig
    obtain ⟨r, s, hcheck⟩ := Signature.exists_ofNumbers_of_make hsig
    obtain ⟨data, hdata, hform⟩ := sig.serialize_spec
    exact ⟨Signature.range_of_ofNumbers hcheck, data, hdata, hform.length_eq⟩
  · intro m k sig
    obtain ⟨-, b, -, -, hverify, -⟩ := verify_spec m k sig
    refine ⟨b, hverify, ?_⟩
    intro width hw
    obtain ⟨T, hT, htable⟩ := GeneratorTable.build_spec secp256k1_contains_base hw
    exact ⟨T, hT, (verifyWith_eq_verify htable m k sig).trans hverify⟩

section Standard

open scoped Base58.Standard

/-- A message, a key and a signature made in one way each, the key from a text, on a table of width 3.
No bytes make the same message as their digest does. -/
theorem made_usable_hello : ∃ m m' t data sig data' T b,
    Message.make (.data ([] : Bytes)) = .ok m ∧ Message.make (.hash (Sha256.digest [])) = .ok m' ∧
      m' = m ∧
    helloKey.toText none true = .ok t ∧ PublicKey.make (.text t true) = .ok helloKey ∧
      helloKey.serialize (some false) = .ok data ∧ data.length = 65 ∧
    Signature.make (.numbers 1 (secp256k1.n / 2)) = .ok sig ∧
      sig.serialize = .ok data' ∧ data'.length = 64 ∧
    GeneratorTable.build secp256k1 3 = .ok T ∧ verifyWith T m helloKey sig = .ok b := by
  have hlt : digestInt [] < secp256k1.n := by decide +kernel
  obtain ⟨m, hm, hint⟩ := Message.exists_ofData hlt
  obtain ⟨m', hm', hint'⟩ : ∃ m', Message.make (.hash (Sha256.digest [])) = .ok m' ∧
      m'.toInt = digestInt [] :=
    ⟨_, Message.ofDigest_of_lt (Sha256.digest []).length_bytes hlt, rfl⟩
  obtain ⟨t, -, ht, -⟩ := helloKey.toText_spec none true
  have hk : PublicKey.make (.text t true) = .ok helloKey := PublicKey.ofText_eq_ok_iff.mpr ht
  have hsig := Signature.ofNumbers_of_range (r := 1) (s := secp256k1.n / 2) (by decide) (by decide)
  obtain ⟨hmessage, hkey, hsignature, hverify⟩ := made_usable
  have hsame := (hmessage (.data ([] : Bytes)) m hm).2 m' (hint'.trans hint.symm)
  obtain ⟨-, hserialize⟩ := hkey _ _ hk
  obtain ⟨data, hdata, hlen⟩ := hserialize (some false)
  obtain ⟨-, data', hdata', hlen'⟩ := hsignature (.numbers _ _) _ hsig
  obtain ⟨b, -, htables⟩ := hverify m helloKey ⟨1, secp256k1.n / 2, by decide, by decide⟩
  obtain ⟨T, hT, hrun⟩ := htables 3 (by decide)
  exact ⟨m, m', t, data, _, data', T, b, hm, hm', hsame, ht, hk, hdata, hlen, hsig, hdata', hlen', hT,
    hrun⟩

end Standard

end Ecdsa
