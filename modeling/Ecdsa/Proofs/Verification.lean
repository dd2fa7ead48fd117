import Mathlib
import Ecdsa.Verification.Basic
import Ecdsa.Proofs.Base58.Standard
import Ecdsa.Proofs.PublicKey
import Ecdsa.Proofs.Signature
import Ecdsa.Proofs.Curve.Signing

/-!
# Verification from texts

`verifyData_outcome` says what verifying comes to for every message and every two texts: the first
cause that speaks against them as a fault of its own family, and otherwise the answer of the curve.
`verifyData_toText` says that what is signed and written verifies.

Either way the texts are taken off first, then the forms of key and signature; what is left is the
verification equation on the shared table, which never fails. Over which package the texts are read does
not matter, as long as it does what is documented.
-/

namespace Ecdsa

/-! ## On the shared table -/

theorem PublicKey.onCurve_point (k : PublicKey) : k.point.OnCurve :=
  Or.inr (Point.isFinite_affine k.contains)

/-- Verification of a message, a key and a signature never fails, and is verification in the group. -/
theorem verify_spec (m : Message) (k : PublicKey) (sig : Signature) :
    ∃ T b, GeneratorTable.shared = .ok T ∧ T.accepts k.point sig.r sig.s m.toInt = .ok b ∧
      verify m k sig = .ok b ∧ (b = true ↔ Curve.Verifies k.point.value sig.r sig.s m.toInt) := by
  obtain ⟨T, hT, htable⟩ := GeneratorTable.shared_spec
  obtain ⟨b, hb, hiff⟩ := GeneratorTable.accepts_spec htable (by decide) k.onCurve_point sig.r sig.s
    m.toInt
  refine ⟨T, b, hT, hb, ?_, hiff⟩
  rw [verify, hT]
  exact hb

/-- On every table of generator multiples verification comes to the same. -/
theorem verifyWith_eq_verify {T : GeneratorTable secp256k1} (hT : T.IsTable) (m : Message)
    (k : PublicKey) (sig : Signature) : verifyWith T m k sig = verify m k sig := by
  obtain ⟨b, hb, hiff⟩ := GeneratorTable.accepts_spec hT (by decide) k.onCurve_point sig.r sig.s
    m.toInt
  obtain ⟨-, b', -, -, hverify, hiff'⟩ := verify_spec m k sig
  rw [hverify, ← Bool.eq_iff_iff.mpr (hiff.trans hiff'.symm)]
  exact hb

/-! ## The message -/

/-- The number that the digest of some bytes stands for. -/
def digestInt (data : Bytes) : ℤ :=
  Bytes.toNat (Sha256.digest data).bytes

theorem Message.ofDigest_of_lt {digest : Bytes} (hl : digest.length = 32)
    (hn : (Bytes.toNat digest : ℤ) < secp256k1.n) : ofDigest digest = .ok ⟨digest, hl, hn⟩ := by
  rw [ofDigest, dif_pos hl, dif_pos hn]

theorem Message.ofDigest_of_le {digest : Bytes} (hl : digest.length = 32)
    (hn : secp256k1.n ≤ (Bytes.toNat digest : ℤ)) : ofDigest digest = .error .messageTooLarge := by
  rw [ofDigest, dif_pos hl, dif_neg (not_lt.mpr hn)]

/-- The message of some bytes is that of their digest. -/
theorem Message.ofData_bytes (data : Bytes) :
    ofData data = ofDigest (Sha256.digest data).bytes := by
  rw [ofData, Sha256.digestSource, ByteSource.toBytes_bytes, ok_map, ok_bind]

theorem Message.exists_ofData {data : Bytes} (h : digestInt data < secp256k1.n) :
    ∃ m, ofData data = .ok m ∧ m.toInt = digestInt data := by
  rw [ofData_bytes, ofDigest_of_lt (Sha256.digest data).length_bytes h]
  exact ⟨_, rfl, rfl⟩

section Package

variable [Base58.Package]

theorem verifyData_bytes (m : Bytes) (sig key : TextSource) (checked : Bool) :
    verifyData m sig key checked =
      Message.ofDigest (Sha256.digest m).bytes >>= fun message =>
        verifyTexts message sig key checked := by
  rw [verifyData, Message.ofData_bytes]

/-- Bytes whose digest stands for a number not below the order make no message. -/
theorem verifyData_of_le {m : Bytes} (h : secp256k1.n ≤ digestInt m) (sig key : TextSource)
    (checked : Bool) : verifyData m sig key checked = .error .messageTooLarge := by
  rw [verifyData_bytes, Message.ofDigest_of_le (Sha256.digest m).length_bytes h, error_bind]

/-- All other bytes make a message that stands for that number. -/
theorem verifyData_of_lt {m : Bytes} (h : digestInt m < secp256k1.n) :
    ∃ message : Message, message.toInt = digestInt m ∧ ∀ (sig key : TextSource) (checked : Bool),
      verifyData m sig key checked = verifyTexts message sig key checked := by
  obtain ⟨message, hmessage, hint⟩ := Message.exists_ofData h
  refine ⟨message, hint, ?_⟩
  intro sig key checked
  rw [verifyData, hmessage, ok_bind]

/-- A text is verified as the bytes that it is in UTF-8. -/
theorem verifyText_eq {t : Text} {m : Bytes} (h : Codec.utf8.encode t = .ok m)
    (sig key : TextSource) (checked : Bool) :
    verifyText t sig key checked = verifyData m sig key checked := by
  simp only [verifyText, verifyData, Message.ofText, Message.ofData, Sha256.digestText,
    Sha256.digestSource, ByteSource.toBytes_bytes, h, Except.map]

/-! ## From texts to the equation -/

/-- The steps of verifying a message from two texts. -/
theorem verifyTexts_eq (message : Message) (sig key : Text) (checked : Bool) :
    verifyTexts message sig key checked =
      Base58.decode key checked >>= fun keyData => PublicKey.ofBytes keyData >>= fun k =>
        Base58.decode sig checked >>= fun sigData => Signature.ofBytes sigData false >>= fun s =>
          verify message k s := by
  simp only [verifyTexts, PublicKey.ofText, Signature.ofText, TextSource.decode_text, bind_assoc]

variable [Base58.Documented]

/-- Texts of the forms of a key and a signature are verified as that key and that signature. -/
theorem verifyTexts_of_spells (message : Message) {sig key : Text} {checked : Bool}
    {keyData sigData : Bytes} {k : PublicKey} {s : Signature}
    (hkey : Base58.Spells key checked keyData)
    (hk : Sec1.IsForm keyData k.x k.y k.compressed)
    (hsig : Base58.Spells sig checked sigData) (hs : Signature.IsForm sigData s.r s.s) :
    verifyTexts message sig key checked = verify message k s := by
  rw [verifyTexts_eq, Base58.decode_bind_of_spells hkey, PublicKey.ofBytes_of_isForm hk, ok_bind,
    Base58.decode_bind_of_spells hsig, Signature.ofBytes_of_isForm hs, ok_bind]

end Package

/-! ## One word

The private key 2 signs the word "hello" with the nonce 3. Digest, key and signature are computed, and
the signature verifies.
-/

/-- The bytes of the word. -/
def hello : Bytes :=
  [0x68, 0x65, 0x6c, 0x6c, 0x6f]

theorem digestInt_hello : digestInt hello =
    0x2cf24dba5fb0a30e26e83b2ac5b9e29e1b161e5c1fa7425e73043362938b9824 := by
  rw [digestInt, hello, Sha256.digest_hello]
  decide

theorem digestInt_hello_lt : digestInt hello < secp256k1.n := by
  rw [digestInt_hello]
  decide

/-- The public key, twice the base point. -/
def helloKey : PublicKey where
  x := 0xc6047f9441ed7d6d3045406e95c07cd85c778e4b8cef3ca7abac09b95c709ee5
  y := 0x1ae168fea63dc339a3c58419466ceaeef7f632653266d0e1236431a950cfe52a
  compressed := true
  contains := by decide +kernel

/-- The signature. -/
def helloSignature : Signature where
  r := 0xf9308a019258c31049344f85f89d5229b531c845836f99b08601f113bce036f9
  s := 0x5fc675e9d6cb630f931af36792518250ee439b557d149c813fbc925469b1ec47
  r_range := by decide
  s_range := by decide

theorem coordinates?_helloKey :
    Curve.coordinates? ((2 : ℤ) • secp256k1.base) = some (helloKey.x, helloKey.y) :=
  Point.coordinates?_of_scalarMult (Point.onCurve_generator secp256k1_contains_base) (by decide)
    (by decide +kernel)

theorem value_helloKey : helloKey.point.value = (2 : ℤ) • secp256k1.base := by
  have hne := Curve.zsmul_ne_zero (Curve.base_ne_zero secp256k1_contains_base) secp256k1_n_prime
    secp256k1_n_zsmul_base (k := 2) (by decide)
  obtain ⟨x, y, hxy, -, hval⟩ := Point.exists_coordinates hne
  rw [coordinates?_helloKey] at hxy
  cases hxy
  exact hval

theorem signR_three : secp256k1.signR 3 = helloSignature.r :=
  Curve.signR_eq secp256k1_contains_base (k := 3) (x := helloSignature.r)
    (y := 0x388f7b0f632de8140fe337e62a37f3566500a99934c2231b6cb9fd7584b8e672) (by decide)
    (by decide +kernel)

theorem signS_hello : secp256k1.signS 2 3 (digestInt hello) = helloSignature.s := by
  refine Curve.signS_eq secp256k1_n_prime (by decide) (by decide) ?_
  rw [signR_three, digestInt_hello]
  decide

theorem hello_verifies :
    Curve.Verifies helloKey.point.value helloSignature.r helloSignature.s (digestInt hello) := by
  have hsigned := Curve.isSignature_sign secp256k1_n_prime (d := 2) (k := 3) (z := digestInt hello)
    (by decide) (by rw [signR_three]; decide) (by rw [signS_hello]; decide)
  have hverifies := hsigned.verifies secp256k1_contains_base secp256k1_n_prime
    secp256k1_n_zsmul_base (by decide)
  rwa [signR_three, signS_hello, ← value_helloKey] at hverifies

/-! ## What verifying comes to -/

/-- **Every outcome, in the order in which causes are found.** A digest that makes no message comes
first, then a key text that is no text or spells no key, then a signature text that is no text or
spells no signature. Each is a fault of its own family, and without any of them the outcome is the
answer of the verification equation on the shared table. -/
theorem verifyData_outcome [Base58.Package] [Base58.Documented] (m : Bytes) (sig key : Text)
    (checked : Bool) :
    (secp256k1.n ≤ digestInt m → verifyData m sig key checked = .error .messageTooLarge) ∧
    (digestInt m < secp256k1.n →
      (¬Base58.IsText key checked →
        ∃ cause, verifyData m sig key checked = .error (.decode cause)) ∧
      (Base58.IsText key checked → ∃ keyData, Base58.Spells key checked keyData ∧
        ((∀ k : PublicKey, ¬Sec1.IsForm keyData k.x k.y k.compressed) →
          ∃ cause, verifyData m sig key checked = .error (.publicKey cause)) ∧
        ∀ k : PublicKey, Sec1.IsForm keyData k.x k.y k.compressed →
          (¬Base58.IsText sig checked →
            ∃ cause, verifyData m sig key checked = .error (.decode cause)) ∧
          (Base58.IsText sig checked → ∃ sigData, Base58.Spells sig checked sigData ∧
            ((∀ s : Signature, ¬Signature.IsForm sigData s.r s.s) →
              ∃ cause, verifyData m sig key checked = .error (.signature cause)) ∧
            ∀ s : Signature, Signature.IsForm sigData s.r s.s →
              ∃ T b, GeneratorTable.shared = .ok T ∧
                T.accepts k.point s.r s.s (digestInt m) = .ok b ∧
                verifyData m sig key checked = .ok b))) := by
  refine ⟨?_, ?_⟩
  · intro h
    exact verifyData_of_le h sig key checked
  intro h
  obtain ⟨message, hm, hrun⟩ := verifyData_of_lt h
  rw [hrun, verifyTexts_eq]
  -- each step either stops with a fault of its family or hands on what it has read
  refine ⟨?_, ?_⟩
  · intro hkey
    exact Base58.decode_bind_error hkey _
  intro hkey
  obtain ⟨keyData, hkey⟩ := Base58.isText_iff_exists_spells.mp hkey
  refine ⟨keyData, hkey, ?_⟩
  rw [Base58.decode_bind_of_spells hkey]
  refine ⟨?_, ?_⟩
  · intro hk
    obtain ⟨cause, hcause⟩ := PublicKey.ofBytes_error hk
    exact ⟨cause, by rw [hcause, error_bind]⟩
  intro k hk
  rw [PublicKey.ofBytes_of_isForm hk, ok_bind]
  refine ⟨?_, ?_⟩
  · intro hsig
    exact Base58.decode_bind_error hsig _
  intro hsig
  obtain ⟨sigData, hsig⟩ := Base58.isText_iff_exists_spells.mp hsig
  refine ⟨sigData, hsig, ?_⟩
  rw [Base58.decode_bind_of_spells hsig]
  refine ⟨?_, ?_⟩
  · intro hs
    obtain ⟨cause, hcause⟩ := Signature.ofBytes_error hs
    exact ⟨cause, by rw [hcause, error_bind]⟩
  intro s hs
  rw [Signature.ofBytes_of_isForm hs, ok_bind, ← hm]
  obtain ⟨T, b, hT, hb, hrun, -⟩ := verify_spec message k s
  exact ⟨T, b, hT, hb, hrun⟩

section Standard

open scoped Base58.Standard

/-- On the word "hello", without checksums: a symbol that is none and the text of two zero bytes, each
in the place of the key and of the signature, and the two texts that verify. -/
theorem verifyData_outcome_hello : ∃ keyText sigText : Text,
    helloKey.toText none false = .ok keyText ∧ helloSignature.toText false = .ok sigText ∧
      (∃ cause, verifyData hello (Text.ofString "11") (Text.ofString "0") false =
        .error (.decode cause)) ∧
      (∃ cause, verifyData hello (Text.ofString "0") (Text.ofString "11") false =
        .error (.publicKey cause)) ∧
      (∃ cause, verifyData hello (Text.ofString "0") keyText false = .error (.decode cause)) ∧
      (∃ cause, verifyData hello (Text.ofString "11") keyText false = .error (.signature cause)) ∧
      verifyData hello sigText keyText false = .ok true := by
  obtain ⟨keyText, keyData, hkeyText, hkey, hkeyForm⟩ := helloKey.toText_spec none false
  obtain ⟨sigText, sigData, hsigText, hsig, hsigForm⟩ := helloSignature.toText_spec false
  have hnone : ¬Base58.IsText (Text.ofString "0") false := by
    intro h
    exact absurd (h.2.1 (CodePoint.ofChar '0') (by decide +kernel)) (by decide)
  have hzeros : Base58.Spells (Text.ofString "11") false [0, 0] := by
    refine ⟨by decide +kernel, 2, [], [], by decide +kernel, rfl, ?_⟩
    decide
  have hstart (sig key : Text) := (verifyData_outcome hello sig key false).2 digestInt_hello_lt
  have hkeyed (sig : Text) := (hstart sig keyText).2 (Base58.isText_iff_exists_spells.mpr ⟨_, hkey⟩)
  have hzerosIsText := Base58.isText_iff_exists_spells.mpr ⟨_, hzeros⟩
  refine ⟨keyText, sigText, hkeyText, hsigText, (hstart _ _).1 hnone, ?_, ?_, ?_, ?_⟩
  · obtain ⟨data, hdata, hfault, -⟩ := (hstart (Text.ofString "0") _).2 hzerosIsText
    apply hfault
    intro k hform
    rw [hdata.data_unique hzeros] at hform
    have hlen := hform.length_eq
    split at hlen <;> cases hlen
  · obtain ⟨data, hdata, -, hread⟩ := hkeyed (Text.ofString "0")
    rw [hdata.data_unique hkey] at hread
    exact (hread helloKey hkeyForm).1 hnone
  · obtain ⟨data, hdata, -, hread⟩ := hkeyed (Text.ofString "11")
    rw [hdata.data_unique hkey] at hread
    obtain ⟨sigData', hsigData', hfault, -⟩ := (hread helloKey hkeyForm).2 hzerosIsText
    apply hfault
    intro s hform
    rw [hsigData'.data_unique hzeros] at hform
    cases hform.length_eq
  · obtain ⟨data, hdata, -, hread⟩ := hkeyed sigText
    rw [hdata.data_unique hkey] at hread
    obtain ⟨sigData', hsigData', -, hanswer⟩ :=
      (hread helloKey hkeyForm).2 (Base58.isText_iff_exists_spells.mpr ⟨_, hsig⟩)
    rw [hsigData'.data_unique hsig] at hanswer
    obtain ⟨T, b, hT, hb, hrun⟩ := hanswer helloSignature hsigForm
    -- the equation holds, on every table of generator multiples
    obtain ⟨T', hT', htable⟩ := GeneratorTable.shared_spec
    rw [hT, Except.ok.injEq] at hT'
    rw [hT', (GeneratorTable.accepts_eq_true_iff htable (by decide) helloKey.onCurve_point _ _ _).mpr
      hello_verifies] at hb
    rw [hrun, ← hb]

end Standard

/-! ## What is signed verifies -/

/-- **What is signed and written verifies.** Sign some bytes with the private key `d` and the nonce
`k`, take the smaller of the two second numbers, and write the signature and the public key in any
form: nothing fails on the way, and the texts verify the bytes, and every text that they encode. -/
theorem verifyData_toText [Base58.Package] [Base58.Documented] {d k : ℤ}
    (hd : 1 ≤ d ∧ d < secp256k1.n) (hk : 1 ≤ k ∧ k < secp256k1.n) {m : Bytes}
    (hm : digestInt m < secp256k1.n) (hr : secp256k1.signR k ≠ 0)
    (hs : secp256k1.signS d k (digestInt m) ≠ 0) (compressed : Bool) (form : Option Bool)
    (checked : Bool) :
    ∃ x y, Curve.coordinates? (d • secp256k1.base) = some (x, y) ∧
    ∃ key sig keyText sigText,
      PublicKey.ofCoordinates x y compressed = .ok key ∧
      Signature.ofNumbers (secp256k1.signR k) (min (secp256k1.signS d k (digestInt m))
        (secp256k1.n - secp256k1.signS d k (digestInt m))) = .ok sig ∧
      key.toText form checked = .ok keyText ∧ sig.toText checked = .ok sigText ∧
      verifyData m sigText keyText checked = .ok true ∧
      ∀ t, Codec.utf8.encode t = .ok m → verifyText t sigText keyText checked = .ok true := by
  have hn := secp256k1_n_zsmul_base
  have hN := secp256k1_n_prime
  have hA := Curve.zsmul_ne_zero (Curve.base_ne_zero secp256k1_contains_base) hN hn hd
  obtain ⟨x, y, hxy, hc, hval⟩ := Point.exists_coordinates hA
  -- the smaller second number verifies, and is in the lower half
  have hverifies := ((Curve.isSignature_sign hN hk hr hs).verifies secp256k1_contains_base hN hn
    hd).min_opposite hn (Curve.zsmul_zsmul_eq_zero hn d)
  generalize secp256k1.signS d k (digestInt m) = s₀ at hs hverifies ⊢
  have hlow : min s₀ (secp256k1.n - s₀) ≤ secp256k1.n / 2 := by omega
  obtain ⟨keyText, keyData, hkeyText, hkeySpells, hkeyForm⟩ :=
    PublicKey.toText_spec ⟨x, y, compressed, hc⟩ form checked
  obtain ⟨sigText, sigData, hsigText, hsigSpells, hsigForm⟩ :=
    Signature.toText_spec ⟨_, _, hverifies.1, hverifies.2.1.1, hlow⟩ checked
  refine ⟨x, y, hxy, _, _, keyText, sigText, PublicKey.ofCoordinates_of_contains hc compressed,
    Signature.ofNumbers_of_range hverifies.1 ⟨hverifies.2.1.1, hlow⟩, hkeyText, hsigText, ?_⟩
  have htrue : verifyData m sigText keyText checked = .ok true := by
    obtain ⟨message, hmessage, hrun⟩ := verifyData_of_lt hm
    -- the key that is read goes by the form that was written
    rw [hrun, verifyTexts_of_spells message (k := ⟨x, y, form.getD compressed, hc⟩) hkeySpells
      hkeyForm hsigSpells hsigForm]
    obtain ⟨T, b, -, -, hb, hiff⟩ := verify_spec message ⟨x, y, form.getD compressed, hc⟩
      ⟨_, _, hverifies.1, hverifies.2.1.1, hlow⟩
    rw [hb, hiff.mpr]
    rw [PublicKey.point, hval, hmessage]
    exact hverifies
  refine ⟨htrue, ?_⟩
  intro t ht
  rw [verifyText_eq ht]
  exact htrue

section Standard

open scoped Base58.Standard

/-- The digest of the word "hello" is the published one. The key is written without compression, and
both texts have a checksum. -/
theorem verifyData_toText_hello :
    (Sha256.digest hello).bytes =
      [0x2c, 0xf2, 0x4d, 0xba, 0x5f, 0xb0, 0xa3, 0x0e, 0x26, 0xe8, 0x3b, 0x2a, 0xc5, 0xb9, 0xe2, 0x9e,
        0x1b, 0x16, 0x1e, 0x5c, 0x1f, 0xa7, 0x42, 0x5e, 0x73, 0x04, 0x33, 0x62, 0x93, 0x8b, 0x98,
        0x24] ∧
    ∃ keyText sigText : Text, helloKey.toText (some false) true = .ok keyText ∧
      helloSignature.toText true = .ok sigText ∧
      verifyData hello sigText keyText true = .ok true ∧
      verifyText (Text.ofString "hello") sigText keyText true = .ok true := by
  obtain ⟨x, y, hxy, key, sig, keyText, sigText, hkey, hsig, hkeyText, hsigText, hverify, htext⟩ :=
    verifyData_toText (d := 2) (k := 3) (m := hello) (by decide) (by decide) digestInt_hello_lt
      (by rw [signR_three]; decide) (by rw [signS_hello]; decide) true (some false) true
  rw [coordinates?_helloKey] at hxy
  cases hxy
  rw [PublicKey.ofCoordinates_of_contains helloKey.contains] at hkey
  cases hkey
  have hmin : min helloSignature.s (secp256k1.n - helloSignature.s) = helloSignature.s := by decide
  rw [signR_three, signS_hello, hmin,
    Signature.ofNumbers_of_range helloSignature.r_range helloSignature.s_range] at hsig
  cases hsig
  refine ⟨Sha256.digest_hello, keyText, sigText, hkeyText, hsigText, hverify, htext _ ?_⟩
  decide +kernel

end Standard

end Ecdsa
