import Mathlib
import Ecdsa.Proofs.Base58.Canonical
import Ecdsa.Proofs.PublicKey
import Ecdsa.Proofs.Signature

/-!
# Texts and what they stand for

Where reading bytes undoes writing them, reading texts undoes writing those
(`Base58.decode_bind_eq_ok_iff`): a value has one text in each mode, and the text is read as that
value. `PublicKey.ofBytes_eq_ok_iff_serialize` says so of the bytes of a public key, which rests on
the ordinate that is found again above an abscissa being the one that was left out. Which bytes are
read as a key at all, `PublicKey.IsKeyBytes` says by length, tag and curve.

For signatures the two are `Signature.ofBytes_eq_ok_iff_serialize` and `Signature.IsSignatureBytes`:
64 bytes whose halves are in range. As only one of two opposite second numbers is, no signature has
a second form.
-/

namespace Ecdsa

/-- If a value is read from the bytes that it is written as, and from no others, the same holds of
texts. -/
theorem Base58.decode_bind_eq_ok_iff [Package] [Documented] {α : Type} {read : Bytes → Except Fault α}
    {written : Except Fault Bytes} {a : α} (h : ∀ data, read data = .ok a ↔ written = .ok data)
    (hne : written ≠ .ok []) {t : Text} {checked : Bool} :
    decode t checked >>= read = .ok a ↔
      written >>= (fun data => .ok (encode data checked)) = .ok t := by
  simp only [bind_eq_ok_iff, h, Except.ok.injEq]
  refine ⟨?_, ?_⟩
  · intro hread
    obtain ⟨data, hdecode, hwritten⟩ := hread
    exact ⟨data, hwritten, encode_of_decode hdecode⟩
  · intro hwrite
    obtain ⟨data, hwritten, rfl⟩ := hwrite
    have hdata : data ≠ [] := by
      intro hnil
      exact hne (hnil ▸ hwritten)
    exact ⟨data, decode_encode (Or.inl hdata), hwritten⟩

namespace PublicKey

/-! ## The bytes of a key -/

/-- A key is read from the bytes that it is written as in its own form, and from no others. -/
theorem ofBytes_eq_ok_iff_serialize {data : Bytes} {k : PublicKey} :
    ofBytes data = .ok k ↔ k.serialize none = .ok data :=
  ofBytes_eq_ok_iff.trans Sec1.write_eq_ok_iff.symm

/-- Whether bytes are those of a key: the tag 2 or 3 and the abscissa of a point whose ordinate has
the parity of the tag, 33 bytes in all, or the tag 4 and both coordinates of a point, 65 bytes. -/
def IsKeyBytes (data : Bytes) : Prop :=
  (data.length = 33 ∧ ∃ tag xs y, data = tag :: xs ∧ secp256k1.Contains (Bytes.toNat xs) y ∧
    (tag = 2 ∧ y % 2 = 0 ∨ tag = 3 ∧ y % 2 = 1)) ∨
  (data.length = 65 ∧ ∃ xs ys, data = 4 :: (xs ++ ys) ∧ xs.length = 32 ∧
    secp256k1.Contains (Bytes.toNat xs) (Bytes.toNat ys))

/-- The bytes of a key are the forms of the points of the curve. -/
theorem isKeyBytes_iff {data : Bytes} :
    IsKeyBytes data ↔ ∃ k : PublicKey, Sec1.IsForm data k.x k.y k.compressed := by
  refine ⟨?_, ?_⟩
  · intro h
    rcases h with ⟨hlen, tag, xs, y, rfl, hc, htag⟩ | ⟨hlen, xs, ys, rfl, hx, hc⟩
    · have hxs : xs.length = 32 := by simpa using hlen
      exact ⟨⟨_, y, true, hc⟩, xs, ⟨hxs, rfl⟩, by rw [← tag_eq_parity_iff.mpr htag]⟩
    · have hys : ys.length = 32 := by
        simp only [List.length_cons, List.length_append] at hlen
        omega
      exact ⟨⟨_, _, false, hc⟩, xs, ys, ⟨hx, rfl⟩, ⟨hys, rfl⟩, rfl⟩
  · intro h
    obtain ⟨⟨x, y, compressed, hc⟩, hform⟩ := h
    cases compressed with
    | true =>
      obtain ⟨xs, ⟨hlen, rfl⟩, rfl⟩ := hform
      exact Or.inl ⟨by simp [hlen], _, xs, y, rfl, hc, tag_eq_parity_iff.mp rfl⟩
    | false =>
      obtain ⟨xs, ys, ⟨hx, rfl⟩, ⟨hy, rfl⟩, rfl⟩ := hform
      exact Or.inr ⟨by simp [hx, hy], xs, ys, rfl, hx, hc⟩

theorem exists_ofBytes_iff (data : Bytes) : (∃ k, ofBytes data = .ok k) ↔ IsKeyBytes data := by
  rw [isKeyBytes_iff]
  exact exists_congr fun k => ofBytes_eq_ok_iff

theorem ofBytes_error_of_not_isKeyBytes {data : Bytes} (h : ¬IsKeyBytes data) :
    ∃ cause, ofBytes data = .error (.publicKey cause) := by
  apply ofBytes_error
  intro k hform
  exact h (isKeyBytes_iff.mpr ⟨k, hform⟩)

/-! ## The texts of a key -/

theorem serialize_ne_nil (k : PublicKey) (compressed : Option Bool) :
    k.serialize compressed ≠ .ok [] := by
  intro h
  exact (Sec1.write_eq_ok_iff.mp h).ne_nil rfl

section Texts

variable [Base58.Package] [Base58.Documented]

/-- A key is read from its text in its own form, and from no other text. -/
theorem ofText_eq_ok_iff {t : Text} {checked : Bool} {k : PublicKey} :
    ofText t checked = .ok k ↔ k.toText none checked = .ok t :=
  Base58.decode_bind_eq_ok_iff (fun _ => ofBytes_eq_ok_iff_serialize) (k.serialize_ne_nil none)

/-- The texts of a key in one form are read as the key that goes by that form. -/
theorem toText_eq_ok_iff {t : Text} {checked : Bool} {k : PublicKey} {compressed : Bool} :
    k.toText (some compressed) checked = .ok t ↔
      ∃ k', ofText t checked = .ok k' ∧ k'.x = k.x ∧ k'.y = k.y ∧ k'.compressed = compressed := by
  refine ⟨?_, ?_⟩
  · intro h
    exact ⟨{ k with compressed }, ofText_eq_ok_iff.mpr h, rfl, rfl, rfl⟩
  · intro h
    obtain ⟨⟨x, y, form, hc⟩, hread, rfl, rfl, rfl⟩ := h
    exact ofText_eq_ok_iff.mp hread

end Texts

/-- **Keys and their bytes and texts stand for each other.** A key written in either form and mode is
read as its point, in the form it was written in, and from one text only. Bytes are read as a key
exactly if they are those of one, and then the key is written as the same bytes; all others are
refused as a public key. A text that is read as a key is the text of that key. -/
theorem forms_exact [Base58.Package] [Base58.Documented] :
    (∀ (k : PublicKey) (form checked : Bool), ∃ t, k.toText (some form) checked = .ok t ∧
      ∃ k', ofText t checked = .ok k' ∧ k'.x = k.x ∧ k'.y = k.y ∧ k'.compressed = form) ∧
    (∀ data : Bytes, (∃ k, ofSource data = .ok k) ↔ IsKeyBytes data) ∧
    (∀ (data : Bytes) (k : PublicKey), ofSource data = .ok k → k.serialize none = .ok data) ∧
    (∀ data : Bytes, ¬IsKeyBytes data → ∃ cause, ofSource data = .error (.publicKey cause)) ∧
    (∀ (t : Text) (checked : Bool) (k : PublicKey), ofText t checked = .ok k →
      k.toText (some k.compressed) checked = .ok t) ∧
    ∀ (k : PublicKey) (form checked : Bool), ∃! t : Text,
      ∃ k', ofText t checked = .ok k' ∧ k'.x = k.x ∧ k'.y = k.y ∧ k'.compressed = form := by
  simp only [ofSource_bytes]
  refine ⟨?_, exists_ofBytes_iff, ?_, ?_, ?_, ?_⟩
  · intro k form checked
    obtain ⟨t, -, ht, -⟩ := k.toText_spec (some form) checked
    exact ⟨t, ht, toText_eq_ok_iff.mp ht⟩
  · intro data k h
    exact ofBytes_eq_ok_iff_serialize.mp h
  · intro data h
    exact ofBytes_error_of_not_isKeyBytes h
  · intro t checked k h
    exact toText_eq_ok_iff.mpr ⟨k, h, rfl, rfl, rfl⟩
  · intro k form checked
    obtain ⟨t, -, ht, -⟩ := k.toText_spec (some form) checked
    refine ⟨t, toText_eq_ok_iff.mp ht, ?_⟩
    intro t' ht'
    have hsame := toText_eq_ok_iff.mpr ht'
    rw [ht] at hsame
    exact (Except.ok.inj hsame).symm

section Standard

open scoped Base58.Standard

/-- The base point has an even ordinate, so its abscissa behind the tag 2 is a key. Its text in that
form, with a checksum, is read as that point and written again. -/
theorem forms_exact_base :
    (∃ k, ofSource (2 :: Bytes.ofNat 32 secp256k1.gx.toNat : Bytes) = .ok k ∧
      k.serialize none = .ok (2 :: Bytes.ofNat 32 secp256k1.gx.toNat)) ∧
    ∃ k, ofText (Text.ofString "5p78kHbL33Rn3JWkTWRE2B9uz6gy4r1KbfAKLNQGE3ovKxJ2W1") true = .ok k ∧
      k.x = secp256k1.gx ∧ k.y = secp256k1.gy ∧ k.toText (some true) true =
        .ok (Text.ofString "5p78kHbL33Rn3JWkTWRE2B9uz6gy4r1KbfAKLNQGE3ovKxJ2W1") := by
  obtain ⟨htext, hread, hwrite, -, hback, -⟩ := forms_exact
  refine ⟨?_, ?_⟩
  · have hbytes : IsKeyBytes (2 :: Bytes.ofNat 32 secp256k1.gx.toNat) := by
      refine Or.inl ⟨by simp, 2, _, secp256k1.gy, rfl, ?_, Or.inl ⟨rfl, by decide⟩⟩
      decide +kernel
    obtain ⟨k, hk⟩ := (hread _).mpr hbytes
    exact ⟨k, hk, hwrite _ k hk⟩
  · -- written from the key in its other form
    have hrun : toText ⟨secp256k1.gx, secp256k1.gy, false, secp256k1_contains_base⟩ (some true) true =
        .ok (Text.ofString "5p78kHbL33Rn3JWkTWRE2B9uz6gy4r1KbfAKLNQGE3ovKxJ2W1") := by
      decide +kernel
    obtain ⟨t, ht, k, hk, hx, hy, hform⟩ :=
      htext ⟨secp256k1.gx, secp256k1.gy, false, secp256k1_contains_base⟩ true true
    rw [hrun, Except.ok.injEq] at ht
    subst ht
    have hsame := hback _ _ k hk
    rw [hform] at hsame
    exact ⟨k, hk, hx, hy, hsame⟩

end Standard

end PublicKey

namespace Signature

/-! ## The bytes of a signature -/

/-- A signature is read from the bytes that it is written as, and from no others. -/
theorem ofBytes_eq_ok_iff_serialize {data : Bytes} {sig : Signature} :
    ofBytes data false = .ok sig ↔ sig.serialize = .ok data :=
  ofBytes_eq_ok_iff.trans writeCompact_eq_ok_iff.symm

/-- The number that the first 32 bytes stand for. -/
def firstHalf (data : Bytes) : ℤ :=
  Bytes.toNat (data.take 32)

/-- The number that the bytes after the first 32 stand for. -/
def secondHalf (data : Bytes) : ℤ :=
  Bytes.toNat (data.drop 32)

/-- Whether bytes are those of a signature: 64 of them, the first half below the order and the second
in the lower half of that range, neither zero. -/
def IsSignatureBytes (data : Bytes) : Prop :=
  data.length = 64 ∧ (1 ≤ firstHalf data ∧ firstHalf data < secp256k1.n) ∧
    (1 ≤ secondHalf data ∧ secondHalf data ≤ secp256k1.n / 2)

/-- The form of two numbers has them for its halves. -/
theorem IsForm.halves {data : Bytes} {r s : ℤ} (h : IsForm data r s) :
    firstHalf data = r ∧ secondHalf data = s := by
  obtain ⟨rs, ss, ⟨hr, rfl⟩, ⟨-, rfl⟩, rfl⟩ := h
  rw [firstHalf, secondHalf, ← hr, List.take_left, List.drop_left]
  exact ⟨rfl, rfl⟩

/-- The bytes of a signature are the forms of the signatures. -/
theorem isSignatureBytes_iff {data : Bytes} :
    IsSignatureBytes data ↔ ∃ sig : Signature, IsForm data sig.r sig.s := by
  refine ⟨?_, ?_⟩
  · intro h
    obtain ⟨hlen, hr, hs⟩ := h
    obtain ⟨r, s, hform⟩ := exists_isForm_of_length hlen
    rw [hform.halves.1] at hr
    rw [hform.halves.2] at hs
    exact ⟨⟨r, s, hr, hs⟩, hform⟩
  · intro h
    obtain ⟨sig, hform⟩ := h
    refine ⟨hform.length_eq, ?_, ?_⟩
    · rw [hform.halves.1]
      exact sig.r_range
    · rw [hform.halves.2]
      exact sig.s_range

theorem exists_ofBytes_iff (data : Bytes) :
    (∃ sig, ofBytes data false = .ok sig) ↔ IsSignatureBytes data := by
  rw [isSignatureBytes_iff]
  exact exists_congr fun sig => ofBytes_eq_ok_iff

theorem ofBytes_error_of_not_isSignatureBytes {data : Bytes} (h : ¬IsSignatureBytes data) :
    ∃ cause, ofBytes data false = .error (.signature cause) := by
  apply ofBytes_error
  intro sig hform
  exact h (isSignatureBytes_iff.mpr ⟨sig, hform⟩)

/-! ## The texts of a signature -/

theorem serialize_ne_nil (sig : Signature) : sig.serialize ≠ .ok [] := by
  intro h
  exact (writeCompact_eq_ok_iff.mp h).ne_nil rfl

section Texts

variable [Base58.Package] [Base58.Documented]

/-- A signature is read from its text, and from no other text. -/
theorem ofText_eq_ok_iff {t : Text} {checked : Bool} {sig : Signature} :
    ofText t checked = .ok sig ↔ sig.toText checked = .ok t :=
  Base58.decode_bind_eq_ok_iff (fun _ => ofBytes_eq_ok_iff_serialize) sig.serialize_ne_nil

end Texts

/-- **Signatures and their bytes and texts stand for each other.** Bytes are read as a signature
exactly if there are 64 and their halves are in range, as the signature of the halves, which is
written as the same bytes; all others are refused as a signature. A signature is read from its text in
either mode, and a text that is read as a signature is the text of that signature: in each mode a pair
in range has exactly one. -/
theorem compactForm_exact [Base58.Package] [Base58.Documented] :
    (∀ data : Bytes, (∃ sig, ofSource data false = .ok sig) ↔ IsSignatureBytes data) ∧
    (∀ (data : Bytes) (sig : Signature), ofSource data false = .ok sig →
      sig.r = firstHalf data ∧ sig.s = secondHalf data ∧ sig.serialize = .ok data) ∧
    (∀ data : Bytes, ¬IsSignatureBytes data →
      ∃ cause, ofSource data false = .error (.signature cause)) ∧
    (∀ (sig : Signature) (checked : Bool), ∃ t, sig.toText checked = .ok t ∧
      ofText t checked = .ok sig) ∧
    (∀ (t : Text) (checked : Bool) (sig : Signature), ofText t checked = .ok sig →
      sig.toText checked = .ok t) ∧
    ∀ (r s : ℤ) (checked : Bool), (1 ≤ r ∧ r < secp256k1.n) → (1 ≤ s ∧ s ≤ secp256k1.n / 2) →
      ∃! t : Text, ∃ sig, ofText t checked = .ok sig ∧ sig.r = r ∧ sig.s = s := by
  simp only [ofSource_bytes]
  refine ⟨exists_ofBytes_iff, ?_, ?_, ?_, ?_, ?_⟩
  · intro data sig h
    obtain ⟨hr, hs⟩ := (ofBytes_eq_ok_iff.mp h).halves
    exact ⟨hr.symm, hs.symm, ofBytes_eq_ok_iff_serialize.mp h⟩
  · intro data h
    exact ofBytes_error_of_not_isSignatureBytes h
  · intro sig checked
    obtain ⟨t, -, ht, -⟩ := sig.toText_spec checked
    exact ⟨t, ht, ofText_eq_ok_iff.mpr ht⟩
  · intro t checked sig h
    exact ofText_eq_ok_iff.mp h
  · intro r s checked hr hs
    obtain ⟨t, -, ht, -⟩ := toText_spec ⟨r, s, hr, hs⟩ checked
    refine ⟨t, ⟨⟨r, s, hr, hs⟩, ofText_eq_ok_iff.mpr ht, rfl, rfl⟩, ?_⟩
    intro t' h
    obtain ⟨sig, hread, rfl, rfl⟩ := h
    have hsame := ofText_eq_ok_iff.mp hread
    rw [ht] at hsame
    exact (Except.ok.inj hsame).symm

section Standard

open scoped Base58.Standard

/-- The largest second number that is in range, behind the smallest first one. -/
theorem compactForm_exact_largest : ∃ sig : Signature,
    ofSource (Bytes.ofNat 32 1 ++ Bytes.ofNat 32 (secp256k1.n / 2).toNat : Bytes) false = .ok sig ∧
      sig.s = secp256k1.n / 2 ∧ ∃ t, sig.toText true = .ok t ∧ ofText t true = .ok sig := by
  have hbytes : IsSignatureBytes
      (Bytes.ofNat 32 1 ++ Bytes.ofNat 32 (secp256k1.n / 2).toNat) := by
    refine ⟨by simp, ?_⟩
    decide +kernel
  obtain ⟨hread, hwrite, -, htext, -⟩ := compactForm_exact
  obtain ⟨sig, hsig⟩ := (hread _).mpr hbytes
  refine ⟨sig, hsig, ?_, htext sig true⟩
  rw [(hwrite _ sig hsig).2.1]
  decide +kernel

end Standard

end Signature

end Ecdsa
