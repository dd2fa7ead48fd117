import Mathlib
import Ecdsa.Proofs.TextForms

/-!
# One reading for each text

A text can be read as a public key or as a signature, with a checksum or without one; no text is read
in two of these ways (`readings_exclusive`). All four read the same bytes, those that the text stands
for without a checksum (`Role.Accepts.exists_decode`). How many there are tells the role and whether
four of them are a checksum, so it does not matter which checksums happen to be right.
-/

namespace Ecdsa

/-- What a text can be read as. -/
inductive Role where
  | publicKey
  | signature
  deriving DecidableEq, Repr

namespace Role

/-- Whether a text is read as something in a role, with or without a checksum. -/
def Accepts [Base58.Package] (role : Role) (checked : Bool) (t : Text) : Prop :=
  match role with
  | .publicKey => ∃ k, PublicKey.ofText t checked = .ok k
  | .signature => ∃ sig, Signature.ofText t checked = .ok sig

/-- How many bytes something in a role has. -/
def lengths : Role → List ℕ
  | .publicKey => [33, 65]
  | .signature => [64]

/-- The number of bytes tells the role, and whether four of them are a checksum. -/
theorem eq_of_length_eq {role role' : Role} {checked checked' : Bool} {n n' : ℕ}
    (hn : n ∈ role.lengths) (hn' : n' ∈ role'.lengths)
    (h : (n + if checked then 4 else 0) = n' + if checked' then 4 else 0) :
    role = role' ∧ checked = checked' := by
  have hall : ∀ checked checked' : Bool, ∀ n ∈ role.lengths, ∀ n' ∈ role'.lengths,
      ((n + if checked then 4 else 0) = n' + if checked' then 4 else 0) →
        role = role' ∧ checked = checked' := by
    cases role <;> cases role' <;> decide
  exact hall checked checked' n hn n' hn' h

section Package

variable [Base58.Package] [Base58.Documented]

/-- Behind a text that is accepted in a role are bytes of that role, and the checksum if there has to
be one. -/
theorem Accepts.exists_decode {role : Role} {checked : Bool} {t : Text}
    (h : role.Accepts checked t) :
    ∃ data, Base58.decode t false = .ok (Base58.framed data checked) ∧
      data.length ∈ role.lengths := by
  cases role with
  | publicKey =>
    obtain ⟨k, hk⟩ := h
    obtain ⟨data, hdecode, hread⟩ := bind_eq_ok_iff.mp hk
    refine ⟨data, Base58.decode_iff_framed.mp hdecode, ?_⟩
    rw [(PublicKey.ofBytes_eq_ok_iff.mp hread).length_eq]
    cases k.compressed <;> decide
  | signature =>
    obtain ⟨sig, hsig⟩ := h
    obtain ⟨data, hdecode, hread⟩ := bind_eq_ok_iff.mp hsig
    refine ⟨data, Base58.decode_iff_framed.mp hdecode, ?_⟩
    rw [(Signature.ofBytes_eq_ok_iff.mp hread).length_eq]
    decide

/-- A text is accepted in one role and one mode only. -/
theorem Accepts.unique {role role' : Role} {checked checked' : Bool} {t : Text}
    (h : role.Accepts checked t) (h' : role'.Accepts checked' t) :
    role = role' ∧ checked = checked' := by
  obtain ⟨data, hdecode, hlen⟩ := h.exists_decode
  obtain ⟨data', hdecode', hlen'⟩ := h'.exists_decode
  rw [hdecode, Except.ok.injEq] at hdecode'
  have hframed := congrArg List.length hdecode'
  rw [Base58.length_framed, Base58.length_framed] at hframed
  exact eq_of_length_eq hlen hlen' hframed

end Package

end Role

/-! ## A checksum that is not asked for -/

section Package

variable [Base58.Package] [Base58.Documented]

theorem Base58.decode_plain_of_spells {t : Text} {checked : Bool} {data : Bytes}
    (h : Spells t checked data) : decode t false = .ok (framed data checked) :=
  decode_iff_framed.mp (decode_eq_ok_iff.mpr h)

/-- To the bytes of a key, the four bytes of a checksum are too many. -/
theorem PublicKey.ofText_plain_of_checked {t : Text} {data : Bytes} {x y : ℤ} {compressed : Bool}
    (h : Base58.Spells t true data) (hform : Sec1.IsForm data x y compressed) :
    ofText t false = .error (.publicKey (.length (if compressed then 37 else 69))) := by
  have hlen : (Base58.framed data true).length = if compressed then 37 else 69 := by
    rw [Base58.length_framed, hform.length_eq]
    split <;> rfl
  have h₃₃ : (Base58.framed data true).length ≠ 33 := by
    rw [hlen]
    split <;> decide
  have h₆₅ : (Base58.framed data true).length ≠ 65 := by
    rw [hlen]
    split <;> decide
  rw [ofText, TextSource.decode_text, Base58.decode_plain_of_spells h, ok_bind,
    ofBytes_of_length h₃₃ h₆₅, hlen]

/-- To the bytes of a signature, they are too many as well. -/
theorem Signature.ofText_plain_of_checked {t : Text} {data : Bytes} {r s : ℤ}
    (h : Base58.Spells t true data) (hform : IsForm data r s) :
    ofText t false = .error (.signature (.length 68)) := by
  have hlen : (Base58.framed data true).length = 68 := by
    rw [Base58.length_framed, hform.length_eq]
    rfl
  rw [ofText, TextSource.decode_text, Base58.decode_plain_of_spells h, ok_bind,
    ofBytes_of_length (by omega), hlen]

end Package

/-- **No text is read in two ways.** Of the two roles and the two modes a text is accepted in one at
most. With a checksum, the text of a key or of a signature is still a text without one, but of too
many bytes: it is refused as a key or a signature, not as a text. -/
theorem readings_exclusive [Base58.Package] [Base58.Documented] :
    (∀ (t : Text) (role role' : Role) (checked checked' : Bool), role.Accepts checked t →
      role'.Accepts checked' t → role = role' ∧ checked = checked') ∧
    (∀ (k : PublicKey) (form : Option Bool), ∃ t, k.toText form true = .ok t ∧
      PublicKey.ofText t false =
        .error (.publicKey (.length (if form.getD k.compressed then 37 else 69)))) ∧
    ∀ sig : Signature, ∃ t, sig.toText true = .ok t ∧
      Signature.ofText t false = .error (.signature (.length 68)) := by
  refine ⟨?_, ?_, ?_⟩
  · intro t role role' checked checked' h h'
    exact h.unique h'
  · intro k form
    obtain ⟨t, data, ht, hspells, hform⟩ := k.toText_spec form true
    exact ⟨t, ht, PublicKey.ofText_plain_of_checked hspells hform⟩
  · intro sig
    obtain ⟨t, data, ht, hspells, hform⟩ := sig.toText_spec true
    exact ⟨t, ht, Signature.ofText_plain_of_checked hspells hform⟩

section Standard

open scoped Base58.Standard

/-- The text of the base point with a checksum is read as a key with a checksum, and as nothing
else. -/
theorem readings_exclusive_base : ∃ t, Role.publicKey.Accepts true t ∧
    (∀ role checked, Role.Accepts role checked t → role = .publicKey ∧ checked = true) ∧
    PublicKey.ofText t false = .error (.publicKey (.length 37)) := by
  obtain ⟨hunique, hkey, -⟩ := readings_exclusive
  obtain ⟨t, ht, hplain⟩ := hkey ⟨secp256k1.gx, secp256k1.gy, true, secp256k1_contains_base⟩ none
  have haccepts : Role.publicKey.Accepts true t := ⟨_, PublicKey.ofText_eq_ok_iff.mpr ht⟩
  refine ⟨t, haccepts, ?_, hplain⟩
  intro role checked h
  exact hunique t role .publicKey checked true h haccepts

end Standard

end Ecdsa
