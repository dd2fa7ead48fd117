import Mathlib
import Ecdsa.Proofs.Base58.Standard
import Ecdsa.Proofs.Utf8
import Ecdsa.Proofs.Verification

/-!
# One verification behind every entry point

Verifying runs through the same three readings in the same order, of the message, of the key and of
the signature, whether it starts from bytes or from their texts (`verifyRaw_bytes`,
`verifyTexts_encode`). So both have one outcome, also where several inputs are no good and the first
of them is the one to be reported (`entryPoints_agree`). A text to verify is the bytes of its string.
-/

namespace Ecdsa

/-- Verifying bytes reads the digest, the key and the signature, in this order. -/
theorem verifyRaw_bytes (digest sig key : Bytes) :
    verifyRaw digest sig key =
      Message.ofDigest digest >>= fun message => PublicKey.ofBytes key >>= fun k =>
        Signature.ofBytes sig false >>= fun s => verify message k s := by
  simp only [verifyRaw, Message.ofDigestSource_eq, PublicKey.ofSource_bytes,
    Signature.ofSource_bytes, ByteSource.toBytes_bytes]
  rfl

section Package

variable [Base58.Package]

/-- A text that UTF-8 cannot write fails for that, whatever else there is. -/
theorem verifyText_error {t : Text} (h : ∀ s, Text.ofString s ≠ t) :
    ∃ failure, ∀ (sig key : TextSource) (checked : Bool),
      verifyText t sig key checked = .error (.encoding failure) := by
  cases hencode : Codec.utf8.encode t with
  | ok data =>
    obtain ⟨s, hs⟩ := Text.exists_ofString_of_utf8_encode hencode
    exact absurd hs (h s)
  | error failure =>
    refine ⟨failure, ?_⟩
    intro sig key checked
    rw [verifyText, Message.ofText, Sha256.digestText, hencode]
    rfl

variable [Base58.Documented]

/-- Verifying the texts of bytes reads the key and the signature off those bytes, whatever they are,
except that no bytes without a checksum have no text. -/
theorem verifyTexts_encode (message : Message) {sig key : Bytes} {checked : Bool}
    (hsig : sig ≠ [] ∨ checked = true) (hkey : key ≠ [] ∨ checked = true) :
    verifyTexts message (Base58.encode sig checked) (Base58.encode key checked) checked =
      PublicKey.ofBytes key >>= fun k =>
        Signature.ofBytes sig false >>= fun s => verify message k s := by
  rw [verifyTexts_eq, Base58.decode_bind_of_spells (Base58.spells_encode hkey)]
  refine bind_congr fun k => ?_
  rw [Base58.decode_bind_of_spells (Base58.spells_encode hsig)]

end Package

/-- **The entry points agree.** Verifying some bytes against the texts of a signature and a key comes
to what verifying their digest against the bytes themselves comes to, answer or fault, well formed or
not; only no bytes have no text unless there is a checksum. Verifying a string comes to what verifying
its bytes in UTF-8 comes to, against any two texts; all other texts have no such bytes. -/
theorem entryPoints_agree [Base58.Package] [Base58.Documented] :
    (∀ (m sig key : Bytes) (checked : Bool), checked = true ∨ (sig ≠ [] ∧ key ≠ []) →
      verifyData m (Base58.encode sig checked) (Base58.encode key checked) checked =
        verifyRaw (Sha256.digest m).bytes sig key) ∧
    (∀ (s : String) (sig key : TextSource) (checked : Bool),
      verifyText (Text.ofString s) sig key checked =
        verifyData s.toUTF8.data.toList sig key checked) ∧
    ∀ t : Text, (∀ s, Text.ofString s ≠ t) →
      ∃ failure, ∀ (sig key : TextSource) (checked : Bool),
        verifyText t sig key checked = .error (.encoding failure) := by
  refine ⟨?_, ?_, ?_⟩
  · intro m sig key checked h
    have hsig : sig ≠ [] ∨ checked = true := h.symm.imp_left And.left
    have hkey : key ≠ [] ∨ checked = true := h.symm.imp_left And.right
    rw [verifyData_bytes, verifyRaw_bytes]
    exact bind_congr fun message => verifyTexts_encode message hsig hkey
  · intro s sig key checked
    exact verifyText_eq (Text.utf8_encode_ofString s) sig key checked
  · intro t h
    exact verifyText_error h

section Standard

open scoped Base58.Standard

/-- A key and a signature that are both too short: the key is reported, behind two zero bytes too. -/
theorem entryPoints_agree_malformed :
    verifyText (Text.ofString "hello") (Base58.encode [9] false) (Base58.encode [0, 0, 7] false)
        false = .error (.publicKey (.length 3)) ∧
      verifyRaw (Sha256.digest "hello".toUTF8.data.toList).bytes ([9] : Bytes) ([0, 0, 7] : Bytes) =
        .error (.publicKey (.length 3)) := by
  obtain ⟨hbytes, htext, -⟩ := entryPoints_agree
  have hraw : verifyRaw (Sha256.digest "hello".toUTF8.data.toList).bytes ([9] : Bytes)
      ([0, 0, 7] : Bytes) = .error (.publicKey (.length 3)) := by
    rw [verifyRaw_bytes, Message.ofDigest_of_lt (Sha256.digest _).length_bytes (by decide +kernel)]
    rfl
  refine ⟨?_, hraw⟩
  rw [htext, hbytes _ _ _ _ (Or.inr ⟨List.cons_ne_nil _ _, List.cons_ne_nil _ _⟩)]
  exact hraw

end Standard

end Ecdsa
