import Mathlib
import Ecdsa.Sec1
import Ecdsa.Proofs.Bytes

/-!
# The forms of a point

`IsForm` says which bytes are a form of a point, without a parser. A form is read as what it says of the
point (`parse_of_isForm`): of the ordinate, a compressed form says the parity and no more. Bytes of the
right length and tag are the form of some pair, which may have any ordinate of that parity; all others
are refused for their length or their tag (`form_or_misfit`).
-/

namespace Ecdsa.Sec1

/-- Whether bytes are the form of a pair of coordinates: a tag for the parity of the ordinate and the
word of the abscissa, or the tag 4 and both words. -/
def IsForm (data : Bytes) (x y : ℤ) : Bool → Prop
  | true => ∃ xs, Word.Spells xs x ∧ data = (if y % 2 = 1 then 3 else 2) :: xs
  | false => ∃ xs ys, Word.Spells xs x ∧ Word.Spells ys y ∧ data = 4 :: (xs ++ ys)

theorem IsForm.length_eq {data : Bytes} {x y : ℤ} {compressed : Bool}
    (h : IsForm data x y compressed) : data.length = if compressed then 33 else 65 := by
  cases compressed with
  | true =>
    obtain ⟨xs, hx, rfl⟩ := h
    rw [List.length_cons, hx.1]
    rfl
  | false =>
    obtain ⟨xs, ys, hx, hy, rfl⟩ := h
    rw [List.length_cons, List.length_append, hx.1, hy.1]
    rfl

theorem IsForm.ne_nil {data : Bytes} {x y : ℤ} {compressed : Bool}
    (h : IsForm data x y compressed) : data ≠ [] := by
  intro hnil
  have hlen := h.length_eq
  rw [hnil] at hlen
  cases compressed <;> cases hlen

theorem IsForm.fits {data : Bytes} {x y : ℤ} {compressed : Bool} (h : IsForm data x y compressed) :
    Word.Fits x := by
  cases compressed with
  | true =>
    obtain ⟨xs, hx, -⟩ := h
    exact hx.fits
  | false =>
    obtain ⟨xs, ys, hx, -, -⟩ := h
    exact hx.fits

/-- A compressed form is one for any ordinate of the same parity. -/
theorem IsForm.of_parity {data : Bytes} {x y y' : ℤ} (h : IsForm data x y true)
    (hpar : (y' % 2 == 1) = (y % 2 == 1)) : IsForm data x y' true := by
  obtain ⟨xs, hx, rfl⟩ := h
  have hodd : y' % 2 = 1 ↔ y % 2 = 1 := by rw [← beq_iff_eq, hpar, beq_iff_eq]
  exact ⟨xs, hx, by simp only [hodd]⟩

/-- What is written for a pair of coordinates is its form. -/
theorem write_eq_ok_iff {data : Bytes} {x y : ℤ} {compressed : Bool} :
    write x y compressed = .ok data ↔ IsForm data x y compressed := by
  cases compressed with
  | true =>
    have hsteps : write x y true = Word.write x >>= fun xs =>
        .ok ((if y % 2 = 1 then 3 else 2) :: xs) := rfl
    simp only [hsteps, bind_eq_ok_iff, Word.write_eq_ok_iff, Except.ok.injEq, IsForm,
      @eq_comm _ data]
  | false => exact Word.write_write_eq_ok_iff fun xs ys => 4 :: (xs ++ ys)

/-- Bytes of the length of a compressed form are refused for their tag only. -/
theorem parse_compressed (tag : UInt8) {xs : Bytes} (h : xs.length = 32) :
    parse (tag :: xs) =
      if tag = 2 ∨ tag = 3 then .ok (.compressed (Bytes.toNat xs) (tag == 3))
      else .error (.publicKey (.compressedTag tag)) := by
  have hread : Word.read (tag :: xs) 1 = .ok (Bytes.toNat xs, 33) := by
    simpa using Word.read_append [tag] [] h
  rw [parse, if_pos (by rw [List.length_cons, h]), hread]
  rfl

/-- Bytes of the length of an uncompressed form are refused for their tag only. -/
theorem parse_uncompressed (tag : UInt8) {xs ys : Bytes} (hx : xs.length = 32)
    (hy : ys.length = 32) :
    parse (tag :: (xs ++ ys)) =
      if tag = 4 then .ok (.uncompressed (Bytes.toNat xs) (Bytes.toNat ys))
      else .error (.publicKey (.uncompressedTag tag)) := by
  have hlen : (tag :: (xs ++ ys)).length = 65 := by
    rw [List.length_cons, List.length_append, hx, hy]
  have hfirst : Word.read (tag :: (xs ++ ys)) 1 = .ok (Bytes.toNat xs, 33) := by
    simpa using Word.read_append [tag] ys hx
  have hsecond : Word.read (tag :: (xs ++ ys)) 33 = .ok (Bytes.toNat ys, 65) := by
    simpa [hx] using Word.read_append (tag :: xs) [] hy
  rw [parse, if_neg (by omega), if_pos hlen, hfirst]
  simp only [List.headD_cons, bind, Except.bind, hsecond]
  rfl

theorem parse_of_length {data : Bytes} (h₃₃ : data.length ≠ 33) (h₆₅ : data.length ≠ 65) :
    parse data = .error (.publicKey (.length data.length)) := by
  rw [parse, if_neg h₃₃, if_neg h₆₅]

/-- What the form of a pair of coordinates says. Of the ordinate a compressed form tells the parity. -/
def ofPair (x y : ℤ) : Bool → Sec1
  | true => .compressed x.toNat (y % 2 == 1)
  | false => .uncompressed x.toNat y.toNat

/-- Why bytes are no form: there are too many or too few of them, or the first is not a tag. -/
inductive Misfit (data : Bytes) : PublicKeyCause → Prop
  | length (h₃₃ : data.length ≠ 33) (h₆₅ : data.length ≠ 65) : Misfit data (.length data.length)
  | compressedTag {tag : UInt8} (h₃₃ : data.length = 33) (hfirst : data[0]? = some tag)
      (htag : tag ≠ 2 ∧ tag ≠ 3) : Misfit data (.compressedTag tag)
  | uncompressedTag {tag : UInt8} (h₆₅ : data.length = 65) (hfirst : data[0]? = some tag)
      (htag : tag ≠ 4) : Misfit data (.uncompressedTag tag)

theorem parse_of_isForm {data : Bytes} {x y : ℤ} {compressed : Bool}
    (h : IsForm data x y compressed) : parse data = .ok (ofPair x y compressed) := by
  cases compressed with
  | true =>
    obtain ⟨xs, ⟨hlen, rfl⟩, rfl⟩ := h
    rw [parse_compressed _ hlen, ofPair, Int.toNat_natCast]
    rcases Int.emod_two_eq_zero_or_one y with hy | hy
    · simp [hy]
    · simp [hy]
  | false =>
    obtain ⟨xs, ys, ⟨hx, rfl⟩, ⟨hy, rfl⟩, rfl⟩ := h
    rw [parse_uncompressed 4 hx hy, if_pos rfl, ofPair, Int.toNat_natCast, Int.toNat_natCast]

theorem Misfit.parse_eq {data : Bytes} {cause : PublicKeyCause} (h : Misfit data cause) :
    parse data = .error (.publicKey cause) := by
  cases h with
  | length h₃₃ h₆₅ => exact parse_of_length h₃₃ h₆₅
  | compressedTag h₃₃ hfirst htag =>
    obtain ⟨tag, xs, rfl⟩ := List.exists_cons_of_length_eq_add_one h₃₃
    obtain rfl : tag = _ := Option.some.inj hfirst
    rw [parse_compressed tag (by simpa using h₃₃), if_neg (by tauto)]
  | uncompressedTag h₆₅ hfirst htag =>
    obtain ⟨tag, rest, rfl⟩ := List.exists_cons_of_length_eq_add_one h₆₅
    obtain rfl : tag = _ := Option.some.inj hfirst
    obtain ⟨xs, ys, rfl, hx, hy⟩ := Word.exists_append (show rest.length = 64 by simpa using h₆₅)
    rw [parse_uncompressed tag hx hy, if_neg htag]

/-- Bytes are the form of some pair of numbers that have words, or there is a reason why not. -/
theorem form_or_misfit (data : Bytes) :
    (∃ (x y : ℕ) (compressed : Bool), Word.Fits y ∧ IsForm data x y compressed) ∨
      ∃ cause, Misfit data cause := by
  rcases eq_or_ne data.length 33 with h₃₃ | h₃₃
  · -- a tag and one word: any ordinate of the right parity will do
    obtain ⟨tag, xs, rfl⟩ := List.exists_cons_of_length_eq_add_one h₃₃
    have hxs : Word.Spells xs (Bytes.toNat xs) := ⟨by simpa using h₃₃, rfl⟩
    by_cases htag : tag = 2 ∨ tag = 3
    · rcases htag with rfl | rfl
      · exact Or.inl ⟨_, 0, true, by norm_num [Word.Fits], xs, hxs, rfl⟩
      · exact Or.inl ⟨_, 1, true, by norm_num [Word.Fits], xs, hxs, rfl⟩
    · exact Or.inr ⟨_, .compressedTag h₃₃ rfl (by tauto)⟩
  rcases eq_or_ne data.length 65 with h₆₅ | h₆₅
  · -- a tag and two words
    obtain ⟨tag, rest, rfl⟩ := List.exists_cons_of_length_eq_add_one h₆₅
    obtain ⟨xs, ys, rfl, hx, hy⟩ := Word.exists_append (show rest.length = 64 by simpa using h₆₅)
    have hys : Word.Spells ys (Bytes.toNat ys) := ⟨hy, rfl⟩
    by_cases htag : tag = 4
    · exact Or.inl ⟨_, _, false, hys.fits, xs, ys, ⟨hx, rfl⟩, hys, by rw [htag]⟩
    · exact Or.inr ⟨_, .uncompressedTag h₆₅ rfl htag⟩
  · exact Or.inr ⟨_, .length h₃₃ h₆₅⟩

end Ecdsa.Sec1
