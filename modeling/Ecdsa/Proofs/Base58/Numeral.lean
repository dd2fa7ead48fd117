import Mathlib
import Ecdsa.Base58.Package
import Ecdsa.Proofs.Bytes

/-!
# Numerals

Every text over the alphabet is the numeral of some bytes (`exists_isNumeral`); no bytes have two
numerals (`IsNumeral.text_unique`), and no numeral stands for two byte strings
(`IsNumeral.data_unique`). So what the package writes and what it reads fit each other as soon as both
are numerals.

A byte string is so many zero bytes and then bytes that do not start with a zero; a numeral is as many
zero symbols and then digits that do not start with a zero. Both ways keep the count, and the rest is
one number in two bases.
-/

namespace Ecdsa

/-! ## Leading items -/

section Leading

variable {α : Type} [BEq α] [LawfulBEq α] (a : α)

omit [BEq α] [LawfulBEq α] in
/-- A list is a stretch of one item and a list that starts with another. -/
theorem exists_replicate_append (l : List α) :
    ∃ k rest, l = List.replicate k a ++ rest ∧ rest.head? ≠ some a := by
  induction l with
  | nil => exact ⟨0, [], rfl, by simp⟩
  | cons b l ih =>
    by_cases hb : b = a
    · obtain ⟨k, rest, rfl, hrest⟩ := ih
      exact ⟨k + 1, rest, by rw [hb, List.replicate_succ, List.cons_append], hrest⟩
    · exact ⟨0, b :: l, rfl, by simpa using hb⟩

variable {a} {rest : List α} (h : rest.head? ≠ some a) (k : ℕ)

include h

theorem takeWhile_replicate_append :
    (List.replicate k a ++ rest).takeWhile (· == a) = List.replicate k a := by
  rw [List.takeWhile_append_of_pos (by simp +contextual [List.mem_replicate])]
  cases rest with
  | nil => simp
  | cons b rest =>
    rw [List.takeWhile_cons_of_neg (by simpa using h), List.append_nil]

theorem dropWhile_replicate_append :
    (List.replicate k a ++ rest).dropWhile (· == a) = rest := by
  rw [List.dropWhile_append_of_pos (by simp +contextual [List.mem_replicate])]
  cases rest with
  | nil => rfl
  | cons b rest => exact List.dropWhile_cons_of_neg (by simpa using h)

/-- The stretch and the list behind it can be told apart. -/
theorem replicate_append_inj {rest' : List α} (h' : rest'.head? ≠ some a) {k' : ℕ}
    (heq : List.replicate k a ++ rest = List.replicate k' a ++ rest') : k = k' ∧ rest = rest' := by
  have htake := takeWhile_replicate_append h k
  have hdrop := dropWhile_replicate_append h k
  rw [heq, takeWhile_replicate_append h'] at htake
  rw [heq, dropWhile_replicate_append h'] at hdrop
  exact ⟨by simpa using (congrArg List.length htake).symm, hdrop.symm⟩

end Leading

theorem Text.trimRight_eq {t : Text} (h : ∀ c ∈ t, c.isBlank = false) : t.trimRight = t := by
  rw [Text.trimRight, List.dropWhile_eq_self_iff.mpr, List.reverse_reverse]
  intro hl
  rw [h _ (List.mem_reverse.mp (List.getElem_mem hl))]
  exact Bool.false_ne_true

namespace Base58

/-! ## Symbols -/

theorem length_bitcoinAlphabet : bitcoinAlphabet.length = 58 := by
  decide

theorem nodup_bitcoinAlphabet : bitcoinAlphabet.Nodup := by
  decide

/-- The alphabet holds no blanks, and nothing that is not ASCII. -/
theorem plain_of_mem_bitcoinAlphabet :
    ∀ c ∈ bitcoinAlphabet, c.isBlank = false ∧ Codec.ascii.admits c = true := by
  have h : (bitcoinAlphabet.all fun c => !c.isBlank && Codec.ascii.admits c) = true := by
    decide +kernel
  simpa using h

theorem symbol_zero : symbol 0 = zeroSymbol := by
  decide

theorem symbol_eq {d : ℕ} (h : d < bitcoinAlphabet.length) : symbol d = bitcoinAlphabet[d] :=
  List.getD_eq_getElem _ _ _

theorem symbol_mem {d : ℕ} (h : d < 58) : symbol d ∈ bitcoinAlphabet := by
  rw [← length_bitcoinAlphabet] at h
  rw [symbol_eq h]
  exact List.getElem_mem h

/-- A digit is the place of its symbol. -/
theorem idxOf_symbol {d : ℕ} (h : d < 58) : bitcoinAlphabet.idxOf (symbol d) = d := by
  rw [← length_bitcoinAlphabet] at h
  rw [symbol_eq h]
  exact nodup_bitcoinAlphabet.idxOf_getElem d h

theorem idxOf_lt {c : CodePoint} (h : c ∈ bitcoinAlphabet) : bitcoinAlphabet.idxOf c < 58 := by
  rw [← length_bitcoinAlphabet]
  exact List.idxOf_lt_length_of_mem h

theorem symbol_idxOf {c : CodePoint} (h : c ∈ bitcoinAlphabet) :
    symbol (bitcoinAlphabet.idxOf c) = c := by
  rw [symbol_eq (List.idxOf_lt_length_of_mem h), List.getElem_idxOf]

theorem symbol_eq_zeroSymbol_iff {d : ℕ} (h : d < 58) : symbol d = zeroSymbol ↔ d = 0 := by
  refine ⟨?_, ?_⟩
  · intro heq
    rw [← idxOf_symbol h, heq, ← symbol_zero, idxOf_symbol (by omega)]
  · intro h0
    rw [h0, symbol_zero]

/-! ## Digits -/

section Digits

variable {ds : List ℕ} (h : ∀ d ∈ ds, d < 58)

include h

theorem map_idxOf_map_symbol : (ds.map symbol).map bitcoinAlphabet.idxOf = ds := by
  rw [List.map_map]
  exact (List.map_congr_left fun d hd => idxOf_symbol (h d hd)).trans (List.map_id ds)

theorem mem_bitcoinAlphabet_of_mem_map : ∀ c ∈ ds.map symbol, c ∈ bitcoinAlphabet := by
  rw [List.forall_mem_map]
  exact fun d hd => symbol_mem (h d hd)

theorem head?_map_symbol : (ds.map symbol).head? ≠ some zeroSymbol ↔ ds.head? ≠ some 0 := by
  cases ds with
  | nil => simp
  | cons d ds =>
    rw [List.map_cons, List.head?_cons, List.head?_cons, Ne, Ne, Option.some.injEq,
      Option.some.injEq, symbol_eq_zeroSymbol_iff (h d List.mem_cons_self)]

end Digits

/-- A text over the alphabet is written with the digits that its symbols stand for. -/
theorem exists_map_symbol {t : Text} (h : ∀ c ∈ t, c ∈ bitcoinAlphabet) :
    ∃ ds : List ℕ, (∀ d ∈ ds, d < 58) ∧ ds.map symbol = t := by
  refine ⟨t.map bitcoinAlphabet.idxOf, ?_, ?_⟩
  · rw [List.forall_mem_map]
    exact fun c hc => idxOf_lt (h c hc)
  · rw [List.map_map]
    exact (List.map_congr_left fun c hc => symbol_idxOf (h c hc)).trans (List.map_id t)

/-! ## Numerals -/

theorem isNumeral_nil : IsNumeral [] [] :=
  ⟨0, [], [], rfl, rfl, by simp, by simp, by simp, rfl⟩

/-- Zero symbols and digits are the numeral of as many zero bytes and of the shortest bytes that stand
for the number. -/
theorem isNumeral_minimal (zeros : ℕ) {ds : List ℕ} (h : ∀ d ∈ ds, d < 58)
    (hhead : ds.head? ≠ some 0) :
    IsNumeral (List.replicate zeros zeroSymbol ++ ds.map symbol)
      (List.replicate zeros 0 ++ Bytes.minimal (Radix.value 58 ds)) :=
  ⟨zeros, ds, _, rfl, rfl, h, hhead, Bytes.head?_minimal _, (Bytes.toNat_minimal _).symm⟩

theorem exists_isNumeral {t : Text} (h : ∀ c ∈ t, c ∈ bitcoinAlphabet) :
    ∃ data, IsNumeral t data := by
  obtain ⟨zeros, rest, rfl, hrest⟩ := exists_replicate_append zeroSymbol t
  obtain ⟨ds, hds, rfl⟩ := exists_map_symbol fun c hc => h c (List.mem_append_right _ hc)
  exact ⟨_, isNumeral_minimal zeros hds ((head?_map_symbol hds).mp hrest)⟩

theorem IsNumeral.mem_bitcoinAlphabet {t : Text} {data : Bytes} (h : IsNumeral t data) :
    ∀ c ∈ t, c ∈ bitcoinAlphabet := by
  obtain ⟨zeros, ds, rest, rfl, -, hds, -⟩ := h
  intro c hc
  rcases List.mem_append.mp hc with hzero | hdigit
  · rw [List.eq_of_mem_replicate hzero, ← symbol_zero]
    exact symbol_mem (by omega)
  · exact mem_bitcoinAlphabet_of_mem_map hds c hdigit

/-- Bytes have one numeral. -/
theorem IsNumeral.text_unique {t t' : Text} {data : Bytes} (h : IsNumeral t data)
    (h' : IsNumeral t' data) : t = t' := by
  obtain ⟨zeros, ds, rest, rfl, rfl, hds, hhead, hrest, hvalue⟩ := h
  obtain ⟨zeros', ds', rest', rfl, heq, hds', hhead', hrest', hvalue'⟩ := h'
  obtain ⟨rfl, rfl⟩ := replicate_append_inj hrest zeros hrest' heq
  -- without leading zeros the digits are those of the number
  rw [← Radix.digits_value (by omega) hds hhead, ← Radix.digits_value (by omega) hds' hhead', hvalue,
    hvalue']

/-- A numeral stands for one byte string. -/
theorem IsNumeral.data_unique {t : Text} {data data' : Bytes} (h : IsNumeral t data)
    (h' : IsNumeral t data') : data = data' := by
  obtain ⟨zeros, ds, rest, rfl, rfl, hds, hhead, hrest, hvalue⟩ := h
  obtain ⟨zeros', ds', rest', heq, rfl, hds', hhead', hrest', hvalue'⟩ := h'
  obtain ⟨rfl, hmap⟩ := replicate_append_inj ((head?_map_symbol hds).mpr hhead) zeros
    ((head?_map_symbol hds').mpr hhead') heq
  have hdigits : ds = ds' := by
    rw [← map_idxOf_map_symbol hds, hmap, map_idxOf_map_symbol hds']
  -- without leading zeros the bytes are the shortest for the number
  rw [← Bytes.minimal_toNat hrest, ← Bytes.minimal_toNat hrest', ← hvalue, ← hvalue', hdigits]

end Base58

end Ecdsa
