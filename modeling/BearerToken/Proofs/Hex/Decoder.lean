import BearerToken.Proofs.Hex
import Mathlib.Algebra.Group.Nat.Even
import Mathlib.Data.Set.Operations

/-!
# Which texts are hexadecimal

A byte string has one hexadecimal form, and a text is such a form as soon as it has an even number
of digits and nothing else in it.  So writing and reading are inverse to each other on all byte
strings and on all of these texts, and reading refuses the rest.

* `IsText` — an even number of digits.
* `exists_ofBytes_eq` — every such text is a hexadecimal form, by recursion on its pairs of digits.
* `decode?_eq_some_iff` — what is read, and from what.
* **`encode_bijective`** — the same for the text of a numeral writer.
-/

namespace BearerToken.Hex

open Bytes (ofAscii)

/-- **Hexadecimal text**: an even number of digits in lower case, and nothing else. -/
def IsText (text : Bytes) : Prop :=
  Even text.length ∧ ∀ c ∈ text, IsDigit c

instance : DecidablePred IsText := fun text =>
  -- byte by byte of the text, and not over all bytes there are
  haveI := List.decidableBAll IsDigit text
  inferInstanceAs (Decidable (Even text.length ∧ ∀ c ∈ text, IsDigit c))

/-! ## Digits and halves -/

lemma toNat_digit_of_lt : ∀ n : Fin 16, n.val < 10 → (digit n).toNat = 48 + n.val := by
  decide

lemma toNat_digit_of_le : ∀ n : Fin 16, 10 ≤ n.val → (digit n).toNat = 87 + n.val := by
  decide

lemma exists_digit_eq {c : UInt8} (h : IsDigit c) : ∃ n : Fin 16, digit n = c := by
  rcases h with ⟨hlow, hhigh⟩ | ⟨hlow, hhigh⟩
  · -- from `0` to `9`
    have hlow : 48 ≤ c.toNat := UInt8.le_iff_toNat_le.1 hlow
    have hhigh : c.toNat ≤ 57 := UInt8.le_iff_toNat_le.1 hhigh
    refine ⟨⟨c.toNat - 48, by omega⟩, UInt8.toNat_inj.1 ?_⟩
    rw [toNat_digit_of_lt _ (by omega : c.toNat - 48 < 10)]
    exact Nat.add_sub_of_le hlow
  · -- from `a` to `f`
    have hlow : 97 ≤ c.toNat := UInt8.le_iff_toNat_le.1 hlow
    have hhigh : c.toNat ≤ 102 := UInt8.le_iff_toNat_le.1 hhigh
    refine ⟨⟨c.toNat - 87, by omega⟩, UInt8.toNat_inj.1 ?_⟩
    rw [toNat_digit_of_le _ (by omega : 10 ≤ c.toNat - 87)]
    exact Nat.add_sub_of_le (by omega)

lemma isDigit_of_digitValue? {c v : UInt8} (h : digitValue? c = some v) : IsDigit c := by
  rw [digitValue?] at h
  split_ifs at h with hdecimal hletter
  · exact Or.inl hdecimal
  · exact Or.inr hletter

/-- Any two nibbles are the halves of a byte. -/
lemma exists_halves_eq (hi lo : Fin 16) : ∃ b : UInt8, halves b = [hi, lo] := by
  have hb : (16 * hi.val + lo.val).toUInt8.toNat = 16 * hi.val + lo.val := by
    rw [Nat.toUInt8_eq, UInt8.toNat_ofNat']
    omega
  refine ⟨(16 * hi.val + lo.val).toUInt8, ?_⟩
  simp only [halves, hb, List.cons.injEq, Fin.ext_iff, and_true]
  omega

/-! ## Texts -/

lemma isText_cons_cons {hi lo : UInt8} {rest : Bytes} :
    IsText (hi :: lo :: rest) ↔ IsDigit hi ∧ IsDigit lo ∧ IsText rest := by
  rw [IsText, List.length_cons, List.length_cons, Nat.even_add_one, Nat.even_add_one, not_not,
    List.forall_mem_cons, List.forall_mem_cons, and_left_comm]
  exact and_congr_right fun _ => and_left_comm

lemma isText_ofBytes (bytes : Bytes) : IsText (ofBytes bytes) := by
  refine ⟨?_, fun c hc => isDigit_of_mem_ofBytes hc⟩
  rw [length_ofBytes]
  exact ⟨bytes.length, Nat.two_mul bytes.length⟩

/-- **Every hexadecimal text is the form of a byte string.** -/
theorem exists_ofBytes_eq : ∀ {text : Bytes}, IsText text → ∃ bytes, ofBytes bytes = text
  | [], _ => ⟨[], rfl⟩
  | [_], h => absurd h.1 Nat.not_even_one
  | _ :: _ :: _, h => by
      obtain ⟨hhi, hlo, hrest⟩ := isText_cons_cons.1 h
      obtain ⟨hi, rfl⟩ := exists_digit_eq hhi
      obtain ⟨lo, rfl⟩ := exists_digit_eq hlo
      obtain ⟨bytes, rfl⟩ := exists_ofBytes_eq hrest
      obtain ⟨b, hb⟩ := exists_halves_eq hi lo
      refine ⟨b :: bytes, ?_⟩
      rw [ofBytes_cons, hb]
      rfl

/-- Nothing but hexadecimal text is read. -/
lemma isText_of_decode? : ∀ {text bytes : Bytes}, decode? text = some bytes → IsText text
  | [], _, _ => by decide
  | [_], _, h => by cases h
  | hi :: lo :: rest, bytes, h => by
      simp only [decode?, Option.bind_eq_bind, Option.bind_eq_some_iff] at h
      obtain ⟨_, hhi, _, hlo, _, hrest, -⟩ := h
      exact isText_cons_cons.2
        ⟨isDigit_of_digitValue? hhi, isDigit_of_digitValue? hlo, isText_of_decode? hrest⟩

/-- **What is read**, and from what. -/
theorem decode?_eq_some_iff {text bytes : Bytes} :
    decode? text = some bytes ↔ ofBytes bytes = text := by
  constructor
  · intro h
    obtain ⟨bytes', rfl⟩ := exists_ofBytes_eq (isText_of_decode? h)
    rw [decode?_ofBytes, Option.some.injEq] at h
    rw [h]
  · rintro rfl
    exact decode?_ofBytes bytes

/-- The forms of byte strings are the hexadecimal texts, all of them and no others. -/
lemma range_ofBytes : Set.range ofBytes = {text | IsText text} := by
  refine Set.ext fun text => ⟨?_, exists_ofBytes_eq⟩
  rintro ⟨bytes, rfl⟩
  exact isText_ofBytes bytes

/-! ## Written by a numeral writer -/

lemma encode_eq_ofBytes : encode = ofBytes := by
  refine funext fun bytes => ?_
  rw [encode, encodeFirst_eq_ofBytes, List.take_length]

/-- **Writing in hexadecimal is a bijection**, from byte strings of every length to texts of an even
number of digits, and reading is its inverse.

What was written is read back, and has two digits for each byte; every text of an even number of
digits is read, and what is read from it is written as that text; no other text is read.  Different
byte strings have different texts, be they of one length or not, and every text of an even number of
digits is the text of one. -/
theorem encode_bijective :
    (∀ bytes : Bytes,
      decode? (encode bytes) = some bytes ∧ (encode bytes).length = 2 * bytes.length ∧
        ∀ c ∈ encode bytes, IsDigit c) ∧
    (∀ text : Bytes, IsText text → ∃ bytes, decode? text = some bytes ∧ encode bytes = text) ∧
    (∀ text : Bytes, ¬ IsText text → decode? text = none) ∧
    Function.Injective encode ∧ Set.range encode = {text | IsText text} := by
  rw [encode_eq_ofBytes]
  refine ⟨?_, ?_, ?_, fun a b h => ofBytes_inj.1 h, range_ofBytes⟩
  · intro bytes
    exact ⟨decode?_ofBytes bytes, length_ofBytes bytes, fun c hc => isDigit_of_mem_ofBytes hc⟩
  · intro text htext
    obtain ⟨bytes, hbytes⟩ := exists_ofBytes_eq htext
    exact ⟨bytes, decode?_eq_some_iff.2 hbytes, hbytes⟩
  · intro text htext
    refine Option.eq_none_iff_forall_ne_some.2 fun bytes hbytes => ?_
    exact htext (isText_of_decode? hbytes)

/-- Zeros in front of a byte and in front of a digit, and capital letters. -/
theorem encode_bijective_zeros :
    (0x30 ∈ encode [0x00, 0x0a] ∧ IsDigit 0x30) ∧
    (IsText (ofAscii "000aff") ∧
      ∃ bytes, decode? (ofAscii "000aff") = some bytes ∧ encode bytes = ofAscii "000aff") ∧
    (¬ IsText (ofAscii "0A") ∧ decode? (ofAscii "0A") = none) ∧
    encode [0x0a] ≠ encode [0x00, 0x0a] := by
  obtain ⟨hencode, htext, hother, hinjective, -⟩ := encode_bijective
  have hmem : 0x30 ∈ encode [0x00, 0x0a] := by decide
  have hzeros : IsText (ofAscii "000aff") := by decide
  have hcapital : ¬ IsText (ofAscii "0A") := by decide
  refine ⟨⟨hmem, (hencode [0x00, 0x0a]).2.2 0x30 hmem⟩, ⟨hzeros, htext _ hzeros⟩,
    ⟨hcapital, hother _ hcapital⟩, fun h => ?_⟩
  exact absurd (hinjective h) (by decide)

end BearerToken.Hex
