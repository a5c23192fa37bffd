import BearerToken.Hex
import Mathlib.Tactic.Lemma

/-!
# Hexadecimal text

What the numeral writer puts down byte by byte is the digit of every nibble in order, so every other
statement about hexadecimal text is made about that rule (`ofBytes`).

* `writerAfter` — the writer behind a byte string, with its settings; `putByte_writerAfter` is one
  more byte and `putFirst_eq_writerAfter` the front of a buffer, by induction on its length.
* **`encodeFirst_eq_ofBytes`** — the writer and the rule agree on the front of any buffer.
* `length_ofBytes`, `isDigit_of_mem_ofBytes` — how long the text is and what it is made of.
* **`decode?_ofBytes`** — the text is read back; `ofBytes_inj` is the part of it that
  statements about equal texts need.
-/

namespace BearerToken.Hex

/-! ## One byte -/

lemma digit_eq_digitChar : ∀ n : Fin 16, digit n = (Nat.digitChar n).toUInt8 := by
  decide

lemma isDigit_digit : ∀ n : Fin 16, IsDigit (digit n) := by
  decide

lemma digitValue?_digit : ∀ n : Fin 16, digitValue? (digit n) = some n.val.toUInt8 := by
  decide

/-- The numeral of a byte, with a zero in front of a single digit, is the digits of its halves. -/
lemma digits_byte (b : UInt8) :
    List.replicate (2 - (Radix.hexadecimal.digits b.toNat).length) '0'.toUInt8 ++
      Radix.hexadecimal.digits b.toNat = (halves b).map digit := by
  have hb := b.toNat_lt
  have hdigits : Radix.hexadecimal.digits b.toNat =
      (Nat.toDigits 16 b.toNat).map Char.toUInt8 := rfl
  rcases Nat.lt_or_ge b.toNat 16 with hlt | hge
  · rw [hdigits, Nat.toDigits_of_lt_base hlt]
    simp [halves, digit_eq_digitChar, Nat.div_eq_of_lt hlt, Nat.mod_eq_of_lt hlt]
    rfl
  · rw [hdigits, Nat.toDigits_of_base_le (by decide) hge,
      Nat.toDigits_of_lt_base (by omega : b.toNat / 16 < 16)]
    simp [halves, digit_eq_digitChar]

/-! ## The writer follows the rule -/

/-- A byte is written in the same way under whatever settings were left behind. -/
lemma text_putByte (w : NumeralWriter) (b : UInt8) :
    (putByte w b).text.toList = w.text.toList ++ (halves b).map digit := by
  have hput : (putByte w b).text.toList = w.text.toList ++
      (List.replicate (2 - (Radix.hexadecimal.digits b.toNat).length) '0'.toUInt8 ++
        Radix.hexadecimal.digits b.toNat) := by
    simp [putByte, NumeralWriter.put, NumeralWriter.withFill, NumeralWriter.withWidth,
      NumeralWriter.withRadix, Format.pad]
  rw [hput, digits_byte]

/-- **The writer behind a byte string**: its text is the form of the bytes and nothing else.  Radix
and fill are set for the first byte and stay; the width is used up by every byte. -/
def writerAfter : Bytes → NumeralWriter
  | [] => {}
  | b :: bytes =>
      { text := (ofBytes (b :: bytes)).toArray
        radix := .hexadecimal
        fill := '0'.toUInt8
        width := 0 }

lemma toList_text_writerAfter (bytes : Bytes) :
    (writerAfter bytes).text.toList = ofBytes bytes := by
  cases bytes with
  | nil => rfl
  | cons b bytes => rfl

lemma writerAfter_concat (bytes : Bytes) (b : UInt8) :
    writerAfter (bytes ++ [b]) =
      { text := (ofBytes (bytes ++ [b])).toArray
        radix := .hexadecimal
        fill := '0'.toUInt8
        width := 0 } := by
  cases bytes with
  | nil => rfl
  | cons c bytes => rfl

lemma putByte_writerAfter (bytes : Bytes) (b : UInt8) :
    putByte (writerAfter bytes) b = writerAfter (bytes ++ [b]) := by
  have htext : (putByte (writerAfter bytes) b).text = (ofBytes (bytes ++ [b])).toArray := by
    refine Array.toList_inj.1 ?_
    rw [text_putByte, toList_text_writerAfter, ofBytes_append]
    simp [ofBytes]
  -- the settings are set for every byte, whatever they were before
  rw [writerAfter_concat, ← htext]
  rfl

/-- After `n` bytes of a buffer the writer is the one behind those bytes. -/
theorem putFirst_eq_writerAfter (buffer : Array UInt8) :
    ∀ (n : Nat) (h : n ≤ buffer.size),
      putFirst buffer n h = writerAfter (buffer.toList.take n)
  | 0, _ => rfl
  | n + 1, h => by
      have ih := putFirst_eq_writerAfter buffer n (by omega)
      have htake : buffer.toList.take (n + 1) = buffer.toList.take n ++ [buffer[n]] := by
        rw [List.take_succ_eq_append_getElem (by simp; omega), Array.getElem_toList]
      rw [putFirst_succ, ih, putByte_writerAfter, htake]

/-- **The writer and the rule agree.** -/
theorem encodeFirst_eq_ofBytes (buffer : Array UInt8) (len : Nat) (h : len ≤ buffer.size) :
    encodeFirst buffer len h = ofBytes (buffer.toList.take len) := by
  rw [encodeFirst, putFirst_eq_writerAfter, toList_text_writerAfter]

/-! ## The text -/

lemma ofBytes_cons (b : UInt8) (bytes : Bytes) :
    ofBytes (b :: bytes) = (halves b).map digit ++ ofBytes bytes := by
  simp [ofBytes]

@[simp] lemma length_ofBytes (bytes : Bytes) : (ofBytes bytes).length = 2 * bytes.length := by
  induction bytes with
  | nil => rfl
  | cons b bytes ih =>
      rw [ofBytes_cons, List.length_append, List.length_map, ih, List.length_cons, halves]
      simp only [List.length_cons, List.length_nil]
      omega

lemma isDigit_of_mem_ofBytes {bytes : Bytes} {c : UInt8} (h : c ∈ ofBytes bytes) : IsDigit c := by
  obtain ⟨n, -, rfl⟩ := List.mem_map.1 h
  exact isDigit_digit n

lemma notMem_ofBytes {c : UInt8} (h : ¬ IsDigit c) (bytes : Bytes) : c ∉ ofBytes bytes := by
  intro hc
  exact h (isDigit_of_mem_ofBytes hc)

/-- **The text is read back.** -/
theorem decode?_ofBytes (bytes : Bytes) : decode? (ofBytes bytes) = some bytes := by
  induction bytes with
  | nil => rfl
  | cons b bytes ih =>
      have hb : 16 * (b.toNat / 16).toUInt8 + (b.toNat % 16).toUInt8 = b := by
        have hlt := b.toNat_lt
        refine UInt8.toNat_inj.1 ?_
        simp only [Nat.toUInt8_eq, UInt8.toNat_add, UInt8.toNat_mul, UInt8.reduceToNat,
          UInt8.toNat_ofNat', Nat.reducePow, Nat.mul_mod_mod, Nat.add_mod_mod, Nat.mod_add_mod]
        omega
      rw [ofBytes_cons]
      simp only [halves, List.map_cons, List.map_nil, List.cons_append, List.nil_append, decode?,
        digitValue?_digit, ih]
      exact congrArg (fun b => some (b :: bytes)) hb

/-- Different byte strings have different texts. -/
theorem ofBytes_inj {a b : Bytes} : ofBytes a = ofBytes b ↔ a = b := by
  constructor
  · intro h
    have hdecode : some a = some b := by rw [← decode?_ofBytes a, h, decode?_ofBytes b]
    exact Option.some.inj hdecode
  · rintro rfl
    rfl

end BearerToken.Hex
