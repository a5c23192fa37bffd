import BearerToken.Standard
import Mathlib.Data.List.Induction
import Mathlib.Tactic.Ring

/-!
# Bit strings

How numerals, groups and bytes fit together, which is all that the bit-level definition of SHA-256
knows about a message.

* `numeral_add` — a long numeral is two shorter ones in a row; `value_numeral` reads it back.
* `group_bitsOfBytes` — cutting the bits of a byte string into groups of whole bytes is cutting the
  bytes.
* **`bytesOfBits_bitsOfBytes`** — a byte string is found again in its bits.
-/

namespace BearerToken.Sha256.Standard

/-! ## Numerals -/

@[simp] lemma length_numeral (width n : Nat) : (numeral width n).length = width := by
  simp [numeral]

@[simp] lemma numeral_zero_width (n : Nat) : numeral 0 n = [] := rfl

/-- The first bit of a numeral is the highest. -/
lemma numeral_succ (width n : Nat) :
    numeral (width + 1) n = n.testBit width :: numeral width n := by
  rw [numeral, numeral, List.range_succ_eq_map, List.map_cons, List.map_map]
  refine congrArg (n.testBit width :: ·) (List.map_congr_left fun i _ => ?_)
  show n.testBit (width + 1 - 1 - (i + 1)) = n.testBit (width - 1 - i)
  rw [show width + 1 - 1 - (i + 1) = width - 1 - i by omega]

/-- A numeral of `v + w` bits is the high part on `v` bits and the low part on `w`. -/
lemma numeral_add (v w n : Nat) : numeral (v + w) n = numeral v (n >>> w) ++ numeral w n := by
  induction v with
  | zero => simp
  | succ v ih =>
      rw [show v + 1 + w = v + w + 1 by omega, numeral_succ, numeral_succ, ih,
        Nat.testBit_shiftRight, Nat.add_comm w v, List.cons_append]

/-- Bits that do not fit are not written. -/
lemma numeral_mod (width n : Nat) : numeral width (n % 2 ^ width) = numeral width n := by
  refine List.map_congr_left fun i hi => ?_
  have h : i < width := List.mem_range.1 hi
  rw [Nat.testBit_mod_two_pow, decide_eq_true (by omega), Bool.true_and]

/-- The numeral of zero is zeros. -/
lemma numeral_zero (width : Nat) : numeral width 0 = List.replicate width false := by
  simp [numeral, List.map_const']

lemma foldl_value (bits : Bits) (v : Nat) :
    bits.foldl (fun v b => 2 * v + b.toNat) v = v * 2 ^ bits.length + value bits := by
  induction bits generalizing v with
  | nil => simp [value]
  | cons b bits ih =>
      rw [value, List.foldl_cons, List.foldl_cons, ih, ih (2 * 0 + b.toNat), List.length_cons]
      ring

lemma value_append (a b : Bits) : value (a ++ b) = value a * 2 ^ b.length + value b := by
  rw [value, List.foldl_append, foldl_value]
  rfl

/-- A numeral spells its number, less what did not fit. -/
lemma value_numeral (width n : Nat) : value (numeral width n) = n % 2 ^ width := by
  induction width with
  | zero => simp [value, Nat.mod_one]
  | succ width ih =>
      rw [numeral_succ, ← List.singleton_append, value_append, ih, length_numeral]
      have h : value [n.testBit width] = n / 2 ^ width % 2 := by
        rw [Nat.testBit_eq_decide_div_mod_eq]
        rcases Nat.mod_two_eq_zero_or_one (n / 2 ^ width) with h | h <;> simp [value, h]
      rw [h, Nat.pow_succ, Nat.mod_mul, Nat.mul_comm, Nat.add_comm]

/-! ## Bytes -/

lemma bitsOfBytes_cons (b : UInt8) (bytes : Bytes) :
    bitsOfBytes (b :: bytes) = numeral 8 b.toNat ++ bitsOfBytes bytes := rfl

lemma bitsOfBytes_append (a b : Bytes) :
    bitsOfBytes (a ++ b) = bitsOfBytes a ++ bitsOfBytes b := by
  simp [bitsOfBytes]

@[simp] lemma length_bitsOfBytes (bytes : Bytes) :
    (bitsOfBytes bytes).length = 8 * bytes.length := by
  induction bytes with
  | nil => rfl
  | cons b bytes ih =>
      rw [bitsOfBytes_cons, List.length_append, length_numeral, ih, List.length_cons]
      omega

lemma bitsOfBytes_replicate_zero (n : Nat) :
    bitsOfBytes (List.replicate n 0) = List.replicate (8 * n) false := by
  induction n with
  | zero => rfl
  | succ n ih =>
      rw [List.replicate_succ, bitsOfBytes_cons, ih, UInt8.toNat_zero, numeral_zero,
        List.replicate_append_replicate, Nat.mul_succ, Nat.add_comm]

/-- The bytes of a number, the most significant first, are its numeral. -/
lemma bitsOfBytes_shiftRight (k n : Nat) :
    bitsOfBytes ((List.range k).reverse.map fun i => (n >>> (8 * i)).toUInt8) =
      numeral (8 * k) n := by
  induction k with
  | zero => rfl
  | succ k ih =>
      have hbyte : numeral 8 (n >>> (8 * k)).toUInt8.toNat = numeral 8 (n >>> (8 * k)) :=
        numeral_mod 8 _
      rw [List.range_succ, List.reverse_append, List.reverse_singleton, List.singleton_append,
        List.map_cons, bitsOfBytes_cons, ih, hbyte, ← numeral_add, Nat.mul_succ, Nat.add_comm]

lemma drop_bitsOfBytes (n : Nat) (bytes : Bytes) :
    (bitsOfBytes bytes).drop (8 * n) = bitsOfBytes (bytes.drop n) := by
  induction n generalizing bytes with
  | zero => rfl
  | succ n ih =>
      cases bytes with
      | nil => rfl
      | cons b bytes =>
          rw [bitsOfBytes_cons, Nat.mul_succ, Nat.add_comm, ← List.drop_drop,
            List.drop_left' (length_numeral 8 _), ih, List.drop_succ_cons]

lemma take_bitsOfBytes (n : Nat) (bytes : Bytes) :
    (bitsOfBytes bytes).take (8 * n) = bitsOfBytes (bytes.take n) := by
  induction n generalizing bytes with
  | zero => rfl
  | succ n ih =>
      cases bytes with
      | nil => rfl
      | cons b bytes =>
          rw [bitsOfBytes_cons, Nat.mul_succ, Nat.add_comm, List.take_add,
            List.take_left' (length_numeral 8 _), List.drop_left' (length_numeral 8 _), ih,
            List.take_succ_cons, bitsOfBytes_cons]

/-- A group of whole bytes is the bits of those bytes. -/
lemma group_bitsOfBytes (n i : Nat) (bytes : Bytes) :
    group (8 * n) i (bitsOfBytes bytes) = bitsOfBytes ((bytes.drop (n * i)).take n) := by
  rw [group, Nat.mul_assoc, drop_bitsOfBytes, take_bitsOfBytes]

/-- The number that the bits of a byte string spell, byte by byte. -/
lemma value_bitsOfBytes (bytes : Bytes) :
    value (bitsOfBytes bytes) = bytes.foldl (fun v b => 256 * v + b.toNat) 0 := by
  induction bytes using List.reverseRecOn with
  | nil => rfl
  | append_singleton bytes b ih =>
      have hb : value (bitsOfBytes [b]) = b.toNat := by
        rw [bitsOfBytes_cons, bitsOfBytes, List.flatMap_nil, List.append_nil, value_numeral]
        exact Nat.mod_eq_of_lt b.toNat_lt
      rw [bitsOfBytes_append, value_append, ih, hb, List.foldl_append, length_bitsOfBytes,
        Nat.mul_comm]
      rfl

/-- **Bytes to bits and back.** -/
theorem bytesOfBits_bitsOfBytes (bytes : Bytes) : bytesOfBits (bitsOfBytes bytes) = bytes := by
  refine List.ext_getElem (by simp [bytesOfBits]) fun i h₁ h₂ => ?_
  have hbyte : (bytes.drop (1 * i)).take 1 = [bytes[i]] := by
    rw [Nat.one_mul, List.drop_eq_getElem_cons h₂, List.take_succ_cons, List.take_zero]
  simp only [bytesOfBits, List.getElem_map, List.getElem_range]
  rw [← Nat.mul_one 8, group_bitsOfBytes, hbyte, value_bitsOfBytes]
  simp

end BearerToken.Sha256.Standard
