import BearerToken.Proofs.Sha256.Compression

/-!
# The digest on bits

SHA-256 on bytes and machine words is SHA-256 on bit strings, for messages of every length.  Bytes
and bits are padded alike, the blocks of the one are the blocks of the other, and the digest is cut
into bytes where its words are.

* `bitsOfBytes_pad` — the padding; the search for the number of zero bits ends at a whole byte.
* `spells_blockAt`, `toRegisters_absorb` — the blocks and the hash value after each.
* **`toList_digest`** — the two definitions agree.
-/

namespace BearerToken.Sha256

/-! ## Padding -/

/-- The least number of zero bits closes the byte of the one and fills whole bytes behind it. -/
lemma zeroCount_bits (n : Nat) : Standard.zeroCount (8 * n) = 7 + 8 * paddingZeros n := by
  have hfind : (List.range 512).find? (fun k => (8 * n + 1 + k) % 512 = 448) =
      some (7 + 8 * paddingZeros n) := by
    rw [List.find?_range_eq_some, List.mem_range, paddingZeros]
    refine ⟨decide_eq_true (by omega), by omega, fun k hk => ?_⟩
    rw [Bool.not_eq_true', decide_eq_false_iff_not]
    omega
  rw [Standard.zeroCount, hfind, Option.getD_some]

/-- The length field is the 64-bit numeral of the length in bits. -/
lemma bitsOfBytes_lengthField (n : Nat) :
    Standard.bitsOfBytes (lengthField n) = Standard.numeral 64 (8 * n) :=
  Standard.bitsOfBytes_shiftRight 8 (8 * n)

/-- **Bytes and bits are padded alike.** -/
theorem bitsOfBytes_pad (message : Bytes) :
    Standard.bitsOfBytes (pad message) = Standard.pad (Standard.bitsOfBytes message) := by
  have hone : Standard.numeral 8 (0x80 : UInt8).toNat = true :: List.replicate 7 false := by decide
  rw [pad, Standard.pad, Standard.bitsOfBytes_append, Standard.bitsOfBytes_cons,
    Standard.bitsOfBytes_append, Standard.bitsOfBytes_replicate_zero, bitsOfBytes_lengthField,
    Standard.length_bitsOfBytes, zeroCount_bits, hone, ← List.replicate_append_replicate]
  simp

/-! ## Blocks -/

lemma take_four_drop {α : Type} (l : List α) (i : Nat) (h : i + 3 < l.length) :
    (l.drop i).take 4 = [l[i], l[i + 1], l[i + 2], l[i + 3]] := by
  rw [List.drop_eq_getElem_cons (by omega), List.drop_eq_getElem_cons (by omega),
    List.drop_eq_getElem_cons (by omega), List.drop_eq_getElem_cons (by omega)]
  rfl

/-- A block of the padded bytes is the same block of the padded bits. -/
lemma spells_blockAt (padded : Array UInt8) (i : Nat) (h : i < padded.size / 64) :
    Spells (Standard.group 512 i (Standard.bitsOfBytes padded.toList)) (blockAt padded i h) := by
  intro t ht
  have hword : (((padded.toList.drop (64 * i)).take 64).drop (4 * t)).take 4 =
      [padded[64 * i + 4 * t], padded[64 * i + 4 * t + 1],
        padded[64 * i + 4 * t + 2], padded[64 * i + 4 * t + 3]] := by
    rw [List.drop_take, List.drop_drop, List.take_take, Nat.min_eq_left (by omega),
      take_four_drop _ _ (by simp; omega)]
    rfl
  have hbits : Standard.group 32 t (Standard.group 512 i (Standard.bitsOfBytes padded.toList)) =
      Standard.bitsOfBytes ((((padded.toList.drop (64 * i)).take 64).drop (4 * t)).take 4) := by
    rw [show 512 = 8 * 64 from rfl, Standard.group_bitsOfBytes, show 32 = 8 * 4 from rfl,
      Standard.group_bitsOfBytes]
  rw [hbits, hword, ← toBitVec_wordOfBytes]
  simp [blockAt]

/-- The two sides carry the same hash value from block to block. -/
theorem toRegisters_absorb (padded : Array UInt8) :
    ∀ (n : Nat) (h : n ≤ padded.size / 64),
      (absorb padded n h).toRegisters =
        Standard.hashValue (Standard.bitsOfBytes padded.toList) n
  | 0, _ => State.toRegisters_initial _
  | n + 1, h => by
      have ih := toRegisters_absorb padded n (by omega)
      rw [absorb_succ, State.toRegisters_compress (spells_blockAt padded n h), ih]
      rfl

/-! ## The digest -/

/-- The bytes of a state are its eight words in binary. -/
lemma bitsOfBytes_toBytes (s : State) :
    Standard.bitsOfBytes s.toBytes.toList =
      [s.toRegisters.a, s.toRegisters.b, s.toRegisters.c, s.toRegisters.d,
        s.toRegisters.e, s.toRegisters.f, s.toRegisters.g, s.toRegisters.h].flatMap
          fun word => Standard.numeral 32 word.toNat := by
  have hwords : s.toBytes.toList =
      [s.a, s.b, s.c, s.d, s.e, s.f, s.g, s.h].flatMap fun x => (bytesOfWord x).toList := by
    simp [State.toBytes, Vector.toList]
  rw [hwords]
  simp [Standard.bitsOfBytes_append, bitsOfBytes_bytesOfWord, State.toRegisters]

/-- **SHA-256 on bytes is SHA-256 on bits**, whatever the length of the message. -/
theorem toList_digest (message : Bytes) : (digest message).toList = Standard.digest message := by
  have hblocks : (Standard.pad (Standard.bitsOfBytes message)).length / 512 =
      (pad message).toArray.size / 64 := by
    rw [← bitsOfBytes_pad, Standard.length_bitsOfBytes, List.size_toArray]
    omega
  have hvalue := toRegisters_absorb (pad message).toArray _ (Nat.le_refl _)
  rw [List.toList_toArray, bitsOfBytes_pad] at hvalue
  rw [Standard.digest, Standard.digestBits, hblocks, ← hvalue, ← bitsOfBytes_toBytes,
    Standard.bytesOfBits_bitsOfBytes]
  rfl

@[simp] lemma Standard.length_digest (message : Bytes) :
    (Standard.digest message).length = 32 := by
  simp [← toList_digest]

end BearerToken.Sha256
