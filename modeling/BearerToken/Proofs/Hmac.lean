import BearerToken.Proofs.Sha256.Digest
import BearerToken.Standard
import BearerToken.Token

/-!
# Keys, tags and collisions of the hash

A key enters the two hashes as a block of 64 bytes, so what separates two keys is no more than what
separates their blocks.  The tag of the program is the tag of the definition on paper, and a tag
that two pairs of a key and a message share is traced back to its cause.  Nothing is assumed of the
hash: where the pairs are told apart by their key blocks or messages, the proof points at two
different strings that the hash does not tell apart (`Collision`).

* `Standard.shortKey` — the key, or the digest of a key that is longer than a block.
* **`Standard.keyBlock_eq_keyBlock_iff`** — two keys share their block exactly if one short key is
  the other with zero bytes behind it (`ZeroExtends`).
* `Standard.eq_of_keyBlock_eq` — keys without zero bytes that fit into a block share it with no
  other such key.
* **`toList_tag`** — the tag, on bytes and machine words, is the tag on bit strings.
* `Standard.innerMessage`, `Standard.outerMessage` — what the two hashes read.
* **`Standard.tag_eq_tag_iff`** — when two tags are equal.
-/

namespace BearerToken

/-! ## Collisions -/

/-- Two different strings with one digest. -/
def Sha256.Standard.Collision (a b : Bytes) : Prop :=
  a ≠ b ∧ digest a = digest b

lemma Sha256.Standard.digest_eq_digest_iff (a b : Bytes) :
    digest a = digest b ↔ a = b ∨ Collision a b := by
  constructor
  · intro h
    by_cases hab : a = b
    · exact Or.inl hab
    · exact Or.inr ⟨hab, h⟩
  · rintro (rfl | h)
    · rfl
    · exact h.2

namespace Hmac

/-! ## The key as a block -/

/-- The second string is the first with some zero bytes behind it, or none. -/
def ZeroExtends (a b : Bytes) : Prop :=
  ∃ n, b = a ++ List.replicate n 0

namespace Standard

open Sha256.Standard (digest)

/-- The bytes that fill the front of the block: a key that is longer than a block is hashed. -/
def shortKey (key : Bytes) : Bytes :=
  if key.length > blockLength then digest key else key

lemma keyBlock_eq (key : Bytes) :
    keyBlock key = shortKey key ++ List.replicate (blockLength - (shortKey key).length) 0 := rfl

lemma shortKey_of_le {key : Bytes} (h : key.length ≤ blockLength) : shortKey key = key :=
  if_neg (by omega)

lemma length_shortKey_le (key : Bytes) : (shortKey key).length ≤ blockLength := by
  rw [shortKey]
  split_ifs with h
  · rw [Sha256.Standard.length_digest]
    decide
  · omega

@[simp] lemma length_keyBlock (key : Bytes) : (keyBlock key).length = blockLength := by
  have h := length_shortKey_le key
  rw [keyBlock_eq, List.length_append, List.length_replicate]
  omega

/-- A key of a whole block is its own block. -/
lemma keyBlock_of_length {key : Bytes} (h : key.length = blockLength) : keyBlock key = key := by
  rw [keyBlock_eq, shortKey_of_le (Nat.le_of_eq h), h, Nat.sub_self, List.replicate_zero,
    List.append_nil]

/-! ## Masked blocks -/

lemma maskedKey_eq_map (key : Bytes) (mask : UInt8) :
    maskedKey key mask = (keyBlock key).map (· ^^^ mask) := by
  refine List.ext_getElem (by simp [maskedKey]) fun i h₁ h₂ => ?_
  simp [maskedKey]

@[simp] lemma length_maskedKey (key : Bytes) (mask : UInt8) :
    (maskedKey key mask).length = blockLength := by
  rw [maskedKey_eq_map, List.length_map, length_keyBlock]

/-- A mask can be taken off again. -/
lemma maskedKey_inj {key₁ key₂ : Bytes} {mask : UInt8} :
    maskedKey key₁ mask = maskedKey key₂ mask ↔ keyBlock key₁ = keyBlock key₂ := by
  rw [maskedKey_eq_map, maskedKey_eq_map]
  exact List.map_inj_right fun _ _ h => (UInt8.xor_left_inj mask).1 h

/-! ## Keys that share a block -/

lemma keyBlock_eq_of_zeroExtends {key₁ key₂ : Bytes}
    (h : ZeroExtends (shortKey key₁) (shortKey key₂)) : keyBlock key₁ = keyBlock key₂ := by
  obtain ⟨n, hn⟩ := h
  have hle := length_shortKey_le key₂
  rw [hn, List.length_append, List.length_replicate] at hle
  rw [keyBlock_eq, keyBlock_eq, hn, List.append_assoc, List.replicate_append_replicate,
    List.length_append, List.length_replicate]
  rw [show n + (blockLength - ((shortKey key₁).length + n)) = blockLength - (shortKey key₁).length
    by omega]

/-- Zero bytes at the end of a key are lost as long as they fit into the block. -/
lemma keyBlock_append_zeros {key : Bytes} {n : Nat} (h : key.length + n ≤ blockLength) :
    keyBlock (key ++ List.replicate n 0) = keyBlock key := by
  refine Eq.symm (keyBlock_eq_of_zeroExtends ⟨n, ?_⟩)
  rw [shortKey_of_le, shortKey_of_le]
  · exact Nat.le_trans (Nat.le_add_right _ n) h
  · simpa using h

/-- A key that is longer than a block can be replaced by its digest. -/
lemma keyBlock_digest {key : Bytes} (h : blockLength < key.length) :
    keyBlock (digest key) = keyBlock key := by
  have hshort : shortKey (digest key) = digest key :=
    shortKey_of_le (by rw [Sha256.Standard.length_digest]; decide)
  have hlong : shortKey key = digest key := if_pos h
  refine keyBlock_eq_of_zeroExtends ⟨0, ?_⟩
  rw [hshort, hlong, List.replicate_zero, List.append_nil]

lemma zeroExtends_of_keyBlock_eq {key₁ key₂ : Bytes}
    (hle : (shortKey key₁).length ≤ (shortKey key₂).length)
    (h : keyBlock key₁ = keyBlock key₂) : ZeroExtends (shortKey key₁) (shortKey key₂) := by
  have hle₂ := length_shortKey_le key₂
  -- the longer short key is where the zeros of the other block are cut off
  have hcut := congrArg (List.take (shortKey key₂).length) h
  rw [keyBlock_eq, keyBlock_eq, List.take_left, List.take_append,
    List.take_of_length_le hle, List.take_replicate] at hcut
  exact ⟨_, hcut.symm⟩

/-- **Keys share a block** exactly if their short keys differ in zero bytes at the end alone. -/
theorem keyBlock_eq_keyBlock_iff (key₁ key₂ : Bytes) :
    keyBlock key₁ = keyBlock key₂ ↔
      ZeroExtends (shortKey key₁) (shortKey key₂) ∨
        ZeroExtends (shortKey key₂) (shortKey key₁) := by
  constructor
  · intro h
    rcases Nat.le_total (shortKey key₁).length (shortKey key₂).length with hle | hle
    · exact Or.inl (zeroExtends_of_keyBlock_eq hle h)
    · exact Or.inr (zeroExtends_of_keyBlock_eq hle h.symm)
  · rintro (h | h)
    · exact keyBlock_eq_of_zeroExtends h
    · exact (keyBlock_eq_of_zeroExtends h).symm

/-- Nothing but itself extends to a string that holds no zero byte. -/
lemma eq_of_zeroExtends {a b : Bytes} (hb : 0 ∉ b) (h : ZeroExtends a b) : a = b := by
  obtain ⟨n, rfl⟩ := h
  cases n with
  | zero => simp
  | succ n => exact absurd (by simp [List.replicate_succ]) hb

/-- **Keys without zero bytes** that fit into a block are told apart by their blocks. -/
theorem eq_of_keyBlock_eq {key₁ key₂ : Bytes} (h₁ : key₁.length ≤ blockLength)
    (h₂ : key₂.length ≤ blockLength) (hz₁ : 0 ∉ key₁) (hz₂ : 0 ∉ key₂)
    (h : keyBlock key₁ = keyBlock key₂) : key₁ = key₂ := by
  rw [keyBlock_eq_keyBlock_iff, shortKey_of_le h₁, shortKey_of_le h₂] at h
  rcases h with h | h
  · exact eq_of_zeroExtends hz₂ h
  · exact (eq_of_zeroExtends hz₁ h).symm

end Standard

/-! ## The block that is hashed -/

lemma toList_keyBlock (key : Bytes) : (keyBlock key).toList = Standard.keyBlock key := by
  have hmaterial : (if key.length ≤ 64 then key else (Sha256.digest key).toList) =
      Standard.shortKey key := by
    by_cases h : key.length ≤ 64
    · rw [if_pos h, Standard.shortKey_of_le h]
    · have hlong : key.length > Standard.blockLength := Nat.lt_of_not_le h
      rw [if_neg h, Sha256.toList_digest, Standard.shortKey, if_pos hlong]
  refine List.ext_getElem (by simp [Standard.blockLength]) fun i h₁ h₂ => ?_
  have hle := Standard.length_shortKey_le key
  simp only [keyBlock, hmaterial, Vector.getElem_toList, Vector.getElem_ofFn]
  rw [List.getD_eq_getElem?_getD]
  simp only [Standard.keyBlock_eq]
  by_cases hi : i < (Standard.shortKey key).length
  · rw [List.getElem_append_left hi, List.getElem?_eq_getElem hi, Option.getD_some]
  · rw [List.getElem_append_right (by omega), List.getElem?_eq_none (by omega),
      List.getElem_replicate, Option.getD_none]

lemma toList_masked (mask : UInt8) (key : Bytes) :
    masked mask (keyBlock key) = Standard.maskedKey key mask := by
  rw [masked, Vector.toList_map, toList_keyBlock, Standard.maskedKey_eq_map]

/-! ## Tags -/

/-- **The tag of the program is the tag of the definition**, for every key and message. -/
theorem toList_tag (key message : Bytes) : (tag key message).toList = Standard.tag key message := by
  rw [tag, outerMessage, innerDigest, innerMessage, Sha256.toList_digest, Sha256.toList_digest,
    toList_masked, toList_masked]
  rfl

namespace Standard

open Sha256.Standard (digest Collision digest_eq_digest_iff)

/-- What the inner hash reads. -/
def innerMessage (key message : Bytes) : Bytes :=
  maskedKey key 0x36 ++ message

/-- What the outer hash reads. -/
def outerMessage (key message : Bytes) : Bytes :=
  maskedKey key 0x5c ++ digest (innerMessage key message)

lemma tag_eq (key message : Bytes) : tag key message = digest (outerMessage key message) := rfl

@[simp] lemma length_tag (key message : Bytes) : (tag key message).length = 32 :=
  Sha256.Standard.length_digest _

/-- A masked key block has one width, so it comes apart from what follows it. -/
lemma maskedKey_append_inj {key₁ key₂ : Bytes} {mask : UInt8} {rest₁ rest₂ : Bytes} :
    maskedKey key₁ mask ++ rest₁ = maskedKey key₂ mask ++ rest₂ ↔
      keyBlock key₁ = keyBlock key₂ ∧ rest₁ = rest₂ := by
  rw [← @maskedKey_inj key₁ key₂ mask]
  constructor
  · intro h
    exact List.append_inj h (by simp)
  · rintro ⟨hkey, hrest⟩
    rw [hkey, hrest]

lemma innerMessage_inj {key₁ key₂ message₁ message₂ : Bytes} :
    innerMessage key₁ message₁ = innerMessage key₂ message₂ ↔
      keyBlock key₁ = keyBlock key₂ ∧ message₁ = message₂ :=
  maskedKey_append_inj

lemma outerMessage_inj {key₁ key₂ message₁ message₂ : Bytes} :
    outerMessage key₁ message₁ = outerMessage key₂ message₂ ↔
      keyBlock key₁ = keyBlock key₂ ∧
        digest (innerMessage key₁ message₁) = digest (innerMessage key₂ message₂) :=
  maskedKey_append_inj

/-- Two tags are equal for one of three reasons, and each of them is enough: the same key block and
the same message, the same key block and a collision of the inner hash, or a collision of the outer
hash. -/
theorem tag_eq_tag_iff (key₁ key₂ message₁ message₂ : Bytes) :
    tag key₁ message₁ = tag key₂ message₂ ↔
      message₁ = message₂ ∧ keyBlock key₁ = keyBlock key₂ ∨
        keyBlock key₁ = keyBlock key₂ ∧
          Collision (innerMessage key₁ message₁) (innerMessage key₂ message₂) ∨
        Collision (outerMessage key₁ message₁) (outerMessage key₂ message₂) := by
  rw [tag_eq, tag_eq, digest_eq_digest_iff, outerMessage_inj, digest_eq_digest_iff,
    innerMessage_inj]
  tauto

/-- Under two key blocks for one message, equal tags are a collision of the outer hash: the blocks
stand in front of what it reads. -/
theorem tag_eq_tag_iff_of_message (key₁ key₂ message : Bytes) :
    tag key₁ message = tag key₂ message ↔
      keyBlock key₁ = keyBlock key₂ ∨
        Collision (outerMessage key₁ message) (outerMessage key₂ message) := by
  rw [tag_eq_tag_iff]
  constructor
  · rintro (⟨-, hkey⟩ | ⟨hkey, -⟩ | hcollision)
    · exact Or.inl hkey
    · exact Or.inl hkey
    · exact Or.inr hcollision
  · rintro (hkey | hcollision)
    · exact Or.inl ⟨rfl, hkey⟩
    · exact Or.inr (Or.inr hcollision)

end Standard

end Hmac

end BearerToken
