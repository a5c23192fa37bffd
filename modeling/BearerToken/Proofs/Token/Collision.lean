import BearerToken.Proofs.Token
import Mathlib.Data.Fintype.BigOperators
import Mathlib.Data.Fintype.Pigeonhole

/-!
# When two tokens are equal

Tokens separate tenants and secrets as far as the hash does, and not further.  Every statement here
is exact for secrets that are shorter than `Engine.keyLimit`: equal tokens are traced back to equal
inputs of the tag or to a collision of SHA-256 that is named, and each of these makes the tokens
equal.  A longer secret does not come to the hash as it is (`generate_narrowed`).

* **`generate_eq_generate_iff`** — two tenants and two secrets.
* **`generate_secret_eq_iff`** — one tenant and two secrets.  Different secrets can have one token
  without a collision: zero bytes at the end of a short secret are lost (`generate_append_zeros`),
  and a long secret is as good as its digest (`generate_digest`).
* `exists_generate_eq` — collisions cannot be argued away either: there are more secrets than
  tokens.
-/

namespace BearerToken.Token

open Bytes (ofAscii)
open Hmac (ZeroExtends)
open Hmac.Standard (keyBlock shortKey innerMessage outerMessage)
open Sha256.Standard (Collision digest)

variable {engine : Engine}

lemma length_digest_lt_keyLimit (message : Bytes) : (digest message).length < Engine.keyLimit := by
  rw [Sha256.Standard.length_digest]
  decide

/-- The hexadecimal form keeps tags apart. -/
lemma generate_eq_iff_tag_eq (hsound : engine.IsSound) (tenant₁ tenant₂ : Bytes)
    {secret₁ secret₂ : Bytes} (h₁ : secret₁.length < Engine.keyLimit)
    (h₂ : secret₂.length < Engine.keyLimit) :
    generate engine tenant₁ secret₁ = generate engine tenant₂ secret₂ ↔
      Hmac.Standard.tag secret₁ tenant₁ = Hmac.Standard.tag secret₂ tenant₂ := by
  rw [generate_of_isSound hsound tenant₁ h₁, generate_of_isSound hsound tenant₂ h₂,
    Except.ok.injEq, Hex.ofBytes_inj]

/-- **Equal tokens come from equal inputs or from a collision.**  The inputs are the tenant and the
block of the secret; a collision is one of the inner hash, under one block, or one of the outer
hash.  In particular two tenants share a token under one secret, and a tenant and a secret that
change places keep theirs, only through a collision. -/
theorem generate_eq_generate_iff (hsound : engine.IsSound) (tenant₁ tenant₂ : Bytes)
    {secret₁ secret₂ : Bytes} (h₁ : secret₁.length < Engine.keyLimit)
    (h₂ : secret₂.length < Engine.keyLimit) :
    generate engine tenant₁ secret₁ = generate engine tenant₂ secret₂ ↔
      tenant₁ = tenant₂ ∧ keyBlock secret₁ = keyBlock secret₂ ∨
        keyBlock secret₁ = keyBlock secret₂ ∧
          Collision (innerMessage secret₁ tenant₁) (innerMessage secret₂ tenant₂) ∨
        Collision (outerMessage secret₁ tenant₁) (outerMessage secret₂ tenant₂) := by
  rw [generate_eq_iff_tag_eq hsound tenant₁ tenant₂ h₁ h₂]
  exact Hmac.Standard.tag_eq_tag_iff secret₁ secret₂ tenant₁ tenant₂

/-- A secret of one byte more than a block, and its digest. -/
theorem generate_eq_generate_iff_digest :
    Engine.hmacSha256.IsSound ∧ (List.replicate 65 0x73 : Bytes).length < Engine.keyLimit ∧
    (digest (List.replicate 65 0x73)).length < Engine.keyLimit ∧
    generate Engine.hmacSha256 (ofAscii "amba") (List.replicate 65 0x73) =
      generate Engine.hmacSha256 (ofAscii "amba") (digest (List.replicate 65 0x73)) := by
  have hlong : (List.replicate 65 0x73 : Bytes).length < Engine.keyLimit := by decide
  have hdigest := length_digest_lt_keyLimit (List.replicate 65 0x73)
  have hblocks := Hmac.Standard.keyBlock_digest
    (by decide : Hmac.Standard.blockLength < (List.replicate 65 0x73 : Bytes).length)
  exact ⟨Engine.hmacSha256_isSound, hlong, hdigest,
    (generate_eq_generate_iff Engine.hmacSha256_isSound _ _ hlong hdigest).2
      (Or.inl ⟨rfl, hblocks.symm⟩)⟩

/-- **The limit cannot be left out.**  A secret of that length shares its block with its digest, and
yet the two do not share a token: for the secret itself there is none. -/
theorem generate_keyLimit_ne :
    keyBlock (List.replicate Engine.keyLimit 0x73) =
        keyBlock (digest (List.replicate Engine.keyLimit 0x73)) ∧
      generate Engine.hmacSha256 (ofAscii "amba") (List.replicate Engine.keyLimit 0x73) ≠
        generate Engine.hmacSha256 (ofAscii "amba")
          (digest (List.replicate Engine.keyLimit 0x73)) := by
  -- the secret is known by its length alone, and no byte of it is looked at
  have hlength : (List.replicate Engine.keyLimit 0x73 : Bytes).length = Engine.keyLimit :=
    List.length_replicate
  generalize (List.replicate Engine.keyLimit 0x73 : Bytes) = secret at hlength
  have hdigest := length_digest_lt_keyLimit secret
  refine ⟨(Hmac.Standard.keyBlock_digest (by rw [hlength]; decide)).symm, fun htokens => ?_⟩
  rw [(generate_narrowed (ofAscii "amba") secret).2 (by rw [hlength]; decide),
    generate_of_isSound Engine.hmacSha256_isSound (ofAscii "amba") hdigest] at htokens
  cases htokens

/-! ## Secrets that share a token -/

lemma generate_congr_keyBlock (hsound : engine.IsSound) (tenant : Bytes) {secret₁ secret₂ : Bytes}
    (h₁ : secret₁.length < Engine.keyLimit) (h₂ : secret₂.length < Engine.keyLimit)
    (h : keyBlock secret₁ = keyBlock secret₂) :
    generate engine tenant secret₁ = generate engine tenant secret₂ := by
  rw [generate_eq_iff_tag_eq hsound tenant tenant h₁ h₂, Hmac.Standard.tag_eq_tag_iff_of_message]
  exact Or.inl h

/-- Zero bytes at the end of a secret are lost as long as they fit into the block. -/
theorem generate_append_zeros (hsound : engine.IsSound) (tenant secret : Bytes) {n : Nat}
    (h : secret.length + n ≤ 64) :
    generate engine tenant (secret ++ List.replicate n 0) = generate engine tenant secret := by
  have hlimit : 64 < Engine.keyLimit := by decide
  refine generate_congr_keyBlock hsound tenant ?_ (by omega)
    (Hmac.Standard.keyBlock_append_zeros h)
  rw [List.length_append, List.length_replicate]
  omega

/-- A secret that is longer than a block can be replaced by its digest. -/
theorem generate_digest (hsound : engine.IsSound) (tenant : Bytes) {secret : Bytes}
    (h : 64 < secret.length) (hlimit : secret.length < Engine.keyLimit) :
    generate engine tenant (digest secret) = generate engine tenant secret :=
  generate_congr_keyBlock hsound tenant (length_digest_lt_keyLimit secret) hlimit
    (Hmac.Standard.keyBlock_digest h)

/-- **When two secrets give a tenant one token**: when no more than zero bytes at the end separates
what enters their blocks, or when the outer hash collides. -/
theorem generate_secret_eq_iff (hsound : engine.IsSound) (tenant : Bytes)
    {secret₁ secret₂ : Bytes} (h₁ : secret₁.length < Engine.keyLimit)
    (h₂ : secret₂.length < Engine.keyLimit) :
    generate engine tenant secret₁ = generate engine tenant secret₂ ↔
      (ZeroExtends (shortKey secret₁) (shortKey secret₂) ∨
          ZeroExtends (shortKey secret₂) (shortKey secret₁)) ∨
        Collision (outerMessage secret₁ tenant) (outerMessage secret₂ tenant) := by
  rw [generate_eq_iff_tag_eq hsound tenant tenant h₁ h₂,
    Hmac.Standard.tag_eq_tag_iff_of_message, Hmac.Standard.keyBlock_eq_keyBlock_iff]

/-- The empty secret, and a block of zero bytes. -/
theorem generate_secret_eq_iff_zeros :
    Engine.hmacSha256.IsSound ∧ ([] : Bytes).length < Engine.keyLimit ∧
    (List.replicate 64 0 : Bytes).length < Engine.keyLimit ∧
    generate Engine.hmacSha256 (ofAscii "amba") [] =
      generate Engine.hmacSha256 (ofAscii "amba") (List.replicate 64 0) := by
  have hshort : shortKey (List.replicate 64 0) = List.replicate 64 0 :=
    Hmac.Standard.shortKey_of_le (by decide)
  have hextends : ZeroExtends (shortKey []) (shortKey (List.replicate 64 0)) := ⟨64, hshort⟩
  exact ⟨Engine.hmacSha256_isSound, by decide, by decide,
    (generate_secret_eq_iff Engine.hmacSha256_isSound (ofAscii "amba") (by decide) (by decide)).2
      (Or.inl (Or.inl hextends))⟩

/-- Different secrets, one token, and no collision. -/
theorem generate_amba_zero_byte :
    ofAscii "k" ≠ ofAscii "k" ++ [0] ∧
      generate Engine.hmacSha256 (ofAscii "amba") (ofAscii "k") =
        generate Engine.hmacSha256 (ofAscii "amba") (ofAscii "k" ++ [0]) := by
  refine ⟨by simp, ?_⟩
  exact (generate_append_zeros Engine.hmacSha256_isSound (ofAscii "amba") (ofAscii "k") (n := 1)
    (by decide)).symm

/-! ## Counting -/

/-- The secret of a whole block with the given bytes. -/
def blockSecret (bytes : Fin 64 → Fin 256) : Bytes :=
  List.ofFn fun i => UInt8.ofFin (bytes i)

/-- The bytes of the tag of a tenant under such a secret. -/
def blockTag (tenant : Bytes) (bytes : Fin 64 → Fin 256) (i : Fin 32) : Fin 256 :=
  (Hmac.tag (blockSecret bytes) tenant)[i].toFin

lemma length_blockSecret (bytes : Fin 64 → Fin 256) : (blockSecret bytes).length = 64 :=
  List.length_ofFn

lemma blockSecret_injective : Function.Injective blockSecret := by
  intro bytes₁ bytes₂ h
  refine funext fun i => ?_
  exact congrArg UInt8.toFin (congrFun (List.ofFn_injective h) i)

lemma tag_eq_of_blockTag_eq {tenant : Bytes} {bytes₁ bytes₂ : Fin 64 → Fin 256}
    (h : blockTag tenant bytes₁ = blockTag tenant bytes₂) :
    Hmac.Standard.tag (blockSecret bytes₁) tenant =
      Hmac.Standard.tag (blockSecret bytes₂) tenant := by
  rw [← Hmac.toList_tag, ← Hmac.toList_tag]
  refine congrArg Vector.toList (Vector.ext fun i hi => ?_)
  exact UInt8.toFin_inj.1 (congrFun h ⟨i, hi⟩)

/-- **There are more secrets than tokens.**  For every tenant, two different secrets of a whole
block have one token.  No zero byte is lost there, so the outer hash collides. -/
theorem exists_generate_eq (hsound : engine.IsSound) (tenant : Bytes) :
    ∃ secret₁ secret₂ : Bytes, secret₁.length = 64 ∧ secret₂.length = 64 ∧
      generate engine tenant secret₁ = generate engine tenant secret₂ ∧
      Collision (outerMessage secret₁ tenant) (outerMessage secret₂ tenant) := by
  obtain ⟨bytes₁, bytes₂, hne, hbytes⟩ :=
    Fintype.exists_ne_map_eq_of_card_lt (blockTag tenant) (by simp)
  have htag := tag_eq_of_blockTag_eq hbytes
  have hlimit (bytes : Fin 64 → Fin 256) : (blockSecret bytes).length < Engine.keyLimit := by
    rw [length_blockSecret]
    decide
  refine ⟨blockSecret bytes₁, blockSecret bytes₂, length_blockSecret bytes₁,
    length_blockSecret bytes₂, ?_, ?_⟩
  · exact (generate_eq_iff_tag_eq hsound tenant tenant (hlimit bytes₁) (hlimit bytes₂)).2 htag
  · rcases (Hmac.Standard.tag_eq_tag_iff_of_message _ _ _).1 htag with hblock | hcollision
    · rw [Hmac.Standard.keyBlock_of_length (length_blockSecret bytes₁),
        Hmac.Standard.keyBlock_of_length (length_blockSecret bytes₂)] at hblock
      exact absurd (blockSecret_injective hblock) hne
    · exact hcollision

end BearerToken.Token
