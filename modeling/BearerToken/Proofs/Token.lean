import BearerToken.Proofs.Bytes
import BearerToken.Proofs.Hex
import BearerToken.Proofs.Hmac
import Mathlib.Logic.Basic

/-!
# From replies to tokens

An engine may reply anything, and what `Reply.hexTag` makes of it falls into two cases.  A reply
that is taken for a tag gives the digits of the front of its buffer (`Reply.Holds`); every other
reply is a failure (`Reply.IsFailure`), and there is one error for all of them.

An engine that is told the true length of a key and then replies with the tag is sound
(`Engine.IsSound`), whatever it leaves behind the tag in its buffer.  It is told the true length of
a key of less than `Engine.keyLimit` bytes, and then a token is what a service computes that knows
nothing but the definitions on paper.  From there on the length is told modulo `2 ^ 32`, and the key
loses its end or is refused.

* `Reply.hexTag_eq_ok_iff`, `Reply.hexTag_eq_error_iff` — what becomes of a reply.
* `Engine.IsSound.holds_reply_take` — what a sound engine replies, for keys of every length;
  `Engine.isFailure_reply_hmacSha256` — which of them the sound engine of the program refuses.
* **`Token.generate_narrowed`** — what becomes of a secret of any length.
* **`Token.generate_eq_standard`** — what a token is.
* **`Token.generate_fails_exactly`** — when a token is obtained from an engine that is not trusted,
  and what happens otherwise.
-/

namespace BearerToken

/-! ## Replies -/

namespace Reply

/-- A reply that is no tag: the engine refused, or it reports another length than that of a
digest. -/
def IsFailure (r : Reply) : Prop :=
  r.buffer? = none ∨ r.length ≠ Sha256.digestLength

/-- **A reply that is a certain tag**: it reports the length of a digest, and the tag is what stands
at the front of the buffer.  Anything may stand behind it. -/
def Holds (r : Reply) (tag : Bytes) : Prop :=
  ∃ buffer : Vector UInt8 64,
    r = { buffer? := some buffer, length := Sha256.digestLength } ∧
      buffer.toList.take Sha256.digestLength = tag

variable {r : Reply} {tag : Bytes}

lemma not_isTag_iff (r : Reply) : ¬ r.IsTag ↔ r.IsFailure := by
  rw [IsTag, IsFailure, not_and_or, Option.not_isSome_iff_eq_none]

lemma exists_holds_of_isTag (h : r.IsTag) : ∃ tag, r.Holds tag := by
  obtain ⟨buffer?, length⟩ := r
  obtain ⟨hbuffer, hlength⟩ := h
  obtain ⟨buffer, rfl⟩ := Option.isSome_iff_exists.1 hbuffer
  exact ⟨_, buffer, congrArg (Reply.mk (some buffer)) hlength, rfl⟩

lemma Holds.isTag (h : r.Holds tag) : r.IsTag := by
  obtain ⟨buffer, rfl, -⟩ := h
  exact ⟨rfl, rfl⟩

lemma Holds.length_eq (h : r.Holds tag) : tag.length = Sha256.digestLength := by
  obtain ⟨buffer, -, rfl⟩ := h
  simp [Sha256.digestLength]

lemma hexTag_of_isFailure (h : r.IsFailure) : r.hexTag = .error .computationFailed := by
  obtain ⟨_ | buffer, length⟩ := r
  · rfl
  · rcases h with h | h
    · cases h
    · exact dif_neg h

/-- Of a buffer that is reported to hold a digest, the front is written and nothing behind it. -/
lemma hexTag_of_holds (h : r.Holds tag) : r.hexTag = .ok (Hex.ofBytes tag) := by
  obtain ⟨buffer, rfl, rfl⟩ := h
  exact congrArg Except.ok (Hex.encodeFirst_eq_ofBytes _ _ _)

/-- **When a tag is obtained**, and what it is. -/
lemma hexTag_eq_ok_iff {token : Bytes} :
    r.hexTag = .ok token ↔ ∃ tag, r.Holds tag ∧ token = Hex.ofBytes tag := by
  constructor
  · intro h
    by_cases htag : r.IsTag
    · obtain ⟨tag, htag⟩ := exists_holds_of_isTag htag
      rw [hexTag_of_holds htag] at h
      exact ⟨tag, htag, (Except.ok.inj h).symm⟩
    · rw [hexTag_of_isFailure ((not_isTag_iff r).1 htag)] at h
      cases h
  · rintro ⟨tag, htag, rfl⟩
    exact hexTag_of_holds htag

lemma exists_hexTag_iff : (∃ token, r.hexTag = .ok token) ↔ r.IsTag := by
  constructor
  · rintro ⟨token, h⟩
    obtain ⟨tag, htag, -⟩ := hexTag_eq_ok_iff.1 h
    exact htag.isTag
  · intro h
    obtain ⟨tag, htag⟩ := exists_holds_of_isTag h
    exact ⟨_, hexTag_of_holds htag⟩

lemma hexTag_eq_error_iff {error : TagError} : r.hexTag = .error error ↔ ¬ r.IsTag := by
  constructor
  · intro h htag
    obtain ⟨token, htoken⟩ := exists_hexTag_iff.2 htag
    rw [h] at htoken
    cases htoken
  · intro htag
    cases error with
    | computationFailed => exact hexTag_of_isFailure ((not_isTag_iff r).1 htag)

lemma exists_ofBytes_of_hexTag {token : Bytes} (h : r.hexTag = .ok token) :
    ∃ bytes : Bytes, bytes.length = Sha256.digestLength ∧ token = Hex.ofBytes bytes := by
  obtain ⟨tag, htag, rfl⟩ := hexTag_eq_ok_iff.1 h
  exact ⟨tag, htag.length_eq, rfl⟩

/-- The front of the buffer is all that matters, and all of it does. -/
lemma hexTag_eq_hexTag_iff {r' : Reply} {buffer buffer' : Vector UInt8 64}
    (h : r = { buffer? := some buffer, length := Sha256.digestLength })
    (h' : r' = { buffer? := some buffer', length := Sha256.digestLength }) :
    r.hexTag = r'.hexTag ↔ ∀ i < Sha256.digestLength, buffer[i]? = buffer'[i]? := by
  rw [hexTag_of_holds ⟨buffer, h, rfl⟩, hexTag_of_holds ⟨buffer', h', rfl⟩, Except.ok.injEq,
    Hex.ofBytes_inj, Bytes.take_eq_take_iff_getElem?]
  simp only [Vector.getElem?_toList]

end Reply

/-! ## Engines -/

namespace Engine

/-- **An engine that is sound**: told the true length of a key, it replies with the tag. -/
def IsSound (e : Engine) : Prop :=
  ∀ (key message : Bytes) (keyLength : Int32), keyLength.toInt = key.length →
    (e.compute key keyLength message).Holds (Hmac.Standard.tag key message)

theorem hmacSha256_isSound : hmacSha256.IsSound := by
  intro key message keyLength hlength
  have hsign : ¬ keyLength < 0 := by
    rw [Int32.lt_iff_toInt_lt, hlength, Int32.toInt_zero]
    omega
  refine ⟨Hmac.tag key message ++ Vector.replicate 32 (0 : UInt8), if_neg hsign, ?_⟩
  rw [Vector.toList_append, ← Hmac.toList_tag]
  exact List.take_left' (by simp [Sha256.digestLength])

/-! ### The length of a key -/

/-- Up to the sign bit the length is told modulo `2 ^ 32`. -/
lemma toInt_keyLength {n : Nat} (h : n % 2 ^ 32 < keyLimit) :
    (keyLength n).toInt = (n % 2 ^ 32 : Nat) := by
  rw [keyLimit] at h
  rw [keyLength, Int32.toInt_ofNat', Int.bmod_def, Int32.size]
  omega

lemma keyLength_lt_zero {n : Nat} (h : keyLimit ≤ n % 2 ^ 32) : keyLength n < 0 := by
  rw [keyLimit] at h
  rw [Int32.lt_iff_toInt_lt, Int32.toInt_zero, keyLength, Int32.toInt_ofNat', Int.bmod_def,
    Int32.size]
  omega

variable {e : Engine} {key message : Bytes}

/-- **What a sound engine replies.**  The key loses its end where the length does not fit. -/
theorem IsSound.holds_reply_take (h : e.IsSound) (hkey : key.length % 2 ^ 32 < keyLimit)
    (message : Bytes) :
    (e.reply key message).Holds
      (Hmac.Standard.tag (key.take (key.length % 2 ^ 32)) message) := by
  have htold := toInt_keyLength hkey
  have hcovered : (keyLength key.length).toNatClampNeg = key.length % 2 ^ 32 := by
    rw [Int32.toNatClampNeg, htold, Int.toNat_natCast]
  rw [reply, hcovered]
  -- of the bytes that are covered the engine is told the true length
  refine h _ _ _ ?_
  rw [htold, List.length_take_of_le (Nat.mod_le _ _)]

lemma IsSound.holds_reply (h : e.IsSound) (hkey : key.length < keyLimit) (message : Bytes) :
    (e.reply key message).Holds (Hmac.Standard.tag key message) := by
  have hmod : key.length % 2 ^ 32 = key.length :=
    Nat.mod_eq_of_lt (Nat.lt_trans hkey (by decide))
  have htag := h.holds_reply_take (hmod.symm ▸ hkey) message
  rwa [hmod, List.take_length] at htag

/-- A key whose length is told with the sign bit set is refused. -/
lemma isFailure_reply_hmacSha256 (hkey : keyLimit ≤ key.length % 2 ^ 32) :
    (hmacSha256.reply key message).IsFailure := by
  have hrefused : hmacSha256.reply key message = { buffer? := none, length := 0 } :=
    if_pos (keyLength_lt_zero hkey)
  rw [hrefused]
  exact Or.inl rfl

/-! ### Lengths that are reported -/

lemma reply_reporting (e : Engine) (length : Nat) (key message : Bytes) :
    (e.reporting length).reply key message = { e.reply key message with length } := rfl

/-- To report the length that was reported anyway changes nothing. -/
lemma hexTag_reporting_self (h : (e.reply key message).length = Sha256.digestLength) :
    (e.reporting Sha256.digestLength).hexTag key message = e.hexTag key message := by
  have hreply : (e.reporting Sha256.digestLength).reply key message = e.reply key message := by
    rw [reply_reporting, ← h]
  rw [hexTag, hexTag, hreply]

/-- A length that is reported falsely is noticed, whatever was computed. -/
lemma hexTag_reporting_of_ne {length : Nat} (h : length ≠ Sha256.digestLength) :
    (e.reporting length).hexTag key message = .error .computationFailed :=
  Reply.hexTag_of_isFailure (Or.inr h)

end Engine

/-! ## Tokens -/

namespace Token

open Bytes (ofAscii)

variable {engine : Engine} {tenant secret : Bytes}

lemma wellFormed_of_generate {token : Bytes} (h : generate engine tenant secret = .ok token) :
    token.length = Token.length ∧ ∀ c ∈ token, Hex.IsDigit c := by
  obtain ⟨bytes, hbytes, rfl⟩ := Reply.exists_ofBytes_of_hexTag h
  refine ⟨?_, fun c hc => Hex.isDigit_of_mem_ofBytes hc⟩
  rw [Hex.length_ofBytes, hbytes]
  rfl

lemma generate_of_isSound (h : engine.IsSound) (tenant : Bytes)
    (hsecret : secret.length < Engine.keyLimit) :
    generate engine tenant secret = .ok (Hex.ofBytes (Hmac.Standard.tag secret tenant)) :=
  Reply.hexTag_of_holds (h.holds_reply hsecret tenant)

/-- **What becomes of a secret of any length.**  Its length is told modulo `2 ^ 32` and with a sign:
of a secret that is too long either the front alone counts, and there may be nothing in it, or the
secret is refused. -/
theorem generate_narrowed (tenant secret : Bytes) :
    (secret.length % 2 ^ 32 < Engine.keyLimit → ∀ engine : Engine, engine.IsSound →
      generate engine tenant secret =
        generate engine tenant (secret.take (secret.length % 2 ^ 32))) ∧
    (Engine.keyLimit ≤ secret.length % 2 ^ 32 →
      generate Engine.hmacSha256 tenant secret = .error .computationFailed) := by
  refine ⟨fun hlength engine hsound => ?_, fun hlength => ?_⟩
  · have hfront : (secret.take (secret.length % 2 ^ 32)).length < Engine.keyLimit :=
      Nat.lt_of_le_of_lt (List.length_take_le _ _) hlength
    rw [generate_of_isSound hsound tenant hfront]
    exact Reply.hexTag_of_holds (hsound.holds_reply_take hlength tenant)
  · exact Reply.hexTag_of_isFailure (Engine.isFailure_reply_hmacSha256 hlength)

lemma accepts_iff (secret tenant bearer : Bytes) :
    accepts secret tenant bearer ↔ bearer = Hex.ofBytes (Hmac.Standard.tag secret tenant) := by
  rw [accepts, beq_iff_eq, Hmac.toList_tag]

/-- **The token of a tenant is the tag of the tenant under the secret**, in hexadecimal: 64 digits
in lower case.  The tag is the one of the definition on bit strings.  The sound engine of the
program is one of those that give it; each of them gives it for tenants of every length and for
secrets that are shorter than `Engine.keyLimit`. -/
theorem generate_eq_standard :
    Engine.hmacSha256.IsSound ∧
    ∀ engine : Engine, engine.IsSound → ∀ tenant secret : Bytes,
      secret.length < Engine.keyLimit →
        generate engine tenant secret = engine.hexTag secret tenant ∧
        engine.hexTag secret tenant = .ok (Hex.ofBytes (Hmac.Standard.tag secret tenant)) ∧
        (Hex.ofBytes (Hmac.Standard.tag secret tenant)).length = Token.length ∧
        ∀ c ∈ Hex.ofBytes (Hmac.Standard.tag secret tenant), Hex.IsDigit c := by
  refine ⟨Engine.hmacSha256_isSound, fun engine hsound tenant secret hsecret => ?_⟩
  have htoken := generate_of_isSound hsound tenant hsecret
  obtain ⟨hlength, hdigits⟩ := wellFormed_of_generate htoken
  exact ⟨rfl, htoken, hlength, hdigits⟩

/-- The secret and the tenant of a known answer. -/
theorem generate_eq_standard_amba :
    Engine.hmacSha256.IsSound ∧ (ofAscii "my-secret-key").length < Engine.keyLimit ∧
    Engine.hmacSha256.hexTag (ofAscii "my-secret-key") (ofAscii "amba") =
      .ok (Hex.ofBytes (Hmac.Standard.tag (ofAscii "my-secret-key") (ofAscii "amba"))) ∧
    ∀ c ∈ Hex.ofBytes (Hmac.Standard.tag (ofAscii "my-secret-key") (ofAscii "amba")),
      Hex.IsDigit c := by
  obtain ⟨hsound, htoken⟩ := generate_eq_standard
  obtain ⟨-, htag, -, hdigits⟩ :=
    htoken Engine.hmacSha256 hsound (ofAscii "amba") (ofAscii "my-secret-key") (by decide)
  exact ⟨hsound, by decide, htag, hdigits⟩

example : Hex.ofBytes (Hmac.tag (ofAscii "my-secret-key") (ofAscii "amba")).toList =
    ofAscii "e1b4f9129edbaa8a30f5b42917d4ffa0f8d3b4b60b72bf8f35043d671502a976" := by
  decide +kernel

/-! ### Engines that are not trusted -/

/-- An engine that fills its buffer with the same bytes whatever it is asked for. -/
def constant (buffer : Vector UInt8 64) : Engine where
  compute _ _ _ := { buffer? := some buffer, length := 32 }

/-- **A token is obtained exactly if the engine replies with a tag.**  For every engine, every
tenant and every secret:

the token is the tag of the tenant under the secret; one is obtained exactly if the engine did not
refuse and reports the length of a digest, and it is then the hexadecimal form of the first 32 bytes
of the buffer; it has 64 digits in lower case; two buffers give one token exactly if they agree up
to there, so no later byte is seen; in every other case there is an error with the one message; and
to report 32 where that was the length makes no difference, while any other length that is reported
is an error. -/
theorem generate_fails_exactly (engine : Engine) (tenant secret : Bytes) :
    generate engine tenant secret = engine.hexTag secret tenant ∧
    ((∃ token, engine.hexTag secret tenant = .ok token) ↔
      (engine.reply secret tenant).buffer?.isSome ∧ (engine.reply secret tenant).length = 32) ∧
    (∀ token, engine.hexTag secret tenant = .ok token ↔
      ∃ buffer : Vector UInt8 64,
        engine.reply secret tenant = { buffer? := some buffer, length := 32 } ∧
        token = Hex.ofBytes (buffer.toList.take 32)) ∧
    (∀ token, engine.hexTag secret tenant = .ok token →
      token.length = Token.length ∧ Token.length = 64 ∧ ∀ c ∈ token, Hex.IsDigit c) ∧
    (∀ (engine' : Engine) (buffer buffer' : Vector UInt8 64),
      engine.reply secret tenant = { buffer? := some buffer, length := 32 } →
      engine'.reply secret tenant = { buffer? := some buffer', length := 32 } →
        (engine.hexTag secret tenant = engine'.hexTag secret tenant ↔
          ∀ i < 32, buffer[i]? = buffer'[i]?)) ∧
    (∀ error, engine.hexTag secret tenant = .error error ↔
      ¬ ((engine.reply secret tenant).buffer?.isSome ∧ (engine.reply secret tenant).length = 32) ∧
        error.message = ofAscii "HMAC-SHA256 computation failed") ∧
    ((engine.reply secret tenant).length = 32 →
      (engine.reporting 32).hexTag secret tenant = engine.hexTag secret tenant) ∧
    (∀ length, length ≠ 32 →
      (engine.reporting length).hexTag secret tenant = .error .computationFailed) := by
  refine ⟨rfl, Reply.exists_hexTag_iff, ?_, ?_, ?_, ?_,
    Engine.hexTag_reporting_self, fun length hlength => Engine.hexTag_reporting_of_ne hlength⟩
  · intro token
    constructor
    · intro htoken
      obtain ⟨_, ⟨buffer, hreply, rfl⟩, rfl⟩ := Reply.hexTag_eq_ok_iff.1 htoken
      exact ⟨buffer, hreply, rfl⟩
    · rintro ⟨buffer, hreply, rfl⟩
      exact Reply.hexTag_of_holds ⟨buffer, hreply, rfl⟩
  · intro token htoken
    obtain ⟨hlength, hdigits⟩ := wellFormed_of_generate htoken
    exact ⟨hlength, rfl, hdigits⟩
  · intro engine' buffer buffer' hreply hreply'
    exact Reply.hexTag_eq_hexTag_iff hreply hreply'
  · intro error
    have hmessage : error.message = ofAscii "HMAC-SHA256 computation failed" := by
      cases error with
      | computationFailed => rfl
    rw [and_iff_left hmessage]
    exact Reply.hexTag_eq_error_iff

/-- An engine that gives one buffer for every message, one with another byte behind the digest, and
one that reports a byte too few. -/
theorem generate_fails_exactly_constant :
    ((constant (Vector.replicate 64 0x0f)).hexTag [] [] =
        .ok (Hex.ofBytes (List.replicate 32 0x0f)) ∧
      (Hex.ofBytes (List.replicate 32 0x0f)).length = Token.length) ∧
    (constant (Vector.replicate 64 0x0f)).hexTag [] [] =
      (constant ((Vector.replicate 64 0x0f).set 32 0)).hexTag [] [] ∧
    ((constant (Vector.replicate 64 0x0f)).reply [] []).length = 32 ∧
      ((constant (Vector.replicate 64 0x0f)).reporting 32).hexTag [] [] =
        (constant (Vector.replicate 64 0x0f)).hexTag [] [] ∧
    31 ≠ 32 ∧ ((constant (Vector.replicate 64 0x0f)).reporting 31).hexTag [] [] =
      .error .computationFailed := by
  obtain ⟨-, -, hok, hform, hfront, -, hreporting, hfalse⟩ :=
    generate_fails_exactly (constant (Vector.replicate 64 0x0f)) [] []
  have htoken : (constant (Vector.replicate 64 0x0f)).hexTag [] [] =
      .ok (Hex.ofBytes (List.replicate 32 0x0f)) :=
    (hok _).2 ⟨_, rfl, rfl⟩
  have hsame := hfront (constant ((Vector.replicate 64 0x0f).set 32 0)) _ _ rfl rfl
  exact ⟨⟨htoken, (hform _ htoken).1⟩, hsame.2 (by decide), rfl, hreporting rfl, by decide,
    hfalse 31 (by decide)⟩

end Token

end BearerToken
