import BearerToken.Hex
import BearerToken.Sha256

/-!
# Tags and tokens

HMAC-SHA256 tags a message under a key.  The key is brought to one hash block; the block, masked in
two ways, opens two nested hashes, of which the inner one reads the message.  The token of a tenant
is the tag of the tenant's name under the secret that is shared with the service, in hexadecimal;
whoever holds the secret can recompute it, so nothing has to be stored.

Tags are computed by an engine, and the engine is not trusted: it may refuse, and it may report
another number of tag bytes than a tag has.  An engine is told the length of its key as a signed
number of 32 bits, so a key of `Engine.keyLimit` bytes or more is not handed over as it is.

* `Hmac.keyBlock` — the key as one block of 64 bytes; different keys may share a block.
* `Hmac.innerMessage`, `Hmac.outerMessage`, `Hmac.tag` — what the two hashes read, and the tag.
* `Reply` — what an engine answers; `Reply.hexTag` checks it and writes the tag in hexadecimal.
* `Engine` — given by its replies alone.  `hmacSha256` is the sound one; `refusing` and `reporting`
  misbehave.
* `Engine.hexTag`, `Token.generate` — the tag and the token that are obtained from an engine.
* `Token.accepts` — the check of the service: it computes the tag by its own means and compares.
-/

namespace BearerToken

/-! ## Keyed tags -/

namespace Hmac

open Sha256 (Digest digest)

/-- **The key as one block.**  Place by place: the byte of the key, or of the digest of a key that
is longer than a block, and zero past its end. -/
def keyBlock (key : Bytes) : Vector UInt8 64 :=
  let material := if key.length ≤ 64 then key else (digest key).toList
  Vector.ofFn fun i => material.getD i 0

/-- The mask of the key block in front of the message. -/
def innerPad : UInt8 := 0x36

/-- The mask of the key block in front of the inner digest. -/
def outerPad : UInt8 := 0x5c

/-- A block with every byte masked. -/
def masked (mask : UInt8) (block : Vector UInt8 64) : Bytes :=
  (block.map (· ^^^ mask)).toList

/-- What the inner hash reads: the masked key block and the message. -/
def innerMessage (key message : Bytes) : Bytes :=
  masked innerPad (keyBlock key) ++ message

/-- The digest of the inner message. -/
def innerDigest (key message : Bytes) : Digest :=
  digest (innerMessage key message)

/-- What the outer hash reads: the key block, masked in another way, and the inner digest. -/
def outerMessage (key message : Bytes) : Bytes :=
  masked outerPad (keyBlock key) ++ (innerDigest key message).toList

/-- **The tag of a message under a key.** -/
def tag (key message : Bytes) : Digest :=
  digest (outerMessage key message)

@[simp] theorem length_masked (mask : UInt8) (block : Vector UInt8 64) :
    (masked mask block).length = 64 := by
  simp [masked]

end Hmac

/-! ## Replies -/

/-- What an engine answers: the buffer that it filled, none if it refused, and the number of bytes
that it reports as the tag.  The buffer is larger than a tag. -/
structure Reply where
  buffer? : Option (Vector UInt8 64)
  length : Nat
  deriving DecidableEq

/-- Why no tag was obtained. -/
inductive TagError
  /-- The engine refused, or reported another length than that of a tag. -/
  | computationFailed
  deriving DecidableEq

/-- The wording of a failure. -/
def TagError.message : TagError → Bytes
  | computationFailed => Bytes.ofAscii "HMAC-SHA256 computation failed"

namespace Reply

/-- A reply that is taken for a tag: the engine did not refuse, and it reports the length of a
digest. -/
def IsTag (r : Reply) : Prop :=
  r.buffer?.isSome ∧ r.length = Sha256.digestLength

/-- **The tag of a reply in hexadecimal.**  Only a buffer that is reported to hold exactly a digest
is read, and no further than that. -/
def hexTag : Reply → Except TagError Bytes
  | { buffer? := some buffer, length } =>
      if h : length = Sha256.digestLength then
        .ok (Hex.encodeFirst buffer.toArray length (by simp [h, Sha256.digestLength]))
      else
        .error .computationFailed
  | { buffer? := none, .. } => .error .computationFailed

end Reply

/-! ## Engines -/

/-- **A tag engine**, by its reply for each key and message.  Of the key it is given the length that
it is told and the bytes that this length covers, of which there are none if it is negative. -/
structure Engine where
  compute : (key : Bytes) → (keyLength : Int32) → (message : Bytes) → Reply

namespace Engine

/-- From this many bytes on, two to the power of 31, the length of a key does not fit into the
number that an engine is told. -/
def keyLimit : Nat := 0x80000000

/-- The length of a key of `n` bytes as an engine is told it: modulo `2 ^ 32`, and negative where
the topmost bit is set. -/
def keyLength (n : Nat) : Int32 :=
  Int32.ofNat n

/-- What the engine answers when it is handed a key and a message. -/
def reply (e : Engine) (key message : Bytes) : Reply :=
  let told := keyLength key.length
  e.compute (key.take told.toNatClampNeg) told message

/-- **The sound engine**: the tag at the front of the buffer, and its true length.  It refuses a key
of negative length. -/
def hmacSha256 : Engine where
  compute key keyLength message :=
    if keyLength < 0 then
      { buffer? := none, length := 0 }
    else
      { buffer? := some (Hmac.tag key message ++ Vector.replicate 32 (0 : UInt8)), length := 32 }

/-- An engine that refuses every message. -/
def refusing : Engine where
  compute _ _ _ := { buffer? := none, length := 0 }

/-- The engine `e`, reporting `length` bytes whatever it computed. -/
def reporting (e : Engine) (length : Nat) : Engine where
  compute key keyLength message := { e.compute key keyLength message with length }

/-- **The tag of a message in hexadecimal**, from the reply of an engine. -/
def hexTag (e : Engine) (key message : Bytes) : Except TagError Bytes :=
  (e.reply key message).hexTag

/-- The same for a key that is packed.  The bytes that the engine is given are cut out before they
are listed, so that a key of any size can be handed over. -/
def hexTagPacked (e : Engine) (key : ByteArray) (message : Bytes) : Except TagError Bytes :=
  let told := keyLength key.size
  (e.compute (key.extract 0 told.toNatClampNeg).data.toList told message).hexTag

theorem hexTagPacked_eq (e : Engine) (key : ByteArray) (message : Bytes) :
    e.hexTagPacked key message = e.hexTag key.data.toList message := by
  simp [hexTagPacked, hexTag, reply]

end Engine

/-! ## Tokens -/

namespace Token

/-- The number of digits in a token: two for each byte of a digest. -/
def length : Nat := 2 * Sha256.digestLength

/-- **The token of a tenant.**  The secret is the key and the tenant is the message; both are any
bytes, and may be empty. -/
def generate (engine : Engine) (tenant secret : Bytes) : Except TagError Bytes :=
  engine.hexTag secret tenant

/-- The same for a secret that is packed. -/
def generatePacked (engine : Engine) (tenant : Bytes) (secret : ByteArray) :
    Except TagError Bytes :=
  engine.hexTagPacked secret tenant

theorem generatePacked_eq (engine : Engine) (tenant : Bytes) (secret : ByteArray) :
    generatePacked engine tenant secret = generate engine tenant secret.data.toList :=
  engine.hexTagPacked_eq secret tenant

/-- Whether a service that holds the secret accepts `bearer` as the token of a tenant. -/
def accepts (secret tenant bearer : Bytes) : Bool :=
  bearer == Hex.ofBytes (Hmac.tag secret tenant).toList

end Token

end BearerToken
