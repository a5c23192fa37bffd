import BearerToken.Bytes
import Mathlib.Algebra.Ring.Nat

/-!
# The definitions on paper

SHA-256 as it is stated on paper: a message is a string of *bits*, padding and parsing count bits,
the schedule and the working words are functions of the round number, and the constants are read off
the roots of the first primes.  And HMAC over it, as it is stated on paper: the key is lengthened
with zero bytes to the block length of the hash, and masked by combining it with a block of equal
bytes.  Nothing here is shared with `Sha256.digest` and `Hmac.tag`, which work on bytes and machine
words; these are the definitions to compare them with.

* `numeral`, `value` — a number in binary, and back.
* `pad` — the padded bit string.
* `scheduleWord`, `registers` — one block, by recursion on the round.
* `hashValue` — the value carried from block to block.
* `digest` — the digest of a byte string.
* `Hmac.Standard.keyBlock`, `Hmac.Standard.tag` — the key as one block, and the tag.
-/

namespace BearerToken.Sha256.Standard

/-- A string of bits. -/
abbrev Bits := List Bool

/-- A word of 32 bits. -/
abbrev Word := BitVec 32

/-! ## Bit strings -/

/-- The number `n` in binary on `width` bits, the most significant first. -/
def numeral (width n : Nat) : Bits :=
  (List.range width).map fun i => n.testBit (width - 1 - i)

/-- The number that a bit string spells, the most significant bit first. -/
def value (bits : Bits) : Nat :=
  bits.foldl (fun v b => 2 * v + b.toNat) 0

/-- The `i`-th group of `width` bits. -/
def group (width i : Nat) (bits : Bits) : Bits :=
  (bits.drop (width * i)).take width

/-- The bits of a byte string, each byte with its most significant bit first. -/
def bitsOfBytes (bytes : Bytes) : Bits :=
  bytes.flatMap fun b => numeral 8 b.toNat

/-- The bytes of a bit string, eight bits each. -/
def bytesOfBits (bits : Bits) : Bytes :=
  (List.range (bits.length / 8)).map fun i => UInt8.ofNat (value (group 8 i bits))

/-! ## Padding -/

/-- The least `k` such that `l` bits, a one and `k` zeros end 64 bits short of a block of 512.
One of any 512 consecutive numbers will do, so the search is bounded. -/
def zeroCount (l : Nat) : Nat :=
  ((List.range 512).find? fun k => (l + 1 + k) % 512 = 448).getD 0

/-- The message, a one, the zeros, and the message's length as a 64-bit number. -/
def pad (message : Bits) : Bits :=
  message ++ true :: (List.replicate (zeroCount message.length) false ++ numeral 64 message.length)

/-! ## Constants -/

/-- With `r ^ k ≤ n`, the greatest number that is reached from `r` by setting some of the lowest
`bits` bits and whose `k`-th power is at most `n`. -/
def rootFrom (k n : Nat) : (bits r : Nat) → Nat
  | 0, r => r
  | bits + 1, r => rootFrom k n bits (if (r + 2 ^ bits) ^ k ≤ n then r + 2 ^ bits else r)

/-- The first 32 bits after the binary point of the `k`-th root of `p`, for `p < 2 ^ (8 * k)`. -/
def fractionOfRoot (k p : Nat) : Word :=
  BitVec.ofNat 32 (rootFrom k (p * 2 ^ (32 * k)) 40 0)

/-- The primes below `n`, in order. -/
def primesBelow (n : Nat) : List Nat :=
  (List.range n).filter fun p => 2 ≤ p ∧ ∀ d ∈ List.range p, 2 ≤ d → p % d ≠ 0

/-- The constant of round `t < 64`, from the cube root of a prime.  The sixty-fourth prime is
311. -/
def roundConstant (t : Nat) : Word :=
  fractionOfRoot 3 ((primesBelow 312).getD t 0)

/-- Word `i < 8` of the initial hash value, from the square root of a prime.  The eighth prime is
19. -/
def initialWord (i : Nat) : Word :=
  fractionOfRoot 2 ((primesBelow 20).getD i 0)

/-! ## Functions on words -/

/-- Each bit of `x` chooses between the bits of `y` and `z`. -/
def ch (x y z : Word) : Word :=
  (x &&& y) ^^^ (~~~x &&& z)

/-- The majority of three bits, at every place. -/
def maj (x y z : Word) : Word :=
  (x &&& y) ^^^ (x &&& z) ^^^ (y &&& z)

/-- Mixes the first working variable. -/
def bigSigma0 (x : Word) : Word :=
  x.rotateRight 2 ^^^ x.rotateRight 13 ^^^ x.rotateRight 22

/-- Mixes the fifth working variable. -/
def bigSigma1 (x : Word) : Word :=
  x.rotateRight 6 ^^^ x.rotateRight 11 ^^^ x.rotateRight 25

/-- Mixes the schedule word fifteen places back. -/
def smallSigma0 (x : Word) : Word :=
  x.rotateRight 7 ^^^ x.rotateRight 18 ^^^ x >>> 3

/-- Mixes the schedule word two places back. -/
def smallSigma1 (x : Word) : Word :=
  x.rotateRight 17 ^^^ x.rotateRight 19 ^^^ x >>> 10

/-! ## One block -/

/-- Word `t` of the schedule of a block of 512 bits. -/
def scheduleWord (block : Bits) (t : Nat) : Word :=
  if t < 16 then
    BitVec.ofNat 32 (value (group 32 t block))
  else
    smallSigma1 (scheduleWord block (t - 2)) + scheduleWord block (t - 7) +
      smallSigma0 (scheduleWord block (t - 15)) + scheduleWord block (t - 16)
termination_by t

/-- Eight words: the working variables of a block, or a hash value. -/
structure Registers where
  (a b c d e f g h : Word)

/-- **The working variables after `t` rounds** on a block, from the hash value `start`. -/
def registers (block : Bits) (start : Registers) : (t : Nat) → Registers
  | 0 => start
  | t + 1 =>
      let v := registers block start t
      let t₁ := v.h + bigSigma1 v.e + ch v.e v.f v.g + roundConstant t + scheduleWord block t
      let t₂ := bigSigma0 v.a + maj v.a v.b v.c
      ⟨t₁ + t₂, v.a, v.b, v.c, v.d + t₁, v.e, v.f, v.g⟩

/-! ## A message -/

/-- The hash value that follows `start` after a block: the working variables after all sixty-four
rounds, added to it. -/
def nextHashValue (block : Bits) (start : Registers) : Registers :=
  let v := registers block start 64
  ⟨start.a + v.a, start.b + v.b, start.c + v.c, start.d + v.d,
    start.e + v.e, start.f + v.f, start.g + v.g, start.h + v.h⟩

/-- The hash value after the first `n` blocks of a padded message. -/
def hashValue (padded : Bits) : (n : Nat) → Registers
  | 0 =>
      ⟨initialWord 0, initialWord 1, initialWord 2, initialWord 3,
        initialWord 4, initialWord 5, initialWord 6, initialWord 7⟩
  | n + 1 => nextHashValue (group 512 n padded) (hashValue padded n)

/-- The digest of a bit string: the eight words of the last hash value, in order. -/
def digestBits (message : Bits) : Bits :=
  let padded := pad message
  let v := hashValue padded (padded.length / 512)
  [v.a, v.b, v.c, v.d, v.e, v.f, v.g, v.h].flatMap fun word => numeral 32 word.toNat

/-- **SHA-256 of a byte string**, by way of its bits. -/
def digest (message : Bytes) : Bytes :=
  bytesOfBits (digestBits (bitsOfBytes message))

end BearerToken.Sha256.Standard

namespace BearerToken.Hmac.Standard

open Sha256.Standard (digest)

/-- The number of bytes in a block of the hash. -/
def blockLength : Nat := 64

/-- The key as one block: a key that is longer than a block is hashed, and zero bytes are appended
to fill the block. -/
def keyBlock (key : Bytes) : Bytes :=
  let short := if key.length > blockLength then digest key else key
  short ++ List.replicate (blockLength - short.length) 0

/-- The key block combined with a block in which every byte is `byte`. -/
def maskedKey (key : Bytes) (byte : UInt8) : Bytes :=
  List.zipWith (· ^^^ ·) (keyBlock key) (List.replicate blockLength byte)

/-- **The tag of a message under a key.** -/
def tag (key message : Bytes) : Bytes :=
  digest (maskedKey key 0x5c ++ digest (maskedKey key 0x36 ++ message))

end BearerToken.Hmac.Standard
