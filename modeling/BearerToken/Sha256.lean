import BearerToken.Bytes

/-!
# SHA-256

The hash computes on 32-bit words: addition is modulo `2 ^ 32`, and bytes enter and leave a word
with the most significant byte first.  A message is padded to whole blocks of 64 bytes.  The hash
carries a state of eight words; a block of sixteen words is extended to a schedule of sixty-four,
sixty-four rounds stir a copy of the state with one schedule word each, and the stirred copy is
added to the state.  `Sha256.Standard` defines the same function on bit strings.

* `rotateRight` and the four sums built from it, `choose`, `majority` — the functions on words.
* `wordOfBytes`, `bytesOfWord` — a word and its four bytes.
* `pad` — the padded message; `length_pad_mod` says that it is whole blocks.
* `nextWord`, `extend`, `schedule` — the schedule; its size is in its type, so no look-up can miss.
* `State.round`, `State.compress` — one round, and the state after a block.
* `digest` — the blocks of the padded message one after the other, starting from `State.initial`.
-/

namespace BearerToken.Sha256

/-! ## Words -/

/-- The word turned right by `n` places, for `0 < n < 32`: the bits that fall out at the low end
come in again at the high end. -/
def rotateRight (x n : UInt32) : UInt32 :=
  x >>> n ||| x <<< (32 - n)

/-- The mixing of the first working word in a round. -/
def bigSigma0 (x : UInt32) : UInt32 :=
  rotateRight x 2 ^^^ rotateRight x 13 ^^^ rotateRight x 22

/-- The mixing of the fifth working word in a round. -/
def bigSigma1 (x : UInt32) : UInt32 :=
  rotateRight x 6 ^^^ rotateRight x 11 ^^^ rotateRight x 25

/-- The mixing of the schedule word fifteen places back. -/
def smallSigma0 (x : UInt32) : UInt32 :=
  rotateRight x 7 ^^^ rotateRight x 18 ^^^ x >>> 3

/-- The mixing of the schedule word two places back. -/
def smallSigma1 (x : UInt32) : UInt32 :=
  rotateRight x 17 ^^^ rotateRight x 19 ^^^ x >>> 10

/-- Bit by bit, `y` where `x` has a one and `z` where it has a zero.  Flipping `z` where `x` has a
one and `y` and `z` differ is the same in three operations. -/
def choose (x y z : UInt32) : UInt32 :=
  z ^^^ (x &&& (y ^^^ z))

/-- Bit by bit, the value that at least two of the three words have. -/
def majority (x y z : UInt32) : UInt32 :=
  (x &&& y) ||| (z &&& (x ||| y))

/-! ## Words and bytes -/

/-- The word of four bytes, the most significant first. -/
def wordOfBytes (b₀ b₁ b₂ b₃ : UInt8) : UInt32 :=
  b₀.toUInt32 <<< 24 ||| b₁.toUInt32 <<< 16 ||| b₂.toUInt32 <<< 8 ||| b₃.toUInt32

/-- The four bytes of a word, the most significant first. -/
def bytesOfWord (x : UInt32) : Vector UInt8 4 :=
  #v[(x >>> 24).toUInt8, (x >>> 16).toUInt8, (x >>> 8).toUInt8, x.toUInt8]

/-! ## Padding -/

/-- The number of bytes in a block. -/
def blockLength : Nat := 64

/-- The number of zero bytes between the byte `0x80` and the length field of a message of `n`
bytes: the least number that fills the last block. -/
def paddingZeros (n : Nat) : Nat :=
  (119 - n % 64) % 64

/-- The length in bits of a message of `n` bytes, as a 64-bit number with the most significant byte
first.  A length of `2 ^ 64` bits or more would not fit; it is taken modulo that. -/
def lengthField (n : Nat) : Bytes :=
  [56, 48, 40, 32, 24, 16, 8, 0].map fun shift => ((8 * n) >>> shift).toUInt8

/-- **The padded message.** -/
def pad (message : Bytes) : Bytes :=
  message ++ 0x80 :: (List.replicate (paddingZeros message.length) 0 ++ lengthField message.length)

@[simp] theorem length_lengthField (n : Nat) : (lengthField n).length = 8 := rfl

theorem length_pad (message : Bytes) :
    (pad message).length = message.length + paddingZeros message.length + 9 := by
  simp [pad]
  omega

/-- The padded message is whole blocks. -/
theorem length_pad_mod (message : Bytes) : (pad message).length % blockLength = 0 := by
  rw [length_pad, paddingZeros, blockLength]
  omega

/-! ## The state -/

/-- The eight words that are carried from block to block. -/
structure State where
  (a b c d e f g h : UInt32)
  deriving DecidableEq

namespace State

/-- **Where every message begins**: the first 32 bits after the binary point of the square roots of
the first eight primes. -/
def initial : State :=
  { a := 0x6a09e667, b := 0xbb67ae85, c := 0x3c6ef372, d := 0xa54ff53a,
    e := 0x510e527f, f := 0x9b05688c, g := 0x1f83d9ab, h := 0x5be0cd19 }

/-- Two states added word by word. -/
def add (s t : State) : State :=
  { a := s.a + t.a, b := s.b + t.b, c := s.c + t.c, d := s.d + t.d,
    e := s.e + t.e, f := s.f + t.f, g := s.g + t.g, h := s.h + t.h }

/-- The eight words as bytes, in order. -/
def toBytes (s : State) : Vector UInt8 32 :=
  #v[s.a, s.b, s.c, s.d, s.e, s.f, s.g, s.h].flatMap bytesOfWord

end State

/-! ## The schedule -/

/-- The word that follows a schedule `w`: it adds up the words that lie two, seven, fifteen and
sixteen places back. -/
def nextWord {k : Nat} (w : Vector UInt32 (16 + k)) : UInt32 :=
  smallSigma1 w[14 + k] + w[9 + k] + smallSigma0 w[1 + k] + w[k]

/-- **The first `16 + k` words of the schedule.**  The first sixteen are the block. -/
def extend (block : Vector UInt32 16) : (k : Nat) → Vector UInt32 (16 + k)
  | 0 => block
  | k + 1 =>
      let w := extend block k
      w.push (nextWord w)

theorem getElem_extend_of_lt (block : Vector UInt32 16) (k i : Nat) (h : i < 16 + k) :
    (extend block (k + 1))[i] = (extend block k)[i] := by
  simp [extend, Vector.getElem_push_lt, h]

theorem getElem_extend_last (block : Vector UInt32 16) (k : Nat) :
    (extend block (k + 1))[16 + k] = nextWord (extend block k) := by
  simp [extend]

/-- The sixty-four words that the rounds take up. -/
def schedule (block : Vector UInt32 16) : Vector UInt32 64 :=
  extend block 48

/-! ## The rounds -/

/-- The constant of each round: the first 32 bits after the binary point of the cube roots of the
first sixty-four primes. -/
def roundConstants : Vector UInt32 64 :=
  #v[
    0x428a2f98, 0x71374491, 0xb5c0fbcf, 0xe9b5dba5, 0x3956c25b, 0x59f111f1,
    0x923f82a4, 0xab1c5ed5, 0xd807aa98, 0x12835b01, 0x243185be, 0x550c7dc3,
    0x72be5d74, 0x80deb1fe, 0x9bdc06a7, 0xc19bf174, 0xe49b69c1, 0xefbe4786,
    0x0fc19dc6, 0x240ca1cc, 0x2de92c6f, 0x4a7484aa, 0x5cb0a9dc, 0x76f988da,
    0x983e5152, 0xa831c66d, 0xb00327c8, 0xbf597fc7, 0xc6e00bf3, 0xd5a79147,
    0x06ca6351, 0x14292967, 0x27b70a85, 0x2e1b2138, 0x4d2c6dfc, 0x53380d13,
    0x650a7354, 0x766a0abb, 0x81c2c92e, 0x92722c85, 0xa2bfe8a1, 0xa81a664b,
    0xc24b8b70, 0xc76c51a3, 0xd192e819, 0xd6990624, 0xf40e3585, 0x106aa070,
    0x19a4c116, 0x1e376c08, 0x2748774c, 0x34b0bcb5, 0x391c0cb3, 0x4ed8aa4a,
    0x5b9cca4f, 0x682e6ff3, 0x748f82ee, 0x78a5636f, 0x84c87814, 0x8cc70208,
    0x90befffa, 0xa4506ceb, 0xbef9a3f7, 0xc67178f2]

namespace State

/-- **One round**, with its constant and its schedule word. -/
def round (s : State) (constant word : UInt32) : State :=
  let t₁ := s.h + bigSigma1 s.e + choose s.e s.f s.g + constant + word
  let t₂ := bigSigma0 s.a + majority s.a s.b s.c
  { a := t₁ + t₂, b := s.a, c := s.b, d := s.c, e := s.d + t₁, f := s.e, g := s.f, h := s.g }

/-- The state after the first `n` rounds on the schedule `w`. -/
def rounds (s : State) (w : Vector UInt32 64) (n : Nat) (h : n ≤ 64) : State :=
  n.fold (fun t _ s => s.round roundConstants[t] w[t]) s

@[simp] theorem rounds_zero (s : State) (w : Vector UInt32 64) :
    s.rounds w 0 (Nat.zero_le 64) = s := rfl

theorem rounds_succ (s : State) (w : Vector UInt32 64) (n : Nat) (h : n + 1 ≤ 64) :
    s.rounds w (n + 1) h = (s.rounds w n (by omega)).round roundConstants[n] w[n] := by
  simp [rounds, Nat.fold_succ]

/-- **The state after a block.** -/
def compress (s : State) (block : Vector UInt32 16) : State :=
  s.add (s.rounds (schedule block) 64 (Nat.le_refl 64))

end State

/-! ## A message -/

/-- The number of bytes in a digest. -/
def digestLength : Nat := 32

/-- A digest: thirty-two bytes. -/
abbrev Digest := Vector UInt8 32

/-- The `i`-th block of a padded message, as sixteen words. -/
def blockAt (padded : Array UInt8) (i : Nat) (h : i < padded.size / 64) : Vector UInt32 16 :=
  Vector.ofFn fun t =>
    wordOfBytes padded[64 * i + 4 * t] padded[64 * i + 4 * t + 1]
      padded[64 * i + 4 * t + 2] padded[64 * i + 4 * t + 3]

/-- The state after the first `n` blocks of a padded message. -/
def absorb (padded : Array UInt8) (n : Nat) (h : n ≤ padded.size / 64) : State :=
  n.fold (fun i _ s => s.compress (blockAt padded i (by omega))) State.initial

@[simp] theorem absorb_zero (padded : Array UInt8) :
    absorb padded 0 (Nat.zero_le _) = State.initial := rfl

theorem absorb_succ (padded : Array UInt8) (n : Nat) (h : n + 1 ≤ padded.size / 64) :
    absorb padded (n + 1) h = (absorb padded n (by omega)).compress (blockAt padded n h) := by
  simp [absorb, Nat.fold_succ]

/-- **SHA-256.** -/
def digest (message : Bytes) : Digest :=
  let padded := (pad message).toArray
  (absorb padded (padded.size / 64) (Nat.le_refl _)).toBytes

end BearerToken.Sha256
