import BearerToken.Sha256
import BearerToken.Proofs.Sha256.Bits

/-!
# Words and the compression on bits

The functions on machine words agree with those on words of 32 bits, the constants that are written
out agree with the roots that they come from, and the bytes of a word are its numeral.  So
compressing a block of machine words is the step from one hash value to the next of the bit-level
definition: the two sides carry the same eight words (`State.toRegisters`) and read the same sixteen
(`Spells`), and what remains is an induction for the schedule and one for the rounds.

* `toBitVec_choose`, `toBitVec_majority` — the selections, whose formulas differ on the two sides.
* **`roundConstant_eq`**, **`initialWord_eq`** — the constants.
* `toBitVec_wordOfBytes`, `bitsOfBytes_bytesOfWord` — reading a word and writing one.
* `toBitVec_extend`, `State.toRegisters_rounds` — the words of the schedule, and the working words
  after each round.
* **`State.toRegisters_compress`** — the state after a block.
-/

namespace BearerToken.Sha256

/-! ## Rotations -/

lemma toBitVec_rotateRight (x n : UInt32) (h : 0 < n.toNat ∧ n.toNat < 32) :
    (rotateRight x n).toBitVec = x.toBitVec.rotateRight n.toNat := by
  have hright : (n.toBitVec % 32).toNat = n.toNat % 32 := by simp
  have hleft : ((32 - n).toBitVec % 32).toNat = 32 - n.toNat % 32 := by
    simp only [UInt32.toBitVec_sub, UInt32.toBitVec_ofNat, BitVec.ofNat_eq_ofNat, BitVec.toNat_umod,
      BitVec.toNat_sub, Nat.reducePow, UInt32.toNat_toBitVec, BitVec.toNat_ofNat, Nat.reduceMod,
      Nat.reduceDvd, Nat.mod_mod_of_dvd, Nat.add_mod_right]
    omega
  rw [BitVec.rotateRight_def, rotateRight, UInt32.toBitVec_or, UInt32.toBitVec_shiftRight,
    UInt32.toBitVec_shiftLeft, BitVec.ushiftRight_eq', BitVec.shiftLeft_eq', hright, hleft]

lemma toBitVec_bigSigma0 (x : UInt32) :
    (bigSigma0 x).toBitVec = Standard.bigSigma0 x.toBitVec := by
  rw [bigSigma0, UInt32.toBitVec_xor, UInt32.toBitVec_xor,
    toBitVec_rotateRight x 2 (by decide),
    toBitVec_rotateRight x 13 (by decide),
    toBitVec_rotateRight x 22 (by decide)]
  rfl

lemma toBitVec_bigSigma1 (x : UInt32) :
    (bigSigma1 x).toBitVec = Standard.bigSigma1 x.toBitVec := by
  rw [bigSigma1, UInt32.toBitVec_xor, UInt32.toBitVec_xor,
    toBitVec_rotateRight x 6 (by decide),
    toBitVec_rotateRight x 11 (by decide),
    toBitVec_rotateRight x 25 (by decide)]
  rfl

lemma toBitVec_smallSigma0 (x : UInt32) :
    (smallSigma0 x).toBitVec = Standard.smallSigma0 x.toBitVec := by
  rw [smallSigma0, UInt32.toBitVec_xor, UInt32.toBitVec_xor,
    toBitVec_rotateRight x 7 (by decide),
    toBitVec_rotateRight x 18 (by decide)]
  rfl

lemma toBitVec_smallSigma1 (x : UInt32) :
    (smallSigma1 x).toBitVec = Standard.smallSigma1 x.toBitVec := by
  rw [smallSigma1, UInt32.toBitVec_xor, UInt32.toBitVec_xor,
    toBitVec_rotateRight x 17 (by decide),
    toBitVec_rotateRight x 19 (by decide)]
  rfl

/-! ## Selections -/

/-- Flipping `z` where `x` has a one and `y` and `z` differ is choosing. -/
lemma toBitVec_choose (x y z : UInt32) :
    (choose x y z).toBitVec = Standard.ch x.toBitVec y.toBitVec z.toBitVec := by
  refine BitVec.eq_of_getLsbD_eq fun i hi => ?_
  simp only [choose, Standard.ch, UInt32.toBitVec_xor, UInt32.toBitVec_and, BitVec.getLsbD_xor,
    BitVec.getLsbD_and, BitVec.getLsbD_not, hi, decide_true, Bool.true_and]
  cases x.toBitVec.getLsbD i <;> cases y.toBitVec.getLsbD i <;> cases z.toBitVec.getLsbD i <;> rfl

/-- Two of three bits are ones where the first two are, or the third and one of them. -/
lemma toBitVec_majority (x y z : UInt32) :
    (majority x y z).toBitVec = Standard.maj x.toBitVec y.toBitVec z.toBitVec := by
  refine BitVec.eq_of_getLsbD_eq fun i _ => ?_
  simp only [majority, Standard.maj, UInt32.toBitVec_or, UInt32.toBitVec_and, BitVec.getLsbD_xor,
    BitVec.getLsbD_or, BitVec.getLsbD_and]
  cases x.toBitVec.getLsbD i <;> cases y.toBitVec.getLsbD i <;> cases z.toBitVec.getLsbD i <;> rfl

/-! ## Constants -/

/-- **The constants of the rounds** are the first bits of the cube roots of the primes. -/
theorem roundConstant_eq : ∀ t : Fin 64, Standard.roundConstant t = roundConstants[t].toBitVec := by
  decide +kernel

/-- **The words where every message begins** are the first bits of the square roots of the
primes. -/
theorem initialWord_eq : ∀ i : Fin 8, Standard.initialWord i =
    #v[State.initial.a, State.initial.b, State.initial.c, State.initial.d,
      State.initial.e, State.initial.f, State.initial.g, State.initial.h][i].toBitVec := by
  decide +kernel

/-! ## Words and bytes -/

/-- A byte in the place that a shifted number leaves free. -/
lemma shiftLeft_or_shiftLeft (hi n : Nat) (lo : UInt8) :
    hi <<< (n + 8) ||| lo.toNat <<< n = (256 * hi + lo.toNat) <<< n := by
  rw [Nat.add_comm, Nat.shiftLeft_add, ← Nat.shiftLeft_or_distrib,
    ← Nat.shiftLeft_add_eq_or_of_lt lo.toNat_lt, Nat.shiftLeft_eq hi, Nat.mul_comm]

lemma toNat_shiftLeft_byte (b : UInt8) (n : UInt32) (h : n.toNat ≤ 24) :
    (b.toUInt32 <<< n).toNat = b.toNat <<< n.toNat := by
  have hlt : b.toNat <<< n.toNat < 2 ^ 32 := by
    rw [Nat.shiftLeft_eq]
    calc b.toNat * 2 ^ n.toNat
        < 2 ^ 8 * 2 ^ n.toNat := Nat.mul_lt_mul_of_pos_right b.toNat_lt (Nat.two_pow_pos _)
      _ ≤ 2 ^ 8 * 2 ^ 24 := Nat.mul_le_mul_left _ (Nat.pow_le_pow_right (by decide) h)
  rw [UInt32.toNat_shiftLeft, UInt8.toNat_toUInt32, Nat.mod_eq_of_lt (by omega : n.toNat < 32),
    Nat.mod_eq_of_lt hlt]

lemma toNat_wordOfBytes (b₀ b₁ b₂ b₃ : UInt8) :
    (wordOfBytes b₀ b₁ b₂ b₃).toNat =
      256 * (256 * (256 * b₀.toNat + b₁.toNat) + b₂.toNat) + b₃.toNat := by
  rw [wordOfBytes, UInt32.toNat_or, UInt32.toNat_or, UInt32.toNat_or,
    toNat_shiftLeft_byte b₀ 24 (by decide), toNat_shiftLeft_byte b₁ 16 (by decide),
    toNat_shiftLeft_byte b₂ 8 (by decide), UInt8.toNat_toUInt32]
  calc b₀.toNat <<< 24 ||| b₁.toNat <<< 16 ||| b₂.toNat <<< 8 ||| b₃.toNat
      = (256 * b₀.toNat + b₁.toNat) <<< 16 ||| b₂.toNat <<< 8 ||| b₃.toNat := by
        rw [shiftLeft_or_shiftLeft b₀.toNat 16]
    _ = (256 * (256 * b₀.toNat + b₁.toNat) + b₂.toNat) <<< 8 ||| b₃.toNat := by
        rw [shiftLeft_or_shiftLeft _ 8]
    _ = 256 * (256 * (256 * b₀.toNat + b₁.toNat) + b₂.toNat) + b₃.toNat :=
        shiftLeft_or_shiftLeft _ 0 b₃

/-- The word of four bytes is the word that their bits spell. -/
lemma toBitVec_wordOfBytes (b₀ b₁ b₂ b₃ : UInt8) :
    (wordOfBytes b₀ b₁ b₂ b₃).toBitVec =
      BitVec.ofNat 32 (Standard.value (Standard.bitsOfBytes [b₀, b₁, b₂, b₃])) := by
  have hvalue : Standard.value (Standard.bitsOfBytes [b₀, b₁, b₂, b₃]) =
      (wordOfBytes b₀ b₁ b₂ b₃).toNat := by
    rw [Standard.value_bitsOfBytes, toNat_wordOfBytes]
    simp
  rw [hvalue, ← UInt32.toNat_toBitVec, BitVec.ofNat_toNat, BitVec.setWidth_eq]

/-- The bytes of a word are its numeral. -/
lemma bitsOfBytes_bytesOfWord (x : UInt32) :
    Standard.bitsOfBytes (bytesOfWord x).toList = Standard.numeral 32 x.toNat := by
  have hbytes : (bytesOfWord x).toList =
      (List.range 4).reverse.map fun i => (x.toNat >>> (8 * i)).toUInt8 := by
    simp [bytesOfWord, List.range_succ, ← UInt8.toNat_inj]
  rw [hbytes]
  exact Standard.bitsOfBytes_shiftRight 4 x.toNat

/-! ## Blocks -/

/-- A block of words and a string of bits that spells the same words. -/
def Spells (bits : Standard.Bits) (block : Vector UInt32 16) : Prop :=
  ∀ (t : Nat) (h : t < 16),
    block[t].toBitVec = BitVec.ofNat 32 (Standard.value (Standard.group 32 t bits))

variable {bits : Standard.Bits} {block : Vector UInt32 16}

/-! ## The schedule -/

lemma scheduleWord_of_lt (bits : Standard.Bits) {t : Nat} (h : t < 16) :
    Standard.scheduleWord bits t = BitVec.ofNat 32 (Standard.value (Standard.group 32 t bits)) := by
  rw [Standard.scheduleWord, if_pos h]

lemma scheduleWord_add (bits : Standard.Bits) (k : Nat) :
    Standard.scheduleWord bits (16 + k) =
      Standard.smallSigma1 (Standard.scheduleWord bits (14 + k)) +
        Standard.scheduleWord bits (9 + k) +
        Standard.smallSigma0 (Standard.scheduleWord bits (1 + k)) +
        Standard.scheduleWord bits k := by
  rw [Standard.scheduleWord, if_neg (by omega : ¬ 16 + k < 16),
    show 16 + k - 2 = 14 + k by omega, show 16 + k - 7 = 9 + k by omega,
    show 16 + k - 15 = 1 + k by omega, show 16 + k - 16 = k by omega]

/-- A schedule whose words are right is continued by the right word. -/
lemma toBitVec_nextWord {k : Nat} {w : Vector UInt32 (16 + k)}
    (hw : ∀ (i : Nat) (h : i < 16 + k), w[i].toBitVec = Standard.scheduleWord bits i) :
    (nextWord w).toBitVec = Standard.scheduleWord bits (16 + k) := by
  have h₂ := hw (14 + k) (by omega)
  have h₇ := hw (9 + k) (by omega)
  have h₁₅ := hw (1 + k) (by omega)
  have h₁₆ := hw k (by omega)
  rw [nextWord, scheduleWord_add, UInt32.toBitVec_add, UInt32.toBitVec_add,
    UInt32.toBitVec_add, toBitVec_smallSigma1, toBitVec_smallSigma0, h₂, h₇, h₁₅, h₁₆]

/-- **The schedule.**  The induction is on the number of words behind the block. -/
theorem toBitVec_extend (hspells : Spells bits block) :
    ∀ (k i : Nat) (h : i < 16 + k),
      (extend block k)[i].toBitVec = Standard.scheduleWord bits i
  | 0, i, h => by
      rw [scheduleWord_of_lt bits h]
      exact hspells i h
  | k + 1, i, h => by
      rcases Nat.lt_or_ge i (16 + k) with hold | hnew
      · rw [getElem_extend_of_lt block k i hold]
        exact toBitVec_extend hspells k i hold
      · obtain rfl : i = 16 + k := by omega
        rw [getElem_extend_last]
        exact toBitVec_nextWord (toBitVec_extend hspells k)

/-! ## The rounds -/

namespace State

/-- The eight words, as words of bits. -/
def toRegisters (s : State) : Standard.Registers :=
  ⟨s.a.toBitVec, s.b.toBitVec, s.c.toBitVec, s.d.toBitVec,
    s.e.toBitVec, s.f.toBitVec, s.g.toBitVec, s.h.toBitVec⟩

/-- The two sides go through the same working words, round by round. -/
theorem toRegisters_rounds (hspells : Spells bits block) (s : State) :
    ∀ (n : Nat) (h : n ≤ 64),
      (s.rounds (schedule block) n h).toRegisters = Standard.registers bits s.toRegisters n
  | 0, _ => rfl
  | n + 1, h => by
      have ih := toRegisters_rounds hspells s n (by omega)
      have hword : (schedule block)[n].toBitVec = Standard.scheduleWord bits n :=
        toBitVec_extend hspells 48 n (by omega)
      have hconstant : Standard.roundConstant n = roundConstants[n].toBitVec :=
        roundConstant_eq ⟨n, by omega⟩
      rw [rounds_succ, Standard.registers, ← ih, ← hword, hconstant]
      simp only [toRegisters, round, UInt32.toBitVec_add, toBitVec_bigSigma0, toBitVec_bigSigma1,
        toBitVec_choose, toBitVec_majority]

/-- **A block takes both sides to the same hash value.** -/
theorem toRegisters_compress (hspells : Spells bits block) (s : State) :
    (s.compress block).toRegisters = Standard.nextHashValue bits s.toRegisters := by
  have hrounds := toRegisters_rounds hspells s 64 (Nat.le_refl 64)
  rw [Standard.nextHashValue, ← hrounds]
  simp only [compress, add, toRegisters, UInt32.toBitVec_add]

/-- The hash value before the first block. -/
lemma toRegisters_initial (padded : Standard.Bits) :
    initial.toRegisters = Standard.hashValue padded 0 := by
  have h (i : Fin 8) := initialWord_eq i
  rw [Standard.hashValue, toRegisters, Standard.Registers.mk.injEq]
  exact ⟨(h 0).symm, (h 1).symm, (h 2).symm, (h 3).symm,
    (h 4).symm, (h 5).symm, (h 6).symm, (h 7).symm⟩

end State

end BearerToken.Sha256
