import BearerToken.Bytes

/-!
# Lowercase hexadecimal

Two digits for each byte, the high half first, from `0` to `9` and `a` to `f`.

* `putReading` — the loop that writes one number after the other to a `NumeralWriter`, over whatever
  gives it the bytes; `putFirst` is the loop over a buffer, where every look-up carries its bound.
* `encodeFirst` — the text that it leaves for the first bytes of a buffer.
* `encode` — a whole byte string.
* `ofBytes` — the same text by its rule alone: the digit of each nibble.
* `decode?` — reads it back, and refuses an odd length and any other byte.
-/

namespace BearerToken.Hex

/-! ## Writing -/

/-- The writer after one more byte: hexadecimal, and one zero in front of a single digit.  The width
is asked for anew each time, since a number uses it up. -/
def putByte (w : NumeralWriter) (b : UInt8) : NumeralWriter :=
  (((w.withRadix .hexadecimal).withWidth 2).withFill '0'.toUInt8).put b.toNat

/-- **The loop.**  The byte at each index below `len` is obtained by an action, which is given the
bound; it may look the byte up in a buffer, and may do anything else besides. -/
def putReading {M : Type → Type} [Monad M] (len : Nat) (read : (i : Nat) → i < len → M UInt8) :
    M NumeralWriter :=
  len.fold
    (fun i hi written => do
      let w ← written
      let b ← read i hi
      return putByte w b)
    (pure {})

/-- The writer after the first `len` bytes of a buffer. -/
def putFirst (buffer : Array UInt8) (len : Nat) (h : len ≤ buffer.size) : NumeralWriter :=
  Id.run (putReading len fun i hi => pure buffer[i])

@[simp] theorem putFirst_zero (buffer : Array UInt8) : putFirst buffer 0 (Nat.zero_le _) = {} := rfl

theorem putFirst_succ (buffer : Array UInt8) (n : Nat) (h : n + 1 ≤ buffer.size) :
    putFirst buffer (n + 1) h = putByte (putFirst buffer n (by omega)) buffer[n] := by
  simp [putFirst, putReading, Nat.fold_succ]

/-- **The first `len` bytes of a buffer in hexadecimal.** -/
def encodeFirst (buffer : Array UInt8) (len : Nat) (h : len ≤ buffer.size) : Bytes :=
  (putFirst buffer len h).text.toList

/-- A byte string in hexadecimal. -/
def encode (bytes : Bytes) : Bytes :=
  encodeFirst bytes.toArray bytes.length (by simp)

/-! ## The rule -/

/-- The high and the low half of a byte. -/
def halves (b : UInt8) : List (Fin 16) :=
  [⟨b.toNat / 16, by have := b.toNat_lt; omega⟩, ⟨b.toNat % 16, by omega⟩]

/-- The digit of a nibble. -/
def digit (n : Fin 16) : UInt8 :=
  if n < 10 then '0'.toUInt8 + n.val.toUInt8 else 'a'.toUInt8 + (n.val - 10).toUInt8

/-- **The hexadecimal form of a byte string**, by its rule: the digit of every nibble, in order. -/
def ofBytes (bytes : Bytes) : Bytes :=
  (bytes.flatMap halves).map digit

@[simp] theorem ofBytes_nil : ofBytes [] = [] := rfl

theorem ofBytes_append (a b : Bytes) : ofBytes (a ++ b) = ofBytes a ++ ofBytes b := by
  simp [ofBytes]

/-! ## Reading -/

/-- A hexadecimal digit in lower case. -/
def IsDigit (c : UInt8) : Prop :=
  '0'.toUInt8 ≤ c ∧ c ≤ '9'.toUInt8 ∨ 'a'.toUInt8 ≤ c ∧ c ≤ 'f'.toUInt8

instance : DecidablePred IsDigit := fun c => by
  unfold IsDigit
  infer_instance

/-- The value of a digit; no other byte has one. -/
def digitValue? (c : UInt8) : Option UInt8 :=
  if '0'.toUInt8 ≤ c ∧ c ≤ '9'.toUInt8 then some (c - '0'.toUInt8)
  else if 'a'.toUInt8 ≤ c ∧ c ≤ 'f'.toUInt8 then some (c - 'a'.toUInt8 + 10)
  else none

/-- **Reads a byte string back**: two digits for each byte, the high one first. -/
def decode? : Bytes → Option Bytes
  | [] => some []
  | [_] => none
  | hi :: lo :: rest => do
      let h ← digitValue? hi
      let l ← digitValue? lo
      let bytes ← decode? rest
      return (16 * h + l) :: bytes

end BearerToken.Hex
