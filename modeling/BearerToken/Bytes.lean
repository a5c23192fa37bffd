/-!
# Byte strings and how they are written

Tenants, secrets, tokens and every text that is written are strings of raw bytes: no character
encoding is assumed and none is checked, so a tenant may hold zero bytes, line feeds or bytes that
are no UTF-8.  Whatever is written is written piece by piece, under settings that belong to the
stream and not to the piece.  The radix and the fill byte stay as they were set until they are set
again; the width holds for one piece only.

* `Bytes` — a byte string, as a list, which is the form that statements are made about.
* `Bytes.ofAscii` — the fixed parts of a text, written as a string literal.
* `Bytes.unlines`, `Bytes.lines` — lines put together, each closed by a line feed, and taken apart;
  `Bytes.pieces` for lines that come in pieces.
* `Format` — the settings; `pad` is a piece under them, `spent` what a piece leaves of them.
* `NumeralWriter` — a text of its own and its settings, to which numbers are written.
-/

namespace BearerToken

/-- A string of raw bytes. -/
abbrev Bytes := List UInt8

namespace Bytes

/-- The bytes of a text of ASCII characters, one for each character.  The fixed parts of the texts
that are written are ASCII alone; a character above `0xff` would lose its high bits. -/
def ofAscii (text : String) : Bytes :=
  text.toList.map Char.toUInt8

/-! ## Lines -/

/-- The byte that closes a line. -/
def lineFeed : UInt8 := 0x0a

/-- **Lines to text.**  Every line is closed by a line feed, the last one too. -/
def unlines (lines : List Bytes) : Bytes :=
  lines.flatMap (· ++ [lineFeed])

/-- **Text to lines.**  What stands behind the last line feed is not a line, be it empty or not. -/
def lines (text : Bytes) : List Bytes :=
  (text.splitOn lineFeed).dropLast

/-- The pieces of lines that come in pieces, with the line feeds as pieces of their own. -/
def pieces (parts : List (List Bytes)) : List Bytes :=
  parts.flatMap (· ++ [[lineFeed]])

@[simp] theorem unlines_nil : unlines [] = [] := rfl

@[simp] theorem unlines_cons (line : Bytes) (lines : List Bytes) :
    unlines (line :: lines) = line ++ lineFeed :: unlines lines := by
  simp [unlines]

@[simp] theorem lines_nil : lines [] = [] := rfl

/-- The lines of a text are those that were put into it, unless one of them held a line feed. -/
theorem lines_unlines {ls : List Bytes} (h : ∀ line ∈ ls, lineFeed ∉ line) :
    lines (unlines ls) = ls := by
  suffices hs : (unlines ls).splitOn lineFeed = ls ++ [[]] by simp [lines, hs]
  induction ls with
  | nil => rfl
  | cons line ls ih =>
      have hline : line.splitOn lineFeed = [line] :=
        List.splitOnP_eq_singleton fun c hc =>
          beq_eq_false_iff_ne.2 fun hc' => h line (by simp) (hc' ▸ hc)
      rw [unlines_cons, List.splitOn, List.splitOnP_append_cons _ _ (by simp)]
      rw [List.splitOn] at hline ih
      rw [hline, ih fun l hl => h l (by simp [hl])]
      rfl

/-- Piece by piece the lines give the text that they give as a whole. -/
theorem flatten_pieces (parts : List (List Bytes)) :
    (pieces parts).flatten = unlines (parts.map List.flatten) := by
  induction parts with
  | nil => rfl
  | cons line parts ih =>
      rw [List.map_cons, unlines_cons, ← ih]
      simp [pieces]

end Bytes

/-! ## Settings -/

/-- The radix in which a number is written. -/
inductive Radix
  | decimal
  | hexadecimal
  deriving DecidableEq

namespace Radix

/-- The number of digits of a radix. -/
def base : Radix → Nat
  | decimal => 10
  | hexadecimal => 16

/-- The digits of a number, in lower case and with no leading zero; zero is one digit. -/
def digits (radix : Radix) (n : Nat) : Bytes :=
  (Nat.toDigits radix.base n).map Char.toUInt8

end Radix

/-- **The settings of a stream.**  Fresh ones write numbers in decimal, fill with blanks and ask for
no width. -/
structure Format where
  radix : Radix := .decimal
  fill : UInt8 := ' '.toUInt8
  width : Nat := 0
  deriving DecidableEq

namespace Format

/-- **A piece as it is written**: filled on the left up to the width.  A piece that is longer than
the width is written whole. -/
def pad (f : Format) (piece : Bytes) : Bytes :=
  List.replicate (f.width - piece.length) f.fill ++ piece

/-- What a piece leaves of the settings: all of them but the width. -/
def spent (f : Format) : Format :=
  { f with width := 0 }

end Format

/-! ## Numbers -/

/-- The text written so far, and the settings for the next number. -/
structure NumeralWriter extends Format where
  text : Array UInt8 := #[]
  deriving DecidableEq

namespace NumeralWriter

/-- Numbers from here on are written in `radix`. -/
def withRadix (w : NumeralWriter) (radix : Radix) : NumeralWriter :=
  { w with radix }

/-- Numbers from here on are filled with `fill`. -/
def withFill (w : NumeralWriter) (fill : UInt8) : NumeralWriter :=
  { w with fill }

/-- The next number is filled up to `width` bytes. -/
def withWidth (w : NumeralWriter) (width : Nat) : NumeralWriter :=
  { w with width }

/-- **Writes a number** under the settings, which uses up the width. -/
def put (w : NumeralWriter) (n : Nat) : NumeralWriter where
  toFormat := w.spent
  text := w.text ++ w.pad (w.radix.digits n)

end NumeralWriter

end BearerToken
