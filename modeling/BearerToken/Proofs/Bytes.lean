import BearerToken.Bytes
import Mathlib.Data.List.Basic
import Mathlib.Tactic.Lemma

/-!
# Splitting and writing byte strings

`Bytes.lines_unlines` needs lines without line feeds.  A text that holds other bytes as well is
split here where it is known to be split: behind what is not looked at, a part without the separator
is a piece of its own.  And what is written piece by piece under the settings of a stream is the
pieces themselves, unless a width is asked for: then the first piece is filled, and uses it up.

* `lines_append_lineFeed`, `lines_line_append` — the lines of a text in two parts.
* `count_unlines` — how many line feeds a text of lines has.
* `getLast?_splitOn_append_cons` — the last piece.
* `notMem_of_mem_splitOn` — no piece holds the separator.
* `take_eq_take_iff_getElem?` — when two byte strings have one front.
* `Format.written`, `Format.after` — the text of pieces that are written one after the other, and
  what they leave of the settings.
-/

namespace BearerToken.Bytes

/-- Whatever stands in front of a line feed, the lines behind it are lines of the text. -/
lemma lines_append_lineFeed (front rest : Bytes) :
    lines (front ++ lineFeed :: rest) = front.splitOn lineFeed ++ lines rest := by
  rw [lines, List.splitOn_append_cons_self, List.dropLast_append_of_ne_nil (List.splitOn_ne_nil _ _),
    lines]

lemma lines_line_append {line : Bytes} (h : lineFeed ∉ line) (rest : Bytes) :
    lines (line ++ lineFeed :: rest) = line :: lines rest := by
  rw [lines_append_lineFeed, List.splitOn_eq_singleton h, List.singleton_append]

/-- Every line brings one line feed, and there are no others if the lines hold none. -/
lemma count_unlines {ls : List Bytes} (h : ∀ line ∈ ls, lineFeed ∉ line) :
    (unlines ls).count lineFeed = ls.length := by
  induction ls with
  | nil => rfl
  | cons line ls ih =>
      obtain ⟨hline, hls⟩ := List.forall_mem_cons.1 h
      rw [unlines_cons, List.count_append, List.count_eq_zero_of_not_mem hline,
        List.count_cons_self, ih hls, Nat.zero_add, List.length_cons]

lemma getLast?_unlines_append (lines : List Bytes) (line : Bytes) :
    (unlines (lines ++ [line])).getLast? = some lineFeed := by
  rw [unlines, List.flatMap_append, List.flatMap_singleton, ← List.append_assoc]
  exact List.getLast?_concat

variable {c : UInt8}

lemma getLast?_splitOn_append_cons (front : Bytes) {last : Bytes} (h : c ∉ last) :
    ((front ++ c :: last).splitOn c).getLast? = some last := by
  rw [List.splitOn_append_cons_self, List.splitOn_eq_singleton h]
  exact List.getLast?_concat

lemma notMem_of_mem_splitOn {bytes piece : Bytes} (h : piece ∈ bytes.splitOn c) : c ∉ piece := by
  induction bytes generalizing piece with
  | nil =>
      rw [List.splitOn_nil, List.mem_singleton] at h
      rw [h]
      exact List.not_mem_nil
  | cons b bytes ih =>
      rw [List.splitOn_cons_eq_if_modifyHead] at h
      split_ifs at h with hb
      · -- the separator opens a new piece in front of the others
        rcases List.mem_cons.1 h with rfl | h
        · exact List.not_mem_nil
        · exact ih h
      · -- any other byte goes to the front of the first piece
        cases hsplit : bytes.splitOn c with
        | nil => exact absurd hsplit (List.splitOn_ne_nil c bytes)
        | cons first pieces =>
            rw [hsplit] at h ih
            rcases List.mem_cons.1 h with rfl | h
            · intro hc
              rcases List.mem_cons.1 hc with hcb | hc
              · exact hb (beq_iff_eq.2 hcb.symm)
              · exact ih List.mem_cons_self hc
            · exact ih (List.mem_cons_of_mem first h)

/-! ## Fronts -/

lemma take_eq_take_iff_getElem? {a b : Bytes} {n : Nat} :
    a.take n = b.take n ↔ ∀ i < n, a[i]? = b[i]? := by
  constructor
  · intro h i hi
    rw [← List.getElem?_take_of_lt hi, h, List.getElem?_take_of_lt hi]
  · intro h
    refine List.ext_getElem? fun i => ?_
    by_cases hi : i < n
    · rw [List.getElem?_take_of_lt hi, List.getElem?_take_of_lt hi, h i hi]
    · rw [List.getElem?_take_eq_none (Nat.le_of_not_lt hi),
        List.getElem?_take_eq_none (Nat.le_of_not_lt hi)]

end BearerToken.Bytes

/-! ## Pieces under settings -/

namespace BearerToken.Format

/-- **The text of pieces** that are written one after the other. -/
def written : Format → List Bytes → Bytes
  | _, [] => []
  | f, piece :: pieces => f.pad piece ++ written f.spent pieces

/-- What the pieces leave of the settings. -/
def after : Format → List Bytes → Format
  | f, [] => f
  | f, _ :: pieces => after f.spent pieces

variable {f : Format}

lemma spent_of_width (h : f.width = 0) : f.spent = f := by
  rw [spent, ← h]

lemma written_of_width (h : f.width = 0) : ∀ pieces : List Bytes, f.written pieces = pieces.flatten
  | [] => rfl
  | piece :: pieces => by
      have ih := written_of_width h pieces
      rw [written, spent_of_width h, ih, pad, h, Nat.zero_sub, List.replicate_zero, List.nil_append,
        List.flatten_cons]

lemma after_of_width (h : f.width = 0) : ∀ pieces : List Bytes, f.after pieces = f
  | [] => rfl
  | _ :: pieces => by
      rw [after, spent_of_width h]
      exact after_of_width h pieces

/-- No more than the first piece is filled. -/
lemma length_written_cons (f : Format) (piece : Bytes) (pieces : List Bytes) :
    (f.written (piece :: pieces)).length =
      f.width - piece.length + (piece :: pieces).flatten.length := by
  have hrest : f.spent.written pieces = pieces.flatten := written_of_width rfl pieces
  rw [written, hrest, pad, List.flatten_cons, List.length_append, List.length_append,
    List.length_append, List.length_replicate, Nat.add_assoc]

end BearerToken.Format
