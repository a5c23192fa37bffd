import BearerToken.Proofs.Bytes
import BearerToken.Proofs.Hex

/-!
# The front of a buffer

Of a buffer the writer takes up the first bytes, one after the other, and how many is up to the
caller: of the buffer that an engine fills it is the first half.  The bytes behind do not matter, be
there any or not, and the text can be put together from the texts of pieces.

* `encodeFirst_eq_encodeFirst_iff`, `take_ofBytes`, `encodeFirst_add` — the text of a front, of the
  whole buffer and of two pieces.
* `putReading_eq_mapM` — which look-ups the loop makes; `run_putReading_noting` for a buffer in
  which a look-up behind the end fails.
* **`encodeFirst_compositional`** — all of it, with the writer after each byte.
-/

namespace BearerToken.Hex

/-! ## Fronts and pieces -/

/-- The front is all that matters, and all of it does. -/
lemma encodeFirst_eq_encodeFirst_iff {buffer buffer' : Array UInt8} {len : Nat}
    (h : len ≤ buffer.size) (h' : len ≤ buffer'.size) :
    encodeFirst buffer len h = encodeFirst buffer' len h' ↔
      ∀ i < len, buffer[i]? = buffer'[i]? := by
  rw [encodeFirst_eq_ofBytes, encodeFirst_eq_ofBytes, ofBytes_inj, Bytes.take_eq_take_iff_getElem?]
  simp only [Array.getElem?_toList]

lemma take_ofBytes {bytes : Bytes} {n : Nat} (h : n ≤ bytes.length) :
    (ofBytes bytes).take (2 * n) = ofBytes (bytes.take n) := by
  have hsplit : ofBytes bytes = ofBytes (bytes.take n) ++ ofBytes (bytes.drop n) := by
    rw [← ofBytes_append, List.take_append_drop]
  rw [hsplit]
  exact List.take_left' (by rw [length_ofBytes, List.length_take_of_le h])

lemma le_size_drop {buffer : Array UInt8} {m n len : Nat} (hsplit : m + n = len)
    (h : len ≤ buffer.size) : n ≤ (buffer.drop m).size := by
  rw [Array.drop, Array.size_extract]
  omega

lemma toList_drop (buffer : Array UInt8) (m : Nat) :
    (buffer.drop m).toList = buffer.toList.drop m := by
  rw [Array.drop, Array.toList_extract, List.extract_eq_take_drop]
  exact List.take_of_length_le (by simp)

/-- The text of two pieces: the second one is written on its own, from its first byte on. -/
lemma encodeFirst_add {buffer : Array UInt8} {m n len : Nat} (hsplit : m + n = len)
    (h : len ≤ buffer.size) :
    encodeFirst buffer len h =
      encodeFirst buffer m (Nat.le_trans (Nat.le.intro hsplit) h) ++
        encodeFirst (buffer.drop m) n (le_size_drop hsplit h) := by
  rw [encodeFirst_eq_ofBytes, encodeFirst_eq_ofBytes, encodeFirst_eq_ofBytes, toList_drop,
    ← ofBytes_append, ← List.take_add, hsplit]

/-! ## Look-ups -/

section Reading

variable {M : Type → Type} [Monad M]

lemma putReading_succ (n : Nat) (read : (i : Nat) → i < n + 1 → M UInt8) :
    putReading (n + 1) read = do
      let w ← putReading n fun i hi => read i (Nat.lt_succ_of_lt hi)
      let b ← read n (Nat.lt_succ_self n)
      return putByte w b := by
  rw [putReading, Nat.fold_succ]
  rfl

/-- **Which look-ups the loop makes**: one at each index below `len`, in order, and no other.  What
comes of them is the writer behind the bytes that they gave. -/
theorem putReading_eq_mapM [LawfulMonad M] (read : Nat → M UInt8) :
    ∀ len : Nat,
      putReading len (fun i _ => read i) = writerAfter <$> (List.range len).mapM read
  | 0 => by simp [putReading, writerAfter]
  | n + 1 => by
      have ih := putReading_eq_mapM read n
      calc putReading (n + 1) (fun i _ => read i)
          = (do let bytes ← (List.range n).mapM read
                let b ← read n
                return putByte (writerAfter bytes) b) := by
            rw [putReading_succ, ih, bind_map_left]
        _ = (do let bytes ← (List.range n).mapM read
                let b ← read n
                return writerAfter (bytes ++ [b])) := by
            simp only [putByte_writerAfter]
        _ = writerAfter <$> (List.range (n + 1)).mapM read := by
            rw [List.range_succ, List.mapM_append]
            simp

end Reading

/-- The look-up in a buffer that fails behind its end, and notes down each index that it is asked
for. -/
def noting (buffer : Array UInt8) (i : Nat) : StateT (List Nat) Option UInt8 := do
  modify (· ++ [i])
  buffer[i]?

lemma run_noting {buffer : Array UInt8} {i : Nat} (h : i < buffer.size) (notes : List Nat) :
    (noting buffer i).run notes = some (buffer[i], notes ++ [i]) := by
  simp [noting, h]

/-- With these look-ups it is the loop of `putFirst`, and the notes are the indices of the front. -/
lemma run_putReading_noting (buffer : Array UInt8) :
    ∀ (len : Nat) (h : len ≤ buffer.size),
      (putReading len fun i _ => noting buffer i).run [] =
        some (putFirst buffer len h, List.range len)
  | 0, _ => rfl
  | n + 1, h => by
      have ih := run_putReading_noting buffer n (by omega)
      simp [putReading_succ, ih, run_noting h, putFirst_succ, List.range_succ]

/-! ## The loop -/

/-- **What the loop leaves behind, byte by byte.**  For every buffer and every number of its bytes:

after each byte the writer is the one behind the bytes so far, which holds two digits for each of
them and no others, is set to hexadecimal and zeros from the first byte on, and has no width left
over; the text depends on the front of the buffer, on all of it and on nothing behind; it begins the
text of the whole buffer; cut in two anywhere, it is the text of the first piece and the text of the
second, each on a writer of its own; and the indices that are looked up are those of the front, each
once and in order, both in a buffer where a look-up behind the end would fail and with look-ups of
any other kind. -/
theorem encodeFirst_compositional (buffer : Array UInt8) (len : Nat) (h : len ≤ buffer.size) :
    (∀ (i : Nat) (hi : i ≤ len),
      putFirst buffer i (Nat.le_trans hi h) = writerAfter (buffer.toList.take i) ∧
      (putFirst buffer i (Nat.le_trans hi h)).text.toList = ofBytes (buffer.toList.take i) ∧
      (putFirst buffer i (Nat.le_trans hi h)).text.size = 2 * i) ∧
    (∀ (buffer' : Array UInt8) (h' : len ≤ buffer'.size),
      encodeFirst buffer len h = encodeFirst buffer' len h' ↔
        ∀ i < len, buffer[i]? = buffer'[i]?) ∧
    encodeFirst buffer len h =
      (encodeFirst buffer buffer.size (Nat.le_refl _)).take (2 * len) ∧
    (∀ (m n : Nat) (hsplit : m + n = len),
      encodeFirst buffer len h =
        encodeFirst buffer m (Nat.le_trans (Nat.le.intro hsplit) h) ++
          encodeFirst (buffer.drop m) n (le_size_drop hsplit h)) ∧
    (putReading len fun i _ => noting buffer i).run [] =
      some (putFirst buffer len h, List.range len) ∧
    (∀ (M : Type → Type) [Monad M] [LawfulMonad M] (read : Nat → M UInt8),
      putReading len (fun i _ => read i) = writerAfter <$> (List.range len).mapM read) := by
  refine ⟨?_, fun buffer' h' => encodeFirst_eq_encodeFirst_iff h h', ?_,
    fun m n hsplit => encodeFirst_add hsplit h, run_putReading_noting buffer len h,
    fun M _ _ read => putReading_eq_mapM read len⟩
  · intro i hi
    have hi' : i ≤ buffer.toList.length := Nat.le_trans hi h
    have hwriter := putFirst_eq_writerAfter buffer i hi'
    have htext : (putFirst buffer i hi').text.toList = ofBytes (buffer.toList.take i) := by
      rw [hwriter, toList_text_writerAfter]
    refine ⟨hwriter, htext, ?_⟩
    rw [← Array.length_toList, htext, length_ofBytes, List.length_take_of_le hi']
  · have hwhole : buffer.toList.take buffer.size = buffer.toList := List.take_length
    rw [encodeFirst_eq_ofBytes, encodeFirst_eq_ofBytes, hwhole, take_ofBytes h]

/-- Two of three bytes, the same two with nothing behind them, each of the two on its own, and a
buffer in which the second look-up fails. -/
theorem encodeFirst_compositional_pieces :
    2 ≤ #[0x00, 0x0a, (0xff : UInt8)].size ∧
    (1 ≤ 2 ∧
      (putFirst #[0x00, 0x0a, 0xff] 1 (by decide)).text.toList = ofBytes [0x00] ∧
      (putFirst #[0x00, 0x0a, 0xff] 1 (by decide)).width = 0) ∧
    (2 ≤ #[0x00, (0x0a : UInt8)].size ∧
      encodeFirst #[0x00, 0x0a, 0xff] 2 (by decide) =
        encodeFirst #[0x00, 0x0a] 2 (by decide)) ∧
    (1 + 1 = 2 ∧
      encodeFirst #[0x00, 0x0a, 0xff] 2 (by decide) =
        encodeFirst #[0x00, 0x0a, 0xff] 1 (by decide) ++ encodeFirst #[0x0a, 0xff] 1 (by decide)) ∧
    (LawfulMonad (StateT (List Nat) Option) ∧
      putReading 2 (fun i _ => noting #[0x00] i) =
        writerAfter <$> (List.range 2).mapM (noting #[0x00])) := by
  obtain ⟨hloop, hfront, -, hsplit, -, hreads⟩ :=
    encodeFirst_compositional #[0x00, 0x0a, 0xff] 2 (by decide)
  obtain ⟨hwriter, htext, -⟩ := hloop 1 (by decide)
  have hfront := (hfront #[0x00, 0x0a] (by decide)).2 (by decide)
  exact ⟨by decide, ⟨by decide, htext, congrArg (·.width) hwriter⟩, ⟨by decide, hfront⟩,
    ⟨rfl, hsplit 1 1 rfl⟩, inferInstance, hreads (StateT (List Nat) Option) (noting #[0x00])⟩

end BearerToken.Hex
