import BearerToken.Proofs.CommandLine.Outcome
import Mathlib.Data.List.Forall2
import Mathlib.Data.List.TakeWhile

/-!
# Arguments from the system

The system hands an argument over up to its first zero byte.  `IsCut` says so without computing
anything, and the command on arguments from the system is the command on cut arguments.  The cut
takes bytes from an argument but never takes an argument away, so it does not change their number.

* `forall₂_isCut_iff` — every list of arguments has one list of cuts.
* `zero_notMem_outcome` — arguments without zero bytes lead to texts without zero bytes, whatever
  the engine does.
* **`invoke_refines_execute`** — the command on arguments from the system.
-/

namespace BearerToken.CommandLine

open Bytes (ofAscii)

/-- The second string is the first up to its first zero byte, and all of it if there is none. -/
def IsCut (bytes cut : Bytes) : Prop :=
  0 ∉ cut ∧ (bytes = cut ∨ ∃ rest, bytes = cut ++ 0 :: rest)

/-! ## Cuts -/

lemma isCut_ofBytes (bytes : Bytes) : IsCut bytes (Argument.ofBytes bytes).bytes := by
  refine ⟨(Argument.ofBytes bytes).zero_notMem, ?_⟩
  have hsplit := List.takeWhile_append_dropWhile (p := (· ≠ 0)) (l := bytes)
  have hstop := List.head?_dropWhile_not (· ≠ 0) bytes
  cases hrest : bytes.dropWhile (· ≠ 0) with
  | nil =>
      rw [hrest, List.append_nil] at hsplit
      exact Or.inl hsplit.symm
  | cons b rest =>
      -- what is left over begins with the byte at which the cut ended
      rw [hrest] at hsplit hstop
      have hb : b = 0 := by simpa using hstop
      rw [hb] at hsplit
      exact Or.inr ⟨rest, hsplit.symm⟩

lemma IsCut.eq_ofBytes {bytes cut : Bytes} (h : IsCut bytes cut) :
    (Argument.ofBytes bytes).bytes = cut := by
  obtain ⟨hzero, h⟩ := h
  have hkept : ∀ c ∈ cut, decide (c ≠ 0) = true := by
    intro c hc
    exact decide_eq_true (ne_of_mem_of_not_mem hc hzero)
  change bytes.takeWhile (· ≠ 0) = cut
  rcases h with rfl | ⟨rest, rfl⟩
  · exact List.takeWhile_eq_self_iff.2 hkept
  · rw [List.takeWhile_append_of_pos hkept, List.takeWhile_cons_of_neg (by decide), List.append_nil]

lemma forall₂_isCut_iff {args cuts : List Bytes} :
    List.Forall₂ IsCut args cuts ↔ (args.map Argument.ofBytes).map Argument.bytes = cuts := by
  constructor
  · intro h
    induction h with
    | nil => rfl
    | cons hcut _ ih => rw [List.map_cons, List.map_cons, hcut.eq_ofBytes, ih]
  · rintro rfl
    induction args with
    | nil => exact .nil
    | cons arg args ih => exact .cons (isCut_ofBytes arg) ih

lemma invoke_of_isCut (engine : Engine) {args cuts : List Bytes}
    (h : List.Forall₂ IsCut args cuts) :
    invoke engine (args.map Argument.ofBytes) = execute engine cuts := by
  rw [invoke, forall₂_isCut_iff.1 h]

lemma forall₂_isCut_self {args : List Bytes} (h : ∀ arg ∈ args, 0 ∉ arg) :
    List.Forall₂ IsCut args args := by
  refine List.forall₂_same.2 fun arg harg => ?_
  exact ⟨h arg harg, Or.inl rfl⟩

lemma zero_notMem_of_isCut {args cuts : List Bytes} (h : List.Forall₂ IsCut args cuts) :
    ∀ cut ∈ cuts, 0 ∉ cut := by
  induction h with
  | nil => simp
  | cons hcut _ ih => exact List.forall_mem_cons.2 ⟨hcut.1, ih⟩

/-! ## Zero bytes in the printed texts -/

lemma zero_mem_usage_iff (program : Bytes) : 0 ∈ Report.usage program ↔ 0 ∈ program := by
  have hfixed : 0 ∉ Report.usage [] := by decide
  rw [Report.mem_usage, or_iff_right hfixed]

lemma zero_mem_token_iff (tenant bytes : Bytes) :
    0 ∈ Report.token tenant (Hex.ofBytes bytes) ↔ 0 ∈ tenant := by
  have hfixed : 0 ∉ Report.token [] [] := by decide
  have hdigits : 0 ∉ Hex.ofBytes bytes := Hex.notMem_ofBytes (by decide) bytes
  rw [Report.mem_token, or_iff_right hfixed, or_iff_left hdigits]

lemma zero_notMem_programName {args : List Bytes} (h : ∀ arg ∈ args, 0 ∉ arg) :
    0 ∉ programName args := by
  cases args with
  | nil =>
      rw [programName, List.headD_nil]
      decide
  | cons arg args => exact h arg List.mem_cons_self

lemma zero_notMem_outcome (engine : Engine) {args : List Bytes} (h : ∀ arg ∈ args, 0 ∉ arg) :
    0 ∉ (outcome engine args).out ∧ 0 ∉ (outcome engine args).err := by
  have hends : Ends engine args (outcome engine args) := ends_iff.2 rfl
  generalize outcome engine args = o at hends ⊢
  cases hends with
  | usage hcount =>
      refine ⟨?_, List.not_mem_nil⟩
      rw [Outcome.out, zero_mem_usage_iff]
      exact zero_notMem_programName h
  | failure hreply =>
      refine ⟨List.not_mem_nil, ?_⟩
      rw [Outcome.err]
      decide
  | success hreply htoken =>
      refine ⟨?_, List.not_mem_nil⟩
      obtain ⟨bytes, -, rfl⟩ := Reply.exists_ofBytes_of_hexTag htoken
      rw [Outcome.out, zero_mem_token_iff]
      exact h _ (by simp)

/-! ## The command on arguments from the system -/

/-- **The command on arguments from the system is the command on cut arguments.**  For every list of
byte strings that a caller passes and every engine:

the strings have one list of cuts, as many as there are strings, and the two computations on them
are the same; strings without zero bytes arrive unchanged; two lists with the same cuts cannot be
told apart; and no zero byte is ever written to either stream.  The command itself does not cut: it
prints the program's name and the tenant with their zero bytes, and with a sound engine the tag is
that of the whole tenant under the whole secret. -/
theorem invoke_refines_execute (engine : Engine) (args : List Bytes) :
    (∃ cuts : List Bytes,
      (∀ cuts' : List Bytes, List.Forall₂ IsCut args cuts' ↔ cuts' = cuts) ∧
      cuts.length = args.length ∧
      invoke engine (args.map Argument.ofBytes) = execute engine cuts) ∧
    ((∀ arg ∈ args, 0 ∉ arg) → invoke engine (args.map Argument.ofBytes) = execute engine args) ∧
    (∀ args' cuts : List Bytes, List.Forall₂ IsCut args cuts → List.Forall₂ IsCut args' cuts →
      invoke engine (args.map Argument.ofBytes) = invoke engine (args'.map Argument.ofBytes)) ∧
    (∃ (status : ExitStatus) (out err : Bytes), 0 ∉ out ∧ 0 ∉ err ∧
      ∀ before : Console, before.IsPlain →
        (invoke engine (args.map Argument.ofBytes)).run before =
          (status, { before with out := before.out ++ out, err := before.err ++ err })) ∧
    (args.length ≠ 3 → ∀ before : Console, before.IsPlain →
      (execute engine args).run before =
        (.failure, { before with out := before.out ++ Report.usage (programName args) }) ∧
      (0 ∈ Report.usage (programName args) ↔ 0 ∈ programName args)) ∧
    (engine.IsSound → ∀ (program tenant secret : Bytes) (before : Console),
      secret.length < Engine.keyLimit → before.IsPlain →
        (execute engine [program, tenant, secret]).run before =
          (.success,
            { before with
              out := before.out ++
                Report.token tenant (Hex.ofBytes (Hmac.Standard.tag secret tenant)) }) ∧
        (0 ∈ Report.token tenant (Hex.ofBytes (Hmac.Standard.tag secret tenant)) ↔
          0 ∈ tenant)) := by
  have hcuts : List.Forall₂ IsCut args ((args.map Argument.ofBytes).map Argument.bytes) :=
    forall₂_isCut_iff.2 rfl
  refine ⟨⟨(args.map Argument.ofBytes).map Argument.bytes, ?_, by simp, rfl⟩, ?_, ?_, ?_, ?_, ?_⟩
  · intro cuts'
    rw [forall₂_isCut_iff, eq_comm]
  · intro hzero
    exact invoke_of_isCut engine (forall₂_isCut_self hzero)
  · intro args' cuts h h'
    rw [invoke_of_isCut engine h, invoke_of_isCut engine h']
  · obtain ⟨hout, herr⟩ := zero_notMem_outcome engine (zero_notMem_of_isCut hcuts)
    exact ⟨_, _, _, hout, herr, fun before hplain => run_execute_of_isPlain engine _ hplain⟩
  · intro hcount before hplain
    exact ⟨run_execute_of_length_ne engine hcount hplain, zero_mem_usage_iff _⟩
  · intro hsound program tenant secret before hsecret hplain
    exact ⟨run_execute_of_holds (hsound.holds_reply hsecret tenant) program hplain,
      zero_mem_token_iff _ _⟩

/-- A name that is passed with a zero byte and more behind it, and a secret that arrives empty and
still counts; a usage text that shows a zero byte; and a report that shows one, of a tag under a
secret that is a zero byte. -/
theorem invoke_refines_execute_amba :
    ((∀ arg ∈ [fallbackName, ofAscii "amba", []], 0 ∉ arg) ∧
      invoke Engine.hmacSha256 ([fallbackName, ofAscii "amba", []].map Argument.ofBytes) =
        execute Engine.hmacSha256 [fallbackName, ofAscii "amba", []]) ∧
    (List.Forall₂ IsCut [fallbackName, ofAscii "amba", []] [fallbackName, ofAscii "amba", []] ∧
      List.Forall₂ IsCut [fallbackName ++ [0, 1], ofAscii "amba", [0, 7]]
        [fallbackName, ofAscii "amba", []] ∧
      invoke Engine.hmacSha256 ([fallbackName, ofAscii "amba", []].map Argument.ofBytes) =
        invoke Engine.hmacSha256
          ([fallbackName ++ [0, 1], ofAscii "amba", [0, 7]].map Argument.ofBytes)) ∧
    (Console.IsPlain {} ∧ [fallbackName ++ [0]].length ≠ 3 ∧
      (execute Engine.hmacSha256 [fallbackName ++ [0]]).run {} =
        (.failure, { out := Report.usage (fallbackName ++ [0]) }) ∧
      (0 ∈ Report.usage (fallbackName ++ [0]) ↔ 0 ∈ fallbackName ++ [0])) ∧
    (Engine.hmacSha256.IsSound ∧ ([0] : Bytes).length < Engine.keyLimit ∧
      (execute Engine.hmacSha256 [fallbackName, ofAscii "amba" ++ [0], [0]]).run {} =
        (.success,
          { out := Report.token (ofAscii "amba" ++ [0])
              (Hex.ofBytes (Hmac.Standard.tag [0] (ofAscii "amba" ++ [0]))) })) := by
  obtain ⟨-, hplain, hcuts, -, -, -⟩ :=
    invoke_refines_execute Engine.hmacSha256 [fallbackName, ofAscii "amba", []]
  obtain ⟨-, -, -, -, husage, htoken⟩ :=
    invoke_refines_execute Engine.hmacSha256 [fallbackName ++ [0]]
  have h : List.Forall₂ IsCut [fallbackName, ofAscii "amba", []]
      [fallbackName, ofAscii "amba", []] :=
    forall₂_isCut_iff.2 (by decide)
  have h' : List.Forall₂ IsCut [fallbackName ++ [0, 1], ofAscii "amba", [0, 7]]
      [fallbackName, ofAscii "amba", []] :=
    forall₂_isCut_iff.2 (by decide)
  refine ⟨⟨by decide, hplain (by decide)⟩, ⟨h, h', hcuts _ _ h h'⟩,
    ⟨Console.isPlain_fresh, by decide, husage (by decide) {} Console.isPlain_fresh⟩,
    Engine.hmacSha256_isSound, by decide, ?_⟩
  exact (htoken Engine.hmacSha256_isSound fallbackName (ofAscii "amba" ++ [0]) [0] {} (by decide)
    Console.isPlain_fresh).1

end BearerToken.CommandLine
