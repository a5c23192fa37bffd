import BearerToken.Session
import BearerToken.Proofs.CommandLine.Outcome
import Mathlib.Algebra.Ring.Nat
import Mathlib.Data.List.Basic
import Mathlib.Order.Monotone.Defs

/-!
# Sessions on shared streams

No step leaves anything behind but the text that it appends, and no step looks at what stands there.
A token is written by a writer of its own (`Hex.putFirst`), whose radix, fill and width never reach
the streams, and an engine that fails is noticed before anything is written.  So where no width is
asked for, the streams keep their settings, and a session is put together from what its steps do
alone, each on fresh streams (`Step.alone`).

* `Step.independent_perform` — the steps one by one.
* `run_observe` — what is seen of one step.
* **`run_transcript`** — what is seen of a session, by induction on its steps.
* **`transcript_stepwise`** — the same after each step, with totals, splits and replacements.
-/

namespace BearerToken.Session

open Bytes (ofAscii)
open Console (Independent)

/-- What a step does alone: its status, and what it writes to fresh streams. -/
def Step.alone (step : Step) : Option ExitStatus × Console :=
  step.perform.run {}

/-- What the steps write alone, put together in their order. -/
def written (steps : List Step) : Console where
  out := steps.flatMap fun step => step.alone.2.out
  err := steps.flatMap fun step => step.alone.2.err

/-- What is to be seen of a step that finds `before` on the streams. -/
def Step.entry (step : Step) (before : Console) : Entry where
  status? := step.alone.1
  out := step.alone.2.out
  err := step.alone.2.err
  outTotal := before.out.length + step.alone.2.out.length
  errTotal := before.err.length + step.alone.2.err.length

/-! ## One step -/

lemma Step.independent_perform (step : Step) : Independent step.perform := by
  cases step with
  | usage program =>
      exact (Console.independent_forM_writeOut _).bind fun _ => Console.independent_pure none
  | report tenant token =>
      exact (Console.independent_forM_writeOut _).bind fun _ => Console.independent_pure none
  | command engine args =>
      exact (CommandLine.independent_execute engine args).bind fun status =>
        Console.independent_pure (some status)

lemma run_observe (step : Step) {before : Console} (hplain : before.IsPlain) :
    (observe step).run before = (step.entry before, before ++ step.alone.2) := by
  have hobserve : (observe step).run before =
      let (status?, after) := step.perform.run before
      ({ status?
         out := after.out.drop before.out.length
         err := after.err.drop before.err.length
         outTotal := after.out.length
         errTotal := after.err.length }, after) := rfl
  rw [hobserve, step.independent_perform before hplain]
  simp [Step.entry, Step.alone]

/-! ## A run of steps -/

lemma written_nil : written [] = {} := rfl

lemma append_written_cons (before : Console) (step : Step) (steps : List Step) :
    before ++ written (step :: steps) = before ++ step.alone.2 ++ written steps := by
  rw [Console.append_assoc]
  rfl

/-- **What is seen of a session.**  Every step has the entry that it has alone, with the totals
carried on, and the streams gain what the steps write alone. -/
theorem run_transcript (steps : List Step) {before : Console} (hplain : before.IsPlain) :
    (transcript steps).run before =
      (steps.mapIdx fun i step => step.entry (before ++ written (steps.take i)),
        before ++ written steps) := by
  -- a later entry counts what stands in front of it, so the induction is over all streams at once
  induction steps generalizing before with
  | nil => exact congrArg (Prod.mk []) (Console.append_fresh before).symm
  | cons step steps ih =>
      have hrun : (transcript (step :: steps)).run before =
          let (entry, middle) := (observe step).run before
          let (entries, after) := (transcript steps).run middle
          (entry :: entries, after) := by
        rw [transcript_cons]
        rfl
      rw [hrun, run_observe step hplain]
      simp only [ih (hplain.append step.alone.2), List.mapIdx_cons, List.take_succ_cons,
        append_written_cons]
      rw [List.take_zero, written_nil, Console.append_fresh]

lemma written_append (first second : List Step) :
    written (first ++ second) = written first ++ written second := by
  simp only [written, Console.append_eq, List.flatMap_append]

lemma transcript_append (first second : List Step) :
    transcript (first ++ second) = do
      let entries ← transcript first
      let entries' ← transcript second
      return entries ++ entries' := by
  simp [transcript, List.mapM_append]

/-- The streams after the first `n` steps of a session. -/
def streamsAfter (steps : List Step) (before : Console) (n : Nat) : Console :=
  ((transcript (steps.take n)).run before).2

variable {before : Console}

lemma streamsAfter_eq (steps : List Step) (hplain : before.IsPlain) (n : Nat) :
    streamsAfter steps before n = before ++ written (steps.take n) := by
  rw [streamsAfter, run_transcript _ hplain]

lemma streamsAfter_succ (steps : List Step) (hplain : before.IsPlain) {i : Nat}
    (hi : i < steps.length) :
    streamsAfter steps before (i + 1) = streamsAfter steps before i ++ steps[i].alone.2 := by
  rw [streamsAfter_eq steps hplain, streamsAfter_eq steps hplain,
    List.take_succ_eq_append_getElem hi, written_append, ← Console.append_assoc,
    append_written_cons, written_nil, Console.append_fresh]

lemma getElem?_transcript (steps : List Step) (hplain : before.IsPlain) (i : Nat) :
    ((transcript steps).run before).1[i]? =
      steps[i]?.map fun step => step.entry (streamsAfter steps before i) := by
  rw [run_transcript steps hplain, List.getElem?_mapIdx, streamsAfter_eq steps hplain]

/-- Later streams are earlier ones with more behind them. -/
lemma exists_streamsAfter_eq_append (steps : List Step) (hplain : before.IsPlain) {m n : Nat}
    (h : m ≤ n) :
    ∃ text, streamsAfter steps before n = streamsAfter steps before m ++ text := by
  have hsplit : steps.take n = steps.take m ++ (steps.take n).drop m := by
    have hcut := List.take_append_drop m (steps.take n)
    rw [List.take_take, Nat.min_eq_left h] at hcut
    exact hcut.symm
  refine ⟨written ((steps.take n).drop m), ?_⟩
  rw [streamsAfter_eq steps hplain, streamsAfter_eq steps hplain, Console.append_assoc,
    ← written_append, ← hsplit]

/-- No step leaves a setting behind. -/
lemma formats_streamsAfter (steps : List Step) (hplain : before.IsPlain) (n : Nat) :
    (streamsAfter steps before n).outFormat = before.outFormat ∧
      (streamsAfter steps before n).errFormat = before.errFormat := by
  rw [streamsAfter_eq steps hplain]
  exact ⟨Console.outFormat_append _ _, Console.errFormat_append _ _⟩

/-! ## Totals -/

lemma lengths_streamsAfter (steps : List Step) (hplain : before.IsPlain) (n : Nat) :
    (streamsAfter steps before n).out.length =
        before.out.length + ((steps.take n).map fun step => step.alone.2.out.length).sum ∧
      (streamsAfter steps before n).err.length =
        before.err.length + ((steps.take n).map fun step => step.alone.2.err.length).sum := by
  rw [streamsAfter_eq steps hplain, Console.out_append, Console.err_append, List.length_append,
    List.length_append, written, List.length_flatMap, List.length_flatMap]
  exact ⟨rfl, rfl⟩

lemma lengths_le_streamsAfter (steps : List Step) (hplain : before.IsPlain) {m n : Nat}
    (h : m ≤ n) :
    (streamsAfter steps before m).out.length ≤ (streamsAfter steps before n).out.length ∧
      (streamsAfter steps before m).err.length ≤ (streamsAfter steps before n).err.length := by
  obtain ⟨text, hn⟩ := exists_streamsAfter_eq_append steps hplain h
  rw [hn, Console.out_append, Console.err_append, List.length_append, List.length_append]
  exact ⟨Nat.le_add_right _ _, Nat.le_add_right _ _⟩

/-! ## The whole session -/

/-- What an entry tells of its own step, and not of the steps before it. -/
def Entry.effect (entry : Entry) : Option ExitStatus × Bytes × Bytes :=
  (entry.status?, entry.out, entry.err)

lemma effect_getElem?_transcript (steps : List Step) (hplain : before.IsPlain) (i : Nat) :
    ((transcript steps).run before).1[i]?.map Entry.effect =
      steps[i]?.map fun step => (step.alone.1, step.alone.2.out, step.alone.2.err) := by
  rw [getElem?_transcript steps hplain, Option.map_map]
  rfl

/-- **The steps of a session do not disturb each other.**  On any streams on which no width is asked
for, and for steps of every kind with engines that fail or not:

each step appends the text and has the status that it has alone on fresh streams, and its entry
says so; the settings of the streams are after each step those from before the first one; in the end
the streams have gained the texts in order; the totals are the running sums of their lengths, and
never shrink; a session in two parts is the second part on the streams that the first one leaves;
and with another step in one place all other places show what they showed before. -/
theorem transcript_stepwise (steps : List Step) {before : Console} (hplain : before.IsPlain) :
    ((transcript steps).run before).1.length = steps.length ∧
    (∀ (i : Nat) (hi : i < steps.length),
      streamsAfter steps before (i + 1) = streamsAfter steps before i ++ steps[i].alone.2 ∧
      ((transcript steps).run before).1[i]? = some
        { status? := steps[i].alone.1
          out := steps[i].alone.2.out
          err := steps[i].alone.2.err
          outTotal := (streamsAfter steps before (i + 1)).out.length
          errTotal := (streamsAfter steps before (i + 1)).err.length }) ∧
    (∀ n : Nat,
      (streamsAfter steps before n).outFormat = before.outFormat ∧
      (streamsAfter steps before n).errFormat = before.errFormat) ∧
    ((transcript steps).run before).2 = before ++ written steps ∧
    (∀ n : Nat,
      (streamsAfter steps before n).out.length =
        before.out.length + ((steps.take n).map fun step => step.alone.2.out.length).sum ∧
      (streamsAfter steps before n).err.length =
        before.err.length + ((steps.take n).map fun step => step.alone.2.err.length).sum) ∧
    (Monotone fun n => (streamsAfter steps before n).out.length) ∧
    (Monotone fun n => (streamsAfter steps before n).err.length) ∧
    (∀ rest : List Step,
      (transcript (steps ++ rest)).run before =
        let (entries, middle) := (transcript steps).run before
        let (entries', after) := (transcript rest).run middle
        (entries ++ entries', after)) ∧
    (∀ (i j : Nat) (step : Step), j ≠ i →
      ((transcript (steps.set i step)).run before).1[j]?.map Entry.effect =
        ((transcript steps).run before).1[j]?.map Entry.effect) := by
  refine ⟨?_, ?_, formats_streamsAfter steps hplain, ?_, lengths_streamsAfter steps hplain, ?_, ?_,
    ?_, ?_⟩
  · rw [run_transcript steps hplain, List.length_mapIdx]
  · intro i hi
    have hsucc := streamsAfter_succ steps hplain hi
    refine ⟨hsucc, ?_⟩
    rw [getElem?_transcript steps hplain, List.getElem?_eq_getElem hi, Option.map_some, hsucc]
    simp [Step.entry]
  · rw [run_transcript steps hplain]
  · intro m n hmn
    exact (lengths_le_streamsAfter steps hplain hmn).1
  · intro m n hmn
    exact (lengths_le_streamsAfter steps hplain hmn).2
  · intro rest
    rw [transcript_append]
    rfl
  · intro i j step hji
    rw [effect_getElem?_transcript _ hplain, effect_getElem?_transcript _ hplain,
      List.getElem?_set_ne hji.symm]

/-- A call that the engine refuses, and a usage text behind it; and the same usage text behind a
report.  The streams were left set to hexadecimal. -/
theorem transcript_stepwise_refused :
    Console.IsPlain { outFormat := { radix := .hexadecimal } } ∧
    (1 < [Step.command Engine.refusing
          [ofAscii "generate-token", ofAscii "amba", ofAscii "my-secret-key"],
        Step.usage (ofAscii "./gen")].length ∧
      streamsAfter
          [.command Engine.refusing
            [ofAscii "generate-token", ofAscii "amba", ofAscii "my-secret-key"],
            .usage (ofAscii "./gen")] { outFormat := { radix := .hexadecimal } } 2 =
        streamsAfter
          [.command Engine.refusing
            [ofAscii "generate-token", ofAscii "amba", ofAscii "my-secret-key"],
            .usage (ofAscii "./gen")] { outFormat := { radix := .hexadecimal } } 1 ++
          (Step.usage (ofAscii "./gen")).alone.2) ∧
    (1 ≠ 0 ∧
      ((transcript [.report (ofAscii "amba") (ofAscii "0f"), .usage (ofAscii "./gen")]).run
          { outFormat := { radix := .hexadecimal } }).1[1]?.map Entry.effect =
        ((transcript
          [.command Engine.refusing
            [ofAscii "generate-token", ofAscii "amba", ofAscii "my-secret-key"],
            .usage (ofAscii "./gen")]).run
          { outFormat := { radix := .hexadecimal } }).1[1]?.map Entry.effect) := by
  have hplain : Console.IsPlain { outFormat := { radix := .hexadecimal } } := ⟨rfl, rfl⟩
  obtain ⟨-, hstep, -, -, -, -, -, -, hset⟩ :=
    transcript_stepwise
      [.command Engine.refusing [ofAscii "generate-token", ofAscii "amba", ofAscii "my-secret-key"],
        .usage (ofAscii "./gen")] hplain
  exact ⟨hplain, ⟨by decide, (hstep 1 (by decide)).1⟩, by decide,
    hset 0 1 (.report (ofAscii "amba") (ofAscii "0f")) (by decide)⟩

end BearerToken.Session
