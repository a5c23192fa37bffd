import BearerToken.CommandLine
import BearerToken.Proofs.Report
import BearerToken.Proofs.Token

/-!
# Which way a call ends

A computation on the two streams leaves behind the pieces that it wrote, under the settings that it
found (`Console.receive`).  Where no width is asked for, the streams gain the text of the pieces and
the settings stay as they are.  The command is such a computation, and its pieces are those of its
outcome.  Every statement about a run goes through `run_execute`, and never through the program text
again.

`Ends` says which outcome a call has to have: by the number of its arguments, and by the reply to
the one question that it asks the engine.  It is a relation, with a clause for each of the three
ways, and the function `outcome` computes it.

* `Console.Independent` — a computation does the same on all streams without a width, and leaves the
  settings alone; `Independent.bind` for computations one after the other.
* **`run_execute`** — a run of the command.
* `ends_iff` — every call has one outcome, and it is `outcome`.
* `Outcome.status_eq_zero_iff`, `Outcome.err_ne_nil_iff` — what the streams tell of an outcome.
* **`execute_ends`** — the whole law of the command.
-/

namespace BearerToken

/-! ## The two streams -/

namespace Console

/-- The streams, and the pieces that are written to each behind what stands there. -/
def receive (before : Console) (outPieces errPieces : List Bytes) : Console where
  out := before.out ++ before.outFormat.written outPieces
  err := before.err ++ before.errFormat.written errPieces
  outFormat := before.outFormat.after outPieces
  errFormat := before.errFormat.after errPieces

lemma receive_nil (before : Console) : before.receive [] [] = before := by
  simp [receive, Format.written, Format.after]

lemma run_forM_writeOut (pieces : List Bytes) (before : Console) :
    (pieces.forM writeOut).run before = ((), before.receive pieces []) := by
  -- the first piece uses up the width, so the others are written under other settings
  induction pieces generalizing before with
  | nil => exact congrArg (Prod.mk ()) (receive_nil before).symm
  | cons piece pieces ih =>
      have hrun : ((piece :: pieces).forM writeOut).run before =
          (pieces.forM writeOut).run
            { before with
              out := before.out ++ before.outFormat.pad piece
              outFormat := before.outFormat.spent } := rfl
      rw [hrun, ih]
      simp [receive, Format.written, Format.after]

lemma run_forM_writeErr (pieces : List Bytes) (before : Console) :
    (pieces.forM writeErr).run before = ((), before.receive [] pieces) := by
  induction pieces generalizing before with
  | nil => exact congrArg (Prod.mk ()) (receive_nil before).symm
  | cons piece pieces ih =>
      have hrun : ((piece :: pieces).forM writeErr).run before =
          (pieces.forM writeErr).run
            { before with
              err := before.err ++ before.errFormat.pad piece
              errFormat := before.errFormat.spent } := rfl
      rw [hrun, ih]
      simp [receive, Format.written, Format.after]

lemma isPlain_fresh : IsPlain {} := ⟨rfl, rfl⟩

lemma receive_of_isPlain {before : Console} (h : before.IsPlain)
    (outPieces errPieces : List Bytes) :
    before.receive outPieces errPieces =
      { before with
        out := before.out ++ outPieces.flatten
        err := before.err ++ errPieces.flatten } := by
  rw [receive, Format.written_of_width h.1, Format.written_of_width h.2,
    Format.after_of_width h.1, Format.after_of_width h.2]

/-! ### Computations that only append -/

/-- What was written to each stream, and more text behind it under the settings that were there. -/
instance : Append Console where
  append a b := { a with out := a.out ++ b.out, err := a.err ++ b.err }

@[simp] lemma out_append (a b : Console) : (a ++ b).out = a.out ++ b.out := rfl

@[simp] lemma err_append (a b : Console) : (a ++ b).err = a.err ++ b.err := rfl

@[simp] lemma outFormat_append (a b : Console) : (a ++ b).outFormat = a.outFormat := rfl

@[simp] lemma errFormat_append (a b : Console) : (a ++ b).errFormat = a.errFormat := rfl

lemma append_eq (a b : Console) :
    a ++ b = { a with out := a.out ++ b.out, err := a.err ++ b.err } := rfl

lemma append_assoc (a b c : Console) : a ++ b ++ c = a ++ (b ++ c) := by
  simp only [append_eq, List.append_assoc]

lemma append_fresh (a : Console) : a ++ {} = a := by
  simp only [append_eq, List.append_nil]

lemma IsPlain.append {a : Console} (h : a.IsPlain) (b : Console) : (a ++ b).IsPlain := h

/-- **What a computation does is the same on all streams** on which no width is asked for: its
result, and what it appends.  The settings are those that it found. -/
def Independent {α : Type} (c : ConsoleM α) : Prop :=
  ∀ before : Console, before.IsPlain → c.run before = ((c.run {}).1, before ++ (c.run {}).2)

variable {α β : Type}

lemma independent_pure (a : α) : Independent (pure a) := by
  intro before _
  exact congrArg (Prod.mk a) (append_fresh before).symm

lemma independent_forM_writeOut (pieces : List Bytes) : Independent (pieces.forM writeOut) := by
  intro before hplain
  rw [run_forM_writeOut, run_forM_writeOut, receive_of_isPlain hplain,
    receive_of_isPlain isPlain_fresh]
  rfl

lemma Independent.isPlain_run {c : ConsoleM α} (hc : Independent c) : (c.run {}).2.IsPlain := by
  rw [hc {} isPlain_fresh]
  exact isPlain_fresh.append _

lemma Independent.bind {c : ConsoleM α} {f : α → ConsoleM β} (hc : Independent c)
    (hf : ∀ a, Independent (f a)) : Independent (c >>= f) := by
  intro before hplain
  have hrun (before : Console) :
      (c >>= f).run before = (f (c.run before).1).run (c.run before).2 := rfl
  calc (c >>= f).run before
      = (f (c.run {}).1).run (before ++ (c.run {}).2) := by rw [hrun, hc before hplain]
    _ = (((f (c.run {}).1).run {}).1, before ++ (c.run {}).2 ++ ((f (c.run {}).1).run {}).2) :=
        -- the first computation has left no width behind
        hf _ _ (hplain.append _)
    _ = (((f (c.run {}).1).run (c.run {}).2).1,
          before ++ ((f (c.run {}).1).run (c.run {}).2).2) := by
        rw [hf _ (c.run {}).2 hc.isPlain_run, append_assoc]

end Console

namespace CommandLine

open Bytes (ofAscii)

/-! ## Running the command -/

lemma outcome_of_length_ne (engine : Engine) {args : List Bytes} (h : args.length ≠ 3) :
    outcome engine args = .usage (programName args) :=
  dif_neg h

lemma outcome_three (engine : Engine) (program tenant secret : Bytes) :
    outcome engine [program, tenant, secret] =
      .ofReply tenant (Token.generate engine tenant secret) := rfl

/-- With any other number of arguments than three the engine is not asked. -/
lemma execute_of_length_ne (engine : Engine) :
    ∀ {args : List Bytes}, args.length ≠ 3 →
      execute engine args = do
        writeUsage (programName args)
        return .failure
  | [], _ => rfl
  | [_], _ => rfl
  | [_, _], _ => rfl
  | [_, _, _], h => absurd rfl h
  | _ :: _ :: _ :: _ :: _, _ => rfl

namespace Outcome

/-- The pieces that the output stream gains. -/
def outPieces : Outcome → List Bytes
  | usage program => Report.usagePieces program
  | failure _ => []
  | success tenant token => Report.tokenPieces tenant token

/-- The pieces that the error stream gains. -/
def errPieces : Outcome → List Bytes
  | failure error => Bytes.pieces (diagnosticParts error)
  | usage _ | success _ _ => []

lemma flatten_outPieces (o : Outcome) : o.outPieces.flatten = o.out := by
  cases o with
  | usage program => exact Report.flatten_usagePieces program
  | failure error => rfl
  | success tenant token => exact Report.flatten_tokenPieces tenant token

lemma flatten_errPieces (o : Outcome) : o.errPieces.flatten = o.err := by
  cases o with
  | failure error => exact Bytes.flatten_pieces (diagnosticParts error)
  | usage program => rfl
  | success tenant token => rfl

end Outcome

lemma run_writeOut_return (pieces : List Bytes) (status : ExitStatus) (before : Console) :
    (do pieces.forM Console.writeOut; return status : ConsoleM ExitStatus).run before =
      (status, before.receive pieces []) := by
  rw [StateT.run_bind, Console.run_forM_writeOut]
  rfl

lemma run_writeErr_return (pieces : List Bytes) (status : ExitStatus) (before : Console) :
    (do pieces.forM Console.writeErr; return status : ConsoleM ExitStatus).run before =
      (status, before.receive [] pieces) := by
  rw [StateT.run_bind, Console.run_forM_writeErr]
  rfl

/-- **A run of the command** ends with the status of its outcome, and each stream gains the pieces
that the outcome has for it, whatever its settings. -/
theorem run_execute (engine : Engine) (args : List Bytes) (before : Console) :
    (execute engine args).run before =
      ((outcome engine args).status,
        before.receive (outcome engine args).outPieces (outcome engine args).errPieces) := by
  by_cases h : args.length = 3
  · obtain ⟨program, tenant, secret, rfl⟩ := List.length_eq_three.1 h
    rw [outcome_three, execute]
    cases Token.generate engine tenant secret with
    | ok token => exact run_writeOut_return (Report.tokenPieces tenant token) .success before
    | error error =>
        exact run_writeErr_return (Bytes.pieces (diagnosticParts error)) .failure before
  · rw [execute_of_length_ne engine h, outcome_of_length_ne engine h]
    exact run_writeOut_return (Report.usagePieces (programName args)) .failure before

/-- Where no width is asked for, the texts are appended as they are. -/
theorem run_execute_of_isPlain (engine : Engine) (args : List Bytes) {before : Console}
    (hplain : before.IsPlain) :
    (execute engine args).run before =
      ((outcome engine args).status,
        { before with
          out := before.out ++ (outcome engine args).out
          err := before.err ++ (outcome engine args).err }) := by
  rw [run_execute, Console.receive_of_isPlain hplain, Outcome.flatten_outPieces,
    Outcome.flatten_errPieces]

lemma independent_execute (engine : Engine) (args : List Bytes) :
    Console.Independent (execute engine args) := by
  intro before hplain
  rw [run_execute_of_isPlain engine args hplain,
    run_execute_of_isPlain engine args Console.isPlain_fresh]
  rfl

/-! ## The outcome of a call -/

/-- **How a call has to end.**  The arguments are counted before the engine is asked, so in the
first clause its replies do not matter. -/
inductive Ends (engine : Engine) : List Bytes → Outcome → Prop
  | usage {args : List Bytes} (hcount : args.length ≠ 3) :
      Ends engine args (.usage (programName args))
  | failure {program tenant secret : Bytes} (hreply : (engine.reply secret tenant).IsFailure) :
      Ends engine [program, tenant, secret] (.failure .computationFailed)
  | success {program tenant secret token : Bytes} (hreply : (engine.reply secret tenant).IsTag)
      (htoken : Token.generate engine tenant secret = .ok token) :
      Ends engine [program, tenant, secret] (.success tenant token)

variable {engine : Engine} {program tenant secret : Bytes}

lemma outcome_of_isFailure (h : (engine.reply secret tenant).IsFailure) :
    outcome engine [program, tenant, secret] = .failure .computationFailed := by
  have htoken : Token.generate engine tenant secret = .error .computationFailed :=
    Reply.hexTag_of_isFailure h
  rw [outcome_three, htoken, Outcome.ofReply]

lemma outcome_of_generate {token : Bytes} (h : Token.generate engine tenant secret = .ok token) :
    outcome engine [program, tenant, secret] = .success tenant token := by
  rw [outcome_three, h, Outcome.ofReply]

lemma outcome_of_holds {tag : Bytes} (h : (engine.reply secret tenant).Holds tag) :
    outcome engine [program, tenant, secret] = .success tenant (Hex.ofBytes tag) :=
  outcome_of_generate (Reply.hexTag_of_holds h)

theorem ends_iff {args : List Bytes} {o : Outcome} :
    Ends engine args o ↔ o = outcome engine args := by
  constructor
  · intro h
    cases h with
    | usage hcount => exact (outcome_of_length_ne engine hcount).symm
    | failure hreply => exact (outcome_of_isFailure hreply).symm
    | success hreply htoken => exact (outcome_of_generate htoken).symm
  · rintro rfl
    by_cases hcount : args.length = 3
    · obtain ⟨program, tenant, secret, rfl⟩ := List.length_eq_three.1 hcount
      by_cases htag : (engine.reply secret tenant).IsTag
      · obtain ⟨token, htoken⟩ := Reply.exists_hexTag_iff.2 htag
        rw [outcome_of_generate htoken]
        exact .success htag htoken
      · have hfailure := (Reply.not_isTag_iff _).1 htag
        rw [outcome_of_isFailure hfailure]
        exact .failure hfailure
    · rw [outcome_of_length_ne engine hcount]
      exact .usage hcount

lemma run_execute_of_length_ne (engine : Engine) {args : List Bytes} (h : args.length ≠ 3)
    {before : Console} (hplain : before.IsPlain) :
    (execute engine args).run before =
      (.failure, { before with out := before.out ++ Report.usage (programName args) }) := by
  rw [run_execute_of_isPlain engine args hplain, outcome_of_length_ne engine h]
  simp [Outcome.status, Outcome.out, Outcome.err]

lemma run_execute_of_holds {tag : Bytes} (htag : (engine.reply secret tenant).Holds tag)
    (program : Bytes) {before : Console} (hplain : before.IsPlain) :
    (execute engine [program, tenant, secret]).run before =
      (.success,
        { before with out := before.out ++ Report.token tenant (Hex.ofBytes tag) }) := by
  rw [run_execute_of_isPlain engine _ hplain, outcome_of_holds htag]
  simp [Outcome.status, Outcome.out, Outcome.err]

namespace Outcome

/-- Success can be read off the front of the output. -/
lemma status_eq_zero_iff (o : Outcome) : o.status.code = 0 ↔ ofAscii "Tenant: " <+: o.out := by
  cases o with
  | usage program =>
      have h := Report.not_label_prefix_usage program
      simpa [status, out, ExitStatus.code] using h
  | failure error => simp [status, out, ExitStatus.code, ofAscii]
  | success tenant token =>
      have h := Report.label_prefix_token tenant token
      simpa [status, out, ExitStatus.code] using h

lemma err_ne_nil_iff (o : Outcome) : o.err ≠ [] ↔ ∃ error, o = .failure error := by
  cases o with
  | usage program => simp [err]
  | failure error =>
      have hline : diagnostic error ≠ [] := by simp [diagnostic, diagnosticParts]
      exact iff_of_true hline ⟨error, rfl⟩
  | success tenant token => simp [err]

end Outcome

lemma exists_outcome_eq_failure_iff (engine : Engine) (args : List Bytes) :
    (∃ error, outcome engine args = .failure error) ↔
      ∃ program tenant secret : Bytes,
        args = [program, tenant, secret] ∧ (engine.reply secret tenant).IsFailure := by
  constructor
  · rintro ⟨error, h⟩
    have hends : Ends engine args (.failure error) := ends_iff.2 h.symm
    cases hends with
    | failure hreply => exact ⟨_, _, _, rfl, hreply⟩
  · rintro ⟨program, tenant, secret, rfl, hreply⟩
    exact ⟨_, outcome_of_isFailure hreply⟩

/-- **The law of the command.**  For every list of arguments, every engine and whatever stands on
the streams, one of the three outcomes is the one that a call has to have, and no other is.  The
call returns its status, which is one for the first two and zero for the third, and appends its
texts; and nothing that stood on the streams changes, nor do their settings.  Success is known by
how the output begins.  Something is appended to the error stream exactly if there were three
arguments and the engine failed, and it is one line. -/
theorem execute_ends (engine : Engine) (args : List Bytes) {before : Console}
    (hplain : before.IsPlain) :
    ∃ o : Outcome,
      (∀ o' : Outcome, Ends engine args o' ↔ o' = o) ∧
      (execute engine args).run before =
        (o.status, { before with out := before.out ++ o.out, err := before.err ++ o.err }) ∧
      (∀ program, o = .usage program → o.status.code = 1) ∧
      (∀ error, o = .failure error → o.status.code = 1) ∧
      (∀ tenant token, o = .success tenant token → o.status.code = 0) ∧
      (o.status.code = 0 ↔ ofAscii "Tenant: " <+: o.out) ∧
      (o.err ≠ [] ↔ ∃ program tenant secret : Bytes,
        args = [program, tenant, secret] ∧ (engine.reply secret tenant).IsFailure) ∧
      (o.err = [] ∨ o.err =
        ofAscii "token generation failed: HMAC-SHA256 computation failed" ++ [Bytes.lineFeed]) := by
  refine ⟨outcome engine args, fun o' => ends_iff, run_execute_of_isPlain engine args hplain,
    ?_, ?_, ?_, Outcome.status_eq_zero_iff _, ?_, ?_⟩
  · intro program h
    rw [h]
    rfl
  · intro error h
    rw [h]
    rfl
  · intro tenant token h
    rw [h]
    rfl
  · rw [Outcome.err_ne_nil_iff, exists_outcome_eq_failure_iff]
  · cases outcome engine args with
    | usage program => exact Or.inl rfl
    | failure error =>
        cases error with
        | computationFailed => exact Or.inr rfl
    | success tenant token => exact Or.inl rfl

/-- A call that an engine refuses, on streams where something stands and other settings are left. -/
theorem execute_ends_refused :
    Console.IsPlain
      { out := ofAscii "amba", outFormat := { radix := .hexadecimal, fill := '0'.toUInt8 } } ∧
    ∃ o : Outcome,
      Ends Engine.refusing [fallbackName, ofAscii "amba", ofAscii "my-secret-key"] o ∧
      (execute Engine.refusing [fallbackName, ofAscii "amba", ofAscii "my-secret-key"]).run
          { out := ofAscii "amba", outFormat := { radix := .hexadecimal, fill := '0'.toUInt8 } } =
        (o.status,
          { out := ofAscii "amba" ++ o.out
            err := [] ++ o.err
            outFormat := { radix := .hexadecimal, fill := '0'.toUInt8 } }) ∧
      o = .failure .computationFailed ∧ o.status.code = 1 := by
  have hplain : Console.IsPlain
      { out := ofAscii "amba", outFormat := { radix := .hexadecimal, fill := '0'.toUInt8 } } := by
    decide
  obtain ⟨o, hends, hrun, -, hfailure, -, -, -, -⟩ :=
    execute_ends Engine.refusing [fallbackName, ofAscii "amba", ofAscii "my-secret-key"] hplain
  have ho : Outcome.failure .computationFailed = o :=
    (hends _).1 (.failure (Or.inl rfl))
  exact ⟨hplain, o, (hends o).2 rfl, hrun, ho.symm, hfailure _ ho.symm⟩

end CommandLine

end BearerToken
