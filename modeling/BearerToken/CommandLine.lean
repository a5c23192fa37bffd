import BearerToken.Report
import BearerToken.Token

/-!
# The command line

`generate-token <tenant> <secret>` prints the report of the tenant's token.  Any other number of
arguments prints the usage text, and a failure of the engine prints one line on the error stream;
both end with a failure status.

* `Console` — all that has been written to the two streams so far, and the settings of each;
  `ConsoleM` is a computation that may write more.
* `execute` — the command on a list of arguments, of which the first is the program's name.
* `Outcome` — the three ways in which it ends, with the status of each and its text on each stream.
* `Argument` — an argument as the system hands it over, which cannot hold a zero byte; `invoke` is
  the command on those, and `main` writes to the real streams.
-/

namespace BearerToken

/-! ## The two output streams -/

/-- What has been written to the output and to the error stream, and the settings of each.  Both
streams only grow. -/
structure Console where
  out : Bytes := []
  err : Bytes := []
  outFormat : Format := {}
  errFormat : Format := {}
  deriving DecidableEq

/-- A computation that writes to the two streams. -/
abbrev ConsoleM := StateM Console

namespace Console

/-- Writes a piece to the output stream, under its settings. -/
def writeOut (piece : Bytes) : ConsoleM Unit :=
  modify fun console =>
    { console with
      out := console.out ++ console.outFormat.pad piece
      outFormat := console.outFormat.spent }

/-- Writes a piece to the error stream, under its settings. -/
def writeErr (piece : Bytes) : ConsoleM Unit :=
  modify fun console =>
    { console with
      err := console.err ++ console.errFormat.pad piece
      errFormat := console.errFormat.spent }

/-- No width is asked for on either stream, so the next piece is written as it is. -/
def IsPlain (console : Console) : Prop :=
  console.outFormat.width = 0 ∧ console.errFormat.width = 0

instance : DecidablePred IsPlain := fun console =>
  inferInstanceAs (Decidable (console.outFormat.width = 0 ∧ console.errFormat.width = 0))

end Console

/-! ## The command -/

/-- How a command ended. -/
inductive ExitStatus
  | success
  | failure
  deriving DecidableEq

/-- The number by which the system knows an exit status. -/
def ExitStatus.code : ExitStatus → UInt32
  | success => 0
  | failure => 1

namespace CommandLine

open Bytes (ofAscii)

/-- The program's name where the caller gives none. -/
def fallbackName : Bytes := ofAscii "generate-token"

/-- The program's name in a list of arguments: the first one, even if it is empty. -/
def programName (args : List Bytes) : Bytes :=
  args.headD fallbackName

/-- Writes the usage text to the output stream. -/
def writeUsage (program : Bytes) : ConsoleM Unit :=
  (Report.usagePieces program).forM Console.writeOut

/-- Writes the report of a token to the output stream; the token may be any bytes. -/
def writeReport (tenant token : Bytes) : ConsoleM Unit :=
  (Report.tokenPieces tenant token).forM Console.writeOut

/-- The line that tells of a failure, in pieces. -/
def diagnosticParts (error : TagError) : List (List Bytes) :=
  [[ofAscii "token generation failed: ", error.message]]

/-- The line that tells of a failure. -/
def diagnostic (error : TagError) : Bytes :=
  Bytes.unlines ((diagnosticParts error).map List.flatten)

/-- Writes the line that tells of a failure to the error stream. -/
def writeDiagnostic (error : TagError) : ConsoleM Unit :=
  (Bytes.pieces (diagnosticParts error)).forM Console.writeErr

/-- **The command**, on its arguments with the program's name in front.  They are counted before the
engine is asked for anything, and nothing is printed before it has answered. -/
def execute (engine : Engine) (args : List Bytes) : ConsoleM ExitStatus := do
  match args with
  | [_, tenant, secret] =>
      match Token.generate engine tenant secret with
      | .ok token =>
          writeReport tenant token
          return .success
      | .error error =>
          writeDiagnostic error
          return .failure
  | _ =>
      writeUsage (programName args)
      return .failure

/-! ## Outcomes -/

/-- **How the command ends**: with the usage text for a program name, with a failure of the engine,
or with the report of a tenant's token. -/
inductive Outcome
  | usage (program : Bytes)
  | failure (error : TagError)
  | success (tenant token : Bytes)
  deriving DecidableEq

namespace Outcome

/-- The exit status. -/
def status : Outcome → ExitStatus
  | usage _ | failure _ => .failure
  | success _ _ => .success

/-- What the output stream gains. -/
def out : Outcome → Bytes
  | usage program => Report.usage program
  | failure _ => []
  | success tenant token => Report.token tenant token

/-- What the error stream gains. -/
def err : Outcome → Bytes
  | failure error => diagnostic error
  | usage _ | success _ _ => []

/-- The outcome for a tenant, once the engine has answered. -/
def ofReply (tenant : Bytes) : Except TagError Bytes → Outcome
  | .ok token => .success tenant token
  | .error error => .failure error

end Outcome

/-- The outcome of the command on a list of arguments, the program's name in front. -/
def outcome (engine : Engine) (args : List Bytes) : Outcome :=
  if h : args.length = 3 then
    .ofReply args[1] (Token.generate engine args[1] args[2])
  else
    .usage (programName args)

/-! ## Arguments from the system -/

/-- **An argument from the system.**  The system marks its end by a zero byte, so it has none
inside. -/
structure Argument where
  bytes : Bytes
  zero_notMem : 0 ∉ bytes
  deriving DecidableEq

/-- What arrives when a caller passes `bytes`: all that stands before the first zero byte. -/
def Argument.ofBytes (bytes : Bytes) : Argument where
  bytes := bytes.takeWhile (· ≠ 0)
  zero_notMem h := by simpa using List.all_eq_true.1 List.all_takeWhile 0 h

/-- The command, on arguments from the system. -/
def invoke (engine : Engine) (args : List Argument) : ConsoleM ExitStatus :=
  execute engine (args.map Argument.bytes)

/-- **The program**, on all the arguments that the system hands over, its own name in front if there
are any: runs the command with the sound engine on fresh streams, and writes what it wrote. -/
def main (args : List Argument) : IO UInt32 := do
  let (status, console) := (invoke Engine.hmacSha256 args).run {}
  (← IO.getStdout).write (ByteArray.mk console.out.toArray)
  (← IO.getStderr).write (ByteArray.mk console.err.toArray)
  return status.code

end CommandLine

end BearerToken
