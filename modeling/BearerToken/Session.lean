import BearerToken.CommandLine

/-!
# Sessions

A session performs steps one after the other on the same two streams: it writes a usage text, writes
a report, or executes the command with an engine of its own.  Whoever watches the streams sees after
each step what it appended and how long they have become.

* `Step`, `Step.perform` — one step.
* `Entry`, `transcript` — what is seen of a session.
-/

namespace BearerToken.Session

/-- One step of a session. -/
inductive Step
  | usage (program : Bytes)
  | report (tenant token : Bytes)
  | command (engine : Engine) (args : List Bytes)

/-- Performs a step; only the command has an exit status. -/
def Step.perform : Step → ConsoleM (Option ExitStatus)
  | usage program => do
      CommandLine.writeUsage program
      return none
  | report tenant token => do
      CommandLine.writeReport tenant token
      return none
  | command engine args => do
      return some (← CommandLine.execute engine args)

/-- What is seen of a step: its status, the bytes that each stream gained, and the length of each
stream after it. -/
structure Entry where
  status? : Option ExitStatus
  out : Bytes
  err : Bytes
  outTotal : Nat
  errTotal : Nat
  deriving DecidableEq

/-- Performs a step and compares the streams before and after. -/
def observe (step : Step) : ConsoleM Entry := do
  let before ← get
  let status? ← step.perform
  let after ← get
  return {
    status?
    out := after.out.drop before.out.length
    err := after.err.drop before.err.length
    outTotal := after.out.length
    errTotal := after.err.length }

/-- **A whole session**, one entry for each step. -/
def transcript (steps : List Step) : ConsoleM (List Entry) :=
  steps.mapM observe

@[simp] theorem transcript_nil : transcript [] = pure [] := rfl

theorem transcript_cons (step : Step) (steps : List Step) :
    transcript (step :: steps) = do
      let entry ← observe step
      let entries ← transcript steps
      return entry :: entries := by
  simp [transcript]

end BearerToken.Session
