/-
# `Main` — the command

Reads the arguments and the problem, prints the answer.
-/
import TwoPhase.CommandLine

namespace TwoPhase

/-- The text of the problem, or nothing if it cannot be read. -/
def readProblem (command : Command) : IO (Option String) := do
  try
    match command.file? with
    | some path => return some (← IO.FS.readFile path)
    | none => return some (← (← IO.getStdin).readToEnd)
  catch _ => return none

def wantsColor : IO Bool := do
  match ← IO.getEnv "CLICOLOR_FORCE" with
  | some value => return value ≠ "0"
  | none => return false

def printLog (command : Command) (log : List (Event Float)) : IO Unit := do
  for event in log do
    if event.level.rank + command.quiet ≤ command.verbose + 1 then
      IO.eprintln s!"[{event.level.name}] {event.message Tableau.plain}"

def printResponse (response : Response) : IO UInt32 := do
  IO.print response.out
  match response.error with
  | some line => IO.eprintln line
  | none => pure ()
  return response.code.toUInt32

end TwoPhase

open TwoPhase

def main (args : List String) : IO UInt32 := do
  match Request.ofArgs args with
  | none =>
      IO.eprintln "error: the arguments are not in order; try --help"
      printResponse .mistake
  | some .version => printResponse .version
  | some .help => printResponse .help
  | some (.solve command) => do
      let (response, log) := command.respond (← wantsColor) (← readProblem command)
      printLog command log
      printResponse response
