/-
# `CommandLine` — what the program is asked to do, and its answer

The arguments are taken from the left; the first mistake among them, or the
first request for the version, decides.  The answer to a command is a
function of the text of the problem.
-/
import TwoPhase.Decimal.Reading
import TwoPhase.Program.Read
import TwoPhase.Report.Text
import TwoPhase.Report.Written
import TwoPhase.Solve

namespace TwoPhase

/-- What the arguments say, option by option. -/
structure Command where
  /-- The file that holds the problem; a dash stands for standard input. -/
  input : Option String := none
  /-- Print the report as a document. -/
  json : Bool := false
  /-- Print the tableau of every step. -/
  steps : Bool := false
  /-- Decimal places of printed numbers. -/
  precision : Option Nat := none
  /-- The tolerance when pivots are chosen. -/
  tol : Option Float := none
  /-- The pivot budget of both phases. -/
  maxPivots : Option Nat := none
  /-- How often more and fewer records were asked for. -/
  verbose : Nat := 0
  quiet : Nat := 0
deriving Repr

inductive Request where
  | solve (command : Command)
  | version
  | help
deriving Repr

namespace Command

def setOnce {β : Type} (old : Option β) (new : Option β) : Option (Option β) :=
  match old with
  | some _ => none
  | none => new.map some

def setOption (c : Command) (name value : String) : Option Command :=
  match name with
  | "--precision" => do return { c with precision := ← setOnce c.precision (readCount value) }
  | "--tol" => do return { c with tol := ← setOnce c.tol (readDouble value) }
  | "--max-iter" => do return { c with maxPivots := ← setOnce c.maxPivots (readCount value) }
  | _ => none

def takesValue (name : String) : Bool := ["--precision", "--tol", "--max-iter"].contains name

def setFlag (c : Command) (name : String) : Option Command :=
  match name with
  | "--json" => if c.json then none else some { c with json := true }
  | "--steps" => if c.steps then none else some { c with steps := true }
  | "--verbose" => some { c with verbose := c.verbose + 1 }
  | "--quiet" => some { c with quiet := c.quiet + 1 }
  | _ => none

def setInput (c : Command) (path : String) : Option Command :=
  if c.input.isSome ∨ path.isEmpty then none else some { c with input := some path }

/-- The option and its value in an argument that has both. -/
def splitValue (arg : String) : Option (String × String) :=
  let name := arg.toList.takeWhile (· ≠ '=')
  match arg.toList.drop name.length with
  | _ :: value => some (String.ofList name, String.ofList value)
  | [] => none

/-- What an argument made of flags of one letter asks for. -/
def takeLetters (c : Command) : List Char → Option (Command ⊕ Request)
  | [] => some (.inl c)
  | 'v' :: rest => takeLetters { c with verbose := c.verbose + 1 } rest
  | 'q' :: rest => takeLetters { c with quiet := c.quiet + 1 } rest
  | 'V' :: _ => some (.inr .version)
  | 'h' :: _ => some (.inr .help)
  | _ => none

/-- The request when all arguments are taken.  Asking for more records and for
fewer is a mistake. -/
def finish (c : Command) : Option Request :=
  if c.verbose ≠ 0 ∧ c.quiet ≠ 0 then none else some (.solve c)

def takeInputs (c : Command) : List String → Option Request
  | [] => c.finish
  | path :: rest => do (← c.setInput path).takeInputs rest

def takeArgs (c : Command) : List String → Option Request
  | [] => c.finish
  | "--" :: rest => c.takeInputs rest
  | "--version" :: _ => some .version
  | "--help" :: _ => some .help
  | arg :: rest =>
      if arg.startsWith "--" then
        match splitValue arg with
        | some (name, value) => do (← c.setOption name value).takeArgs rest
        | none =>
            if takesValue arg then
              match rest with
              | value :: rest =>
                  if value.startsWith "-" then none
                  else do (← c.setOption arg value).takeArgs rest
              | [] => none
            else do (← c.setFlag arg).takeArgs rest
      else if arg.startsWith "-" ∧ arg ≠ "-" then
        match c.takeLetters (arg.toList.drop 1) with
        | some (.inl c) => c.takeArgs rest
        | some (.inr request) => some request
        | none => none
      else do (← c.setInput arg).takeArgs rest

def file? (c : Command) : Option String := c.input.filter (· ≠ "-")

end Command

def Request.ofArgs (args : List String) : Option Request := Command.takeArgs {} args

/-- The first line of a text, without the mark that ends it. -/
def firstLine (s : String) : String :=
  let line := s.toList.takeWhile (· ≠ '\n')
  String.ofList (if line.getLast? = some '\r' then line.dropLast else line)

/-- An answer: the exit code, what goes to standard output, and the first line on
standard error that reports an error. -/
structure Response where
  code : Nat
  out : String
  error : Option String
deriving DecidableEq, Repr

namespace Response

/-- The answer to arguments that are not in order. -/
def mistake : Response := ⟨2, "", none⟩

/-- The answer that nothing could be done, and why. -/
def failure (why : String) : Response := ⟨1, "", some (firstLine ("Error: " ++ why))⟩

/-- The answer where something cannot be carried out on the way, and what was printed
until then. -/
def fault (out : String) : Response := ⟨101, out, none⟩

def version : Response := ⟨0, "simplex-trace 0.1.0\n", none⟩

def help : Response := ⟨0, "Usage: simplex-trace [OPTIONS] [INPUT]\n", none⟩

end Response

namespace Command

def settings (c : Command) : Settings Float :=
  let standard := Settings.standard
  { standard with tol := c.tol.getD standard.tol, maxPivots := c.maxPivots }

def print (c : Command) (color : Bool) (p : Program Float)
    (report : Report (Grid Float) Float) : Printout :=
  if c.json then ⟨report.document.pretty 0 ++ "\n", none⟩
  else report.printout ⟨c.steps, c.precision.getD 3, color⟩ p

/-- The answer to a report.  A program that was refused fails the command after its
report is printed. -/
def respondReport (c : Command) (color : Bool) (p : Program Float)
    (report : Report (Grid Float) Float) : Response :=
  match c.print color p report with
  | ⟨out, some _⟩ => .fault out
  | ⟨out, none⟩ =>
      match report.error? with
      | some (.invalid o) =>
          { Response.failure (SolveError.invalid o : SolveError Float).message with out }
      | _ => ⟨0, out, none⟩

/-- The answer to a command, given the text of the problem, or nothing where it
could not be read.  The log goes with it. -/
def respond (c : Command) (color : Bool) (text : Option String) :
    Response × List (Event Float) :=
  match text with
  | none =>
      (.failure ("reading " ++ c.file?.getD "problem from stdin"), [])
  | some text =>
      match Program.ofText text with
      | .error _ => (.failure "parsing linear program", [])
      | .ok p =>
          match solveLogged c.settings p with
          | .error _ => (.fault "", [])
          | .ok (report, log) =>
              (c.respondReport color p (report.map (·.grid)),
                .started p.numVars p.constraints.length :: log)

end Command

end TwoPhase
