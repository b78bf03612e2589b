import Sequencer.Files

/-!
# Plans

A program run is planned as a list of steps, each a log line, a text to print or
a file to write, and possibly a failure after them.  Only writing a file can
fail on its own; the first write that fails ends the run.

A plan is carried out here on a table of files, which shows all that the run
does.  The command line carries it out on real files.

## Main Definitions

* `Failure` — a message with an optional cause; `Failure.text` is its text.
* `Step`, `Plan` — what a run does.
* `Report` — what a run has done.
* `Plan.run` — carries out a plan on a table of files.
-/

namespace Sequencer

/-- Why a run failed. -/
structure Failure where
  message : String
  cause : Option String := none
  deriving DecidableEq, Repr

namespace Failure

/-- A cause below its heading: every line of it is indented. -/
def indented (cause : String) : List Char :=
  "    ".toList ++ cause.toList.flatMap fun c => if c = '\n' then "\n    ".toList else [c]

/-- The text of a failure. -/
def text (f : Failure) : String :=
  "Error: " ++ f.message ++
  (match f.cause with
    | none => ""
    | some cause => "\n\nCaused by:\n" ++ String.ofList (indented cause)) ++
  "\n"

end Failure

/-- One step of a run. -/
inductive Step where
  | log (line : String)
  | print (text : String)
  | write (path text : String)
  deriving DecidableEq, Repr

/-- What a run does: its steps, and how it fails after them or at a write. -/
structure Plan where
  steps : List Step
  /-- Why the run fails when all steps are done, if it does. -/
  failure : Option Failure := none
  /-- Why the run fails when a file cannot be written. -/
  unwritable : String → FileError → Failure

/-- What a run has done so far. -/
structure Report where
  code : Nat := 0
  stdout : String := ""
  stderr : String := ""
  log : List String := []
  files : FileTable := {}
  deriving DecidableEq, Repr

namespace Report

/-- A run that fails. -/
def fail (r : Report) (f : Failure) : Report :=
  { r with code := 1, stderr := r.stderr ++ f.text }

end Report

namespace Plan

/-- Carries out steps; `finish` is what happens after the last one. -/
def runSteps (unwritable : String → FileError → Failure) (finish : Report → Report) :
    List Step → Report → Report
  | [], r => finish r
  | .log line :: steps, r => runSteps unwritable finish steps { r with log := r.log ++ [line] }
  | .print text :: steps, r =>
      runSteps unwritable finish steps { r with stdout := r.stdout ++ text }
  | .write path text :: steps, r =>
      match r.files.write path text with
      | .ok files => runSteps unwritable finish steps { r with files }
      | .error e => r.fail (unwritable path e)

/-- Carries out a plan on a table of files. -/
def run (p : Plan) (files : FileTable) : Report :=
  runSteps p.unwritable (fun r => (p.failure.map r.fail).getD r) p.steps { files }

end Plan

end Sequencer
