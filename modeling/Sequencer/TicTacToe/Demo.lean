import Sequencer.Description
import Sequencer.Dot
import Sequencer.Plan
import Sequencer.Program
import Sequencer.Targets
import Sequencer.TicTacToe

/-!
# The tic-tac-toe demonstration

Compiles the tic-tac-toe controller and writes its code, its diagram and its
description into a directory, saying on the way what is done.

## Main Definitions

* `TicTacToe.plan` — what the demonstration does.
* `TicTacToe.run` — the demonstration on a table of files.
-/

namespace Sequencer.TicTacToe

/-- The kind of a file error, in one word. -/
def kindWord : FileError → String
  | .notFound => "NotFound"
  | .notADirectory => "NotADirectory"
  | .isADirectory => "IsADirectory"
  | .nameTooLong => "InvalidFilename"
  | .notText => "InvalidData"
  | .zeroByte => "InvalidInput"
  | .other _ _ => "Other"

/-- A file error with all its details; not every error comes from the operating system. -/
def details (e : FileError) : String :=
  (match e.code? with
    | some code => "Os \x7b code: " ++ code.repr ++ ", "
    | none => "Error \x7b ") ++
  "kind: " ++ kindWord e ++ ", message: " ++ Text.quoted e.words ++ " \x7d"

/-- The path of a file in a directory. -/
def inDirectory (directory name : String) : String :=
  if directory.isEmpty then name
  else if endsWithSlash directory then directory ++ name
  else directory ++ "/" ++ name

/-- The path of the description. -/
def descriptionPath (directory : String) : String := inDirectory directory "fsm.json"

/-- Why the demonstration fails when a file cannot be written. -/
def unwritable (directory path : String) (e : FileError) : Failure :=
  if path = descriptionPath directory then
    ⟨"Write \x7b path: " ++ Text.quoted path ++ ", source: " ++ details e ++ " \x7d", none⟩
  else ⟨details e, none⟩

/-- The number of lines of a text; a line break at the end opens no line. -/
def lineCount (text : String) : Nat :=
  let lines := text.toList.splitOn '\n'
  if lines.getLast? = some [] then lines.length - 1 else lines.length

/-- A text on a line of its own. -/
def printLine (text : String) : Step := .print (text ++ "\n")

/-- What the demonstration does with a machine. -/
def planFor (m : Machine) (directory : String) : Plan :=
  let notes := [printLine "=== Tic-Tac-Toe Controller ===\n",
    printLine ("Described " ++ m.length.repr ++ " states")] ++
    m.dangling.map fun t => printLine ("warning: " ++ t.message)
  let unwritable := unwritable directory
  match m.compile .standard with
  | .error e => { steps := notes, failure := some ⟨e.message, none⟩, unwritable }
  | .ok code =>
      let compiled := notes ++ [.write (inDirectory directory "fsm_cases.luc") code,
        printLine ("Wrote fsm_cases.luc (" ++ (lineCount code).repr ++ " lines)")]
      match m.toDot {} with
      | (_, some e) => { steps := compiled, failure := some ⟨e.message, none⟩, unwritable }
      | (graph, none) =>
          { steps := compiled ++
              [.write (inDirectory directory "fsm.gv") graph.text,
                printLine "Wrote fsm.gv",
                .write (descriptionPath directory) (Description.ofMachine m .standard).pretty,
                printLine "Wrote fsm.json",
                printLine "\n=== Example Complete ==="]
            unwritable }

/-- What the demonstration does; without an argument it writes to the working directory. -/
def plan (arguments : List String) : Plan :=
  planFor machine (arguments.head?.getD ".")

/-- The demonstration on a table of files. -/
def run (arguments : List String) (files : FileTable) : Report :=
  (plan arguments).run files

end Sequencer.TicTacToe
