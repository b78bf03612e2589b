import Sequencer.CommandLine.Arguments
import Sequencer.Description
import Sequencer.Dot
import Sequencer.Manifest
import Sequencer.Plan
import Sequencer.Program
import Sequencer.Targets
import Sequencer.Text.Terminal

/-!
# The command line

Compiles the description in a file.  The code is printed or written to a file;
a diagram, the list of states and a manifest are written where asked for.
Nothing is printed or written before the code is complete.

## Main Definitions

* `CommandLine.compilePlan` — what a run does with a loaded description.
* `CommandLine.plan` — what a run does, given what reading the description returned.
* `CommandLine.run` — a run on a table of files.
-/

namespace Sequencer.CommandLine

/-- The text that explains the arguments. -/
def helpText : String :=
  "A declarative state machine compiler that emits Lucid control logic and DOT diagrams\n" ++
  "\n" ++
  "Usage: lucid-fsm [OPTIONS] <DESCRIPTION>\n" ++
  "\n" ++
  "Arguments:\n" ++
  "  <DESCRIPTION>  Machine description (JSON)\n" ++
  "\n" ++
  "Options:\n" ++
  "  -o, --output <OUTPUT>      Write compiled code here instead of stdout\n" ++
  "      --dot <DOT>            Write a Graphviz DOT diagram\n" ++
  "      --states <STATES>      Write the state names, one per line\n" ++
  "      --manifest <MANIFEST>  Write a JSON build manifest\n" ++
  "      --check-targets        Fail if any transition targets an undeclared state\n" ++
  "  -h, --help                 Print help\n" ++
  "  -V, --version              Print version\n"

/-- The name and version of the program. -/
def versionText : String := "lucid-fsm 0.1.0\n"

/-- A log line that informs. -/
def info (message : String) : Step := .log ("INFO lucid_fsm: " ++ Text.inert message)

/-- A log line that warns. -/
def warn (message : String) : Step := .log ("WARN lucid_fsm: " ++ Text.inert message)

/-- Why a run fails when a file cannot be written. -/
def unwritable (path : String) (e : FileError) : Failure := ⟨"writing " ++ path, some e.message⟩

/-- Writes a file and reports it with a note. -/
def writeSteps (path text note : String) : List Step :=
  [.write path text, info ("wrote " ++ path ++ note)]

/-- Delivers the code: to a file if one is given, else to the standard output. -/
def deliverSteps (output : Option String) (code : String) : List Step :=
  match output with
  | some path => writeSteps path code ""
  | none => [.print (code ++ "\n")]

/-- The text of the list of states: a name on each line. -/
def statesText (m : Machine) : String := "\n".intercalate m.names ++ "\n"

/-- Writes the list of states and the manifest, where asked for. -/
def listSteps (a : Arguments) (m : Machine) (manifest : Manifest) : List Step :=
  (match a.states with
    | some path => writeSteps path (statesText m) ""
    | none => []) ++
  (match a.manifest with
    | some path => writeSteps path manifest.pretty (" id=" ++ manifest.id)
    | none => [])

/-- What a run does after the code is delivered. -/
def drawPlan (a : Arguments) (m : Machine) (manifest : Manifest) (before : List Step) : Plan :=
  match a.dot with
  | none => { steps := before ++ listSteps a m manifest, unwritable }
  | some path =>
      match m.toDot {} with
      | (_, some e) =>
          { steps := before
            failure := some ⟨"diagram rendering failed", some e.message⟩
            unwritable }
      | (graph, none) =>
          { steps := before ++ writeSteps path graph.text "" ++ listSteps a m manifest, unwritable }

/-- What a run does with a loaded description. -/
def compilePlan (a : Arguments) (d : Description) (id : String) (time : Timestamp) : Plan :=
  let m := d.toMachine
  let notes := info ("loaded " ++ a.description ++ " states=" ++ m.length.repr) ::
    m.dangling.map fun t => warn t.message
  if a.checkTargets && !m.isClosed then
    { steps := notes
      failure := some ⟨m.dangling.length.repr ++ " dangling transition target(s)", none⟩
      unwritable }
  else
    match m.compile d.emitter with
    | .error e =>
        { steps := notes, failure := some ⟨"compilation failed", some e.message⟩, unwritable }
    | .ok code =>
        drawPlan a m (Manifest.ofMachine m d.emitter id time) (notes ++ deliverSteps a.output code)

/-- Why a run fails when the description cannot be loaded. -/
def unloadable : Description.LoadError → Failure
  | .unreadable path cause => ⟨Description.unreadable path cause, some cause.message⟩
  | .unparsable _ => ⟨"Malformed description", none⟩

/-- What a run does, given what reading the description returned. -/
def plan (a : Arguments) (content : Except FileError String) (id : String) (time : Timestamp) :
    Plan :=
  match Description.ofRead a.description content with
  | .error e => { steps := [], failure := some (unloadable e), unwritable }
  | .ok d => compilePlan a d id time

/-- The exit code of a run whose arguments are misused. -/
def misuseCode : Nat := 2

/-- A run on a table of files; the identifier and the time are for the manifest. -/
def run (arguments : List String) (files : FileTable) (id : String) (time : Timestamp) : Report :=
  match Request.ofArguments arguments with
  | .help => { stdout := helpText, files }
  | .version => { stdout := versionText, files }
  | .misuse => { code := misuseCode, files }
  | .run a => (plan a (files.readText a.description) id time).run files

end Sequencer.CommandLine
