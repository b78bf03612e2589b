import Sequencer.Description.Parts
import Sequencer.Files

/-!
# Machine descriptions

A description is the form in which a machine is kept on file: the emitter
settings and the list of states.  The list may hold a name more than once; the
machine of a description registers the states in order.

## Main Definitions

* `Description` — emitter settings and states.
* `Description.parse`, `Description.pretty` — from text and to text.
* `Description.ofMachine`, `Description.toMachine` — from a machine and to a machine.
* `Description.load`, `Description.save` — from a file and to a file.
-/

namespace Sequencer

open Json Json.Reader

/-- A machine as it is kept on file. -/
structure Description where
  emitter : Emitter
  states : List State
  deriving DecidableEq

namespace Description

/-! ### Text -/

/-- The JSON value of a description. -/
def toJson (d : Description) : Value :=
  .object [("emitter", d.emitter.toJson), ("states", .array (d.states.map State.toJson))]

/-- The text of a description over several lines. -/
def pretty (d : Description) : String := d.toJson.pretty

/-- A description that is being read. -/
structure Draft where
  emitter : Option Emitter := none
  states : Option (List State) := none

/-- How a description is read. -/
def shape : Shape Draft Description where
  name := "MachineDescription"
  fields :=
    [.slot "emitter" Draft.emitter (fun d v => { d with emitter := some v }) Emitter.reader,
      .slot "states" Draft.states (fun d v => { d with states := some v }) (list State.reader)]
  start := {}
  finish d := .ok ⟨d.emitter.getD .standard, d.states.getD []⟩

/-- Reads a description. -/
def reader : Reader Description := record shape

/-- The description of a text. -/
def parse (text : String) : Except ReadError Description := readAll reader text

/-- The message for a description of the wrong shape. -/
def refusal (cause : Mismatch) : String := "Malformed description: " ++ cause.message

/-! ### Machines -/

/-- The description of a machine. -/
def ofMachine (m : Machine) (e : Emitter) : Description := ⟨e, m.states⟩

/-- The machine of a description: its states are registered in order. -/
def toMachine (d : Description) : Machine := Machine.ofStates d.states

/-! ### Files -/

/-- Why a description cannot be loaded. -/
inductive LoadError where
  | unreadable (path : String) (cause : FileError)
  | unparsable (cause : ReadError)
  deriving DecidableEq, Repr

/-- Why a description cannot be saved. -/
structure SaveError where
  path : String
  cause : FileError
  deriving DecidableEq, Repr

/-- The message for a description that cannot be read. -/
def unreadable (path : String) (cause : FileError) : String :=
  "Failed to read description '" ++ path ++ "': " ++ cause.message

/-- The message for a description that cannot be saved. -/
def SaveError.message (e : SaveError) : String :=
  "Failed to write description '" ++ e.path ++ "': " ++ e.cause.message

/-- The description in a file, given what reading the file returned. -/
def ofRead (path : String) (content : Except FileError String) : Except LoadError Description :=
  match content with
  | .error cause => .error (.unreadable path cause)
  | .ok text =>
      match parse text with
      | .error cause => .error (.unparsable cause)
      | .ok d => .ok d

/-- Loads a description from a file. -/
def load (files : FileTable) (path : String) : Except LoadError Description :=
  ofRead path (files.readText path)

/-- Saves a description to a file. -/
def save (d : Description) (files : FileTable) (path : String) : Except SaveError FileTable :=
  match files.write path d.pretty with
  | .error cause => .error ⟨path, cause⟩
  | .ok files => .ok files

end Description

end Sequencer
