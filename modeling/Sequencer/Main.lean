import Sequencer.CommandLine
import Std.Time.DateTime.Timestamp

/-!
# The program

Reads the description, the clock and some chance, and carries out the plan of
the run on real files.
-/

namespace Sequencer

/-- The reason that the operating system gives for a failed read or write. -/
def FileError.ofSystem : IO.Error → FileError
  | .noFileOrDirectory _ _ _ => .notFound
  | .inappropriateType _ code words =>
      if code = 20 then .notADirectory
      else if code = 21 then .isADirectory
      else .other words code.toNat
  | .illegalOperation code words =>
      if code = 21 then .isADirectory else .other words code.toNat
  | .permissionDenied _ code words => .other words code.toNat
  | .resourceExhausted _ code words => .other words code.toNat
  | .invalidArgument _ code words =>
      if code = 36 then .nameTooLong else .other words code.toNat
  | e => .other (toString e) 5

/-- The text of a file. -/
def readFile (path : String) : IO (Except FileError String) := do
  try
    let bytes ← IO.FS.readBinFile path
    match String.fromUTF8? bytes with
    | some text => return .ok text
    | none => return .error .notText
  catch e => return .error (FileError.ofSystem e)

/-- Writes a file. -/
def writeFile (path text : String) : IO (Except FileError Unit) := do
  try
    IO.FS.writeFile path text
    return .ok ()
  catch e => return .error (FileError.ofSystem e)

namespace Plan

/-- Ends a run that fails. -/
def reportFailure (f : Failure) : IO UInt32 := do
  IO.eprint f.text
  return 1

/-- Carries out the steps of a plan. -/
def performSteps (p : Plan) : List Step → IO UInt32
  | [] =>
      match p.failure with
      | some f => reportFailure f
      | none => return 0
  | .log line :: steps => do
      IO.eprintln line
      p.performSteps steps
  | .print text :: steps => do
      IO.print text
      p.performSteps steps
  | .write path text :: steps => do
      match ← writeFile path text with
      | .ok () => p.performSteps steps
      | .error e => reportFailure (p.unwritable path e)

/-- Carries out a plan. -/
def perform (p : Plan) : IO UInt32 := p.performSteps p.steps

end Plan

end Sequencer

open Sequencer Sequencer.CommandLine in
/-- Compiles the description that the arguments name. -/
def main (arguments : List String) : IO UInt32 := do
  match Request.ofArguments arguments with
  | .help =>
      IO.print helpText
      return 0
  | .version =>
      IO.print versionText
      return 0
  | .misuse =>
      IO.eprint helpText
      return 2
  | .run a =>
      let content ← readFile a.description
      let bytes ← IO.getRandomBytes 16
      let now ← Std.Time.Timestamp.now
      let time := Timestamp.ofClock now.toNanosecondsSinceUnixEpoch.val
      (plan a content (Manifest.randomId bytes.toList) time).perform
