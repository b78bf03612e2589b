/-!
# Command line arguments

The arguments are read from left to right, and the first fault ends the
reading.  Help and version are asked for where they stand, unless a fault comes
before them.

## Main Definitions

* `Arguments` — the description to compile and where to write the results.
* `Request` — what the arguments ask for.
* `Request.ofArguments` — the request of a list of arguments.
-/

namespace Sequencer.CommandLine

/-- The description to compile and where to write the results. -/
structure Arguments where
  description : String
  output : Option String := none
  dot : Option String := none
  states : Option String := none
  manifest : Option String := none
  checkTargets : Bool := false
  deriving DecidableEq, Repr

/-- What the arguments ask for. -/
inductive Request where
  | run (arguments : Arguments)
  | help
  | version
  | misuse
  deriving DecidableEq, Repr

/-- An option that takes a path. -/
inductive PathOption where
  | output
  | dot
  | states
  | manifest
  deriving DecidableEq, Repr

/-- What an argument that starts with a dash means. -/
inductive Switch where
  | path (option : PathOption)
  | checkTargets
  | help
  | version
  deriving DecidableEq, Repr

namespace Switch

/-- The switch of a long name. -/
def ofLong? (name : String) : Option Switch :=
  match name with
  | "output" => some (.path .output)
  | "dot" => some (.path .dot)
  | "states" => some (.path .states)
  | "manifest" => some (.path .manifest)
  | "check-targets" => some .checkTargets
  | "help" => some .help
  | "version" => some .version
  | _ => none

/-- The switch of a letter. -/
def ofLetter? (letter : Char) : Option Switch :=
  match letter with
  | 'o' => some (.path .output)
  | 'h' => some .help
  | 'V' => some .version
  | _ => none

end Switch

/-- The arguments that were read so far; the description may still be missing. -/
structure Draft where
  description : Option String := none
  output : Option String := none
  dot : Option String := none
  states : Option String := none
  manifest : Option String := none
  checkTargets : Bool := false

namespace Draft

/-- Fills a place that must be free with a text that must not be empty. -/
def fill (old : Option String) (value : String) : Option (Option String) :=
  if old.isSome || value.isEmpty then none else some (some value)

/-- Takes the description. -/
def setDescription (d : Draft) (value : String) : Option Draft :=
  (fill d.description value).map fun v => { d with description := v }

/-- Takes the path of an option. -/
def setPath (d : Draft) (value : String) : PathOption → Option Draft
  | .output => (fill d.output value).map fun v => { d with output := v }
  | .dot => (fill d.dot value).map fun v => { d with dot := v }
  | .states => (fill d.states value).map fun v => { d with states := v }
  | .manifest => (fill d.manifest value).map fun v => { d with manifest := v }

/-- Takes the flag for checking targets. -/
def setCheckTargets (d : Draft) : Option Draft :=
  if d.checkTargets then none else some { d with checkTargets := true }

/-- The request of complete arguments. -/
def finish (d : Draft) : Request :=
  match d.description with
  | none => .misuse
  | some description =>
      .run ⟨description, d.output, d.dot, d.states, d.manifest, d.checkTargets⟩

end Draft

/-- How an argument is read. -/
inductive Word where
  /-- A text that is no switch. -/
  | plain (text : String)
  /-- The mark after which no switches are read. -/
  | endOfSwitches
  /-- A switch, with the value that is attached to it. -/
  | switch (switch : Switch) (attached : Option String)
  | unknown
  deriving DecidableEq, Repr

namespace Word

/-- A long switch after its dashes; a value is attached by a sign of equality. -/
def ofLong (cs : List Char) : Word :=
  match Switch.ofLong? (String.ofList (cs.takeWhile (· ≠ '='))) with
  | none => .unknown
  | some s =>
      .switch s (match cs.dropWhile (· ≠ '=') with
        | [] => none
        | _ :: value => some (String.ofList value))

/-- A switch of one letter.  What follows the letter is attached to a switch that
takes a path, without a sign of equality at its front; letters after a switch
that takes nothing would be switches of their own. -/
def ofLetter (letter : Char) (rest : List Char) : Word :=
  match Switch.ofLetter? letter with
  | none => .unknown
  | some (.path option) =>
      .switch (.path option) (match rest with
        | [] => none
        | '=' :: value => some (String.ofList value)
        | value => some (String.ofList value))
  | some s => .switch s none

/-- How an argument is read; a dash alone is a plain text. -/
def ofArgument (argument : String) : Word :=
  match argument.toList with
  | ['-', '-'] => .endOfSwitches
  | '-' :: '-' :: cs => ofLong cs
  | '-' :: letter :: rest => ofLetter letter rest
  | _ => .plain argument

end Word

namespace Request

/-- The rest of the arguments when no switches are read. -/
def plainArguments : Draft → List String → Request
  | d, [] => d.finish
  | d, text :: rest =>
      match d.setDescription text with
      | none => .misuse
      | some d => plainArguments d rest

/-- The request of the arguments after those in the draft. -/
def read : Draft → List String → Request
  | d, [] => d.finish
  | d, argument :: rest =>
      match Word.ofArgument argument with
      | .unknown => .misuse
      | .endOfSwitches => plainArguments d rest
      | .plain text =>
          match d.setDescription text with
          | none => .misuse
          | some d => read d rest
      | .switch .help none => .help
      | .switch .version none => .version
      | .switch .checkTargets none =>
          match d.setCheckTargets with
          | none => .misuse
          | some d => read d rest
      | .switch (.path option) (some value) =>
          match d.setPath value option with
          | none => .misuse
          | some d => read d rest
      | .switch (.path option) none =>
          -- The path is the next argument, which must not be a switch.
          match rest with
          | [] => .misuse
          | next :: rest =>
              match Word.ofArgument next with
              | .plain value =>
                  match d.setPath value option with
                  | none => .misuse
                  | some d => read d rest
              | _ => .misuse
      | .switch _ (some _) => .misuse

/-- The request of a list of arguments. -/
def ofArguments (arguments : List String) : Request := read {} arguments

end Request

end Sequencer.CommandLine
