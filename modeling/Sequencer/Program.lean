import Sequencer.Emitter
import Sequencer.Row

/-!
# Programs

The code of a state is a small program: assignments to signals and to the next
state, some of them guarded by a condition.  A program can be laid out as lines
of code, and it can be run: assignments take effect in order, so that the last
one to a signal wins.

## Main Definitions

* `Statement`, `Item`, `Program` — the parts of the code of a state.
* `Program.ofRows` — the program of the rows of a state.
* `Emitter.block` — a program laid out as lines under the header of its state.
* `Emitter.emit`, `State.emit` — adds the block of a state to lines that are there.
* `Program.run` — what a program assigns when certain conditions hold.
-/

namespace Sequencer

/-- An assignment to a signal or to the next state. -/
inductive Statement where
  | assign (signal : Signal) (value : String)
  | goto (target : String)
  deriving DecidableEq, Repr

/-- A statement that is always executed, or a body guarded by a condition with
an optional body for where the condition fails. -/
inductive Item where
  | plain (statement : Statement)
  | guarded (condition : String) (body : List Statement) (otherwise : Option (List Statement))
  deriving DecidableEq, Repr

/-- The code of a state, in order of execution. -/
abbrev Program := List Item

/-! ### From rows to programs -/

namespace Row

/-- The assignments of the row, and then its move to `target`. -/
def body (r : Row) (target : Option String) : List Statement :=
  r.assignments.map (fun p => .assign p.1 p.2) ++ target.toList.map .goto

/-- The code of one row: its body, guarded unless the row is unconditional.
Where the guard fails, an else target is taken with the same assignments. -/
def items (elseTarget : Option String) (r : Row) : Program :=
  if r.isUnconditional then
    (r.body r.target).map .plain
  else
    [.guarded r.condition (r.body r.target) (elseTarget.map fun t => r.body (some t))]

end Row

namespace Program

/-- What stands before the rows: the second read address of the first row, if
some condition uses the data read with it, and the first row's end marker. -/
def preloads (readMarker : String) (rows : List Row) : List Statement :=
  match rows with
  | [] => []
  | first :: _ =>
      (if rows.any fun r => Text.occursIn readMarker.toList r.condition.toList then
        (first.value? .readB).toList.map (.assign .readB)
      else []) ++
      (first.value? .finished).toList.map (.assign .finished)

/-- The program of the rows of a state. -/
def ofRows (readMarker : String) (elseTarget : Option String) (rows : List Row) : Program :=
  (preloads readMarker rows).map .plain ++ rows.flatMap (Row.items elseTarget)

end Program

/-! ### Layout -/

namespace Emitter

/-- The line of a statement. -/
def statementLine (e : Emitter) (margin : String) : Statement → String
  | .assign s v => margin ++ s.name ++ " = " ++ v ++ ";"
  | .goto t => margin ++ e.stateRegister ++ ".d = " ++ e.stateRegister ++ "." ++ t ++ ";"

/-- The lines of an item, indented by one step and the bodies by two. -/
def itemLines (e : Emitter) : Item → List String
  | .plain s => [e.statementLine e.indent s]
  | .guarded condition body otherwise =>
      let inner := e.indent ++ e.indent
      (e.indent ++ "if(" ++ condition ++ ") \x7b") :: body.map (e.statementLine inner) ++
      (match otherwise with
        | none => []
        | some other => (e.indent ++ "\x7d else \x7b") :: other.map (e.statementLine inner)) ++
      [e.indent ++ "\x7d"]

/-- The line that opens the block of a state. -/
def header (e : Emitter) (state : String) : String :=
  e.stateRegister ++ "." ++ state ++ ":"

/-- The lines of a state: its header and its program. -/
def block (e : Emitter) (state : String) (program : Program) : List String :=
  e.header state :: program.flatMap e.itemLines

/-- Adds the block of a state behind the given lines, where `rows` are the rows of the
state and `rule` is its rule. -/
def emit (e : Emitter) (state : String) (rule : Option Rule) (rows : List Row)
    (lines : List String) : List String :=
  lines ++ e.block state (Program.ofRows e.readMarker (rule.bind Rule.elseTarget) rows)

end Emitter

/-! ### Execution -/

/-- What a run has assigned so far. -/
structure Effect where
  signals : SignalMap String
  next : Option String
  deriving DecidableEq

namespace Effect

/-- Nothing is assigned. -/
def none : Effect := ⟨.empty, Option.none⟩

/-- Executes one statement; it replaces earlier assignments. -/
def exec (e : Effect) : Statement → Effect
  | .assign s v => { e with signals := e.signals.set s v }
  | .goto t => { e with next := some t }

/-- Executes statements in order. -/
def execAll (e : Effect) (statements : List Statement) : Effect :=
  statements.foldl exec e

/-- Executes an item, where `holds` says which conditions hold. -/
def execItem (holds : String → Bool) (e : Effect) : Item → Effect
  | .plain s => e.exec s
  | .guarded condition body otherwise =>
      if holds condition then e.execAll body
      else e.execAll (otherwise.getD [])

end Effect

/-- What a program assigns, where `holds` says which conditions hold. -/
def Program.run (holds : String → Bool) (program : Program) : Effect :=
  program.foldl (Effect.execItem holds) Effect.none

/-! ### States -/

namespace State

/-- The else target of the state's rule. -/
def elseTarget (s : State) : Option String := s.rule.bind Rule.elseTarget

/-- The program of a state. -/
def program (e : Emitter) (s : State) : Except ShapeError Program := do
  let rows ← s.rows
  return Program.ofRows e.readMarker s.elseTarget rows

/-- Adds the code of a state behind the given lines. -/
def emit (e : Emitter) (lines : List String) (s : State) : Except ShapeError (List String) := do
  let rows ← s.rows
  return e.emit s.name s.rule rows lines

/-- The lines of code of a state. -/
def block (e : Emitter) (s : State) : Except ShapeError (List String) :=
  s.emit e []

end State

/-- The code of a machine: the blocks of its states in order of registration, each
behind the lines of the states before it.  The first state that does not fit ends
the compilation. -/
def Machine.compile (m : Machine) (e : Emitter) : Except ShapeError String := do
  let lines ← m.states.foldlM (State.emit e) []
  return "\n".intercalate lines

end Sequencer
