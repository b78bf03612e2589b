import Sequencer.Machine

/-!
# Rows

The cases of a state are lined up into rows.  The number of cases comes from
the driven signals that have more than one value; everything that has a single
text is repeated in each row, and everything else must have one text for each
case.

## Main Definitions

* `Row` — one case: its condition, the values it assigns and its target.
* `ShapeError` — the part of a state whose length does not fit, with the lengths.
* `caseCount` — the number of cases that an output asks for.
* `expand` — the rows of a state.
-/

namespace Sequencer

/-- One case of a state. -/
structure Row where
  condition : String
  assignments : List (Signal × String)
  target : Option String
  deriving DecidableEq, Repr

namespace Row

/-- Whether the row applies in any case. -/
def isUnconditional (r : Row) : Bool := r.condition = always

/-- The first value that the row assigns to `signal`. -/
def value? (r : Row) (signal : Signal) : Option String :=
  (r.assignments.find? fun p => p.1 = signal).map Prod.snd

end Row

/-- A part of a state that has a length. -/
inductive ShapeError.Part where
  | attribute (signal : Signal)
  | conditions
  | targets
  deriving DecidableEq, Repr

/-- A part of a state whose length does not fit the number of cases. -/
structure ShapeError where
  state : String
  part : ShapeError.Part
  expected : Nat
  found : Nat
  deriving DecidableEq, Repr

/-- The message for a part that does not fit. -/
def ShapeError.message (e : ShapeError) : String :=
  "State '" ++ e.state ++ "': " ++
  match e.part with
  | .attribute s =>
      "attribute '" ++ s.name ++ "' has " ++ e.found.repr ++ " cases, expected " ++ e.expected.repr
  | .conditions =>
      "transition rule has " ++ e.found.repr ++ " conditions, expected " ++ e.expected.repr
  | .targets =>
      "transition rule has " ++ e.found.repr ++ " targets, expected " ++ e.expected.repr

/-- The number of cases of a state: the length of its first driven signal that
has several values, or one.  All signals with several values must agree. -/
def caseCount (state : String) (output : Output) : Except ShapeError Nat :=
  match output.driven.filter fun p => p.2.isVector with
  | [] => .ok 1
  | (_, first) :: rest =>
      match rest.find? fun p => p.2.length ≠ first.length with
      | some (signal, cases) => .error ⟨state, .attribute signal, first.length, cases.length⟩
      | none => .ok first.length

/-- The text of `cases` in each of `n` cases, or the reason why they do not fit. -/
def Cases.fit (state : String) (part : ShapeError.Part) (n : Nat) (cases : Cases) :
    Except ShapeError (Fin n → String) :=
  match cases.broadcast n with
  | some texts => .ok texts
  | none => .error ⟨state, part, n, cases.length⟩

/-- The condition of each case; a state without a rule always applies. -/
def fitConditions (state : String) (n : Nat) : Option Rule → Except ShapeError (Fin n → String)
  | some r => r.conditions.fit state .conditions n
  | none => .ok fun _ => always

/-- The target of each case; a state without a rule has none. -/
def fitTargets (state : String) (n : Nat) :
    Option Rule → Except ShapeError (Fin n → Option String)
  | some r => (r.targets.fit state .targets n).map fun texts i => some (texts i)
  | none => .ok fun _ => none

/-- The values of each driven signal in each case. -/
def fitColumns (state : String) (n : Nat) (output : Output) :
    Except ShapeError (List (Signal × (Fin n → String))) :=
  output.driven.mapM fun p => (p.2.fit state (.attribute p.1) n).map (p.1, ·)

/-- The rows of a state.  Conditions are fitted first, then the driven signals in
canonical order, then the targets; the first that does not fit is reported. -/
def expand (state : String) (output : Output) (rule : Option Rule) :
    Except ShapeError (List Row) := do
  let n ← caseCount state output
  let conditions ← fitConditions state n rule
  let columns ← fitColumns state n output
  let targets ← fitTargets state n rule
  return List.ofFn fun i : Fin n =>
    { condition := conditions i
      assignments := columns.map fun p => (p.1, p.2 i)
      target := targets i }

/-- The rows of a state as it stands in a machine. -/
def State.rows (s : State) : Except ShapeError (List Row) :=
  expand s.name s.output s.rule

end Sequencer
