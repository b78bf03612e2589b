import Sequencer.Machine

/-!
# Dangling targets

A target dangles when no state of its name is registered.  Compilation never
looks at target names; this check reports every dangling target at once.

## Main Definitions

* `Dangling` — a state with a target that is not registered.
* `Rule.targetsByKind` — what a rule refers to, and in which role.
* `Machine.dangling` — all dangling targets, in order of registration.
-/

namespace Sequencer

/-- The role of a target in its rule. -/
inductive Dangling.Kind where
  | direct
  | otherwise
  deriving DecidableEq, Repr

/-- A target that is not registered, with the state that refers to it. -/
structure Dangling where
  state : String
  target : String
  kind : Dangling.Kind
  deriving DecidableEq, Repr

/-- The message for a target that is not registered. -/
def Dangling.message (d : Dangling) : String :=
  "State '" ++ d.state ++ "' transitions to undeclared state '" ++ d.target ++ "'"

/-- What a rule refers to: its targets in order, then its else target. -/
def Rule.targetsByKind (r : Rule) : List (String × Dangling.Kind) :=
  r.targets.values.map (·, .direct) ++ r.elseTarget.toList.map (·, .otherwise)

/-- The dangling targets of one state, where `known` says which names are registered. -/
def State.dangling (known : String → Bool) (s : State) : List Dangling :=
  match s.rule with
  | none => []
  | some r =>
      (r.targetsByKind.filter fun p => !known p.1).map fun p => ⟨s.name, p.1, p.2⟩

/-- All dangling targets of a machine, in order of registration. -/
def Machine.dangling (m : Machine) : List Dangling :=
  m.states.flatMap (State.dangling m.contains)

/-- Whether every target is registered. -/
def Machine.isClosed (m : Machine) : Bool := m.dangling.isEmpty

end Sequencer
