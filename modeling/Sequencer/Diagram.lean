import Sequencer.Machine

/-!
# Diagrams

A machine is drawn as a sequence of calls, each adding a node or an edge to a
drawing.  States are drawn as they are registered, without lining up their
cases: a single target takes one edge, several targets are paired with as many
conditions.

## Main Definitions

* `Diagram.Call` — one node or one edge.
* `Diagram.EdgeError` — a state whose targets cannot be paired with its conditions.
* `Rule.arrows`, `Rule.Unpaired` — the edges of a rule, and when it has none.
* `State.edges` — the edges of a state.
* `Machine.draw` — the calls of a machine up to the first such state.
* `Machine.drawInto` — the calls fed to a drawing of any kind.
-/

namespace Sequencer

namespace Diagram

/-- One addition to a drawing. -/
inductive Call where
  | node (name label : String)
  | edge (source target label : String)
  deriving DecidableEq, Repr

/-- A state whose targets cannot be paired with its conditions. -/
structure EdgeError where
  state : String
  conditions : Nat
  targets : Nat
  deriving DecidableEq, Repr

/-- The message for targets that cannot be paired with conditions. -/
def EdgeError.message (e : EdgeError) : String :=
  "State '" ++ e.state ++ "': " ++ e.targets.repr ++ " targets cannot be paired with " ++
    e.conditions.repr ++ " conditions"

/-- The calls that were made, and why drawing ended early, if it did. -/
structure Drawing where
  calls : List Call
  failure : Option EdgeError
  deriving DecidableEq, Repr

end Diagram

open Diagram

namespace Rule

/-- The targets of a rule with the labels of their edges: a single target bears
the label of the rule, several targets bear one condition each. -/
def arrows (r : Rule) : Option (List (String × String)) :=
  match r.targets.values with
  | [target] => some [(target, r.shownLabel)]
  | targets =>
      if targets.length = r.conditions.length then some (targets.zip r.conditions.values)
      else none

/-- The rule has neither a single target nor as many targets as conditions, so that its
targets cannot be drawn. -/
def Unpaired (r : Rule) : Prop :=
  r.targets.length ≠ 1 ∧ r.targets.length ≠ r.conditions.length

instance (r : Rule) : Decidable r.Unpaired :=
  inferInstanceAs (Decidable (r.targets.length ≠ 1 ∧ r.targets.length ≠ r.conditions.length))

/-- The else target with the label of its edge. -/
def elseArrow (r : Rule) : Option (String × String) :=
  r.elseTarget.bind fun target => r.shownInverse.map (target, ·)

end Rule

namespace State

/-- The node of a state: its name above its output. -/
def node (s : State) : Call := .node s.name (s.name ++ "\n" ++ s.output.text)

/-- The edges of a state. -/
def edges (s : State) : Except EdgeError (List Call) :=
  match s.rule with
  | none => .ok []
  | some r =>
      match r.arrows with
      | some arrows =>
          .ok ((arrows ++ r.elseArrow.toList).map fun a => .edge s.name a.1 a.2)
      | none => .error ⟨s.name, r.conditions.length, r.targets.length⟩

end State

namespace Diagram

/-- The calls for a list of states: each state's node and then its edges, up to
the first state whose edges cannot be drawn, of which only the node is drawn. -/
def ofStates : List State → Drawing
  | [] => ⟨[], none⟩
  | s :: rest =>
      match s.edges with
      | .error e => ⟨[s.node], some e⟩
      | .ok edges =>
          let tail := ofStates rest
          ⟨s.node :: edges ++ tail.calls, tail.failure⟩

end Diagram

namespace Machine

/-- The calls that draw a machine, in order of registration. -/
def draw (m : Machine) : Drawing := Diagram.ofStates m.states

/-- Feeds the calls of a machine to a drawing of any kind, which keeps what it
was fed before a failure. -/
def drawInto {σ : Type} (feed : σ → Call → σ) (m : Machine) (sink : σ) :
    σ × Option EdgeError :=
  (m.draw.calls.foldl feed sink, m.draw.failure)

end Machine

end Sequencer
