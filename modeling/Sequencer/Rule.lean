import Sequencer.Cases
import Sequencer.Text.Search

/-!
# Transition rules

A rule says under which conditions a state is left and for which targets.  With
an else target the rule is a branch: where its condition fails, the machine goes
to the else target.

## Main Definitions

* `Rule` — conditions, targets, an else target and two labels.
* `Rule.always`, `Rule.branch`, `Rule.orElse` — the ways to build a rule.
* `Rule.elseTarget` — the else target that counts: an empty name is no target.
* `Rule.shownLabel`, `Rule.shownInverse` — the labels that diagrams show.
-/

namespace Sequencer

/-- The condition that always holds. -/
def always : String := "always"

/-- The conditions and targets of leaving a state. -/
structure Rule where
  conditions : Cases
  targets : Cases
  otherwise : Option String := none
  label : Option String := none
  inverseLabel : Option String := none
  deriving DecidableEq, Repr

namespace Rule

/-- Goes to `target` in any case. -/
def always (target : String) : Rule :=
  { conditions := Cases.single Sequencer.always, targets := Cases.single target }

/-- Sets the else target; an empty name removes it. -/
def orElse (r : Rule) (target : String) : Rule :=
  { r with otherwise := if target = "" then none else some target }

/-- Goes to `targets` where `conditions` hold, and to `otherwise` where they fail. -/
def branch (conditions targets : Cases) (otherwise : String) : Rule :=
  ({ conditions, targets } : Rule).orElse otherwise

/-- Shows the edges of the rule as `label`. -/
def withLabel (r : Rule) (label : String) : Rule :=
  { r with label := some label }

/-- Shows the else edge of the rule as `label`. -/
def withInverseLabel (r : Rule) (label : String) : Rule :=
  { r with inverseLabel := some label }

/-- The else target that counts: an empty name is no target. -/
def elseTarget (r : Rule) : Option String :=
  r.otherwise.filter (· ≠ "")

/-- Whether the rule has an else target. -/
def isBranch (r : Rule) : Bool := r.elseTarget.isSome

/-- Whether the rule has the one condition that always holds. -/
def isUnconditional (r : Rule) : Bool := r.conditions.values = [Sequencer.always]

/-- The label of the edges to the targets. -/
def shownLabel (r : Rule) : String := r.label.getD r.conditions.text

/-- The conditions with `==` turned into `!=`, on one line. -/
def derivedInverse (r : Rule) : String :=
  Cases.separator.intercalate
    (r.conditions.values.map fun c => String.ofList (Text.negateEquals c.toList))

/-- The label of the else edge, if there is one. -/
def shownInverse (r : Rule) : Option String :=
  r.elseTarget.map fun _ => r.inverseLabel.getD r.derivedInverse

/-- The names that the rule refers to: its targets in order, then its else target. -/
def references (r : Rule) : List String :=
  r.targets.values ++ r.elseTarget.toList

@[simp] theorem elseTarget_orElse (r : Rule) (t : String) :
    (r.orElse t).elseTarget = if t = "" then none else some t := by
  by_cases h : t = "" <;> simp [orElse, elseTarget, h]

end Rule

end Sequencer
