import Sequencer.SignalMap
import Sequencer.Cases

/-!
# State outputs

The output of a state says which signals the state drives and with which
values.  A label may replace the shown value of a signal; labels are for
diagrams only and never reach the code.

## Main Definitions

* `Output` — driven values and labels, each a map from signals.
* `Output.drive`, `Output.label` — give a signal its values or its label.
* `Output.driven` — the driven signals in canonical order.
* `Output.text` — the text that diagrams show.
-/

namespace Sequencer

/-- The signals that a state drives, and labels for showing them. -/
structure Output where
  values : SignalMap Cases
  labels : SignalMap String
  deriving DecidableEq

namespace Output

/-- The output that drives nothing. -/
def empty : Output := ⟨.empty, .empty⟩

instance : Inhabited Output := ⟨empty⟩

/-- Drives `signal` with `cases`, replacing earlier values. -/
def drive (o : Output) (signal : Signal) (cases : Cases) : Output :=
  { o with values := o.values.set signal cases }

/-- Shows `signal` as `label`, whether or not it is driven. -/
def label (o : Output) (signal : Signal) (label : String) : Output :=
  { o with labels := o.labels.set signal label }

/-- The driven signals with their values, in canonical order. -/
def driven (o : Output) : List (Signal × Cases) := o.values.toList

/-- Whether no signal is driven. -/
def isEmpty (o : Output) : Bool := o.values.isEmpty

/-- The shown value of `signal`: its label if it has one, else its cases. -/
def shown (o : Output) (signal : Signal) (cases : Cases) : String :=
  (o.labels.get? signal).getD cases.text

/-- One line for each driven signal, in canonical order. -/
def text (o : Output) : String :=
  ";\n".intercalate (o.driven.map fun p => p.1.name ++ " = " ++ o.shown p.1 p.2)

@[simp] theorem driven_empty : empty.driven = [] := rfl

@[simp] theorem driven_label (o : Output) (s : Signal) (l : String) :
    (o.label s l).driven = o.driven := rfl

end Output

end Sequencer
