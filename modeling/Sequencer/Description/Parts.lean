import Sequencer.Json.Typed
import Sequencer.Machine
import Sequencer.Emitter

/-!
# The parts of a description

How signals, cases, outputs, rules, emitter settings and states are written as
JSON values and read from JSON text.  Writing has one form for each value;
reading takes many: the fields of a record come in any order or as a list,
fields with a default may be left out, and a single case may stand without
brackets.

## Main Definitions

* `toJson` in the namespace of each type — the JSON value of a part.
* `reader` in the namespace of each type — reads a part.
-/

namespace Sequencer

open Json Json.Reader

/-- A field that is read by `r` and kept in an optional place of the draft. -/
def Json.Field.slot {σ β : Type} (key : String) (get : σ → Option β) (set : σ → β → σ)
    (r : Reader β) : Field σ where
  key := key
  isSet draft := (get draft).isSome
  read draft := do return set draft (← r)

/-! ### Signals and cases -/

namespace Signal

/-- The JSON value of a signal. -/
def toJson (s : Signal) : Value := .string s.name

/-- The signal of a name, or the message that there is none. -/
def parse (name : String) : Except String Signal :=
  match ofName name with
  | .ok s => .ok s
  | .error e => .error e.message

/-- Reads a signal. -/
def reader : Reader Signal := textOf "a string" parse

end Signal

namespace Cases

/-- The JSON value of cases: always a list. -/
def toJson (c : Cases) : Value := .ofTexts c.values

/-- The text of a value that is one. -/
def textOf? : Value → Option String
  | .string s => some s
  | _ => none

/-- The cases of a value: a text, or a list of texts. -/
def ofJson? : Value → Option Cases
  | .string s => some (single s)
  | .array vs => (vs.mapM textOf?).map Cases.mk
  | _ => none

/-- The cases of a value, or the message that it has another shape. -/
def ofJson (v : Value) : Except Mismatch Cases :=
  match ofJson? v with
  | some c => .ok c
  | none => .error (.refused "data did not match any variant of untagged enum OneOrMany")

/-- Reads cases: the whole value is read before its shape is looked at. -/
def reader : Reader Cases := do check (ofJson (← value))

end Cases

namespace SignalMap

variable {α : Type}

/-- The JSON value of a map from signals, in canonical order. -/
def toJson (write : α → Value) (m : SignalMap α) : Value :=
  .object (m.toList.map fun p => (p.1.name, write p.2))

/-- Reads a map from signals; the last entry of a signal wins. -/
def reader (value : Reader α) : Reader (SignalMap α) := do
  return ofList (← Json.Reader.map Signal.parse value)

end SignalMap

/-! ### Outputs -/

namespace Output

/-- The JSON value of an output; labels are left out if there are none. -/
def toJson (o : Output) : Value :=
  .object (("signals", o.values.toJson Cases.toJson) ::
    if o.labels.isEmpty then [] else [("labels", o.labels.toJson .string)])

/-- An output that is being read. -/
structure Draft where
  values : Option (SignalMap Cases) := none
  labels : Option (SignalMap String) := none

/-- How an output is read. -/
def shape : Shape Draft Output where
  name := "StateOutput"
  fields :=
    [.slot "signals" Draft.values (fun d v => { d with values := some v })
        (SignalMap.reader Cases.reader),
      .slot "labels" Draft.labels (fun d v => { d with labels := some v })
        (SignalMap.reader Json.Reader.text)]
  start := {}
  finish d := .ok ⟨d.values.getD .empty, d.labels.getD .empty⟩

/-- Reads an output. -/
def reader : Reader Output := record shape

end Output

/-! ### Rules -/

namespace Rule

/-- A field that is left out if it has no value. -/
def optionalField (key : String) (value : Option String) : List (String × Value) :=
  (value.map fun v => (key, .string v)).toList

/-- The JSON value of a rule. -/
def toJson (r : Rule) : Value :=
  .object ([("conditions", r.conditions.toJson), ("targets", r.targets.toJson)] ++
    optionalField "otherwise" r.otherwise ++ optionalField "label" r.label ++
    optionalField "inverse_label" r.inverseLabel)

/-- A rule that is being read. -/
structure Draft where
  conditions : Option Cases := none
  targets : Option Cases := none
  otherwise : Option (Option String) := none
  label : Option (Option String) := none
  inverseLabel : Option (Option String) := none

/-- The rule of a draft: it must have conditions and targets. -/
def Draft.finish (d : Draft) : Except String Rule :=
  match d.conditions, d.targets with
  | some conditions, some targets =>
      .ok ⟨conditions, targets, d.otherwise.join, d.label.join, d.inverseLabel.join⟩
  | none, _ => .error "conditions"
  | _, none => .error "targets"

/-- How a rule is read. -/
def shape : Shape Draft Rule where
  name := "TransitionRule"
  fields :=
    [.slot "conditions" Draft.conditions (fun d v => { d with conditions := some v }) Cases.reader,
      .slot "targets" Draft.targets (fun d v => { d with targets := some v }) Cases.reader,
      .slot "otherwise" Draft.otherwise (fun d v => { d with otherwise := some v }) (orNull text),
      .slot "label" Draft.label (fun d v => { d with label := some v }) (orNull text),
      .slot "inverse_label" Draft.inverseLabel (fun d v => { d with inverseLabel := some v })
        (orNull text)]
  start := {}
  finish := Draft.finish

/-- Reads a rule. -/
def reader : Reader Rule := record shape

end Rule

/-! ### Emitter settings -/

namespace Emitter

/-- The JSON value of emitter settings. -/
def toJson (e : Emitter) : Value :=
  .object [("state_register", .string e.stateRegister), ("read_marker", .string e.readMarker),
    ("indent", .string e.indent)]

/-- Emitter settings that are being read. -/
structure Draft where
  stateRegister : Option String := none
  readMarker : Option String := none
  indent : Option String := none

/-- The settings of a draft: what is left out is standard. -/
def Draft.finish (d : Draft) : Emitter :=
  ⟨d.stateRegister.getD standard.stateRegister, d.readMarker.getD standard.readMarker,
    d.indent.getD standard.indent⟩

/-- How emitter settings are read. -/
def shape : Shape Draft Emitter where
  name := "EmitterConfig"
  fields :=
    [.slot "state_register" Draft.stateRegister (fun d v => { d with stateRegister := some v })
        text,
      .slot "read_marker" Draft.readMarker (fun d v => { d with readMarker := some v }) text,
      .slot "indent" Draft.indent (fun d v => { d with indent := some v }) text]
  start := {}
  finish d := .ok d.finish

/-- Reads emitter settings. -/
def reader : Reader Emitter := record shape

end Emitter

/-! ### States -/

namespace State

/-- The JSON value of a state; a rule is left out if there is none. -/
def toJson (s : State) : Value :=
  .object ([("name", .string s.name), ("output", s.output.toJson)] ++
    (s.rule.map fun r => ("transition", r.toJson)).toList)

/-- A state that is being read. -/
structure Draft where
  name : Option String := none
  output : Option Output := none
  rule : Option (Option Rule) := none

/-- The state of a draft: it must have a name. -/
def Draft.finish (d : Draft) : Except String State :=
  match d.name with
  | some name => .ok ⟨name, d.output.getD .empty, d.rule.join⟩
  | none => .error "name"

/-- How a state is read. -/
def shape : Shape Draft State where
  name := "StateDescription"
  fields :=
    [.slot "name" Draft.name (fun d v => { d with name := some v }) text,
      .slot "output" Draft.output (fun d v => { d with output := some v }) Output.reader,
      .slot "transition" Draft.rule (fun d v => { d with rule := some v }) (orNull Rule.reader)]
  start := {}
  finish := Draft.finish

/-- Reads a state. -/
def reader : Reader State := record shape

end State

end Sequencer
