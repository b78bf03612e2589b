import Sequencer.Output
import Sequencer.Rule

/-!
# State machines

A machine is a list of states with distinct names.  The order of the list is
the order of first registration; registering a name again replaces the state
where it stands.

## Main Definitions

* `State` — a name, an output and an optional rule; a state without a rule is terminal.
* `Machine` — states with distinct names, in order of registration.
* `Machine.add` — registers a state.
* `Machine.ofStates` — registers a list of states on the empty machine.
-/

namespace Sequencer

/-- A named state of a machine. -/
structure State where
  name : String
  output : Output
  rule : Option Rule
  deriving DecidableEq

/-- States with distinct names, in order of registration. -/
structure Machine where
  states : List State
  nodup : (states.map State.name).Nodup

namespace Machine

@[ext] theorem ext {m n : Machine} (h : m.states = n.states) : m = n := by
  cases m; cases n; congr

instance : DecidableEq Machine := fun m n =>
  decidable_of_iff (m.states = n.states) ⟨ext, fun h => h ▸ rfl⟩

/-- The machine without states. -/
def empty : Machine := ⟨[], List.nodup_nil⟩

instance : Inhabited Machine := ⟨empty⟩

/-- The names of the states, in order of registration. -/
def names (m : Machine) : List String := m.states.map State.name

/-- The number of states. -/
def length (m : Machine) : Nat := m.states.length

/-- The state of the given name. -/
def find? (m : Machine) (name : String) : Option State :=
  m.states.find? fun s => s.name = name

/-- Whether a state of the given name is registered. -/
def contains (m : Machine) (name : String) : Bool :=
  m.states.any fun s => s.name = name

/-- Puts `s` in the place of the state of the same name. -/
def replace (s : State) (states : List State) : List State :=
  states.map fun t => if t.name = s.name then s else t

/-- Replacing a state keeps all names where they stand. -/
@[simp] theorem map_name_replace (s : State) (states : List State) :
    (replace s states).map State.name = states.map State.name := by
  simp only [replace, List.map_map]
  refine List.map_congr_left fun t _ => ?_
  by_cases h : t.name = s.name <;> simp [h]

/-- Registers a state: in the place of the state of the same name, or else at the end. -/
def add (m : Machine) (s : State) : Machine :=
  if h : s.name ∈ m.states.map State.name then
    ⟨replace s m.states, by simpa using m.nodup⟩
  else
    ⟨m.states ++ [s], by
      rw [List.map_append, List.nodup_append]
      refine ⟨m.nodup, by simp, ?_⟩
      simpa using fun t ht e => h (List.mem_map.mpr ⟨t, ht, e⟩)⟩

/-- Registers a list of states, in order, on the empty machine. -/
def ofStates (states : List State) : Machine :=
  states.foldl add empty

@[simp] theorem contains_iff {m : Machine} {name : String} :
    m.contains name = true ↔ name ∈ m.names := by
  simp [contains, names]

end Machine

end Sequencer
