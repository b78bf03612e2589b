import Sequencer.Signal

/-!
# Maps from signals

A `SignalMap` assigns a value to some of the signals.  There are only finitely
many signals, so the map is represented extensionally, by its look-up function:
two maps are equal exactly when they answer every look-up alike, and the order
in which a map was filled leaves no trace.

## Main Definitions

* `SignalMap.set` — assigns a value, replacing any earlier one.
* `SignalMap.toList` — the assigned signals with their values, in canonical order.
* `SignalMap.ofList` — assigns a list of pairs from left to right.
-/

namespace Sequencer

/-- A value for some of the signals. -/
structure SignalMap (α : Type) where
  get? : Signal → Option α

namespace SignalMap

variable {α : Type}

@[ext] theorem ext {m n : SignalMap α} (h : ∀ s, m.get? s = n.get? s) : m = n := by
  cases m; cases n; congr; funext s; exact h s

/-- The map that assigns nothing. -/
def empty : SignalMap α := ⟨fun _ => none⟩

instance : Inhabited (SignalMap α) := ⟨empty⟩

/-- Assigns `value` to `signal`, replacing any earlier value. -/
def set (m : SignalMap α) (signal : Signal) (value : α) : SignalMap α :=
  ⟨fun s => if s = signal then some value else m.get? s⟩

/-- The assigned signals with their values, in canonical order. -/
def toList (m : SignalMap α) : List (Signal × α) :=
  Signal.all.filterMap fun s => (m.get? s).map (s, ·)

/-- Whether nothing is assigned. -/
def isEmpty (m : SignalMap α) : Bool :=
  Signal.all.all fun s => (m.get? s).isNone

/-- Assigns the pairs from left to right, so that the last pair of a signal wins. -/
def ofList (pairs : List (Signal × α)) : SignalMap α :=
  pairs.foldl (fun m p => m.set p.1 p.2) empty

instance [DecidableEq α] : DecidableEq (SignalMap α) := fun m n =>
  decidable_of_iff (∀ s ∈ Signal.all, m.get? s = n.get? s)
    ⟨fun h => ext fun s => h s (Signal.mem_all s), fun h _ _ => h ▸ rfl⟩

@[simp] theorem get?_empty (s : Signal) : (empty : SignalMap α).get? s = none := rfl

@[simp] theorem get?_set_self (m : SignalMap α) (s : Signal) (v : α) :
    (m.set s v).get? s = some v := by
  simp [set]

theorem get?_set (m : SignalMap α) (s t : Signal) (v : α) :
    (m.set s v).get? t = if t = s then some v else m.get? t := rfl

/-- The listing holds exactly the assigned pairs. -/
@[simp] theorem mem_toList {m : SignalMap α} {s : Signal} {v : α} :
    (s, v) ∈ m.toList ↔ m.get? s = some v := by
  simp [toList, List.mem_filterMap, Option.map_eq_some_iff]

@[simp] theorem toList_empty : (empty : SignalMap α).toList = [] := rfl

/-- A map is empty exactly when its listing is. -/
theorem isEmpty_iff {m : SignalMap α} : m.isEmpty = true ↔ m = empty := by
  constructor
  · intro h
    ext1 s
    simpa using List.all_eq_true.mp h s (Signal.mem_all s)
  · rintro rfl
    rfl

end SignalMap

end Sequencer
