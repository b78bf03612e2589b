/-!
# Control signals

A state machine controls a datapath through a fixed set of signals.  The set is
closed and ordered: every listing of signals in this library follows the
*canonical order*, the order of `Signal.all`.

## Main Definitions

* `Signal` — the closed set of control signals.
* `Signal.all` — every signal, in canonical order; `Signal.rank` is the position in it.
* `Signal.name` — the identifier of a signal, as it is written in code and descriptions.
* `Signal.ofName?` — the signal with a given identifier.
-/

namespace Sequencer

/-- A control signal of the datapath. -/
inductive Signal where
  | writeEnable
  | readA
  | readB
  | writeAddr
  | literal
  | aSel
  | bSel
  | ra2Sel
  | wdSel
  | aluFn
  | start
  | finished
  | nextState
  deriving DecidableEq, Repr

namespace Signal

/-- Every signal, in canonical order. -/
def all : List Signal :=
  [writeEnable, readA, readB, writeAddr, literal, aSel, bSel, ra2Sel, wdSel, aluFn, start,
    finished, nextState]

/-- The position of a signal in canonical order. -/
def rank : Signal → Nat
  | writeEnable => 0
  | readA => 1
  | readB => 2
  | writeAddr => 3
  | literal => 4
  | aSel => 5
  | bSel => 6
  | ra2Sel => 7
  | wdSel => 8
  | aluFn => 9
  | start => 10
  | finished => 11
  | nextState => 12

/-- The identifier of a signal. -/
def name : Signal → String
  | writeEnable => "we"
  | readA => "ra"
  | readB => "rb"
  | writeAddr => "rc"
  | literal => "literal"
  | aSel => "asel"
  | bSel => "bsel"
  | ra2Sel => "ra2sel"
  | wdSel => "wdsel"
  | aluFn => "alufn"
  | start => "start"
  | finished => "finished"
  | nextState => "state"

/-- The signal with the given identifier. -/
def ofName? (text : String) : Option Signal :=
  all.find? fun s => s.name = text

/-- Compares two signals by their canonical position. -/
instance : Ord Signal := ⟨fun a b => compare a.rank b.rank⟩

/-- Sorts a list of signals into canonical order, keeping repetitions. -/
def sort (signals : List Signal) : List Signal :=
  signals.mergeSort fun a b => a.rank ≤ b.rank

@[simp] theorem mem_all (s : Signal) : s ∈ all := by
  cases s <;> simp [all]

/-- Canonical order is strictly increasing in rank. -/
theorem pairwise_all : all.Pairwise fun a b => a.rank < b.rank := by
  decide

theorem rank_injective {a b : Signal} (h : a.rank = b.rank) : a = b := by
  cases a <;> cases b <;> simp_all [rank]

theorem name_injective {a b : Signal} (h : a.name = b.name) : a = b := by
  cases a <;> cases b <;> simp_all [name]

@[simp] theorem ofName?_name (s : Signal) : ofName? s.name = some s := by
  cases s <;> decide

end Signal

/-- A text that names no signal. -/
structure UnknownSignal where
  name : String
  deriving DecidableEq, Repr

/-- The message for a text that names no signal. -/
def UnknownSignal.message (e : UnknownSignal) : String :=
  "Unknown signal '" ++ e.name ++ "'"

/-- The signal with the given identifier, or the text that names none. -/
def Signal.ofName (text : String) : Except UnknownSignal Signal :=
  match Signal.ofName? text with
  | some s => .ok s
  | none => .error ⟨text⟩

end Sequencer
