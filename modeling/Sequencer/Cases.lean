/-!
# Cases

Signal values, conditions and targets are all given as `Cases`: an ordered list
of texts, one for each case of a state.  A single text stands for all cases.

## Main Definitions

* `Cases` — the list of texts; `Cases.single` is the one-element list.
* `Cases.isVector` — whether the list fixes the number of cases.
* `Cases.broadcast` — the list spread over a given number of cases.
-/

namespace Sequencer

/-- An ordered list of texts, one for each case. -/
structure Cases where
  values : List String
  deriving DecidableEq, Repr

namespace Cases

/-- The same text in every case. -/
def single (value : String) : Cases := ⟨[value]⟩

/-- A text stands for the cases that all hold it. -/
instance : Coe String Cases := ⟨single⟩

/-- The number of texts. -/
def length (c : Cases) : Nat := c.values.length

/-- Whether there is no text at all. -/
def isEmpty (c : Cases) : Bool := c.values.isEmpty

/-- Whether there is more than one text, so that the number of cases is fixed. -/
def isVector (c : Cases) : Bool := 1 < c.length

/-- The text between cases when they are shown on one line. -/
def separator : String := " | "

/-- All cases on one line. -/
def text (c : Cases) : String := separator.intercalate c.values

/-- One text for each of `n` cases: a single text is repeated, `n` texts are
taken as they are, and any other number of texts does not fit. -/
def broadcast (c : Cases) (n : Nat) : Option (Fin n → String) :=
  match c.values with
  | [v] => some fun _ => v
  | vs => if h : vs.length = n then some fun i => vs.get (i.cast h.symm) else none

@[simp] theorem length_single (v : String) : (single v).length = 1 := rfl

@[simp] theorem broadcast_single (v : String) (n : Nat) :
    (single v).broadcast n = some fun _ => v := rfl

/-- A list fits `n` cases exactly when it has one text or `n` of them. -/
theorem broadcast_isSome_iff (c : Cases) (n : Nat) :
    (c.broadcast n).isSome = true ↔ c.length = 1 ∨ c.length = n := by
  rcases c with ⟨_ | ⟨a, _ | ⟨b, r⟩⟩⟩ <;> simp [broadcast, length]

end Cases

end Sequencer
