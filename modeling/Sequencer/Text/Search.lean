/-!
# Searching and replacing in texts

Texts are searched as lists of characters, from left to right.

## Main Definitions

* `occursIn` — whether a text occurs somewhere inside another.
* `negateEquals` — every `==` turned into `!=`.
-/

namespace Sequencer.Text

/-- Whether `needle` occurs as a run of consecutive characters; the empty text
occurs everywhere. -/
def occursIn (needle : List Char) : List Char → Bool
  | [] => needle.isEmpty
  | c :: cs => needle.isPrefixOf (c :: cs) || occursIn needle cs

/-- Every `==` turned into `!=`, from left to right and without overlap, so that
of three signs in a row the third is left as it is. -/
def negateEquals : List Char → List Char
  | '=' :: '=' :: cs => '!' :: '=' :: negateEquals cs
  | c :: cs => c :: negateEquals cs
  | [] => []

@[simp] theorem occursIn_nil (cs : List Char) : occursIn [] cs = true := by
  cases cs <;> simp [occursIn]

/-- Negation keeps the number of characters. -/
@[simp] theorem length_negateEquals (cs : List Char) :
    (negateEquals cs).length = cs.length := by
  fun_induction negateEquals cs <;> simp_all

end Sequencer.Text
