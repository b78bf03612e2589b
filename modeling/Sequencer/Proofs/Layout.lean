import Mathlib.Data.List.Basic
import Sequencer.Program

/-!
# The layout of control code

The lines of a program are described here by what stands on them and how deep
they are indented.  An `outline` knows nothing of margins: it gives every line
its depth, one step for statements and for the lines that open and close a
guarded body, and two steps for the statements inside such a body.  The lines of
code are the outline with each depth written out as so many steps of indentation.

## Main Definitions

* `Statement.code` — a statement without its margin.
* `Item.outline`, `Program.outline` — lines with their depths.
* `Emitter.indented` — a line at its depth.

## Main Results

* `Emitter.block_eq_outline` — a block is its header and the indented outline.
* `Emitter.emit_eq_outline` — what is added to the lines that are there.
* `Emitter.text_block_ne_empty` — the text of a block is never empty.
* `State.block_eq_map`, `State.block_of_rows` — the lines of a state come from its rows.
* `State.emit_eq_map` — the lines that are there do not matter to a state.
-/

namespace Sequencer

/-- A statement without its margin. -/
def Statement.code (register : String) : Statement → String
  | .assign s v => s.name ++ " = " ++ v ++ ";"
  | .goto t => register ++ ".d = " ++ register ++ "." ++ t ++ ";"

/-- The lines of an item, each with its depth. -/
def Item.outline (register : String) : Item → List (Nat × String)
  | .plain s => [(1, s.code register)]
  | .guarded condition body none =>
      [(1, "if(" ++ condition ++ ") \x7b")] ++
      body.map (fun s => (2, s.code register)) ++
      [(1, "\x7d")]
  | .guarded condition body (some other) =>
      [(1, "if(" ++ condition ++ ") \x7b")] ++
      body.map (fun s => (2, s.code register)) ++
      [(1, "\x7d else \x7b")] ++
      other.map (fun s => (2, s.code register)) ++
      [(1, "\x7d")]

/-- The lines of a program, each with its depth. -/
def Program.outline (register : String) (p : Program) : List (Nat × String) :=
  p.flatMap (Item.outline register)

namespace Emitter

/-- A line behind as many steps of indentation as its depth says. -/
def indented (e : Emitter) (line : Nat × String) : String :=
  String.join (List.replicate line.1 e.indent) ++ line.2

@[simp] theorem indented_one (e : Emitter) (text : String) :
    e.indented (1, text) = e.indent ++ text := by
  simp [indented]

@[simp] theorem indented_two (e : Emitter) (text : String) :
    e.indented (2, text) = e.indent ++ e.indent ++ text := by
  simp [indented, List.replicate]

/-- A statement line is the margin and the code of the statement. -/
theorem statementLine_eq (e : Emitter) (margin : String) (s : Statement) :
    e.statementLine margin s = margin ++ s.code e.stateRegister := by
  cases s <;> simp [statementLine, Statement.code, String.append_assoc]

/-- The lines of an item are its outline, indented. -/
theorem itemLines_eq (e : Emitter) (item : Item) :
    e.itemLines item = (item.outline e.stateRegister).map e.indented := by
  have hbody : ∀ body : List Statement,
      body.map (e.statementLine (e.indent ++ e.indent)) =
        (body.map fun s => (2, s.code e.stateRegister)).map e.indented := by
    intro body
    simp [statementLine_eq]
  cases item with
  | plain s => simp [itemLines, Item.outline, statementLine_eq]
  | guarded condition body otherwise =>
      cases otherwise with
      | none => simp [itemLines, Item.outline, hbody, String.append_assoc]
      | some other => simp [itemLines, Item.outline, hbody, String.append_assoc]

/-- **A block is its header followed by the indented outline of its program.** -/
theorem block_eq_outline (e : Emitter) (state : String) (p : Program) :
    e.block state p =
      (e.stateRegister ++ "." ++ state ++ ":") ::
        (p.outline e.stateRegister).map e.indented := by
  have hlines : e.itemLines = fun item => (item.outline e.stateRegister).map e.indented :=
    funext e.itemLines_eq
  rw [block, header, Program.outline, List.map_flatMap, hlines]

/-- Behind the lines that are there, a state adds its header and the indented outline
of the program of its rows. -/
theorem emit_eq_outline (e : Emitter) (state : String) (rule : Option Rule) (rows : List Row)
    (lines : List String) :
    e.emit state rule rows lines =
      lines ++ (e.stateRegister ++ "." ++ state ++ ":") ::
        ((Program.ofRows e.readMarker (rule.bind Rule.elseTarget) rows).outline
          e.stateRegister).map e.indented := by
  rw [emit, block_eq_outline]

/-- The text of a block is never empty: it begins with its header. -/
theorem text_block_ne_empty (e : Emitter) (state : String) (p : Program) :
    "\n".intercalate (e.block state p) ≠ "" := by
  intro h
  have hlist := congrArg String.toList h
  rw [block_eq_outline] at hlist
  cases hlines : (p.outline e.stateRegister).map e.indented with
  | nil =>
      rw [hlines, String.intercalate_singleton] at hlist
      simp at hlist
  | cons line lines =>
      rw [hlines, String.intercalate_cons_cons] at hlist
      simp at hlist

end Emitter

namespace State

/-- The lines of a state are the block of its rows. -/
theorem block_eq_map (e : Emitter) (s : State) :
    s.block e =
      s.rows.map fun rows => e.block s.name (Program.ofRows e.readMarker s.elseTarget rows) := by
  rw [block, emit]
  cases s.rows <;> rfl

/-- A state adds the same lines whatever is there. -/
theorem emit_eq_map (e : Emitter) (lines : List String) (s : State) :
    s.emit e lines = (s.block e).map (lines ++ ·) := by
  rw [block_eq_map, emit]
  cases s.rows <;> rfl

/-- The lines of a state that can be lined up are the layout of a program. -/
theorem block_of_rows (e : Emitter) {s : State} {rows : List Row} (h : s.rows = .ok rows) :
    s.block e = .ok ((e.stateRegister ++ "." ++ s.name ++ ":") ::
      ((Program.ofRows e.readMarker s.elseTarget rows).outline e.stateRegister).map
        e.indented) := by
  rw [block_eq_map, h, ← Emitter.block_eq_outline]
  rfl

end State

end Sequencer
