import Sequencer.Machine

/-!
# A tic-tac-toe controller

The controller of a game for two players on a grid of three by three boxes,
with pieces in three sizes.  A player chooses a box and a size; the piece is
placed if it fits, and then every line of the grid is checked for a win.

## Main Definitions

* `TicTacToe.Player` — what differs between the two players.
* `TicTacToe.turn` — the states of a player's turn.
* `TicTacToe.winChecks` — the states that check every line of the grid.
* `TicTacToe.machine` — the whole controller.
-/

namespace Sequencer.TicTacToe

/-- The sizes of the pieces, as registers and as states name them. -/
def sizes : List (String × String) := [("small", "SMALL"), ("med", "MED"), ("large", "LARGE")]

/-- What differs between the two players. -/
structure Player where
  /-- The player's number. -/
  id : Nat
  /-- The literal that is stored for each size. -/
  sizeCodes : List String
  /-- The condition under which a checked box does not belong to the player. -/
  miss : String
  /-- The other player's number. -/
  other : Nat

/-- The player who begins. -/
def first : Player := ⟨1, ["1", "5", "9"], "rb_data == 0", 2⟩

/-- The player who comes second. -/
def second : Player := ⟨2, ["2", "6", "10"], "rb_data == 1", 1⟩

/-- The three indices of a row or a column of the grid. -/
def indices : List Nat := [0, 1, 2]

/-- An output that drives the given signals. -/
def driving (pairs : List (Signal × Cases)) : Output :=
  pairs.foldl (fun o p => o.drive p.1 p.2) Output.empty

/-- The output of every state that checks a box. -/
def checkOutput : Output :=
  driving [(.readA, "regfile_addr.box_addr"), (.readB, "regfile_addr.temp4"),
    (.writeAddr, "regfile_addr.temp4"), (.literal, "2"), (.bSel, "1"),
    (.aluFn, "alu_op_code.mod"), (.writeEnable, "1")]

/-- A name with the player's number at its end. -/
def Player.named (p : Player) (name : String) : String := name ++ "_P" ++ p.id.repr

/-- The state in which a player chooses a box. -/
def selectBox (id : Nat) : String := "SELECT_BOX_P" ++ id.repr

/-! ### Checks for a win -/

/-- The rule of the box at `i` of a line: the first box is only read; a miss leads
on to the next line, a hit to the next box, and a full line wins. -/
def lineRule (p : Player) (i : Nat) (nextBox nextLine : String) : Rule :=
  match i with
  | 0 => Rule.always nextBox
  | 1 => Rule.branch p.miss nextLine nextBox
  | _ => Rule.branch p.miss nextLine ("HAS_P" ++ p.id.repr ++ "_WON")

/-- The state that checks box `i` of row `j`. -/
def rowState (p : Player) (j i : Nat) : String :=
  p.named ("COMPLETE_ROW_" ++ j.repr ++ "_CHECK_BOX_" ++ j.repr ++ i.repr)

/-- The state that checks box `i` of column `j`. -/
def columnState (p : Player) (j i : Nat) : String :=
  p.named ("COMPLETE_COL_" ++ j.repr ++ "_CHECK_BOX_" ++ j.repr ++ i.repr)

/-- The state that checks box `i` of the falling diagonal. -/
def fallingState (p : Player) (i : Nat) : String :=
  p.named ("COMPLETE_DIA_0_CHECK_BOX_" ++ i.repr ++ i.repr)

/-- The state that checks box `i` of the rising diagonal. -/
def risingState (p : Player) (i : Nat) : String :=
  p.named ("COMPLETE_DIA_1_CHECK_BOX_" ++ (2 - i).repr ++ i.repr)

/-- A state that checks a box. -/
def checkState (name : String) (rule : Rule) : State := ⟨name, checkOutput, some rule⟩

/-- The states that check the rows, then the columns, then the two diagonals. -/
def winChecks (p : Player) : List State :=
  (indices.flatMap fun j => indices.map fun i =>
    checkState (rowState p j i)
      (lineRule p i (rowState p j (i + 1))
        (if j < 2 then rowState p (j + 1) 0 else columnState p 0 0))) ++
  (indices.flatMap fun i => indices.map fun j =>
    checkState (columnState p j i)
      (lineRule p i (columnState p j (i + 1))
        (if j < 2 then columnState p (j + 1) 0 else fallingState p 0))) ++
  (indices.map fun i =>
    checkState (fallingState p i)
      (lineRule p i (fallingState p (i + 1)) (risingState p 0))) ++
  (indices.map fun i =>
    checkState (risingState p i)
      (lineRule p i (risingState p (i + 1)) (selectBox p.other)))

/-! ### A turn -/

/-- The state in which a box is chosen. -/
def selectBoxState (p : Player) : State where
  name := selectBox p.id
  output :=
    (driving
      [(.readA, ⟨indices.flatMap fun y => indices.map fun x =>
          "regfile_addr.box" ++ y.repr ++ x.repr⟩),
        (.writeAddr, "regfile_addr.box_addr"), (.aluFn, "alu_op_code.t_a"),
        (.writeEnable, "1")]).label .readA "0x00-0x09"
  rule := some (
    ({ conditions := ⟨(List.range 9).map fun b => "button_" ++ (b + 1).repr⟩
       targets := p.named "SELECT_SIZE" } : Rule).withLabel " buttons 1-9 pressed")

/-- The state in which a size is chosen, or the box given up. -/
def selectSizeState (p : Player) : State where
  name := p.named "SELECT_SIZE"
  output :=
    (((driving
      [(.aSel, "1"),
        (.readB, ⟨(sizes.map fun s =>
          "regfile_addr.pieces_remaining_" ++ s.1 ++ "_p" ++ p.id.repr) ++ ["0"]⟩),
        (.writeAddr, ⟨List.replicate 3 "regfile_addr.temp1" ++ ["regfile_addr.box_addr"]⟩),
        (.aluFn, ⟨List.replicate 3 "alu_op_code.lt" ++ ["alu_op_code.t_a"]⟩),
        (.writeEnable, "1")]).label .readB "0x09-0x0D/0").label .writeAddr
      "regfile_addr.temp1/box_addr").label .aluFn "alu_op_code.lt/t_a"
  rule := some
    { conditions := ⟨["button_a", "button_b", "button_c", "button_d"]⟩
      targets := ⟨(sizes.map fun s => p.named ("CHECK_SIZE_" ++ s.2)) ++ [selectBox p.id]⟩ }

/-- The states that check whether a piece of the chosen size is left. -/
def checkSizeStates (p : Player) : List State :=
  (sizes.zip p.sizeCodes).map fun (size, code) =>
    { name := p.named ("CHECK_SIZE_" ++ size.2)
      output := driving [(.literal, code), (.bSel, "1"), (.readB, "regfile_addr.temp1"),
        (.writeAddr, "regfile_addr.selected_size_p" ++ p.id.repr), (.aluFn, "alu_op_code.t_b"),
        (.writeEnable, "rb_data[0]")]
      rule := some (Rule.branch "rb_data == 0" (selectBox p.id)
        (p.named "VALIDATE_PLACEMENT" ++ "_PT1")) }

/-- The states that check whether the piece fits into the box. -/
def validateStates (p : Player) : List State :=
  let part (k : Nat) : String := p.named "VALIDATE_PLACEMENT" ++ "_PT" ++ k.repr
  [{ name := part 1
     output := driving [(.readA, "rb_data[4:0]"), (.readB, "regfile_addr.box_addr"),
      (.writeAddr, "regfile_addr.temp2"), (.aluFn, "alu_op_code.t_a"), (.writeEnable, "1")]
     rule := some (Rule.always (part 2)) },
    { name := part 2
      output := driving [(.readA, "regfile_addr.selected_size_p" ++ p.id.repr),
        (.readB, "regfile_addr.temp2"), (.writeAddr, "regfile_addr.temp3"),
        (.aluFn, "alu_op_code.sub"), (.writeEnable, "1")]
      rule := some (Rule.always (part 3)) },
    { name := part 3
      output := driving [(.readA, "regfile_addr.temp3"), (.literal, "2"), (.bSel, "1"),
        (.writeAddr, "regfile_addr.temp3"), (.aluFn, "alu_op_code.ltq"), (.writeEnable, "1")]
      rule := some (Rule.always (part 4)) },
    { name := part 4
      output := driving [(.readB, "regfile_addr.temp3")]
      rule := some (Rule.branch "rb_data == 0" (p.named "PLACE_PIECE") (selectBox p.id)) }]

/-- The state in which the piece is placed. -/
def placeState (p : Player) : State where
  name := p.named "PLACE_PIECE"
  output :=
    (driving [(.readA, "regfile_addr.box_addr"),
      (.readB, "regfile_addr.selected_size_p" ++ p.id.repr), (.ra2Sel, "1"),
      (.writeEnable, "1")]).label .aluFn "alu_op_code.t_b"
  rule := some (Rule.always (rowState p 0 0))

/-- The state that decides whether the player has won. -/
def hasWonState (p : Player) : State where
  name := "HAS_P" ++ p.id.repr ++ "_WON"
  output := driving [(.readB, "regfile_addr.temp4")]
  rule := some (Rule.branch p.miss (selectBox p.other) ("DECLARE_P" ++ p.id.repr ++ "_WINNER"))

/-- The states of a player's turn. -/
def turn (p : Player) : List State :=
  [selectBoxState p, selectSizeState p] ++ checkSizeStates p ++ validateStates p ++
    [placeState p] ++ winChecks p ++ [hasWonState p]

/-! ### The controller -/

/-- A press of one of the keys that start and end a game, going to `target`. -/
def restartRule (target : String) : Rule :=
  ({ conditions := "|c\x7bbutton_0, button_asterisk, button_hash\x7d"
     targets := target } : Rule).withLabel " 0, * or # pressed"

/-- The state that declares a player the winner. -/
def winnerState (p : Player) : State where
  name := "DECLARE_P" ++ p.id.repr ++ "_WINNER"
  output :=
    (driving [(.literal, p.id.repr), (.bSel, "1"), (.writeAddr, "regfile_addr.winner"),
      (.writeEnable, "1"), (.finished, "1")]).label .aluFn "alu_op_code.t_b"
  rule := some (Rule.always "END")

/-- All states of the controller. -/
def states : List State :=
  [⟨"START", driving [(.start, "1")], some (restartRule (selectBox 1))⟩] ++
    turn first ++ turn second ++ [winnerState first, winnerState second] ++
    [⟨"END", driving [(.finished, "1")], some (restartRule "START")⟩]

/-- The whole controller. -/
def machine : Machine := Machine.ofStates states

end Sequencer.TicTacToe
