/-!
# Emitter settings

How control code is written: the register that holds the state, the text that
marks a condition on data from the second read address, and one step of
indentation.
-/

namespace Sequencer

/-- Naming and layout of control code. -/
structure Emitter where
  /-- The register that holds the state. -/
  stateRegister : String := "game_state"
  /-- A condition that contains this text uses data from the second read address. -/
  readMarker : String := "rb_data"
  /-- One step of indentation. -/
  indent : String := "  "
  deriving DecidableEq, Repr

namespace Emitter

/-- The settings that hold where nothing else is given. -/
def standard : Emitter := {}

instance : Inhabited Emitter := ⟨standard⟩

end Emitter

end Sequencer
