import Sequencer.Proofs.Respelling

/-!
# Descriptions are read back

Writing and reading do not mirror each other.  Cases are written as a list but read
from a text or a list; labels, rules and the optional parts of a rule are left out
where there are none, and reading fills in what is missing; an else target that is
the empty text is still there.  Nevertheless reading undoes writing, part by part: the
written text of a part is one of its spellings, and all spellings are read alike.

Each part is read with as many containers open as its own nesting asks for, six
for a whole description, far below the bound of the reader.

## Main Results

* `Cases.reads_toJson`, `Output.reads_toJson`, `Rule.reads_toJson`,
  `Emitter.reads_toJson`, `State.reads_toJson` — the parts.
* `descriptions_read_back` — every description is read back from its text, and so
  is every part from its compact text.
-/

namespace Sequencer

open Json Json.Reader

theorem Signal.reads_toJson (s : Signal) : Reads Signal.reader 0 s.toJson s := by
  intro layout level
  unfold Signal.toJson
  rw [write_string]
  exact takes_textOf "a string" s.parse_name

theorem Cases.reads_toJson (c : Cases) : Reads Cases.reader 1 c.toJson c :=
  fun layout level => takes_spelled (c.spelled_toJson layout level)

/-- **Emitter settings are read back.** -/
theorem Emitter.reads_toJson (e : Emitter) : Reads Emitter.reader 1 e.toJson e :=
  fun layout level => takes_spelled (e.spelled_toJson layout level)

/-- **An output is read back**, also if it has no labels and they are left out. -/
theorem Output.reads_toJson (o : Output) : Reads Output.reader 3 o.toJson o :=
  fun layout level => takes_spelled (o.spelled_toJson layout level)

/-- **A rule is read back.**  An else target that is the empty text is there, and one
that is left out is not. -/
theorem Rule.reads_toJson (r : Rule) : Reads Rule.reader 2 r.toJson r :=
  fun layout level => takes_spelled (r.spelled_toJson layout level)

/-- **A state is read back**, with or without a rule. -/
theorem State.reads_toJson (s : State) : Reads State.reader 4 s.toJson s :=
  fun layout level => takes_spelled (s.spelled_toJson layout level)

/-- **A description is read back**: its settings and its states, in order and also
where names are repeated. -/
theorem Description.reads_toJson (d : Description) : Reads Description.reader 6 d.toJson d :=
  fun layout level => takes_spelled (d.spelled_toJson layout level)

/-- **Reading undoes writing.**  Every description is read back from its text over
several lines, whatever texts it holds and whichever of its parts are empty, missing
or repeated.  Every signal, every list of cases, every output, every rule, all
emitter settings and every state are read back from their compact texts. -/
theorem descriptions_read_back :
    (∀ d : Description, Description.parse d.pretty = .ok d) ∧
    (∀ s : Signal, readAll Signal.reader s.toJson.compact = .ok s) ∧
    (∀ c : Cases, readAll Cases.reader c.toJson.compact = .ok c) ∧
    (∀ o : Output, readAll Output.reader o.toJson.compact = .ok o) ∧
    (∀ r : Rule, readAll Rule.reader r.toJson.compact = .ok r) ∧
    (∀ e : Emitter, readAll Emitter.reader e.toJson.compact = .ok e) ∧
    ∀ s : State, readAll State.reader s.toJson.compact = .ok s := by
  refine ⟨fun d => ?_, fun s => ?_, fun c => ?_, fun o => ?_, fun r => ?_, fun e => ?_,
    fun s => ?_⟩
  · exact (d.reads_toJson.readAll_eq (by decide)).2
  · exact (s.reads_toJson.readAll_eq (by decide)).1
  · exact (c.reads_toJson.readAll_eq (by decide)).1
  · exact (o.reads_toJson.readAll_eq (by decide)).1
  · exact (r.reads_toJson.readAll_eq (by decide)).1
  · exact (e.reads_toJson.readAll_eq (by decide)).1
  · exact (s.reads_toJson.readAll_eq (by decide)).1

end Sequencer
