import Sequencer.Manifest
import Sequencer.Proofs.Forms

/-!
# The fields of a manifest

What may stand for each field of a manifest, and the slots of its draft.  All fields must
be there; the version is written with its digits.  A time has many texts, so the forms are
given with the text that stands for it; what is written takes the one in universal time.

## Main Definitions

* `Manifest.valueAt` — the value of a manifest with a given text for its time.
* `Manifest.forms` — what may stand for each field.
* `Manifest.slots` — where the fields are kept.

## Main Results

* `Manifest.slots_shape` — settled slots make the manifest.
* `Manifest.spelled_valueAt` — the text of its value spells the manifest.
-/

namespace Sequencer

open Json Json.Reader

namespace Manifest

variable {stray : List Char → Prop}

/-- The value of a manifest with a given text for its time. -/
def valueAt (time : String) (m : Manifest) : Value :=
  .object [("version", .number (.natural m.version.toNat)), ("id", .string m.id),
    ("generated_at", .string time), ("states", .ofTexts m.states),
    ("emitter", m.emitter.toJson)]

theorem toJson_eq_valueAt (m : Manifest) : m.toJson = m.valueAt m.generatedAt.text := rfl

theorem parseTime_eq {time : String} {t : Timestamp} (h : Timestamp.parse time = .ok t) :
    parseTime time = .ok t := by
  unfold parseTime
  rw [h]

/-- All fields must be there. -/
def forms (stray : List Char → Prop) (time : String) (m : Manifest) : List FieldForm :=
  [⟨"version", fun cs => cs = Nat.toDigits 10 m.version.toNat, False⟩,
    ⟨"id", IsQuoted m.id, False⟩,
    ⟨"generated_at", IsQuoted time, False⟩,
    ⟨"states", IsListOf IsQuoted m.states, False⟩,
    ⟨"emitter", SpellsRecord stray m.emitter.forms, False⟩]

/-- The slots of a manifest in its draft. -/
def slots (stray : List Char → Prop) (time : String) (m : Manifest) : List (Slot Draft) :=
  [⟨UInt32, Draft.version, fun d v => { d with version := some v }, versionReader, m.version,
      ⟨"version", fun cs => cs = Nat.toDigits 10 m.version.toNat, False⟩⟩,
    ⟨String, Draft.id, fun d v => { d with id := some v }, text, m.id,
      ⟨"id", IsQuoted m.id, False⟩⟩,
    ⟨Timestamp, Draft.generatedAt, fun d v => { d with generatedAt := some v },
      textOf "an RFC 3339 formatted date and time string" parseTime, m.generatedAt,
      ⟨"generated_at", IsQuoted time, False⟩⟩,
    ⟨List String, Draft.states, fun d v => { d with states := some v }, list text, m.states,
      ⟨"states", IsListOf IsQuoted m.states, False⟩⟩,
    ⟨Emitter, Draft.emitter, fun d v => { d with emitter := some v }, Emitter.reader, m.emitter,
      ⟨"emitter", SpellsRecord stray m.emitter.forms, False⟩⟩]

theorem slots_shape (time : String) (m : Manifest) : shape.Slots (m.slots stray time) m where
  fields := rfl
  distinct := by
    show ["version", "id", "generated_at", "states", "emitter"].Nodup
    decide
  start := by simp [slots, shape]
  get_set := by simp [slots]
  get_set_other := by simp [slots]
  finish draft hsettled := by
    simp only [slots, List.forall_mem_cons, Slot.IsSettled] at hsettled
    obtain ⟨hversion, hid, htime, hstates, hemitter, -⟩ := hsettled
    show draft.finish = .ok m
    unfold Draft.finish
    rw [some_of_settled hversion, some_of_settled hid, some_of_settled htime,
      some_of_settled hstates, some_of_settled hemitter]
    rfl

/-- **The text of its value spells the manifest**, with the same text for the time. -/
theorem spelled_valueAt (layout : Layout) (level : Nat) (time : String) (m : Manifest) :
    SpellsRecord stray (m.forms stray time) ((m.valueAt time).write layout level) := by
  have hversion : (Value.number (.natural m.version.toNat)).write layout (level + 1) =
      Nat.toDigits 10 m.version.toNat := by
    rw [Value.write]
    exact Nat.toList_repr
  have htext := isQuoted_write layout (level + 1)
  have hstates : IsListOf IsQuoted m.states ((Value.ofTexts m.states).write layout (level + 1)) :=
    isListOf_write m.states (isQuoted_write layout (level + 2))
  have hemitter : SpellsRecord stray m.emitter.forms (m.emitter.toJson.write layout (level + 1)) :=
    Emitter.spelled_toJson layout (level + 1) m.emitter
  refine InOrder.spellsRecord_write ?_ (m.slots_shape time).distinct
  exact .keep hversion (.keep (htext _) (.keep (htext _) (.keep hstates (.keep hemitter .nil))))

end Manifest

end Sequencer
