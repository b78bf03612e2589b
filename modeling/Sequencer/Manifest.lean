import Sequencer.Description.Parts
import Sequencer.Timestamp

/-!
# Build manifests

A manifest records one compilation: which states were compiled, with which
settings, and when.  Its version says how to read it; only one version is
supported.

## Main Definitions

* `Manifest` — the record of a compilation.
* `Manifest.ofMachine` — the manifest of a machine, given its identifier and time.
* `Manifest.pretty`, `Manifest.parse` — to text and from text.
-/

namespace Sequencer

open Json Json.Reader

/-- The record of one compilation. -/
structure Manifest where
  version : UInt32
  id : String
  generatedAt : Timestamp
  states : List String
  emitter : Emitter
  deriving DecidableEq

namespace Manifest

/-- The version that is written and read. -/
def supported : UInt32 := 1

/-- The manifest of a machine that is compiled with the given settings. -/
def ofMachine (m : Machine) (e : Emitter) (id : String) (time : Timestamp) : Manifest :=
  ⟨supported, id, time, m.names, e⟩

/-- An identifier made of sixteen bytes of chance: hexadecimal digits in five
groups, with the marks of an identifier made by chance in the third and fourth. -/
def randomId (bytes : List UInt8) : String :=
  let marked := bytes.zipIdx.map fun (b, i) =>
    if i = 6 then b &&& 0x0F ||| 0x40 else if i = 8 then b &&& 0x3F ||| 0x80 else b
  String.ofList (marked.zipIdx.flatMap fun (b, i) =>
    (if i = 4 ∨ i = 6 ∨ i = 8 ∨ i = 10 then ['-'] else []) ++
      [Json.hexDigit (b.toNat / 16), Json.hexDigit (b.toNat % 16)])

/-- The JSON value of a manifest. -/
def toJson (m : Manifest) : Value :=
  .object [("version", .number (.natural m.version.toNat)), ("id", .string m.id),
    ("generated_at", .string m.generatedAt.text), ("states", .ofTexts m.states),
    ("emitter", m.emitter.toJson)]

/-- The text of a manifest over several lines. -/
def pretty (m : Manifest) : String := m.toJson.pretty

/-- A manifest that is being read. -/
structure Draft where
  version : Option UInt32 := none
  id : Option String := none
  generatedAt : Option Timestamp := none
  states : Option (List String) := none
  emitter : Option Emitter := none

/-- The manifest of a draft: it must have all fields. -/
def Draft.finish (d : Draft) : Except String Manifest := do
  let version ← need "version" d.version
  let id ← need "id" d.id
  let generatedAt ← need "generated_at" d.generatedAt
  let states ← need "states" d.states
  let emitter ← need "emitter" d.emitter
  return ⟨version, id, generatedAt, states, emitter⟩
where
  /-- A value that must be there. -/
  need {α : Type} (key : String) : Option α → Except String α
    | some a => .ok a
    | none => .error key

/-- The timestamp of a text, or the message that it is none. -/
def parseTime (text : String) : Except String Timestamp :=
  match Timestamp.parse text with
  | .ok t => .ok t
  | .error e => .error e.message

/-- Reads a version. -/
def versionReader : Reader UInt32 := do
  return UInt32.ofNat (← natural UInt32.size "u32")

/-- How a manifest is read. -/
def shape : Shape Draft Manifest where
  name := "BuildManifest"
  fields :=
    [.slot "version" Draft.version (fun d v => { d with version := some v }) versionReader,
      .slot "id" Draft.id (fun d v => { d with id := some v }) text,
      .slot "generated_at" Draft.generatedAt (fun d v => { d with generatedAt := some v })
        (textOf "an RFC 3339 formatted date and time string" parseTime),
      .slot "states" Draft.states (fun d v => { d with states := some v }) (list text),
      .slot "emitter" Draft.emitter (fun d v => { d with emitter := some v }) Emitter.reader]
  start := {}
  finish := Draft.finish

/-- Reads a manifest of any version. -/
def reader : Reader Manifest := record shape

/-- Why a text is no manifest. -/
inductive ParseError where
  | unreadable (cause : ReadError)
  | unsupportedVersion (found supported : UInt32)
  deriving DecidableEq, Repr

/-- The message for a manifest of the wrong shape. -/
def refusal (cause : Mismatch) : String := "Deserialization failed: " ++ cause.message

/-- The message for a manifest of another version. -/
def unsupported (found supported : UInt32) : String :=
  "Unsupported manifest version " ++ found.toNat.repr ++ ", supported: " ++ supported.toNat.repr

/-- The manifest of a text; the version is looked at when the whole text was read. -/
def parse (text : String) : Except ParseError Manifest :=
  match readAll reader text with
  | .error cause => .error (.unreadable cause)
  | .ok m => if m.version = supported then .ok m
      else .error (.unsupportedVersion m.version supported)

end Manifest

end Sequencer
