import Sequencer.Proofs.Json.Numbers
import Sequencer.Proofs.Manifests
import Sequencer.Proofs.Respelling
import Sequencer.Proofs.Timestamps

/-!
# Manifest texts are stable

A manifest is read from texts that give its time in many ways, at any place and with any
fraction.  Once it is read it has one text, with the time in universal time, and reading
that text gives the same manifest.  The version is looked at last, so a manifest of another
version is always refused for that version and never for something else.

A manifest is read back from its value with *any* text for the time that is read as the
time of the manifest.  That the written text is stable is one case of this, and that a
local time is understood is another.

## Main Results

* `Json.Reader.takes_natural` — natural numbers.
* `Manifest.takes_spelled` — every spelling of a manifest, whatever its version.
* `Manifest.reads_valueAt` — manifests are read back from their values.
* `manifest_texts_are_stable` — texts of manifests.
-/

namespace Sequencer

open Json Json.Reader

/-! ### Numbers -/

/-- **The digits of a natural number are taken as that number** if it lies below the
bound. -/
theorem Json.Reader.takes_natural {bound n : Nat} (expected : String)
    (hbound : bound ≤ maxNatural) (h : n < bound) :
    Takes (natural bound expected) 0 (Nat.toDigits 10 n) n := by
  have hwhole := isWhole_toDigits n
  have hvalue := Text.digitsValue_toDigits n
  obtain ⟨c, tail, hdigits, hc⟩ := hwhole.exists_digit
  refine ⟨⟨c, tail, hdigits, isBlank_of_isDigit hc, ?_⟩, fun {depth gap rest} _ hgap hrest => ?_⟩
  · rintro rfl
    cases hc
  · rw [natural_whole depth expected hbound hwhole hgap hrest (hvalue.symm ▸ h), hvalue]

namespace Manifest

/-! ### Manifests of any version -/

theorem takes_version (version : UInt32) :
    Takes versionReader 0 (Nat.toDigits 10 version.toNat) version := by
  have hnatural : Takes (natural UInt32.size "u32") 0 (Nat.toDigits 10 version.toNat)
      version.toNat := takes_natural "u32" (by decide) version.toNat_lt
  refine hnatural.andThen fun depth rest => ?_
  rw [UInt32.ofNat_toNat]
  rfl

/-- **Every spelling of a manifest is read as that manifest**, whatever its version, if the
text for the time is read as its time. -/
theorem takes_spelled {m : Manifest} {time : String}
    (htime : Timestamp.parse time = .ok m.generatedAt) {cs : List Char}
    (h : SpellsRecord WellFormed (m.forms WellFormed time) cs) : Takes Manifest.reader 2 cs m := by
  refine (m.slots_shape time).takes_record ?_ (takes_stray 1) h
  simp only [slots, List.forall_mem_cons]
  refine ⟨fun cs hcs => ?_, fun _ h => (takes_isQuoted h).mono (by decide), fun cs hcs => ?_,
    fun _ => takes_isListOf fun _ _ => takes_isQuoted, fun _ => Emitter.takes_spelled,
    List.forall_mem_nil _⟩
  · rw [hcs]
    exact (takes_version m.version).mono (by decide)
  · unfold IsQuoted at hcs
    rw [hcs]
    exact (takes_textOf _ (parseTime_eq htime)).mono (by decide)

/-- A manifest is read back from its value. -/
theorem reads_valueAt {m : Manifest} {time : String}
    (h : Timestamp.parse time = .ok m.generatedAt) : Reads reader 2 (m.valueAt time) m :=
  fun layout level => takes_spelled h (m.spelled_valueAt layout level time)

/-! ### The version -/

/-- The version is looked at when the whole text was read. -/
theorem parse_of_readAll {text : String} {m : Manifest} (h : readAll reader text = .ok m) :
    parse text = if m.version = 1 then .ok m else .error (.unsupportedVersion m.version 1) := by
  unfold parse
  rw [h]
  rfl

theorem version_of_parse {text : String} {m : Manifest} (h : parse text = .ok m) :
    m.version = 1 := by
  unfold parse at h
  split at h
  · cases h
  · split at h
    · rename_i hversion
      obtain rfl := Except.ok.inj h
      exact hversion
    · cases h

/-- The message names the version that was found and the one that is supported. -/
theorem unsupported_eq (found : UInt32) :
    unsupported found 1 =
      "Unsupported manifest version " ++ found.toNat.repr ++ ", supported: 1" := by
  have hone : ", supported: " ++ (1 : UInt32).toNat.repr = ", supported: 1" := by decide
  unfold unsupported
  rw [String.append_assoc, hone]

/-- A manifest with a text for its time, accepted or refused for its version. -/
theorem parse_valueAt {m : Manifest} {time : String}
    (h : Timestamp.parse time = .ok m.generatedAt) :
    parse (m.valueAt time).pretty =
      if m.version = 1 then .ok m else .error (.unsupportedVersion m.version 1) :=
  parse_of_readAll ((reads_valueAt h).readAll_eq (by decide)).2

/-- The same with the written form of the time. -/
theorem parse_pretty {m : Manifest} (hfrom : 0 ≤ m.generatedAt.date.year)
    (huntil : m.generatedAt.date.year ≤ 9999) :
    parse m.pretty =
      if m.version = 1 then .ok m else .error (.unsupportedVersion m.version 1) := by
  unfold pretty
  rw [m.toJson_eq_valueAt]
  exact parse_valueAt (Timestamp.parse_text hfrom huntil)

end Manifest

/-! ### Texts of manifests -/

/-- **Manifest texts are stable, and their versions are checked.**  A manifest that was
read from any text, with a time that lies in a year of four digits of universal time, has
the supported version, is read back from its own text, and would be refused for its version
if it had another one.  Its own text gives the time in universal time, with the shortest
exact fraction.

A text may as well give the time at some place, with its offset from universal time, with
more digits than are kept or in a leap second: it is read as the manifest with that point
in time. -/
theorem manifest_texts_are_stable :
    (∀ (text : String) (m : Manifest), Manifest.parse text = .ok m →
      0 ≤ m.generatedAt.date.year → m.generatedAt.date.year ≤ 9999 →
        m.version = 1 ∧ Manifest.parse m.pretty = .ok m ∧
        (∀ v : UInt32, v ≠ 1 →
          Manifest.parse { m with version := v }.pretty = .error (.unsupportedVersion v 1) ∧
          Manifest.unsupported v 1 =
            "Unsupported manifest version " ++ v.toNat.repr ++ ", supported: 1") ∧
        ∃ l : LocalTime, l.time = m.generatedAt ∧ m.pretty = (m.valueAt l.text).pretty ∧
          l.zone = .universal ∧ Timestamp.ShortestFraction m.generatedAt.nano l.fraction) ∧
    ∀ (m : Manifest) (l : LocalTime), l.time = m.generatedAt →
      Manifest.parse (m.valueAt l.text).pretty =
        if m.version = 1 then .ok m else .error (.unsupportedVersion m.version 1) := by
  refine ⟨fun text m hparse hfrom huntil => ?_, fun m l htime => ?_⟩
  · have hversion := Manifest.version_of_parse hparse
    refine ⟨hversion, ?_, fun v hv => ⟨?_, Manifest.unsupported_eq v⟩, ?_⟩
    · rw [Manifest.parse_pretty hfrom huntil, if_pos hversion]
    · have hother : Manifest.parse { m with version := v }.pretty =
          if v = 1 then .ok { m with version := v } else .error (.unsupportedVersion v 1) :=
        Manifest.parse_pretty hfrom huntil
      rw [hother, if_neg hv]
    · obtain ⟨l, htime, htext, hzone, hfraction⟩ := Timestamp.exists_localTime hfrom huntil
      refine ⟨l, htime, ?_, hzone, hfraction⟩
      rw [htext, ← m.toJson_eq_valueAt]
      rfl
  · refine Manifest.parse_valueAt ?_
    rw [← htime]
    exact l.parse_text

/-- A leap second at a place where the new year has begun, with ten digits of a fraction. -/
def newYear : LocalTime where
  date := ⟨2000, 1, 1⟩
  isValid_date := rfl
  year_nonneg := by decide
  year_le := by decide
  hour := ⟨0, by decide⟩
  minute := ⟨15, by decide⟩
  second := Fin.last 60
  fraction := List.replicate 10 '9'
  isDigit_fraction c hc := by
    rw [List.eq_of_mem_replicate hc]
    rfl
  zone := .ahead ⟨5, by decide⟩ ⟨45, by decide⟩

/-- A manifest of the supported version that was made at that time. -/
def newYearBuild : Manifest := ⟨1, "\"", newYear.time, ["A", "A"], .standard⟩

/-- The text with the local time is accepted, and the text with universal time, which lies
in the year before, gives the same manifest.  The version after is refused. -/
theorem newYearBuild_is_stable :
    newYear.text = "2000-01-01T00:15:60.9999999999+05:45" ∧
    newYear.time.text = "1999-12-31T18:30:60.999999999Z" ∧
    Manifest.parse (newYearBuild.valueAt newYear.text).pretty = .ok newYearBuild ∧
    Manifest.parse newYearBuild.pretty = .ok newYearBuild ∧
    Manifest.parse { newYearBuild with version := 2 }.pretty =
      .error (.unsupportedVersion 2 1) := by
  have hread : Manifest.parse (newYearBuild.valueAt newYear.text).pretty = .ok newYearBuild :=
    manifest_texts_are_stable.2 newYearBuild newYear rfl
  obtain ⟨-, hstable, hrefused, -⟩ :=
    manifest_texts_are_stable.1 _ newYearBuild hread (by decide) (by decide)
  refine ⟨by decide, by decide, hread, hstable, ?_⟩
  exact (hrefused 2 (by decide)).1

end Sequencer
