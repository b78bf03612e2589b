import Sequencer.Proofs.LocalTimes

/-!
# Timestamps are read back

A timestamp whose year has four digits is written as a local time of universal time, and
so it is read back from its written form, with its second, also if that is a leap second,
and with all its nanoseconds.  The width of the fraction depends on the nanoseconds: no
more digits are written than are needed, in groups of three.

## Main Definitions

* `Timestamp.ShortestFraction` — the digits that are written for a fraction.

## Main Results

* `Timestamp.exists_shortestFraction` — the written fraction is exact and the shortest.
* `Timestamp.exists_localTime` — the written form is a local time of universal time.
* `Timestamp.parse_text` — the written form is read back.
-/

namespace Sequencer

open Calendar Text

attribute [ext] Timestamp

namespace Timestamp

/-! ### Fractions -/

/-- The digits stand for exactly so many nanoseconds.  They come in groups of three, and
no group could be left out. -/
structure ShortestFraction (nano : Nat) (ds : List Char) : Prop where
  isDigit : ∀ c ∈ ds, c.isDigit = true
  width : ds.length ∈ [0, 3, 6, 9]
  exact : digitsValue ds * Nat.pow 10 (9 - ds.length) = nano
  shortest : ds ≠ [] → digitsValue ds % 1000 ≠ 0

theorem ShortestFraction.nanoseconds_eq {nano : Nat} {ds : List Char}
    (h : ShortestFraction nano ds) : LocalTime.nanoseconds ds = nano := by
  have hwidths : ∀ k ∈ [0, 3, 6, 9], k ≤ 9 := by decide
  rw [← Scanner.nanoseconds_take h.isDigit, List.take_of_length_le (hwidths _ h.width)]
  exact h.exact

/-- One to three groups of digits, the last of which is not zero. -/
theorem exists_shortestFraction_padded {nano k n : Nat} (hk : k ∈ [3, 6, 9])
    (h : n < Nat.pow 10 k) (hexact : n * Nat.pow 10 (9 - k) = nano) (hgroup : n % 1000 ≠ 0) :
    ∃ ds, '.' :: padded k n = LocalTime.fractionText ds ∧ ShortestFraction nano ds := by
  have hpositive : ∀ k ∈ [3, 6, 9], 0 < k := by decide
  have hlength := length_padded (hpositive k hk) h
  obtain ⟨d, ds, hds⟩ := List.exists_cons_of_length_pos (hlength.symm ▸ hpositive k hk)
  refine ⟨padded k n, by rw [hds]; rfl, fun c => isDigit_of_mem_padded, ?_, ?_, fun _ => ?_⟩
  · rw [hlength]
    exact List.mem_cons_of_mem 0 hk
  · rw [digitsValue_padded, hlength, hexact]
  · rw [digitsValue_padded]
    exact hgroup

/-- **The written fraction is exact and the shortest.** -/
theorem exists_shortestFraction {nano : Nat} (h : nano < 1000000000) :
    ∃ ds, fractionText nano = LocalTime.fractionText ds ∧ ShortestFraction nano ds := by
  unfold fractionText
  split
  · rename_i hzero
    refine ⟨[], rfl, List.forall_mem_nil _, List.mem_cons_self, hzero.symm, ?_⟩
    exact fun hne => absurd rfl hne
  · split
    · refine exists_shortestFraction_padded (by decide) ?_ ?_ (by omega)
      · show nano / 1000000 < 1000
        omega
      · show nano / 1000000 * 1000000 = nano
        omega
    · split
      · refine exists_shortestFraction_padded (by decide) ?_ ?_ (by omega)
        · show nano / 1000 < 1000000
          omega
        · show nano / 1000 * 1000 = nano
          omega
      · exact exists_shortestFraction_padded (by decide) h (Nat.mul_one nano) (by omega)

/-! ### Whole timestamps -/

theorem minuteOfDay_lt (t : Timestamp) : t.minuteOfDay < 1440 := by
  unfold minuteOfDay minutesPerDay
  omega

/-- The day and the minute in it make up the minutes of a timestamp. -/
theorem dayNumber_date (t : Timestamp) :
    t.date.dayNumber * minutesPerDay + (t.minuteOfDay : Int) = t.minutes := by
  have hday : t.date.dayNumber = t.minutes / minutesPerDay := Date.dayNumber_ofDayNumber _
  rw [hday]
  unfold minuteOfDay minutesPerDay
  omega

section Universal

variable {t : Timestamp} (hfrom : 0 ≤ t.date.year) (huntil : t.date.year ≤ 9999)
  {ds : List Char} (hds : ShortestFraction t.nano ds)

/-- The local time of universal time with the given digits of its fraction. -/
def universal : LocalTime where
  date := t.date
  isValid_date := Date.isValid_ofDayNumber _
  year_nonneg := hfrom
  year_le := huntil
  hour := ⟨t.minuteOfDay / 60, Nat.div_lt_of_lt_mul t.minuteOfDay_lt⟩
  minute := ⟨t.minuteOfDay % 60, Nat.mod_lt _ (by decide)⟩
  second := t.second
  fraction := ds
  isDigit_fraction := hds.isDigit
  zone := .universal

theorem time_universal : (universal hfrom huntil hds).time = t := by
  ext
  · show t.date.dayNumber * minutesPerDay +
      (((t.minuteOfDay / 60 : Nat) : Int) * 60 + ((t.minuteOfDay % 60 : Nat) : Int)) - 0 = t.minutes
    have hwhole := t.dayNumber_date
    omega
  · rfl
  · exact hds.nanoseconds_eq

theorem text_universal (h : fractionText t.nano = LocalTime.fractionText ds) :
    (universal hfrom huntil hds).text = t.text := by
  have hyear : yearText t.date.year = padded 4 t.date.year.toNat := if_pos ⟨hfrom, huntil⟩
  unfold text LocalTime.text
  rw [hyear, h]
  rfl

end Universal

/-- **A timestamp whose year has four digits is written as a local time** of universal
time, with the shortest fraction. -/
theorem exists_localTime {t : Timestamp} (hfrom : 0 ≤ t.date.year)
    (huntil : t.date.year ≤ 9999) :
    ∃ l : LocalTime, l.time = t ∧ l.text = t.text ∧ l.zone = .universal ∧
      ShortestFraction t.nano l.fraction := by
  obtain ⟨ds, htext, hds⟩ := exists_shortestFraction t.nano.isLt
  exact ⟨universal hfrom huntil hds, time_universal hfrom huntil hds,
    text_universal hfrom huntil hds htext, rfl, hds⟩

/-- **A timestamp whose year has four digits is read back from its text.** -/
theorem parse_text {t : Timestamp} (hfrom : 0 ≤ t.date.year) (huntil : t.date.year ≤ 9999) :
    parse t.text = .ok t := by
  obtain ⟨l, htime, htext, -⟩ := exists_localTime hfrom huntil
  rw [← htext, l.parse_text, htime]

end Timestamp

end Sequencer
