import Sequencer.Proofs.Calendar
import Sequencer.Proofs.Digits
import Sequencer.Timestamp

/-!
# Local times are read

A time may be written as the date and the time of day at some place, together with how
far that place is ahead of universal time or behind it, and with a fraction of a second of
any length.  It is shown here which point in time such a text is read as.

The date is that of the place.  When the offset is taken away the day may change, and with
it the month and the year.  No boundary needs a case of its own, since the offset is taken
from a number of minutes.  Of a fraction only whole nanoseconds are kept, which is what the
reader does by dropping all digits behind the ninth.  The second is kept as it is, also if
it is a leap second.

Each part of the text is read on its own, whatever follows it.

## Main Definitions

* `Zone` — how far local time is from universal time.
* `LocalTime` — a date and time at some place; `LocalTime.text` is its text and
  `LocalTime.time` the point in time.

## Main Results

* `Timestamp.Scanner.twoDigits_padded`, `Timestamp.Scanner.year_padded`,
  `Timestamp.Scanner.fraction_text`, `Timestamp.Scanner.zone_text` — the parts.
* `LocalTime.ofLocal_time` — date, time of day and offset make the point in time.
* `LocalTime.parse_text` — a local time is read as its point in time.
-/

namespace Sequencer

open Calendar Text

/-! ### Local times -/

/-- How far local time is from universal time. -/
inductive Zone where
  | universal
  | ahead (hours : Fin 24) (minutes : Fin 60)
  | behind (hours : Fin 24) (minutes : Fin 60)

namespace Zone

/-- The distance from universal time as hours and minutes. -/
def distanceText (hours : Fin 24) (minutes : Fin 60) : List Char :=
  padded 2 hours ++ ':' :: padded 2 minutes

/-- A letter for universal time, and a signed distance otherwise. -/
def text : Zone → List Char
  | universal => ['Z']
  | ahead hours minutes => '+' :: distanceText hours minutes
  | behind hours minutes => '-' :: distanceText hours minutes

/-- The minutes by which local time is ahead of universal time. -/
def offset : Zone → Int
  | universal => 0
  | ahead hours minutes => hours * 60 + minutes
  | behind hours minutes => -(hours * 60 + minutes)

theorem natAbs_offset_lt (z : Zone) : z.offset.natAbs < 1440 := by
  cases z with
  | universal => decide
  | ahead hours minutes =>
      show ((hours : Int) * 60 + minutes).natAbs < 1440
      omega
  | behind hours minutes =>
      show (-((hours : Int) * 60 + minutes)).natAbs < 1440
      omega

/-- The mark of a zone cannot be taken for a part of the fraction before it. -/
theorem exists_mark (z : Zone) :
    ∃ c tail, z.text = c :: tail ∧ c.isDigit = false ∧ isBlank c = false ∧ c ≠ '.' := by
  cases z <;> exact ⟨_, _, rfl, by decide, by decide, by decide⟩

end Zone

/-- A date and time at some place, in a year of four digits.  The second may be a leap
second, and the digits of its fraction may be as many as one likes, also none. -/
structure LocalTime where
  date : Date
  isValid_date : date.isValid = true
  year_nonneg : 0 ≤ date.year
  year_le : date.year ≤ 9999
  hour : Fin 24
  minute : Fin 60
  second : Fin 61
  fraction : List Char
  isDigit_fraction : ∀ c ∈ fraction, c.isDigit = true
  zone : Zone

namespace LocalTime

/-- The fraction of a second, with a point if there are any digits. -/
def fractionText : List Char → List Char
  | [] => []
  | d :: ds => '.' :: d :: ds

/-- The text of a local time. -/
def text (l : LocalTime) : String :=
  String.ofList (
    padded 4 l.date.year.toNat ++ '-' :: padded 2 l.date.month ++ '-' :: padded 2 l.date.day ++
    'T' :: padded 2 l.hour ++ ':' :: padded 2 l.minute ++ ':' :: padded 2 l.second ++
    fractionText l.fraction ++ l.zone.text)

/-- The whole nanoseconds of the digits of a fraction. -/
def nanoseconds (ds : List Char) : Nat :=
  digitsValue ds * 1000000000 / Nat.pow 10 ds.length

theorem nanoseconds_lt {ds : List Char} (h : ∀ c ∈ ds, c.isDigit = true) :
    nanoseconds ds < 1000000000 := by
  have hpos : 0 < Nat.pow 10 ds.length := Nat.pow_pos (by decide)
  unfold nanoseconds
  rw [Nat.div_lt_iff_lt_mul hpos, Nat.mul_comm]
  exact Nat.mul_lt_mul_of_pos_left (digitsValue_lt h) (by decide)

/-- The point in universal time of a local time. -/
def time (l : LocalTime) : Timestamp where
  minutes := l.date.dayNumber * Timestamp.minutesPerDay + (l.hour * 60 + l.minute) - l.zone.offset
  second := l.second
  nano := ⟨nanoseconds l.fraction, nanoseconds_lt l.isDigit_fraction⟩

end LocalTime

/-! ### Parts -/

namespace Timestamp.Scanner

variable {α β : Type}

/-- The second of two scanners goes on where the first has stopped. -/
theorem bind_of_ok {s : Scanner α} {f : α → Scanner β} {cs rest : List Char} {a : α}
    (h : s cs = .ok (a, rest)) : (s >>= f) cs = f a rest := by
  simp only [bind, h]

/-- A run of digits is taken whole if it fills the width or no digit follows. -/
theorem digits_run {width : Nat} {ds rest : List Char} (hne : ds ≠ [])
    (hds : ∀ c ∈ ds, c.isDigit = true) (hwidth : ds.length ≤ width)
    (hrest : (rest.take (width - ds.length)).takeWhile Char.isDigit = []) :
    digits width (ds ++ rest) = .ok (ds, rest) := by
  obtain ⟨d, ds', rfl⟩ := List.exists_cons_of_ne_nil hne
  have htake : ((d :: ds' ++ rest).take width).takeWhile Char.isDigit = d :: ds' := by
    rw [List.take_append, List.take_of_length_le hwidth, List.takeWhile_append_of_pos hds, hrest,
      List.append_nil]
  unfold digits
  rw [List.cons_append]
  dsimp only
  rw [if_pos (hds d List.mem_cons_self), ← List.cons_append, htake, List.drop_left]

/-- Of a longer run of digits the width is taken. -/
theorem digits_take {width : Nat} {ds : List Char} {c : Char} (hwidth : 0 < width) (hne : ds ≠ [])
    (hds : ∀ c ∈ ds, c.isDigit = true) (hc : c.isDigit = false) (rest : List Char) :
    digits width (ds ++ c :: rest) = .ok (ds.take width, ds.drop width ++ c :: rest) := by
  have hparts : ds ++ c :: rest = ds.take width ++ (ds.drop width ++ c :: rest) := by
    rw [← List.append_assoc, List.take_append_drop]
  have htaken : ds.take width ≠ [] := by
    rw [Ne, List.take_eq_nil_iff]
    rintro (hzero | hnil)
    · omega
    · exact hne hnil
  rw [hparts]
  refine digits_run htaken (fun d hd => hds d (List.mem_of_mem_take hd))
    (List.length_take_le width ds) ?_
  rw [List.length_take]
  by_cases hshort : ds.length ≤ width
  · rw [List.drop_of_length_le hshort, List.nil_append]
    cases width - min width ds.length with
    | zero => rfl
    | succ k => exact List.takeWhile_cons_of_neg (by simp [hc])
  · rw [Nat.min_eq_left (by omega), Nat.sub_self]
    rfl

/-- A padded number is taken whole. -/
theorem digits_padded {width n : Nat} (hwidth : 0 < width) (h : n < Nat.pow 10 width)
    (rest : List Char) :
    digits width (padded width n ++ rest) = .ok (padded width n, rest) := by
  have hlength := length_padded hwidth h
  refine digits_run ?_ (fun c => isDigit_of_mem_padded) (Nat.le_of_eq hlength) ?_
  · exact List.ne_nil_of_length_pos (by omega)
  · rw [hlength, Nat.sub_self]
    rfl

/-- **A number of two digits is read back.** -/
theorem twoDigits_padded {low high n : Nat} (hlow : low ≤ n) (hhigh : n ≤ high) (h : n < 100)
    (rest : List Char) : twoDigits low high (padded 2 n ++ rest) = .ok (n, rest) := by
  obtain ⟨-, -, -, -, hblanks⟩ := dropBlanks_padded (by decide : 0 < 2) h rest
  have hstart : blanks (padded 2 n ++ rest) = .ok ((), padded 2 n ++ rest) := by
    unfold blanks
    rw [hblanks]
  unfold twoDigits
  rw [bind_of_ok hstart, bind_of_ok (digits_padded (by decide) h rest), digitsValue_padded,
    if_pos ⟨hlow, hhigh⟩]
  rfl

/-- **A year of four digits is read back.** -/
theorem year_padded {n : Nat} (h : n < 10000) (rest : List Char) :
    year (padded 4 n ++ rest) = .ok ((n : Int), rest) := by
  obtain ⟨d, tail, hcons, hdigit, hblanks⟩ := dropBlanks_padded (by decide : 0 < 4) h rest
  unfold year
  rw [hblanks, hcons]
  -- a digit is no sign
  split
  · rename_i heq
    rw [(List.cons.inj heq).1] at hdigit
    cases hdigit
  · rename_i heq
    rw [(List.cons.inj heq).1] at hdigit
    cases hdigit
  · rw [← hcons, bind_of_ok (digits_padded (by decide) h rest), digitsValue_padded]
    rfl

theorem literal_cons {c : Char} (h : isBlank c = false) (rest : List Char) :
    literal c (c :: rest) = .ok ((), rest) := by
  have hblanks : dropBlanks (c :: rest) = c :: rest :=
    List.dropWhile_cons_of_neg (by simp [h])
  unfold literal
  rw [hblanks]
  dsimp only
  rw [if_pos rfl]

/-- Nine digits make the whole nanoseconds of all the digits. -/
theorem nanoseconds_take {ds : List Char} (h : ∀ c ∈ ds, c.isDigit = true) :
    nanoseconds (ds.take 9) = LocalTime.nanoseconds ds := by
  have hpos : ∀ k, 0 < Nat.pow 10 k := fun k => Nat.pow_pos (by decide)
  unfold nanoseconds LocalTime.nanoseconds
  by_cases hshort : ds.length ≤ 9
  · have hscale : 1000000000 = Nat.pow 10 (9 - ds.length) * Nat.pow 10 ds.length :=
      calc 1000000000
        _ = Nat.pow 10 (9 - ds.length + ds.length) :=
            congrArg (Nat.pow 10) (Nat.sub_add_cancel hshort).symm
        _ = Nat.pow 10 (9 - ds.length) * Nat.pow 10 ds.length := Nat.pow_add 10 _ _
    rw [List.take_of_length_le hshort, hscale, ← Nat.mul_assoc, Nat.mul_div_cancel _ (hpos _)]
  · -- the digits behind the ninth make less than one nanosecond
    have hnine : (ds.take 9).length = 9 := by
      rw [List.length_take]
      omega
    have hlength : (ds.drop 9).length + 9 = ds.length := by
      rw [List.length_drop]
      omega
    have hsplit : digitsValue ds =
        Nat.pow 10 (ds.drop 9).length * digitsValue (ds.take 9) + digitsValue (ds.drop 9) := by
      rw [← digitsValue_append, List.take_append_drop]
    have hless : digitsValue (ds.drop 9) < Nat.pow 10 (ds.drop 9).length :=
      digitsValue_lt fun c hc => h c (List.mem_of_mem_drop hc)
    have hscale : Nat.pow 10 ds.length = Nat.pow 10 (ds.drop 9).length * 1000000000 := by
      rw [← hlength]
      exact Nat.pow_add 10 _ 9
    rw [hnine, hscale, Nat.mul_div_mul_right _ _ (by decide), hsplit, Nat.mul_add_div (hpos _),
      Nat.div_eq_of_lt hless]
    exact Nat.mul_one _

/-- **A fraction of any length is read as its whole nanoseconds**, up to the zone. -/
theorem fraction_text {ds : List Char} (h : ∀ c ∈ ds, c.isDigit = true) (z : Zone) :
    fraction (LocalTime.fractionText ds ++ z.text) = .ok (LocalTime.nanoseconds ds, z.text) := by
  obtain ⟨c, tail, hmark, hdigit, -, hpoint⟩ := z.exists_mark
  rw [← nanoseconds_take h, hmark]
  cases ds with
  | nil =>
      show fraction (c :: tail) = .ok (0, c :: tail)
      unfold fraction
      split
      · rename_i heq
        exact absurd (List.cons.inj heq).1 hpoint
      · rfl
  | cons d ds =>
      have htaken : digits 9 (d :: ds ++ c :: tail) =
          .ok ((d :: ds).take 9, (d :: ds).drop 9 ++ c :: tail) :=
        digits_take (by decide) (List.cons_ne_nil d ds) h hdigit tail
      have hdropped : ((d :: ds).drop 9 ++ c :: tail).dropWhile Char.isDigit = c :: tail := by
        rw [List.dropWhile_append_of_pos fun e he => h e (List.mem_of_mem_drop he)]
        exact List.dropWhile_cons_of_neg (by simp [hdigit])
      show fraction ('.' :: (d :: ds ++ c :: tail)) = _
      simp only [fraction, htaken, hdropped]

/-- Two digits are read one by one. -/
theorem digitPair_padded {n : Nat} (h : n < 100) (rest : List Char) :
    ∃ a b, digitPair (padded 2 n ++ rest) = .ok ((a, b), rest) ∧ 10 * a + b = n := by
  have hlength := length_padded (by decide : 0 < 2) h
  obtain ⟨x, y, hxy⟩ := List.length_eq_two.mp hlength
  have hdigits : ∀ c ∈ [x, y], c.isDigit = true := hxy ▸ fun c => isDigit_of_mem_padded
  have hx := hdigits x List.mem_cons_self
  have hy := hdigits y (List.mem_cons_of_mem x List.mem_cons_self)
  have henough : ¬ byteLength [x, y] < 2 := Nat.not_lt.mpr (length_le_byteLength [x, y])
  refine ⟨digitValue x, digitValue y, ?_, ?_⟩
  · rw [hxy]
    show digitPair (x :: y :: rest) = _
    unfold digitPair
    simp only [List.take_succ_cons, List.take_zero, if_neg henough, hx, hy, and_self, if_true]
  · have hvalue : digitsValue [x, y] = n := hxy ▸ digitsValue_padded 2 n
    simpa [digitsValue] using hvalue

theorem offsetGap_colon {n : Nat} (h : n < 100) (rest : List Char) :
    offsetGap (':' :: (padded 2 n ++ rest)) = .ok ((), padded 2 n ++ rest) := by
  obtain ⟨d, tail, hcons, hdigit, -⟩ := dropBlanks_padded (by decide : 0 < 2) h rest
  have hcolon : d ≠ ':' := by
    rintro rfl
    cases hdigit
  unfold offsetGap
  rw [List.dropWhile_cons_of_pos (by decide), hcons, List.dropWhile_cons_of_neg]
  simp [hcolon, isBlank_of_isDigit hdigit]

/-- The distance of a zone is read in minutes. -/
theorem offsetMinutes_distanceText (hours : Fin 24) (minutes : Fin 60) :
    offsetMinutes (Zone.distanceText hours minutes) = .ok (hours * 60 + minutes, []) := by
  obtain ⟨a, b, hread, hhours⟩ := digitPair_padded (n := hours) (by omega) (':' :: padded 2 minutes)
  obtain ⟨c, d, hread', hminutes⟩ := digitPair_padded (n := minutes) (by omega) []
  have hgap := offsetGap_colon (n := minutes) (by omega) []
  have htens : c ≤ 5 := by omega
  rw [List.append_nil] at hread' hgap
  unfold offsetMinutes Zone.distanceText
  refine (bind_of_ok hread).trans ((bind_of_ok hgap).trans ((bind_of_ok hread').trans ?_))
  show (if c ≤ 5 then pure ((10 * a + b) * 60 + (10 * c + d)) else fail .outOfRange : Scanner Nat)
    [] = _
  rw [if_pos htens, hhours, hminutes]
  rfl

/-- A sign is no letter. -/
theorem isUniversal_cons {c : Char} (h : c.toUpper ≠ 'U') (cs : List Char) :
    isUniversal (c :: cs) = false := by
  simp [isUniversal, h]

/-- **A zone is read as its offset.** -/
theorem zone_text (z : Zone) : zone z.text = .ok (z.offset, []) := by
  cases z with
  | universal => rfl
  | ahead hours minutes =>
      unfold Zone.text zone
      rw [isUniversal_cons (by decide), if_neg Bool.false_ne_true]
      dsimp only
      rw [if_neg (by decide), if_pos rfl, bind_of_ok (offsetMinutes_distanceText hours minutes)]
      rfl
  | behind hours minutes =>
      unfold Zone.text zone
      rw [isUniversal_cons (by decide), if_neg Bool.false_ne_true]
      dsimp only
      rw [if_neg (by decide), if_neg (by decide), if_pos (Or.inl rfl),
        bind_of_ok (offsetMinutes_distanceText hours minutes)]
      rfl

end Timestamp.Scanner

/-! ### Whole local times -/

namespace LocalTime

/-- The date of universal time is at most one day away, and so at most one year. -/
theorem year_time_bounds (l : LocalTime) :
    -1 ≤ l.time.date.year ∧ l.time.date.year ≤ 10000 := by
  obtain ⟨hfrom, huntil⟩ := Date.dayNumber_bounds l.isValid_date
  obtain ⟨hyear, hyear'⟩ := Date.yearOf_spec (l.time.minutes / Timestamp.minutesPerDay)
  have hfirst : daysBefore 0 ≤ daysBefore l.date.year := daysBefore_mono l.year_nonneg
  have hlast : daysBefore (l.date.year + 1) ≤ daysBefore 10000 :=
    daysBefore_mono (Int.add_le_add_right l.year_le 1)
  have hday : daysBefore 0 - 1 ≤ l.time.minutes / Timestamp.minutesPerDay ∧
      l.time.minutes / Timestamp.minutesPerDay ≤ daysBefore 10000 := by
    have hoffset := l.zone.natAbs_offset_lt
    have hminutes : l.time.minutes =
        l.date.dayNumber * 1440 + (l.hour * 60 + l.minute) - l.zone.offset := rfl
    unfold Timestamp.minutesPerDay
    omega
  show -1 ≤ Date.yearOf _ ∧ Date.yearOf _ ≤ 10000
  refine ⟨Int.not_lt.mp fun hearly => ?_, Int.not_lt.mp fun hlate => ?_⟩
  · have hnext : daysBefore _ ≤ daysBefore (-1) := daysBefore_mono hearly
    have hgap : daysBefore (-1) < daysBefore 0 - 1 := by decide
    omega
  · have hnext : daysBefore 10001 ≤ daysBefore _ := daysBefore_mono hlate
    have hgap : daysBefore 10000 < daysBefore 10001 := by decide
    omega

/-- The calendar has the date of universal time. -/
theorem inCalendar_time (l : LocalTime) : Timestamp.inCalendar l.time.date.year = true := by
  obtain ⟨hfrom, huntil⟩ := l.year_time_bounds
  simp only [Timestamp.inCalendar, Bool.and_eq_true, decide_eq_true_eq]
  omega

/-- **Date, time of day and offset make the point in time.** -/
theorem ofLocal_time (l : LocalTime) :
    Timestamp.ofLocal l.date l.hour l.minute l.second (nanoseconds l.fraction) l.zone.offset =
      .ok l.time := by
  have hcalendar : Timestamp.inCalendar l.date.year = true := by
    have hpast := l.year_nonneg
    have hfuture := l.year_le
    simp only [Timestamp.inCalendar, Bool.and_eq_true, decide_eq_true_eq]
    omega
  have hrange : (l.second : Nat) < 61 ∧ nanoseconds l.fraction < 1000000000 :=
    ⟨l.second.isLt, nanoseconds_lt l.isDigit_fraction⟩
  unfold Timestamp.ofLocal
  rw [if_pos (by rw [l.isValid_date, hcalendar, decide_eq_true l.zone.natAbs_offset_lt]; rfl),
    dif_pos hrange]
  exact if_pos l.inCalendar_time

open Timestamp.Scanner in
/-- **A local time is read as its point in time.** -/
theorem parse_text (l : LocalTime) : Timestamp.parse l.text = .ok l.time := by
  obtain ⟨n, hn⟩ := Int.eq_ofNat_of_zero_le l.year_nonneg
  obtain ⟨⟨hmonth, hmonth'⟩, hday, hday'⟩ := Date.isValid_bounds l.isValid_date
  have huntil := l.year_le
  have hyear : padded 4 l.date.year.toNat = padded 4 n := by rw [hn]; rfl
  have hdate : (⟨(n : Int), l.date.month, l.date.day⟩ : Date) = l.date := by rw [← hn]
  have hmark : ∀ cs, dateEnd ('T' :: cs) = .ok ((), cs) := fun _ => rfl
  have hblanks : blanks l.zone.text = .ok ((), l.zone.text) := by
    obtain ⟨c, tail, hzone, -, hblank, -⟩ := l.zone.exists_mark
    unfold blanks dropBlanks
    rw [hzone, List.dropWhile_cons_of_neg (by simp [hblank])]
  have hdone : done [] = .ok ((), []) := rfl
  have hscan : Timestamp.scan l.text.toList = .ok (l.time, []) := by
    unfold text Timestamp.scan
    rw [String.toList_ofList, hyear]
    simp only [List.append_assoc, List.cons_append]
    rw [bind_of_ok (year_padded (by omega) _), bind_of_ok (literal_cons rfl _),
      bind_of_ok (twoDigits_padded hmonth hmonth' (by omega) _), bind_of_ok (literal_cons rfl _),
      bind_of_ok (twoDigits_padded hday hday' (by omega) _), bind_of_ok (hmark _),
      bind_of_ok (twoDigits_padded (Nat.zero_le _) (by omega) (by omega) _),
      bind_of_ok (literal_cons rfl _),
      bind_of_ok (twoDigits_padded (Nat.zero_le _) (by omega) (by omega) _),
      bind_of_ok (literal_cons rfl _),
      bind_of_ok (twoDigits_padded (Nat.zero_le _) (by omega) (by omega) _),
      bind_of_ok (fraction_text l.isDigit_fraction l.zone), bind_of_ok hblanks,
      bind_of_ok (zone_text l.zone), bind_of_ok hdone, hdate, l.ofLocal_time]
    rfl
  unfold Timestamp.parse
  rw [hscan]

end LocalTime

end Sequencer
