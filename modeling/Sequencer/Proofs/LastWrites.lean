import Sequencer.Proofs.RoundTrip

/-!
# Outputs keep the last write of each signal

An output is built up in steps, each of which drives a signal or labels one.  The two maps
of an output are filled independently of each other, so what a list of steps leaves behind
are the last values and the last label of each signal, wherever in the list they stand.

The driven signals are listed in strictly increasing canonical order after every step: a
step puts its signal between the signals before and the signals behind it, and an entry
that it had is gone.  Everything that is shown or written of an output walks along such a
listing, so it depends on the last writes only.

## Main Definitions

* `Output.Step`, `Output.build` — a step, and the output that a list of steps leaves.
* `Output.lastCases?`, `Output.lastLabel?` — the last write of a signal.
* `Output.SameLastWrites` — two lists of steps end in the same writes.

## Main Results

* `Output.build_eq` — the two maps are filled independently.
* `Output.toJson_compact_injective` — the written text determines the output.
* `Output.build_keeps_last_writes` — all of it.
-/

namespace Sequencer

namespace SignalMap

variable {α : Type}

/-! ### Last pairs -/

/-- A signal has a last value exactly when it has a value. -/
theorem exists_lastValue?_iff {pairs : List (Signal × α)} {s : Signal} :
    (∃ v, lastValue? pairs s = some v) ↔ ∃ v, (s, v) ∈ pairs := by
  unfold lastValue?
  rw [← Option.ne_none_iff_exists', ne_eq, Option.map_eq_none_iff, List.getLast?_eq_none_iff,
    List.filter_eq_nil_iff]
  simp

end SignalMap

namespace Output

/-! ### Steps -/

/-- A step in building an output. -/
inductive Step where
  | drive (signal : Signal) (cases : Cases)
  | label (signal : Signal) (text : String)
  deriving DecidableEq, Repr

/-- The output after one more step. -/
def Step.apply (o : Output) : Step → Output
  | .drive s c => o.drive s c
  | .label s l => o.label s l

/-- The output that the steps leave, taken one after the other. -/
def build (steps : List Step) : Output := steps.foldl Step.apply empty

/-- The values that a step gives to a signal. -/
def Step.driven? : Step → Option (Signal × Cases)
  | .drive s c => some (s, c)
  | .label _ _ => none

/-- The label that a step gives to a signal. -/
def Step.labelled? : Step → Option (Signal × String)
  | .drive _ _ => none
  | .label s l => some (s, l)

/-- The values that `s` was driven with last. -/
def lastCases? (steps : List Step) (s : Signal) : Option Cases :=
  SignalMap.lastValue? (steps.filterMap Step.driven?) s

/-- The label that `s` was given last. -/
def lastLabel? (steps : List Step) (s : Signal) : Option String :=
  SignalMap.lastValue? (steps.filterMap Step.labelled?) s

/-- Every signal was driven with the same values last, and was given the same label last. -/
def SameLastWrites (steps steps' : List Step) : Prop :=
  ∀ s, lastCases? steps s = lastCases? steps' s ∧ lastLabel? steps s = lastLabel? steps' s

theorem build_concat (steps : List Step) (step : Step) :
    build (steps ++ [step]) = step.apply (build steps) := by
  unfold build
  rw [List.foldl_append]
  rfl

/-- **The two maps are filled independently**: each by the steps that are about it, in
their order. -/
theorem build_eq (steps : List Step) :
    build steps =
      ⟨.ofList (steps.filterMap Step.driven?), .ofList (steps.filterMap Step.labelled?)⟩ := by
  induction steps using List.reverseRecOn with
  | nil => rfl
  | append_singleton steps step ih =>
      rw [build_concat, ih, List.filterMap_append, List.filterMap_append]
      cases step with
      | drive s c =>
          show Output.mk _ _ = ⟨.ofList (_ ++ [(s, c)]), .ofList (_ ++ [])⟩
          rw [SignalMap.ofList_concat, List.append_nil]
      | label s l =>
          show Output.mk _ _ = ⟨.ofList (_ ++ []), .ofList (_ ++ [(s, l)])⟩
          rw [SignalMap.ofList_concat, List.append_nil]

theorem get?_values_build (steps : List Step) (s : Signal) :
    (build steps).values.get? s = lastCases? steps s := by
  rw [build_eq]
  exact SignalMap.get?_ofList _ s

theorem get?_labels_build (steps : List Step) (s : Signal) :
    (build steps).labels.get? s = lastLabel? steps s := by
  rw [build_eq]
  exact SignalMap.get?_ofList _ s

/-- A signal has last values exactly when some step drives it. -/
theorem exists_lastCases?_iff {steps : List Step} {s : Signal} :
    (∃ c, lastCases? steps s = some c) ↔ ∃ c, Step.drive s c ∈ steps := by
  unfold lastCases?
  rw [SignalMap.exists_lastValue?_iff]
  refine exists_congr fun c => ?_
  rw [List.mem_filterMap]
  constructor
  · rintro ⟨step, hstep, hdriven⟩
    cases step with
    | drive t d =>
        obtain ⟨rfl, rfl⟩ := Prod.mk.inj (Option.some.inj hdriven)
        exact hstep
    | label t l => cases hdriven
  · exact fun hstep => ⟨_, hstep, rfl⟩

/-- **What is left depends on the last writes, and shows them.** -/
theorem build_eq_build_iff {steps steps' : List Step} :
    build steps = build steps' ↔ SameLastWrites steps steps' := by
  constructor
  · intro h s
    rw [← get?_values_build, ← get?_values_build, ← get?_labels_build, ← get?_labels_build, h]
    exact ⟨rfl, rfl⟩
  · intro h
    have hvalues : (build steps).values = (build steps').values := by
      ext1 s
      rw [get?_values_build, get?_values_build, (h s).1]
    have hlabels : (build steps).labels = (build steps').labels := by
      ext1 s
      rw [get?_labels_build, get?_labels_build, (h s).2]
    exact congrArg₂ Output.mk hvalues hlabels

/-! ### Texts -/

/-- **The written text determines the output**, since the output is read back from it. -/
theorem toJson_compact_injective {o o' : Output} (h : o.toJson.compact = o'.toJson.compact) :
    o = o' := by
  have hread := (o.reads_toJson.readAll_eq (by decide)).1
  rw [h, (o'.reads_toJson.readAll_eq (by decide)).1] at hread
  exact (Except.ok.inj hread).symm

/-! ### Outputs -/

/-- **An output keeps the last write of each signal.**  Whatever steps it was built in, its
driven signals are listed in strictly increasing canonical order.  They are the signals
that some step drives, and each has the values of the last step that does.  Each signal
has the label of the last step that gives it one, be it driven or not.  The shown text has
one line for each driven signal, in this order, with its last label if there is one and
its cases otherwise.  One more step puts a signal in its place.

Hence steps that end in the same writes, in whatever order, leave the same output, with
the same shown and the same written text; and steps that leave the same written text do
end in the same writes. -/
theorem build_keeps_last_writes (steps : List Step) :
    ((build steps).driven.map Prod.fst).Pairwise (fun s t => s.rank < t.rank) ∧
    (∀ s, s ∈ (build steps).driven.map Prod.fst ↔ ∃ c, Step.drive s c ∈ steps) ∧
    (∀ s c, (s, c) ∈ (build steps).driven ↔ lastCases? steps s = some c) ∧
    (∀ s, (build steps).labels.get? s = lastLabel? steps s) ∧
    (build steps).text =
      ";\n".intercalate ((build steps).driven.map fun p =>
        p.1.name ++ " = " ++ (lastLabel? steps p.1).getD (" | ".intercalate p.2.values)) ∧
    (∀ s c, (build (steps ++ [.drive s c])).driven =
      ((build steps).driven.filter fun p => p.1.rank < s.rank) ++
        (s, c) :: (build steps).driven.filter fun p => s.rank < p.1.rank) ∧
    ∀ steps',
      (SameLastWrites steps steps' →
        build steps = build steps' ∧ (build steps).text = (build steps').text ∧
        (build steps).toJson.compact = (build steps').toJson.compact ∧
        (build steps).toJson.pretty = (build steps').toJson.pretty) ∧
      ((build steps).toJson.compact = (build steps').toJson.compact →
        SameLastWrites steps steps') := by
  refine ⟨SignalMap.pairwise_map_fst_toList _, ?_, ?_, get?_labels_build steps, ?_, ?_, ?_⟩
  · intro s
    unfold driven
    rw [SignalMap.mem_map_fst_toList, get?_values_build, exists_lastCases?_iff]
  · intro s c
    unfold driven
    rw [SignalMap.mem_toList, get?_values_build]
  · unfold text shown
    congr 2
    funext p
    rw [get?_labels_build]
    rfl
  · intro s c
    rw [build_concat]
    exact SignalMap.toList_set _ s c
  · intro steps'
    refine ⟨fun hsame => ?_, fun htext => build_eq_build_iff.mp (toJson_compact_injective htext)⟩
    rw [build_eq_build_iff.mpr hsame]
    exact ⟨rfl, rfl, rfl, rfl⟩

/-- Steps that drive one signal twice, and that label a driven signal twice and another one
that is not driven. -/
def wavering : List Step :=
  [.drive .readB ⟨["low", "high"]⟩, .label .aluFn "sum", .drive .writeEnable (.single "0"),
    .label .readB "any", .drive .writeEnable (.single "1"), .label .readB "both"]

/-- The last writes of `wavering` alone, in another order. -/
def resolved : List Step :=
  [.label .readB "both", .drive .writeEnable (.single "1"), .label .aluFn "sum",
    .drive .readB ⟨["low", "high"]⟩]

theorem wavering_ends_like_resolved :
    SameLastWrites wavering resolved ∧ build wavering = build resolved ∧
    (build wavering).text = "we = 1;\nrb = both" ∧
    (build wavering).labels.get? .aluFn = some "sum" ∧
    (build wavering).toJson.compact = (build resolved).toJson.compact := by
  obtain ⟨-, -, -, hlabels, htext, -, hsteps⟩ := build_keeps_last_writes wavering
  have hsame : SameLastWrites wavering resolved := fun s => by cases s <;> decide
  obtain ⟨hbuild, -, hcompact, -⟩ := (hsteps resolved).1 hsame
  refine ⟨(hsteps resolved).2 hcompact, hbuild, ?_, (hlabels .aluFn).trans rfl, hcompact⟩
  rw [htext]
  decide

end Output

end Sequencer
