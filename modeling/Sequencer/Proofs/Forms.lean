import Mathlib.Data.List.Induction
import Sequencer.Description
import Sequencer.Proofs.Canonical
import Sequencer.Proofs.Json.Records

/-!
# The spellings of a description

A description can be written in many ways: the members of its objects come in any order
and among stray members that name no field, fields at their defaults may be left out,
what is absent may be written as `null`, a single case may stand without brackets, and
the entries of a map come in any order, where only the last entry of a signal counts.
Blanks may stand between all of this.

These freedoms are listed here part by part, as the forms of each record, without
looking at how a part is read.  The values of stray members are left open.  For each
record the slots of its draft are given, in which a spelling is collected.

## Main Definitions

* `Cases.Spelled`, `SignalMap.Spelled` — the spellings of cases and maps.
* `forms` in the namespace of each record — what may stand for each of its fields.
* `slots` in the namespace of each record — where its fields are kept.
* `Description.Spelled` — the spellings of a description.

## Main Results

* `SignalMap.get?_ofList` — the last pair of a signal wins.
* `slots_shape` in the namespace of each record — settled slots make the record.
* `Description.spelled_pretty` — the written text is a spelling.
-/

namespace Sequencer

open Json Json.Reader

variable {stray : List Char → Prop}

/-! ### What may be written -/

/-- Cases are a list of texts; a single case may stand without brackets. -/
def Cases.Spelled (c : Cases) (cs : List Char) : Prop :=
  IsListOf IsQuoted c.values cs ∨ ∃ s, c = .single s ∧ IsQuoted s cs

namespace SignalMap

variable {α : Type}

/-- The value of the last of the pairs that have the given signal. -/
def lastValue? (pairs : List (Signal × α)) (s : Signal) : Option α :=
  (pairs.filter fun p => p.1 = s).getLast?.map Prod.snd

/-- A map is an object whose keys are names of signals.  Its entries come in any order, and
the entry that counts may come after other entries for the same signal. -/
def Spelled (spelled : α → List Char → Prop) (m : SignalMap α) (cs : List Char) : Prop :=
  ∃ members pairs, IsObject members cs ∧
    List.Forall₂ (fun member p => member.1 = p.1.name ∧ spelled p.2 member.2) members pairs ∧
    ∀ s, lastValue? pairs s = m.get? s

end SignalMap

/-- Settings may be left out where they are standard. -/
def Emitter.forms (e : Emitter) : List FieldForm :=
  [⟨"state_register", IsQuoted e.stateRegister, e.stateRegister = standard.stateRegister⟩,
    ⟨"read_marker", IsQuoted e.readMarker, e.readMarker = standard.readMarker⟩,
    ⟨"indent", IsQuoted e.indent, e.indent = standard.indent⟩]

/-- Both maps may be left out where they are empty. -/
def Output.forms (o : Output) : List FieldForm :=
  [⟨"signals", o.values.Spelled Cases.Spelled, o.values = .empty⟩,
    ⟨"labels", o.labels.Spelled IsQuoted, o.labels = .empty⟩]

/-- Conditions and targets must be there; what is absent may be left out or written as
`null`. -/
def Rule.forms (r : Rule) : List FieldForm :=
  [⟨"conditions", r.conditions.Spelled, False⟩,
    ⟨"targets", r.targets.Spelled, False⟩,
    ⟨"otherwise", IsOptional IsQuoted r.otherwise, r.otherwise = none⟩,
    ⟨"label", IsOptional IsQuoted r.label, r.label = none⟩,
    ⟨"inverse_label", IsOptional IsQuoted r.inverseLabel, r.inverseLabel = none⟩]

/-- A state must have a name; an empty output may be left out, and a missing rule may be
left out or written as `null`. -/
def State.forms (stray : List Char → Prop) (s : State) : List FieldForm :=
  [⟨"name", IsQuoted s.name, False⟩,
    ⟨"output", SpellsRecord stray s.output.forms, s.output = .empty⟩,
    ⟨"transition", IsOptional (fun r => SpellsRecord stray r.forms) s.rule, s.rule = none⟩]

namespace Description

/-- Standard settings and an empty list of states may be left out. -/
def forms (stray : List Char → Prop) (d : Description) : List FieldForm :=
  [⟨"emitter", SpellsRecord stray d.emitter.forms, d.emitter = .standard⟩,
    ⟨"states", IsListOf (fun s => SpellsRecord stray (s.forms stray)) d.states, d.states = []⟩]

/-- **The text spells the description**, with blanks around it.  The values of members
that name no field are `stray`. -/
def Spelled (stray : List Char → Prop) (d : Description) (text : String) : Prop :=
  ∃ before cs after, Gap before ∧ Gap after ∧ SpellsRecord stray (d.forms stray) cs ∧
    text.toList = before ++ (cs ++ after)

end Description

/-! ### Names, lists of texts and maps -/

theorem Signal.parse_name (s : Signal) : Signal.parse s.name = .ok s := by
  unfold Signal.parse Signal.ofName
  rw [Signal.ofName?_name]

/-- The texts of a list of texts are these texts. -/
theorem Cases.mapM_textOf?_string (texts : List String) :
    (texts.map Value.string).mapM Cases.textOf? = some texts := by
  induction texts with
  | nil => rfl
  | cons s texts ih =>
      rw [List.map_cons, List.mapM_cons, ih]
      rfl

/-- A list of texts stands for cases, also if there is only one of them. -/
theorem Cases.ofJson_toJson (c : Cases) : Cases.ofJson c.toJson = .ok c := by
  have hcases : Cases.ofJson? c.toJson = some c := by
    show ((c.values.map Value.string).mapM Cases.textOf?).map Cases.mk = some c
    rw [Cases.mapM_textOf?_string]
    rfl
  unfold Cases.ofJson
  rw [hcases]

/-- The pieces of a list of quoted texts. -/
theorem map_quote_eq {texts : List String} {pieces : List (List Char)}
    (h : List.Forall₂ IsQuoted texts pieces) : texts.map quote = pieces := by
  rw [← List.forall₂_eq_eq_eq, List.forall₂_map_left_iff]
  exact h.imp fun s piece h => Eq.symm h

namespace SignalMap

variable {α : Type}

/-- The last pair is assigned last. -/
theorem ofList_concat (pairs : List (Signal × α)) (p : Signal × α) :
    ofList (pairs ++ [p]) = (ofList pairs).set p.1 p.2 := by
  unfold ofList
  rw [List.foldl_append]
  rfl

/-- **The last pair of a signal wins.** -/
theorem get?_ofList (pairs : List (Signal × α)) (s : Signal) :
    (ofList pairs).get? s = lastValue? pairs s := by
  -- pairs are assigned from left to right, so the last one is looked at first
  induction pairs using List.reverseRecOn with
  | nil => rfl
  | append_singleton pairs p ih =>
      rw [ofList_concat, get?_set, ih]
      unfold lastValue?
      by_cases hs : p.1 = s
      · rw [if_pos hs.symm, List.filter_append, List.filter_cons_of_pos (by simpa using hs),
          List.filter_nil, List.getLast?_concat, Option.map_some]
      · rw [if_neg (Ne.symm hs), List.filter_append, List.filter_cons_of_neg (by simpa using hs),
          List.filter_nil, List.append_nil]

/-- The pairs of a spelling make up the map. -/
theorem ofList_eq {pairs : List (Signal × α)} {m : SignalMap α}
    (h : ∀ s, lastValue? pairs s = m.get? s) : ofList pairs = m := by
  ext1 s
  rw [get?_ofList, h]

end SignalMap

/-! ### Slots -/

/-- A value that is there, or is left out where it is the default. -/
theorem getD_of_settled {α : Type} {held : Option α} {a default : α}
    (h : held = some a ∨ held = none ∧ a = default) : held.getD default = a := by
  rcases h with rfl | ⟨rfl, rfl⟩ <;> rfl

/-- A value that may not be left out is there. -/
theorem some_of_settled {α : Type} {held : Option α} {a : α}
    (h : held = some a ∨ held = none ∧ False) : held = some a :=
  h.resolve_right And.right

/-- A value that is there, as one or as `null`, or is left out where there is none. -/
theorem join_of_settled {α : Type} {held : Option (Option α)} {value : Option α}
    (h : held = some value ∨ held = none ∧ value = none) : held.join = value := by
  rcases h with rfl | ⟨rfl, rfl⟩ <;> rfl

namespace Emitter

/-- The slots of settings in their draft. -/
def slots (e : Emitter) : List (Slot Draft) :=
  [⟨String, Draft.stateRegister, fun d v => { d with stateRegister := some v }, text,
      e.stateRegister,
      ⟨"state_register", IsQuoted e.stateRegister, e.stateRegister = standard.stateRegister⟩⟩,
    ⟨String, Draft.readMarker, fun d v => { d with readMarker := some v }, text, e.readMarker,
      ⟨"read_marker", IsQuoted e.readMarker, e.readMarker = standard.readMarker⟩⟩,
    ⟨String, Draft.indent, fun d v => { d with indent := some v }, text, e.indent,
      ⟨"indent", IsQuoted e.indent, e.indent = standard.indent⟩⟩]

theorem slots_shape (e : Emitter) : shape.Slots e.slots e where
  fields := rfl
  distinct := by
    show ["state_register", "read_marker", "indent"].Nodup
    decide
  start := by simp [slots, shape]
  get_set := by simp [slots]
  get_set_other := by simp [slots]
  finish draft hsettled := by
    simp only [slots, List.forall_mem_cons, Slot.IsSettled] at hsettled
    obtain ⟨hregister, hmarker, hindent, -⟩ := hsettled
    show Except.ok draft.finish = .ok e
    unfold Draft.finish
    rw [getD_of_settled hregister, getD_of_settled hmarker, getD_of_settled hindent]

end Emitter

namespace Output

/-- The slots of an output in its draft. -/
def slots (o : Output) : List (Slot Draft) :=
  [⟨SignalMap Cases, Draft.values, fun d v => { d with values := some v },
      SignalMap.reader Cases.reader, o.values,
      ⟨"signals", o.values.Spelled Cases.Spelled, o.values = .empty⟩⟩,
    ⟨SignalMap String, Draft.labels, fun d v => { d with labels := some v },
      SignalMap.reader Json.Reader.text, o.labels,
      ⟨"labels", o.labels.Spelled IsQuoted, o.labels = .empty⟩⟩]

theorem slots_shape (o : Output) : shape.Slots o.slots o where
  fields := rfl
  distinct := by
    show ["signals", "labels"].Nodup
    decide
  start := by simp [slots, shape]
  get_set := by simp [slots]
  get_set_other := by simp [slots]
  finish draft hsettled := by
    simp only [slots, List.forall_mem_cons, Slot.IsSettled] at hsettled
    obtain ⟨hvalues, hlabels, -⟩ := hsettled
    show Except.ok (⟨draft.values.getD .empty, draft.labels.getD .empty⟩ : Output) = .ok o
    rw [getD_of_settled hvalues, getD_of_settled hlabels]

end Output

namespace Rule

/-- The slots of a rule in its draft. -/
def slots (r : Rule) : List (Slot Draft) :=
  [⟨Cases, Draft.conditions, fun d v => { d with conditions := some v }, Cases.reader,
      r.conditions, ⟨"conditions", r.conditions.Spelled, False⟩⟩,
    ⟨Cases, Draft.targets, fun d v => { d with targets := some v }, Cases.reader,
      r.targets, ⟨"targets", r.targets.Spelled, False⟩⟩,
    ⟨Option String, Draft.otherwise, fun d v => { d with otherwise := some v }, orNull text,
      r.otherwise, ⟨"otherwise", IsOptional IsQuoted r.otherwise, r.otherwise = none⟩⟩,
    ⟨Option String, Draft.label, fun d v => { d with label := some v }, orNull text,
      r.label, ⟨"label", IsOptional IsQuoted r.label, r.label = none⟩⟩,
    ⟨Option String, Draft.inverseLabel, fun d v => { d with inverseLabel := some v },
      orNull text, r.inverseLabel,
      ⟨"inverse_label", IsOptional IsQuoted r.inverseLabel, r.inverseLabel = none⟩⟩]

theorem slots_shape (r : Rule) : shape.Slots r.slots r where
  fields := rfl
  distinct := by
    show ["conditions", "targets", "otherwise", "label", "inverse_label"].Nodup
    decide
  start := by simp [slots, shape]
  get_set := by simp [slots]
  get_set_other := by simp [slots]
  finish draft hsettled := by
    simp only [slots, List.forall_mem_cons, Slot.IsSettled] at hsettled
    obtain ⟨hconditions, htargets, hotherwise, hlabel, hinverse, -⟩ := hsettled
    show draft.finish = .ok r
    unfold Draft.finish
    rw [some_of_settled hconditions, some_of_settled htargets, join_of_settled hotherwise,
      join_of_settled hlabel, join_of_settled hinverse]

end Rule

namespace State

/-- The slots of a state in its draft. -/
def slots (stray : List Char → Prop) (s : State) : List (Slot Draft) :=
  [⟨String, Draft.name, fun d v => { d with name := some v }, text, s.name,
      ⟨"name", IsQuoted s.name, False⟩⟩,
    ⟨Output, Draft.output, fun d v => { d with output := some v }, Output.reader, s.output,
      ⟨"output", SpellsRecord stray s.output.forms, s.output = .empty⟩⟩,
    ⟨Option Rule, Draft.rule, fun d v => { d with rule := some v }, orNull Rule.reader, s.rule,
      ⟨"transition", IsOptional (fun r => SpellsRecord stray r.forms) s.rule, s.rule = none⟩⟩]

theorem slots_shape (s : State) : shape.Slots (s.slots stray) s where
  fields := rfl
  distinct := by
    show ["name", "output", "transition"].Nodup
    decide
  start := by simp [slots, shape]
  get_set := by simp [slots]
  get_set_other := by simp [slots]
  finish draft hsettled := by
    simp only [slots, List.forall_mem_cons, Slot.IsSettled] at hsettled
    obtain ⟨hname, houtput, hrule, -⟩ := hsettled
    show draft.finish = .ok s
    unfold Draft.finish
    rw [some_of_settled hname, getD_of_settled houtput, join_of_settled hrule]

end State

namespace Description

/-- The slots of a description in its draft. -/
def slots (stray : List Char → Prop) (d : Description) : List (Slot Draft) :=
  [⟨Emitter, Draft.emitter, fun draft v => { draft with emitter := some v }, Emitter.reader,
      d.emitter, ⟨"emitter", SpellsRecord stray d.emitter.forms, d.emitter = .standard⟩⟩,
    ⟨List State, Draft.states, fun draft v => { draft with states := some v },
      list State.reader, d.states,
      ⟨"states", IsListOf (fun s => SpellsRecord stray (s.forms stray)) d.states,
        d.states = []⟩⟩]

theorem slots_shape (d : Description) : shape.Slots (d.slots stray) d where
  fields := rfl
  distinct := by
    show ["emitter", "states"].Nodup
    decide
  start := by simp [slots, shape]
  get_set := by simp [slots]
  get_set_other := by simp [slots]
  finish draft hsettled := by
    simp only [slots, List.forall_mem_cons, Slot.IsSettled] at hsettled
    obtain ⟨hemitter, hstates, -⟩ := hsettled
    show Except.ok (⟨draft.emitter.getD .standard, draft.states.getD []⟩ : Description) = .ok d
    rw [getD_of_settled hemitter, getD_of_settled hstates]

end Description

/-! ### The written text -/

theorem isQuoted_write (layout : Layout) (level : Nat) (s : String) :
    IsQuoted s ((Value.string s).write layout level) :=
  write_string layout level s

theorem Cases.spelled_toJson (layout : Layout) (level : Nat) (c : Cases) :
    c.Spelled (c.toJson.write layout level) :=
  Or.inl (isListOf_write c.values (isQuoted_write layout (level + 1)))

/-- A map is written in canonical order, without repetitions. -/
theorem SignalMap.spelled_toJson {α : Type} {spelled : α → List Char → Prop} {write : α → Value}
    {layout : Layout} {level : Nat} (h : ∀ a, spelled a ((write a).write layout (level + 1)))
    (m : SignalMap α) : m.Spelled spelled ((m.toJson write).write layout level) := by
  refine ⟨_, m.toList, isObject_write layout level _, ?_, fun s => ?_⟩
  · rw [List.map_map, List.forall₂_map_left_iff, List.forall₂_same]
    exact fun p _ => ⟨rfl, h p.2⟩
  · rw [← get?_ofList, ofList_toList]

theorem Emitter.spelled_toJson (layout : Layout) (level : Nat) (e : Emitter) :
    SpellsRecord stray e.forms (e.toJson.write layout level) := by
  have htext := isQuoted_write layout (level + 1)
  refine InOrder.spellsRecord_write ?_ e.slots_shape.distinct
  exact .keep (htext _) (.keep (htext _) (.keep (htext _) .nil))

theorem Output.spelled_toJson (layout : Layout) (level : Nat) (o : Output) :
    SpellsRecord stray o.forms (o.toJson.write layout level) := by
  have hvalues : o.values.Spelled Cases.Spelled
      ((o.values.toJson Cases.toJson).write layout (level + 1)) :=
    SignalMap.spelled_toJson (Cases.spelled_toJson layout (level + 2)) o.values
  have hlabels : o.labels.Spelled IsQuoted ((o.labels.toJson .string).write layout (level + 1)) :=
    SignalMap.spelled_toJson (isQuoted_write layout (level + 2)) o.labels
  refine InOrder.spellsRecord_write (.keep hvalues ?_) o.slots_shape.distinct
  cases hempty : o.labels.isEmpty with
  | true => exact .leave (SignalMap.isEmpty_iff.mp hempty) .nil
  | false => exact .keep hlabels .nil

theorem Rule.spelled_toJson (layout : Layout) (level : Nat) (r : Rule) :
    SpellsRecord stray r.forms (r.toJson.write layout level) := by
  have hcases := Cases.spelled_toJson layout (level + 1)
  have htext := isQuoted_write layout (level + 1)
  unfold Rule.toJson
  rw [List.append_assoc, List.append_assoc, ← List.append_nil (optionalField "inverse_label" _)]
  refine InOrder.spellsRecord_write (.keep (hcases _) (.keep (hcases _) ?_))
    r.slots_shape.distinct
  exact .optional htext _ (.optional htext _ (.optional htext _ .nil))

theorem State.spelled_toJson (layout : Layout) (level : Nat) (s : State) :
    SpellsRecord stray (s.forms stray) (s.toJson.write layout level) := by
  unfold State.toJson
  rw [← List.append_nil (s.rule.map _).toList]
  refine InOrder.spellsRecord_write (.keep (isQuoted_write layout _ _)
    (.keep (Output.spelled_toJson layout _ _) ?_)) s.slots_shape.distinct
  exact .optional (Rule.spelled_toJson layout (level + 1)) _ .nil

theorem Description.spelled_toJson (layout : Layout) (level : Nat) (d : Description) :
    SpellsRecord stray (d.forms stray) (d.toJson.write layout level) := by
  have hemitter : SpellsRecord stray d.emitter.forms
      (d.emitter.toJson.write layout (level + 1)) :=
    Emitter.spelled_toJson layout (level + 1) d.emitter
  have hstates : IsListOf (fun s => SpellsRecord stray (s.forms stray)) d.states
      ((Value.array (d.states.map State.toJson)).write layout (level + 1)) :=
    isListOf_write d.states (State.spelled_toJson layout (level + 2))
  exact InOrder.spellsRecord_write (.keep hemitter (.keep hstates .nil)) d.slots_shape.distinct

/-- **The written text is a spelling.** -/
theorem Description.spelled_pretty (d : Description) : d.Spelled stray d.pretty :=
  ⟨[], d.toJson.write .indented 0, [], gap_nil, gap_nil, d.spelled_toJson .indented 0,
    by simp [pretty, Value.pretty]⟩

end Sequencer
