import Mathlib.Data.List.Nodup
import Sequencer.Description.Parts
import Sequencer.Proofs.Json.WellFormed
import Sequencer.Proofs.Json.Writing

/-!
# Records in any order

The members of an object may spell a record in many ways: in any order, with stray
members that name no field, and without fields that may be left out.  This is said here
by what may stand for each field (`FieldForm`) and by which lists of members are a record
of such fields (`IsRecord`), without a reader.

A record is read into a draft, one slot for each field.  Reading a field fills its own
slot and leaves the others, so the order of the members does not matter: in the end each
slot holds the value that belongs there, or it is still empty and its field was left
out.

## Main Definitions

* `IsObject`, `IsListOf` — the members of an object and the items of a list, in any layout.
* `FieldForm`, `IsRecord`, `SpellsRecord` — what may stand for a record.
* `Slot`, `Shape.Slots` — the slots of a draft and the values that belong there.
* `Slot.Run` — the members of an object fill the slots one after another.

## Main Results

* `InOrder.isRecord` — fields written in order are a record.
* `Shape.Slots.exists_run` — members in any order fill the slots.
* `Shape.Slots.takes_record` — a record is taken in each of its spellings.
-/

namespace Sequencer.Json

variable {α σ : Type} {stray : List Char → Prop}

/-! ### Objects and lists -/

/-- The text is an object with the given members, in any layout. -/
def IsObject (members : List (String × List Char)) (cs : List Char) : Prop :=
  ∃ inner pieces, Separated true inner pieces ∧
    List.Forall₂ (fun m piece => Member m.1 m.2 piece) members pieces ∧
    cs = '\x7b' :: (inner ++ ['\x7d'])

/-- The text is a list, in any layout, and its items spell the given values. -/
def IsListOf (spelled : α → List Char → Prop) (as : List α) (cs : List Char) : Prop :=
  ∃ inner pieces, Separated true inner pieces ∧ List.Forall₂ spelled as pieces ∧
    cs = '[' :: (inner ++ [']'])

/-- The texts of an optional value: `null` where there is none. -/
def IsOptional (spelled : α → List Char → Prop) : Option α → List Char → Prop
  | none, cs => cs = "null".toList
  | some a, cs => spelled a cs

/-- The text between quotes in its written form. -/
def IsQuoted (s : String) (cs : List Char) : Prop := cs = quote s

theorem IsQuoted.head?_ne {s : String} {cs : List Char} (h : IsQuoted s cs) :
    cs.head? ≠ some 'n' := by
  unfold IsQuoted at h
  rw [h, quote_eq]
  simp

/-! ### Records -/

/-- What may stand for one field of a record. -/
structure FieldForm where
  key : String
  /-- The texts that may stand for the value of the field. -/
  spelled : List Char → Prop
  /-- Whether the field may be left out. -/
  omissible : Prop

/-- **The members of an object are a record**, in any order: those that name a field spell
its value, and those that name no field have a value that may be `stray`.  No field is
given twice, and only fields that may be left out are missing. -/
structure IsRecord (stray : List Char → Prop) (forms : List FieldForm)
    (members : List (String × List Char)) : Prop where
  known : ∀ m ∈ members, ∀ f ∈ forms, m.1 = f.key → f.spelled m.2
  unknown : ∀ m ∈ members, (∀ f ∈ forms, m.1 ≠ f.key) → stray m.2
  once : ∀ f ∈ forms, (members.map Prod.fst).count f.key ≤ 1
  complete : ∀ f ∈ forms, f.key ∈ members.map Prod.fst ∨ f.omissible

/-- No value is stray, so all members name fields. -/
def noStray (_ : List Char) : Prop := False

/-- The text spells a record. -/
def SpellsRecord (stray : List Char → Prop) (forms : List FieldForm) (cs : List Char) : Prop :=
  ∃ members, IsObject members cs ∧ IsRecord stray forms members

theorem SpellsRecord.head?_ne {forms : List FieldForm} {cs : List Char}
    (h : SpellsRecord stray forms cs) : cs.head? ≠ some 'n' := by
  obtain ⟨members, ⟨inner, pieces, -, -, rfl⟩, -⟩ := h
  simp

/-- The members are the fields of a record in order, without some that may be left out. -/
inductive InOrder : List FieldForm → List (String × List Char) → Prop
  | nil : InOrder [] []
  | keep {f : FieldForm} {text : List Char} {forms : List FieldForm}
      {members : List (String × List Char)} (value : f.spelled text)
      (more : InOrder forms members) : InOrder (f :: forms) ((f.key, text) :: members)
  | leave {f : FieldForm} {forms : List FieldForm} {members : List (String × List Char)}
      (omissible : f.omissible) (more : InOrder forms members) : InOrder (f :: forms) members

namespace InOrder

variable {forms : List FieldForm} {members : List (String × List Char)}

theorem sublist (h : InOrder forms members) :
    (members.map Prod.fst).Sublist (forms.map FieldForm.key) := by
  induction h with
  | nil => exact .slnil
  | keep _ _ ih => exact ih.cons_cons _
  | leave _ _ ih => exact ih.cons _

theorem spelled (h : InOrder forms members) :
    ∀ m ∈ members, ∃ f ∈ forms, m.1 = f.key ∧ f.spelled m.2 := by
  induction h with
  | nil => exact nofun
  | keep value _ ih =>
      refine List.forall_mem_cons.mpr ⟨⟨_, List.mem_cons_self, rfl, value⟩, fun m hm => ?_⟩
      obtain ⟨f, hf, hspelled⟩ := ih m hm
      exact ⟨f, List.mem_cons_of_mem _ hf, hspelled⟩
  | leave _ _ ih =>
      intro m hm
      obtain ⟨f, hf, hspelled⟩ := ih m hm
      exact ⟨f, List.mem_cons_of_mem _ hf, hspelled⟩

theorem complete (h : InOrder forms members) :
    ∀ f ∈ forms, f.key ∈ members.map Prod.fst ∨ f.omissible := by
  induction h with
  | nil => exact nofun
  | keep _ _ ih =>
      refine List.forall_mem_cons.mpr ⟨Or.inl List.mem_cons_self, fun f hf => ?_⟩
      exact (ih f hf).imp_left (List.mem_cons_of_mem _)
  | leave omissible _ ih => exact List.forall_mem_cons.mpr ⟨Or.inr omissible, ih⟩

/-- **Fields written in order are a record.** -/
theorem isRecord (h : InOrder forms members) (hnodup : (forms.map FieldForm.key).Nodup) :
    IsRecord stray forms members where
  known m hm f hf hkey := by
    obtain ⟨f', hf', hkey', hspelled⟩ := h.spelled m hm
    rw [List.inj_on_of_nodup_map hnodup hf hf' (hkey.symm.trans hkey')]
    exact hspelled
  unknown m hm hno := by
    obtain ⟨f, hf, hkey, -⟩ := h.spelled m hm
    exact absurd hkey (hno f hf)
  once f _ := List.nodup_iff_count_le_one.mp (h.sublist.nodup hnodup) f.key
  complete := h.complete

end InOrder

/-- A field with an optional value is kept where there is one. -/
theorem InOrder.optional {key : String} {spelled : α → List Char → Prop} {write : α → Value}
    {layout : Layout} {level : Nat} (h : ∀ a, spelled a ((write a).write layout level))
    (value : Option α) {forms : List FieldForm} {fs : List (String × Value)}
    (more : InOrder forms (fs.map fun f => (f.1, f.2.write layout level))) :
    InOrder (⟨key, IsOptional spelled value, value = none⟩ :: forms)
      (((value.map fun a => (key, write a)).toList ++ fs).map
        fun f => (f.1, f.2.write layout level)) := by
  cases value with
  | none => exact .leave rfl more
  | some a => exact .keep (h a) more

/-! ### Written lists and objects -/

theorem isObject_write (layout : Layout) (level : Nat) (fs : List (String × Value)) :
    IsObject (fs.map fun f => (f.1, f.2.write layout (level + 1)))
      ((Value.object fs).write layout level) := by
  obtain ⟨inner, hwrite, hlayout⟩ := write_object layout level fs
  exact ⟨inner, _, hlayout, forall₂_member_field layout (level + 1) fs, hwrite⟩

theorem isListOf_write {spelled : α → List Char → Prop} {write : α → Value} {layout : Layout}
    {level : Nat} (as : List α) (h : ∀ a, spelled a ((write a).write layout (level + 1))) :
    IsListOf spelled as ((Value.array (as.map write)).write layout level) := by
  obtain ⟨inner, hwrite, hlayout⟩ := write_array layout level (as.map write)
  refine ⟨inner, _, hlayout, ?_, hwrite⟩
  rw [List.map_map, List.forall₂_map_right_iff, List.forall₂_same]
  exact fun a _ => h a

/-- **An object whose fields are written in order spells its record.** -/
theorem InOrder.spellsRecord_write {forms : List FieldForm} {layout : Layout} {level : Nat}
    {fs : List (String × Value)}
    (h : InOrder forms (fs.map fun f => (f.1, f.2.write layout (level + 1))))
    (hnodup : (forms.map FieldForm.key).Nodup) :
    SpellsRecord stray forms ((Value.object fs).write layout level) :=
  ⟨_, isObject_write layout level fs, h.isRecord hnodup⟩

/-! ### Texts without blanks -/

/-- The pieces with commas between them and no blanks. -/
def commas (pieces : List (List Char)) : List Char :=
  (pieces.flatMap fun piece => ',' :: piece).tail

theorem separated_commas (pieces : List (List Char)) : Separated true (commas pieces) pieces := by
  have hmore : ∀ pieces, Separated false (pieces.flatMap fun piece => ',' :: piece) pieces := by
    intro pieces
    induction pieces with
    | nil => exact .nil gap_nil
    | cons piece pieces ih => exact .cons gap_nil gap_nil ih
  cases pieces with
  | nil => exact .nil gap_nil
  | cons piece pieces => exact .cons gap_nil gap_nil (hmore pieces)

theorem isObject_commas (members : List (String × List Char)) :
    IsObject members
      ('\x7b' :: (commas (members.map fun m => quote m.1 ++ ':' :: m.2) ++ ['\x7d'])) := by
  refine ⟨_, _, separated_commas _, ?_, rfl⟩
  rw [List.forall₂_map_right_iff, List.forall₂_same]
  exact fun m _ => ⟨[], [], gap_nil, gap_nil, rfl⟩

/-! ### Slots of a draft -/

open Reader

/-- A slot of a draft: how it is read and written, the reader of its field, the value
that belongs there, and what may stand for it. -/
structure Slot (σ : Type) where
  β : Type
  get : σ → Option β
  set : σ → β → σ
  reader : Reader β
  value : β
  form : FieldForm

namespace Slot

/-- The field of a slot. -/
def field (p : Slot σ) : Field σ := .slot p.form.key p.get p.set p.reader

/-- The slot holds its value, or it is empty and its field may be left out. -/
def IsSettled (p : Slot σ) (draft : σ) : Prop :=
  p.get draft = some p.value ∨ p.get draft = none ∧ p.form.omissible

end Slot

/-- The members of an object fill the slots of a draft one after another; a stray member
leaves the draft as it is. -/
inductive Slot.Run (stray : List Char → Prop) (slots : List (Slot σ)) :
    σ → List (String × List Char) → σ → Prop
  | nil {draft : σ} : Run stray slots draft [] draft
  | fill {draft last : σ} {p : Slot σ} {text : List Char} {members : List (String × List Char)}
      (mem : p ∈ slots) (unset : p.get draft = none) (value : p.form.spelled text)
      (more : Run stray slots (p.set draft p.value) members last) :
      Run stray slots draft ((p.form.key, text) :: members) last
  | skip {draft last : σ} {key : String} {text : List Char}
      {members : List (String × List Char)} (unknown : ∀ p ∈ slots, key ≠ p.form.key)
      (value : stray text) (more : Run stray slots draft members last) :
      Run stray slots draft ((key, text) :: members) last

/-- The fields of the shape are kept in the given slots, which are independent of each
other and empty at the start; a draft in which all slots are settled is finished as `a`. -/
structure Shape.Slots (shape : Shape σ α) (slots : List (Slot σ)) (a : α) : Prop where
  fields : shape.fields = slots.map Slot.field
  distinct : (slots.map fun p => p.form.key).Nodup
  start : ∀ p ∈ slots, p.get shape.start = none
  get_set : ∀ p ∈ slots, ∀ draft b, p.get (p.set draft b) = some b
  get_set_other : ∀ p ∈ slots, ∀ q ∈ slots, p.form.key ≠ q.form.key →
    ∀ draft b, q.get (p.set draft b) = q.get draft
  finish : ∀ draft, (∀ p ∈ slots, p.IsSettled draft) → shape.finish draft = .ok a

namespace Shape.Slots

variable {shape : Shape σ α} {slots : List (Slot σ)} {a : α}

/-- A key leads to the field of its slot. -/
theorem find?_key (h : shape.Slots slots a) {p : Slot σ} (hp : p ∈ slots) :
    (shape.fields.find? fun f => f.key = p.form.key) = some p.field := by
  have hdistinct := h.distinct
  rw [h.fields]
  clear h
  induction slots with
  | nil => cases hp
  | cons q slots ih =>
      obtain ⟨hnew, hdistinct⟩ := List.nodup_cons.mp hdistinct
      rcases List.mem_cons.mp hp with rfl | hp
      · exact List.find?_cons_of_pos (decide_eq_true rfl)
      · have hne : q.field.key ≠ p.form.key :=
          fun heq => hnew (List.mem_map.mpr ⟨p, hp, heq.symm⟩)
        rw [List.map_cons, List.find?_cons_of_neg (by simpa using hne)]
        exact ih hp hdistinct

/-- A key that no slot has leads to no field. -/
theorem find?_unknown (h : shape.Slots slots a) {key : String}
    (hkey : ∀ p ∈ slots, key ≠ p.form.key) :
    (shape.fields.find? fun f => f.key = key) = none := by
  rw [h.fields, List.find?_eq_none]
  intro f hf
  obtain ⟨p, hp, rfl⟩ := List.mem_map.mp hf
  have hne : p.field.key ≠ key := fun heq => hkey p hp heq.symm
  simpa using hne

/-- Slots with the same key are the same. -/
theorem eq_of_key (h : shape.Slots slots a) {p q : Slot σ} (hp : p ∈ slots)
    (hq : q ∈ slots) (hkey : p.form.key = q.form.key) : p = q :=
  List.inj_on_of_nodup_map h.distinct hp hq hkey

/-- **Members in any order fill the slots.**  Each slot whose key is among the members
gets its value, and the others stay as they are. -/
theorem exists_run_from (h : shape.Slots slots a) {members : List (String × List Char)}
    (hknown : ∀ m ∈ members, ∀ p ∈ slots, m.1 = p.form.key → p.form.spelled m.2)
    (hunknown : ∀ m ∈ members, (∀ p ∈ slots, m.1 ≠ p.form.key) → stray m.2)
    (honce : ∀ p ∈ slots, (members.map Prod.fst).count p.form.key ≤ 1) {draft : σ}
    (hunset : ∀ p ∈ slots, p.form.key ∈ members.map Prod.fst → p.get draft = none) :
    ∃ last, Slot.Run stray slots draft members last ∧
      (∀ p ∈ slots, p.form.key ∈ members.map Prod.fst → p.get last = some p.value) ∧
      ∀ p ∈ slots, p.form.key ∉ members.map Prod.fst → p.get last = p.get draft := by
  induction members generalizing draft with
  | nil => exact ⟨draft, .nil, fun _ _ => nofun, fun _ _ _ => rfl⟩
  | cons m members ih =>
      obtain ⟨key, text⟩ := m
      obtain ⟨hm, hmembers⟩ := List.forall_mem_cons.mp hknown
      obtain ⟨hm', hmembers'⟩ := List.forall_mem_cons.mp hunknown
      simp only [List.map_cons] at honce hunset ⊢
      have honce' : ∀ p ∈ slots, (members.map Prod.fst).count p.form.key ≤ 1 :=
        fun p hp => Nat.le_trans List.count_le_count_cons (honce p hp)
      by_cases hfield : ∃ p ∈ slots, key = p.form.key
      · -- the member fills its slot, which no later member names
        obtain ⟨p, hp, rfl⟩ := hfield
        have hlater : p.form.key ∉ members.map Prod.fst := by
          intro hmem
          have hcount := honce p hp
          rw [List.count_cons_self] at hcount
          have hpos := List.count_pos_iff.mpr hmem
          omega
        have hother : ∀ q ∈ slots, q.form.key ∈ members.map Prod.fst →
            p.form.key ≠ q.form.key :=
          fun q _ hmem heq => hlater (heq ▸ hmem)
        have hempty : p.get draft = none := hunset p hp List.mem_cons_self
        have hunset' : ∀ q ∈ slots, q.form.key ∈ members.map Prod.fst →
            q.get (p.set draft p.value) = none := by
          intro q hq hmem
          rw [h.get_set_other p hp q hq (hother q hq hmem)]
          exact hunset q hq (List.mem_cons_of_mem _ hmem)
        obtain ⟨last, hrun, hset, hkept⟩ := ih hmembers hmembers' honce' hunset'
        refine ⟨last, .fill hp hempty (hm p hp rfl) hrun, ?_, ?_⟩
        · intro q hq hmem
          by_cases heq : q.form.key = p.form.key
          · obtain rfl := h.eq_of_key hq hp heq
            rw [hkept q hq hlater, h.get_set q hq]
          · exact hset q hq ((List.mem_cons.mp hmem).resolve_left heq)
        · intro q hq hmem
          obtain ⟨hne, hmem⟩ := not_or.mp fun h => hmem (List.mem_cons.mpr h)
          rw [hkept q hq hmem, h.get_set_other p hp q hq (Ne.symm hne)]
      · -- the member names no field
        push Not at hfield
        have hunset' : ∀ q ∈ slots, q.form.key ∈ members.map Prod.fst → q.get draft = none :=
          fun q hq hmem => hunset q hq (List.mem_cons_of_mem _ hmem)
        obtain ⟨last, hrun, hset, hkept⟩ := ih hmembers hmembers' honce' hunset'
        refine ⟨last, .skip hfield (hm' hfield) hrun, ?_, ?_⟩
        · intro q hq hmem
          exact hset q hq ((List.mem_cons.mp hmem).resolve_left (Ne.symm (hfield q hq)))
        · intro q hq hmem
          exact hkept q hq fun h => hmem (List.mem_cons_of_mem _ h)

/-- The members of a record fill the slots, and what they fill is finished as `a`. -/
theorem exists_run (h : shape.Slots slots a) {members : List (String × List Char)}
    (hrecord : IsRecord stray (slots.map Slot.form) members) :
    ∃ last, Slot.Run stray slots shape.start members last ∧ shape.finish last = .ok a := by
  have hform : ∀ p ∈ slots, p.form ∈ slots.map Slot.form :=
    fun p hp => List.mem_map_of_mem hp
  obtain ⟨last, hrun, hset, hkept⟩ := h.exists_run_from
    (fun m hm p hp => hrecord.known m hm p.form (hform p hp))
    (fun m hm hunknown => hrecord.unknown m hm (List.forall_mem_map.mpr hunknown))
    (fun p hp => hrecord.once p.form (hform p hp)) (fun p hp _ => h.start p hp)
  refine ⟨last, hrun, h.finish last fun p hp => ?_⟩
  by_cases hmem : p.form.key ∈ members.map Prod.fst
  · exact Or.inl (hset p hp hmem)
  · refine Or.inr ⟨?_, (hrecord.complete p.form (hform p hp)).resolve_left hmem⟩
    rw [hkept p hp hmem, h.start p hp]

/-- A slot that is empty is not set. -/
theorem isSet_field {p : Slot σ} {draft : σ} (h : p.get draft = none) :
    p.field.isSet draft = false := by
  show (p.get draft).isSome = false
  rw [h]
  rfl

/-- A run is read member by member if each slot takes what may stand for it. -/
theorem fills_of_run (h : shape.Slots slots a) {n : Nat}
    (htakes : ∀ p ∈ slots, ∀ cs, p.form.spelled cs → Takes p.reader n cs p.value)
    (hstray : ∀ cs, stray cs → Takes skipValue n cs ()) {draft last : σ}
    {members : List (String × List Char)} (hrun : Slot.Run stray slots draft members last) :
    shape.Fills n draft members last := by
  induction hrun with
  | nil => exact .nil
  | @fill draft last p text members mem unset value more ih =>
      have hread : Takes (p.field.read draft) n text (p.set draft p.value) :=
        (htakes p mem text value).andThen fun _ _ => rfl
      exact .cons (h.find?_key mem) (isSet_field unset) hread ih
  | skip unknown value more ih => exact .skip (h.find?_unknown unknown) (hstray _ value) ih

/-- **A record is taken in each of its spellings.** -/
theorem takes_record (h : shape.Slots slots a) {n : Nat}
    (htakes : ∀ p ∈ slots, ∀ cs, p.form.spelled cs → Takes p.reader n cs p.value)
    (hstray : ∀ cs, stray cs → Takes skipValue n cs ()) {cs : List Char}
    (hcs : SpellsRecord stray (slots.map Slot.form) cs) : Takes (record shape) (n + 1) cs a := by
  obtain ⟨members, ⟨inner, pieces, hlayout, hmembers, rfl⟩, hrecord⟩ := hcs
  obtain ⟨last, hrun, hfinish⟩ := h.exists_run hrecord
  exact Takes.record hlayout hmembers (h.fills_of_run htakes hstray hrun) hfinish

end Shape.Slots

end Sequencer.Json
