import Sequencer.Description.Parts
import Sequencer.Proofs.Json.Spelling

/-!
# Written values are read

Compact or indented, a written list or object consists of pieces set apart by
commas, with blanks around them.  A reader *reads* a value as something if it
takes the text of that value in every layout and at every level.

## Main Definitions

* `Reader.Reads` — a reader reads a value as something.

## Main Results

* `write_array`, `write_object` — the pieces of a written list or object.
* `Reader.takes_texts` — a list of texts is taken as a tree.
-/

namespace Sequencer.Json

variable {α : Type}

/-! ### Layout -/

namespace Layout

/-- A line break is made of blanks. -/
theorem gap_lineBreak (layout : Layout) (level : Nat) : Gap (layout.lineBreak level) := by
  cases layout with
  | compact => exact gap_nil
  | indented =>
      intro c hc
      rcases List.mem_cons.mp hc with rfl | hc
      · rfl
      · obtain rfl := List.eq_of_mem_replicate hc
        rfl

/-- A field of an object: its key, the colon and its value. -/
def field (layout : Layout) (level : Nat) (f : String × Value) : List Char :=
  quote f.1 ++ (layout.colon ++ f.2.write layout level)

/-- A written field is a member of its object. -/
theorem member_field (layout : Layout) (level : Nat) (f : String × Value) :
    Member f.1 (f.2.write layout level) (layout.field level f) := by
  cases layout with
  | compact => exact ⟨[], [], gap_nil, gap_nil, rfl⟩
  | indented =>
      refine ⟨[], [' '], gap_nil, ?_, rfl⟩
      intro c hc
      obtain rfl := List.mem_singleton.mp hc
      rfl

end Layout

/-- The items after the first one are pieces of the list. -/
theorem separated_writeItems (layout : Layout) (level : Nat) (vs : List Value)
    {gap : List Char} (h : Gap gap) :
    Separated false (writeItems layout level vs ++ gap) (vs.map fun v => v.write layout level) := by
  induction vs with
  | nil => exact .nil h
  | cons v vs ih =>
      have hcons : Separated false
          ([] ++ ([','] ++ (layout.lineBreak level ++ (v.write layout level ++
            (writeItems layout level vs ++ gap)))))
          (v.write layout level :: vs.map fun v => v.write layout level) :=
        .cons gap_nil (layout.gap_lineBreak level) ih
      simpa [writeItems] using hcons

/-- **A written list is the texts of its items**, set apart by commas. -/
theorem write_array (layout : Layout) (level : Nat) (vs : List Value) :
    ∃ cs, (Value.array vs).write layout level = '[' :: (cs ++ [']']) ∧
      Separated true cs (vs.map fun v => v.write layout (level + 1)) := by
  cases vs with
  | nil => exact ⟨[], by rw [Value.write]; rfl, .nil gap_nil⟩
  | cons v vs =>
      have hmore := separated_writeItems layout (level + 1) vs (layout.gap_lineBreak level)
      refine ⟨_, ?_, .cons (layout.gap_lineBreak (level + 1)) gap_nil hmore⟩
      simp [Value.write, separator]

/-- The fields after the first one are pieces of the object. -/
theorem separated_writeFields (layout : Layout) (level : Nat) (fs : List (String × Value))
    {gap : List Char} (h : Gap gap) :
    Separated false (writeFields layout level fs ++ gap) (fs.map (layout.field level)) := by
  induction fs with
  | nil => exact .nil h
  | cons f fs ih =>
      have hcons : Separated false
          ([] ++ ([','] ++ (layout.lineBreak level ++ (layout.field level f ++
            (writeFields layout level fs ++ gap)))))
          (layout.field level f :: fs.map (layout.field level)) :=
        .cons gap_nil (layout.gap_lineBreak level) ih
      simpa [writeFields, Layout.field] using hcons

/-- **A written object is the texts of its fields**, set apart by commas. -/
theorem write_object (layout : Layout) (level : Nat) (fs : List (String × Value)) :
    ∃ cs, (Value.object fs).write layout level = '\x7b' :: (cs ++ ['\x7d']) ∧
      Separated true cs (fs.map (layout.field (level + 1))) := by
  cases fs with
  | nil => exact ⟨[], by rw [Value.write]; rfl, .nil gap_nil⟩
  | cons f fs =>
      have hmore := separated_writeFields layout (level + 1) fs (layout.gap_lineBreak level)
      refine ⟨_, ?_, .cons (layout.gap_lineBreak (level + 1)) gap_nil hmore⟩
      simp [Value.write, Layout.field, separator]

/-- The members of a written object are its keys with the texts of their values. -/
theorem forall₂_member_field (layout : Layout) (level : Nat) (fs : List (String × Value)) :
    List.Forall₂ (fun m piece => Member m.1 m.2 piece)
      (fs.map fun f => (f.1, f.2.write layout level)) (fs.map (layout.field level)) := by
  rw [List.forall₂_map_left_iff, List.forall₂_map_right_iff, List.forall₂_same]
  exact fun f _ => layout.member_field level f

namespace Reader

/-! ### Reading what is written -/

/-- **The reader reads the value `v` as `a`**: it takes the text of `v` in every layout
and at every level, where at least `n` more containers may be opened. -/
def Reads (r : Reader α) (n : Nat) (v : Value) (a : α) : Prop :=
  ∀ layout level, Takes r n (v.write layout level) a

/-- What a reader reads from the text of a value, compact or over several lines. -/
theorem Reads.readAll_eq {r : Reader α} {n : Nat} {v : Value} {a : α} (h : Reads r n v a)
    (hn : n ≤ maxNesting) : readAll r v.compact = .ok a ∧ readAll r v.pretty = .ok a :=
  ⟨(h .compact 0).readAll hn, (h .indented 0).readAll hn⟩

theorem write_string (layout : Layout) (level : Nat) (s : String) :
    (Value.string s).write layout level = quote s := by
  rw [Value.write]

/-- A text is read as a value, however many containers may be opened. -/
theorem takes_valueAt_quote (depth : Nat) (s : String) :
    Takes (valueAt depth) 0 (quote s) (.string s) := by
  have hbody : ∀ (inner : Option (Reader Value)) (outer : Nat) (rest : List Char),
      valueFrom inner '"' outer (s.toList.flatMap escape ++ '"' :: rest) =
        .ok (.string s, rest) := by
    intro inner outer rest
    exact bind_of_ok (textBody_escaped s outer rest)
  refine ⟨opens_quote s, fun {outer gap rest} _ hgap _ => ?_⟩
  have hskip : skipBlanks (gap ++ (quote s ++ rest)) =
      '"' :: (s.toList.flatMap escape ++ '"' :: rest) := by
    rw [quote_eq, List.cons_append, skipBlanks_gap_cons hgap rfl, List.append_assoc]
    rfl
  cases depth with
  | zero =>
      unfold valueAt
      rw [hskip]
      exact hbody none outer rest
  | succ depth =>
      unfold valueAt
      rw [hskip]
      exact hbody (some (valueAt depth)) outer rest

/-- **A list of texts is taken as a tree**, in any layout. -/
theorem takes_texts {cs : List Char} {texts : List String}
    (h : Separated true cs (texts.map quote)) :
    Takes value 1 ('[' :: (cs ++ [']'])) (.ofTexts texts) := by
  refine ⟨⟨'[', _, rfl, rfl, by decide⟩, fun {depth gap rest} hn hgap hrest => ?_⟩
  obtain ⟨d, rfl⟩ := Nat.exists_eq_succ_of_ne_zero (Nat.ne_zero_of_lt hn)
  have hskip : skipBlanks (gap ++ ('[' :: (cs ++ [']']) ++ rest)) =
      '[' :: (cs ++ ']' :: rest) := by
    rw [List.cons_append, skipBlanks_gap_cons hgap rfl, List.append_assoc]
    rfl
  have htakes : List.Forall₂ (Takes (valueAt d) 0) (texts.map quote)
      (texts.map Value.string) := by
    rw [List.forall₂_map_left_iff, List.forall₂_map_right_iff, List.forall₂_same]
    exact fun s _ => takes_valueAt_quote d s
  have hitems : bounded (fun bound => items (valueAt d) bound true) (d + 1)
      (cs ++ ']' :: rest) = .ok (texts.map Value.string, ']' :: rest) :=
    items_separated (Nat.zero_le _) h htakes (length_lt_enclosed cs ']' rest) rest
  show valueAt (d + 1) (d + 1) _ = _
  unfold valueAt
  rw [hskip]
  exact bind_of_ok hitems

end Reader

end Sequencer.Json
