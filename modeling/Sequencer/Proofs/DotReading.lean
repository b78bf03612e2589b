import Mathlib.Data.List.Basic
import Sequencer.Dot

/-!
# Reading DOT text back

The text of a graph determines the nodes and edges that were added to it, in order,
whatever characters stand in their names and labels.  This is shown by a reader
that accepts exactly the texts of graphs and returns what was added.

No line break leaves its quotes, so the lines of the text are its statements and
can be read one by one.  Inside a statement every quoted text ends at its first
bare quote; what follows it says whether a second name or the label comes next.

## Main Definitions

* `Dot.unquote` — the text before a closing quote, and what is left behind it.
* `Dot.readCall` — the node or edge of a line.
* `Dot.read` — the nodes and edges of a text, given the name of the graph.

## Main Results

* `Dot.unquote_eq_some_iff` — quoted texts are read back, and nothing else is read.
* `Dot.readCall_eq_some_iff` — the same for lines.
* `dot_text_determines_calls` — the same for graphs.
-/

namespace Sequencer

open Diagram

namespace Dot

/-! ### Quoted texts -/

/-- The character that a letter after a backslash stands for. -/
def unescape : Char → Option Char
  | '"' => some '"'
  | '\\' => some '\\'
  | 'n' => some '\n'
  | _ => none

/-- The text up to the closing quote, and what stands behind that quote. -/
def unquote : List Char → Option (List Char × List Char)
  | [] => none
  | c :: cs =>
      if c = '"' then some ([], cs)
      else if c = '\n' then none
      else if c = '\\' then
        match cs with
        | [] => none
        | letter :: rest =>
            (unescape letter).bind fun d => (unquote rest).map fun p => (d :: p.1, p.2)
      else (unquote cs).map fun p => (c :: p.1, p.2)

/-- A letter stands for the character whose escape it is. -/
theorem unescape_eq_some_iff {letter c : Char} :
    unescape letter = some c ↔ escape c = ['\\', letter] := by
  constructor
  · intro h
    unfold unescape at h
    split at h
    · obtain rfl := Option.some.inj h
      rfl
    · obtain rfl := Option.some.inj h
      rfl
    · obtain rfl := Option.some.inj h
      rfl
    · cases h
  · intro h
    unfold escape at h
    split at h
    · obtain rfl : letter = '"' := by simpa [eq_comm] using h
      rfl
    · obtain rfl : letter = '\\' := by simpa [eq_comm] using h
      rfl
    · obtain rfl : letter = 'n' := by simpa [eq_comm] using h
      rfl
    · simp at h

/-- Apart from three characters, every character stands for itself. -/
theorem escape_of_ne {c : Char} (hquote : c ≠ '"') (hbackslash : c ≠ '\\') (hbreak : c ≠ '\n') :
    escape c = [c] := by
  unfold escape
  split <;> first | contradiction | rfl

theorem unquote_quote (cs : List Char) : unquote ('"' :: cs) = some ([], cs) := by
  rw [unquote.eq_def]
  rfl

theorem unquote_backslash (letter : Char) (cs : List Char) :
    unquote ('\\' :: letter :: cs) =
      (unescape letter).bind fun d => (unquote cs).map fun p => (d :: p.1, p.2) := by
  rw [unquote.eq_def]
  rfl

theorem unquote_plain {c : Char} (cs : List Char) (hquote : c ≠ '"') (hbackslash : c ≠ '\\')
    (hbreak : c ≠ '\n') : unquote (c :: cs) = (unquote cs).map fun p => (c :: p.1, p.2) := by
  rw [unquote.eq_def]
  dsimp only
  rw [if_neg hquote, if_neg hbreak, if_neg hbackslash]

/-- One round of reading undoes one escape. -/
theorem unquote_escape (c : Char) (cs : List Char) :
    unquote (escape c ++ cs) = (unquote cs).map fun p => (c :: p.1, p.2) := by
  have hletter : ∀ letter, escape c = ['\\', letter] →
      unquote (escape c ++ cs) = (unquote cs).map fun p => (c :: p.1, p.2) := by
    intro letter h
    rw [h]
    show unquote ('\\' :: letter :: cs) = _
    rw [unquote_backslash, unescape_eq_some_iff.mpr h]
    rfl
  by_cases hquote : c = '"'
  · subst hquote
    exact hletter '"' rfl
  · by_cases hbackslash : c = '\\'
    · subst hbackslash
      exact hletter '\\' rfl
    · by_cases hbreak : c = '\n'
      · subst hbreak
        exact hletter 'n' rfl
      · rw [escape_of_ne hquote hbackslash hbreak]
        exact unquote_plain cs hquote hbackslash hbreak

/-- A quoted text is read back up to its closing quote. -/
theorem unquote_flatMap_escape (text rest : List Char) :
    unquote (text.flatMap escape ++ '"' :: rest) = some (text, rest) := by
  induction text with
  | nil => exact unquote_quote rest
  | cons c text ih =>
      rw [List.flatMap_cons, List.append_assoc, unquote_escape, ih]
      rfl

/-- Only quoted texts are read. -/
theorem eq_of_unquote {cs text rest : List Char} (h : unquote cs = some (text, rest)) :
    cs = text.flatMap escape ++ '"' :: rest := by
  induction cs using unquote.induct generalizing text with
  | case1 =>
      rw [unquote.eq_def] at h
      cases h
  | case2 cs =>
      rw [unquote_quote] at h
      cases h
      rfl
  | case3 cs =>
      rw [unquote.eq_def] at h
      cases h
  | case4 =>
      rw [unquote.eq_def] at h
      cases h
  | case5 letter more _ _ ih =>
      rw [unquote_backslash] at h
      obtain ⟨d, hd, h⟩ := Option.bind_eq_some_iff.mp h
      obtain ⟨p, hp, hpair⟩ := Option.map_eq_some_iff.mp h
      cases hpair
      rw [ih hp, List.flatMap_cons, unescape_eq_some_iff.mp hd]
      rfl
  | case6 c cs hquote hbreak hbackslash ih =>
      rw [unquote_plain cs hquote hbackslash hbreak] at h
      obtain ⟨p, hp, hpair⟩ := Option.map_eq_some_iff.mp h
      cases hpair
      rw [ih hp, List.flatMap_cons, escape_of_ne hquote hbackslash hbreak]
      rfl

/-- **Reading up to a closing quote inverts quoting**: it succeeds exactly on the
characters of a quoted text and whatever is behind its closing quote. -/
theorem unquote_eq_some_iff {cs text rest : List Char} :
    unquote cs = some (text, rest) ↔ cs = text.flatMap escape ++ '"' :: rest := by
  constructor
  · exact eq_of_unquote
  · rintro rfl
    exact unquote_flatMap_escape text rest

/-- A quoted text leaves no line break outside of its escapes. -/
theorem newline_notMem_quote (text : String) : '\n' ∉ (quote text).toList := by
  have hescape : ∀ c, '\n' ∉ escape c := by
    intro c hmem
    unfold escape at hmem
    split at hmem
    · simp at hmem
    · simp at hmem
    · simp at hmem
    · next hbreak => exact hbreak (List.mem_singleton.mp hmem).symm
  unfold quote
  rw [String.toList_ofList, List.cons_append, List.mem_cons, List.mem_append, List.mem_flatMap]
  rintro (hquote | ⟨c, -, hc⟩ | hquote)
  · cases hquote
  · exact hescape c hc
  · simp at hquote

/-! ### Statements -/

/-- The line of a node or an edge, without the line break at its end. -/
def line (call : Call) : String := "\t" ++ statement call

/-- The quoted text at the front, and what stands behind it. -/
def readQuoted (cs : List Char) : Option (String × List Char) := do
  let cs ← ['"'].isPrefixOf? cs
  let p ← unquote cs
  return (String.ofList p.1, p.2)

/-- The label with which a statement ends. -/
def readLabel (cs : List Char) : Option String := do
  let cs ← " [label=".toList.isPrefixOf? cs
  let p ← readQuoted cs
  if p.2 = [']'] then some p.1 else none

/-- The node or the edge of a line. -/
def readCall (line : List Char) : Option Call := do
  let cs ← ['\t'].isPrefixOf? line
  let p ← readQuoted cs
  match " -> ".toList.isPrefixOf? p.2 with
  | some cs =>
      let q ← readQuoted cs
      let label ← readLabel q.2
      return .edge p.1 q.1 label
  | none =>
      let label ← readLabel p.2
      return .node p.1 label

theorem readQuoted_eq_some_iff {cs rest : List Char} {text : String} :
    readQuoted cs = some (text, rest) ↔ cs = (quote text).toList ++ rest := by
  have hquote : (quote text).toList ++ rest = '"' :: (text.toList.flatMap escape ++ '"' :: rest) := by
    unfold quote
    simp
  rw [hquote]
  unfold readQuoted
  simp only [Option.bind_eq_bind, Option.bind_eq_some_iff, List.isPrefixOf?_eq_some_iff_append_eq]
  constructor
  · rintro ⟨cs, rfl, p, hp, hpair⟩
    cases hpair
    rw [String.toList_ofList, ← unquote_eq_some_iff.mp hp]
    rfl
  · rintro rfl
    exact ⟨_, rfl, (text.toList, rest), unquote_eq_some_iff.mpr rfl, by
      rw [String.ofList_toList]; rfl⟩

theorem readLabel_eq_some_iff {cs : List Char} {label : String} :
    readLabel cs = some label ↔ cs = (" [label=" ++ quote label ++ "]").toList := by
  unfold readLabel
  simp only [Option.bind_eq_bind, Option.bind_eq_some_iff, List.isPrefixOf?_eq_some_iff_append_eq]
  constructor
  · rintro ⟨cs, rfl, p, hp, hend⟩
    split at hend
    · next hclosed =>
        cases hend
        rw [readQuoted_eq_some_iff.mp hp, hclosed]
        simp [String.toList_append]
    · cases hend
  · rintro rfl
    refine ⟨(quote label).toList ++ [']'], ?_, (label, [']']), readQuoted_eq_some_iff.mpr rfl,
      if_pos rfl⟩
    simp [String.toList_append]

/-- Behind the name of a node, its label is not taken for an arrow. -/
theorem arrow_isPrefixOf?_label (label : String) :
    " -> ".toList.isPrefixOf? (" [label=" ++ quote label ++ "]").toList = none := by
  rw [Option.eq_none_iff_forall_ne_some]
  intro rest h
  rw [List.isPrefixOf?_eq_some_iff_append_eq] at h
  simp [String.toList_append] at h

/-- **The line of a node or an edge is read back, and no other line is read.** -/
theorem readCall_eq_some_iff {cs : List Char} {call : Call} :
    readCall cs = some call ↔ cs = (line call).toList := by
  unfold readCall
  simp only [Option.bind_eq_bind, Option.bind_eq_some_iff, List.isPrefixOf?_eq_some_iff_append_eq]
  constructor
  · rintro ⟨cs, rfl, p, hp, hrest⟩
    rw [readQuoted_eq_some_iff.mp hp]
    split at hrest
    · next more harrow =>
        obtain ⟨q, hq, hrest⟩ := Option.bind_eq_some_iff.mp hrest
        obtain ⟨label, hlabel, hcall⟩ := Option.bind_eq_some_iff.mp hrest
        cases hcall
        rw [← List.isPrefixOf?_eq_some_iff_append_eq.mp harrow, readQuoted_eq_some_iff.mp hq,
          readLabel_eq_some_iff.mp hlabel]
        simp [line, statement, String.toList_append]
    · obtain ⟨label, hlabel, hcall⟩ := Option.bind_eq_some_iff.mp hrest
      cases hcall
      rw [readLabel_eq_some_iff.mp hlabel]
      simp [line, statement, String.toList_append]
  · rintro rfl
    have hlabel : ∀ label, readLabel (" [label=" ++ quote label ++ "]").toList = some label :=
      fun label => readLabel_eq_some_iff.mpr rfl
    cases call with
    | node name label =>
        refine ⟨(statement (.node name label)).toList, ?_,
          (name, (" [label=" ++ quote label ++ "]").toList), ?_, ?_⟩
        · simp [line, String.toList_append]
        · rw [readQuoted_eq_some_iff]
          simp [statement, String.toList_append]
        · dsimp only
          rw [arrow_isPrefixOf?_label]
          dsimp only
          rw [hlabel]
          rfl
    | edge source target label =>
        have harrow : " -> ".toList.isPrefixOf?
            (" -> " ++ quote target ++ " [label=" ++ quote label ++ "]").toList =
              some ((quote target).toList ++ (" [label=" ++ quote label ++ "]").toList) := by
          rw [List.isPrefixOf?_eq_some_iff_append_eq]
          simp [String.toList_append]
        refine ⟨(statement (.edge source target label)).toList, ?_,
          (source, (" -> " ++ quote target ++ " [label=" ++ quote label ++ "]").toList), ?_, ?_⟩
        · simp [line, String.toList_append]
        · rw [readQuoted_eq_some_iff]
          simp [statement, String.toList_append]
        · dsimp only
          rw [harrow]
          dsimp only
          rw [readQuoted_eq_some_iff.mpr rfl]
          dsimp only [Option.bind_some]
          rw [hlabel]
          rfl

/-- The line of a node or an edge is one line. -/
theorem newline_notMem_line (call : Call) : '\n' ∉ (line call).toList := by
  have hquote := newline_notMem_quote
  cases call with
  | node name label => simp [line, statement, String.toList_append, hquote]
  | edge source target label => simp [line, statement, String.toList_append, hquote]

/-! ### Graphs -/

/-- The nodes and edges of the lines of a graph, up to the line that closes it. -/
def readLines : List (List Char) → Option (List Call)
  | [] => none
  | cs :: rest =>
      if cs = ['\x7d'] then
        if rest = [[]] then some [] else none
      else do
        let call ← readCall cs
        let calls ← readLines rest
        return call :: calls

/-- The line that opens a graph. -/
def opening (name : String) : String := "digraph " ++ name ++ " \x7b\n"

/-- **The reader of graphs**: the nodes and edges of a text, given the name of the graph. -/
def read (name text : String) : Option (List Call) := do
  let cs ← (opening name).toList.isPrefixOf? text.toList
  readLines (cs.splitOn '\n')

theorem line_ne_closing (call : Call) : (line call).toList ≠ ['\x7d'] := by
  intro h
  simp [line, String.toList_append] at h

theorem readLines_eq_some_iff {lines : List (List Char)} {calls : List Call} :
    readLines lines = some calls ↔
      lines = calls.map (fun call => (line call).toList) ++ [['\x7d'], []] := by
  induction lines generalizing calls with
  | nil => simp [readLines]
  | cons cs rest ih =>
      unfold readLines
      by_cases hclosing : cs = ['\x7d']
      · rw [if_pos hclosing]
        cases calls with
        | nil => simp [hclosing]
        | cons call calls =>
            have hne := line_ne_closing call
            simp [hclosing, hne.symm]
      · rw [if_neg hclosing]
        simp only [Option.bind_eq_bind, Option.bind_eq_some_iff]
        constructor
        · rintro ⟨call, hcall, more, hmore, heq⟩
          cases heq
          rw [readCall_eq_some_iff.mp hcall, ih.mp hmore]
          rfl
        · intro heq
          cases calls with
          | nil => exact absurd (List.cons.inj heq).1 hclosing
          | cons call calls =>
              obtain ⟨rfl, rfl⟩ := List.cons.inj heq
              exact ⟨call, readCall_eq_some_iff.mpr rfl, calls, ih.mpr rfl, rfl⟩

/-- The lines of a graph below its opening: one for each node and edge, and the
closing one. -/
theorem toList_lines (calls : List Call) :
    (String.join (calls.map fun call => line call ++ "\n") ++ "\x7d\n").toList =
      ['\n'].intercalate (calls.map (fun call => (line call).toList) ++ [['\x7d'], []]) := by
  induction calls with
  | nil => rfl
  | cons call calls ih =>
      have hrest : calls.map (fun call => (line call).toList) ++ [['\x7d'], []] ≠ [] := by simp
      rw [List.map_cons, List.map_cons, List.cons_append, List.intercalate_cons_of_ne_nil hrest,
        ← ih, String.join_cons]
      simp [String.toList_append]

end Dot

namespace DotGraph

/-- What is fed to a graph is added behind what it holds. -/
theorem foldl_feed (g : DotGraph) (calls : List Call) :
    calls.foldl feed g = { g with calls := g.calls ++ calls } := by
  induction calls generalizing g with
  | nil => simp
  | cons call calls ih =>
      rw [List.foldl_cons, ih, feed, List.append_assoc]
      rfl

/-- The text of a graph is made of whole lines. -/
theorem text_eq (g : DotGraph) :
    g.text = Dot.opening g.name ++
      (String.join (g.calls.map fun call => Dot.line call ++ "\n") ++ "\x7d\n") := by
  unfold text Dot.opening Dot.line
  simp only [String.append_assoc]

/-- **The reader accepts exactly the texts of graphs**, and returns what they hold. -/
theorem read_eq_some_iff {g : DotGraph} {text : String} :
    Dot.read g.name text = some g.calls ↔ g.text = text := by
  have hlines : ∀ l ∈ g.calls.map (fun call => (Dot.line call).toList) ++ [['\x7d'], []],
      '\n' ∉ l := by
    intro l hl
    rcases List.mem_append.mp hl with hl | hl
    · obtain ⟨call, -, rfl⟩ := List.mem_map.mp hl
      exact Dot.newline_notMem_line call
    · rcases List.mem_pair.mp hl with rfl | rfl <;> simp
  unfold Dot.read
  rw [text_eq, ← String.toList_inj, String.toList_append, Dot.toList_lines, Option.bind_eq_bind,
    Option.bind_eq_some_iff]
  simp only [List.isPrefixOf?_eq_some_iff_append_eq, Dot.readLines_eq_some_iff]
  constructor
  · rintro ⟨cs, hcs, hsplit⟩
    rw [← hsplit, List.intercalate_splitOn, hcs]
  · intro htext
    exact ⟨_, htext, List.splitOn_intercalate '\n' hlines (by simp)⟩

end DotGraph

/-- **The text of a graph determines what was added to it.**  For a graph of a given
name, to which any nodes and edges are added one by one, the reader returns exactly
these from the text and the name, and it reads no other text.  So different
sequences have different texts.  Between the opening and the closing line, each
node and each edge takes one line. -/
theorem dot_text_determines_calls (name : String) :
    (∀ calls text, Dot.read name text = some calls ↔
      (calls.foldl DotGraph.feed { name }).text = text) ∧
    (Function.Injective fun calls : List Call => (calls.foldl DotGraph.feed { name }).text) ∧
    (∀ calls : List Call, (calls.foldl DotGraph.feed { name }).text =
      "digraph " ++ name ++ " \x7b\n" ++
        String.join (calls.map fun call => Dot.line call ++ "\n") ++ "\x7d\n") ∧
    ∀ call, '\n' ∉ (Dot.line call).toList := by
  have hfed : ∀ calls : List Call, calls.foldl DotGraph.feed { name } = { name, calls } := by
    intro calls
    rw [DotGraph.foldl_feed]
    rfl
  have hread : ∀ (calls : List Call) (text : String), Dot.read name text = some calls ↔
      (calls.foldl DotGraph.feed { name }).text = text := by
    intro calls text
    rw [hfed]
    exact DotGraph.read_eq_some_iff (g := { name, calls })
  refine ⟨hread, ?_, ?_, Dot.newline_notMem_line⟩
  · intro calls calls' h
    have hcalls := (hread calls _).mpr rfl
    have hcalls' := (hread calls' _).mpr h.symm
    exact Option.some.inj (hcalls.symm.trans hcalls')
  · intro calls
    rw [hfed, DotGraph.text_eq, String.append_assoc]
    rfl

end Sequencer
