import Mathlib.Data.List.Basic
import Sequencer.Proofs.Layout

/-!
# Reading code back

The lines of a block determine the name of its state and its program, whatever texts
stand in them.  A line begins with blanks and then a word, and the first character
behind the word says what kind of line it is; so lines determine what they were
written for.  The lines of a guard are closed, and the lines inside are deeper than
those around them; so lines determine the program.

This needs settings that keep margins, words and punctuation apart: the indentation
is made of blanks, and the register is a word.

## Main Definitions

* `Emitter.IsPlain` — settings with blank indentation and a word for the register.
* `Line` — what a line of code was written for.
* `Item.lines`, `Program.lines` — the lines of a program.

## Main Results

* `run_append_inj` — a run of characters of one kind ends where another kind begins.
* `Line.text_injective` — lines determine what they were written for.
* `Program.lines_injective` — the lines of a program determine the program.
* `Emitter.IsPlain.block_inj` — the lines of a block determine its state and program.
-/

namespace Sequencer

/-! ### Runs of characters -/

/-- Two texts that begin with a run of characters of one kind agree in this run and
in what follows it. -/
theorem run_append_inj {kind : Char → Bool} {xs xs' ys ys' : List Char}
    (hxs : ∀ c ∈ xs, kind c = true) (hxs' : ∀ c ∈ xs', kind c = true)
    (hys : ∀ c ∈ ys.head?, kind c = false) (hys' : ∀ c ∈ ys'.head?, kind c = false)
    (h : xs ++ ys = xs' ++ ys') : xs = xs' ∧ ys = ys' := by
  have hstop : ∀ {zs : List Char}, (∀ c ∈ zs.head?, kind c = false) → zs.takeWhile kind = [] := by
    intro zs hzs
    cases zs with
    | nil => rfl
    | cons z zs => rw [List.takeWhile_cons_of_neg (by simp [hzs z rfl])]
  have hrun : xs = xs' := by
    have htake := congrArg (List.takeWhile kind) h
    rwa [List.takeWhile_append_of_pos hxs, List.takeWhile_append_of_pos hxs', hstop hys,
      hstop hys', List.append_nil, List.append_nil] at htake
  subst hrun
  exact ⟨rfl, List.append_cancel_left h⟩

/-- Letters, digits and the underscore. -/
def isWordPart (c : Char) : Bool := c.isAlphanum || c = '_'

/-- The characters of indentation. -/
def isMargin (c : Char) : Bool := c = ' ' || c = '\t'

theorem isMargin_of_isWordPart {c : Char} (h : isWordPart c = true) : isMargin c = false := by
  by_cases hspace : c = ' '
  · subst hspace
    exact absurd h (by decide)
  · by_cases htab : c = '\t'
    · subst htab
      exact absurd h (by decide)
    · simp [isMargin, hspace, htab]

/-- Settings under which code can be read back: the indentation is made of spaces and
tabs, and the register is a word. -/
structure Emitter.IsPlain (e : Emitter) : Prop where
  indent_ne : e.indent ≠ ""
  indent_margin : ∀ c ∈ e.indent.toList, isMargin c = true
  register_word : ∀ c ∈ e.stateRegister.toList, isWordPart c = true

theorem Signal.name_word (s : Signal) : ∀ c ∈ s.name.toList, isWordPart c = true := by
  rw [← List.all_eq_true]
  cases s <;> decide

theorem Signal.name_ne_empty (s : Signal) : s.name ≠ "" := by
  cases s <;> decide

/-! ### Lines -/

/-- What a line of code was written for. -/
inductive Line where
  | statement (depth : Nat) (s : Statement)
  | guard (condition : String)
  | otherwise
  | close
  deriving DecidableEq

namespace Line

/-- The depth of a line. -/
def depth : Line → Nat
  | statement depth _ => depth
  | _ => 1

/-- The word that a line begins with. -/
def word (register : String) : Line → String
  | statement _ (.assign s _) => s.name
  | statement _ (.goto _) => register
  | guard _ => "if"
  | otherwise => ""
  | close => ""

/-- What stands behind the word. -/
def rest (register : String) : Line → String
  | statement _ (.assign _ v) => " = " ++ v ++ ";"
  | statement _ (.goto t) => ".d = " ++ register ++ "." ++ t ++ ";"
  | guard condition => "(" ++ condition ++ ") \x7b"
  | otherwise => "\x7d else \x7b"
  | close => "\x7d"

/-- A line at its depth. -/
def text (e : Emitter) (l : Line) : String :=
  e.indented (l.depth, l.word e.stateRegister ++ l.rest e.stateRegister)

/-- Behind the word stands a character that ends it. -/
theorem rest_head (register : String) (l : Line) :
    ∀ c ∈ (l.rest register).toList.head?, isWordPart c = false := by
  intro c hc
  cases l with
  | statement depth s =>
      cases s with
      | assign s v =>
          obtain rfl : ' ' = c := by simpa [rest, String.toList_append] using hc
          rfl
      | goto t =>
          obtain rfl : '.' = c := by simpa [rest, String.toList_append] using hc
          rfl
  | guard condition =>
      obtain rfl : '(' = c := by simpa [rest, String.toList_append] using hc
      rfl
  | otherwise =>
      obtain rfl : '\x7d' = c := by simpa [rest, String.toList_append] using hc
      rfl
  | close =>
      obtain rfl : '\x7d' = c := by simpa [rest, String.toList_append] using hc
      rfl

variable {e : Emitter}

theorem word_isWord (he : e.IsPlain) (l : Line) :
    ∀ c ∈ (l.word e.stateRegister).toList, isWordPart c = true := by
  cases l with
  | statement depth s =>
      cases s with
      | assign s v => exact s.name_word
      | goto t => exact he.register_word
  | guard condition =>
      show ∀ c ∈ "if".toList, isWordPart c = true
      exact List.all_eq_true.mp rfl
  | otherwise =>
      show ∀ c ∈ "".toList, isWordPart c = true
      exact List.all_eq_true.mp rfl
  | close =>
      show ∀ c ∈ "".toList, isWordPart c = true
      exact List.all_eq_true.mp rfl

/-- Lines of the same depth, word and rest were written for the same. -/
theorem eq_of_parts {register : String} {l l' : Line} (hdepth : l.depth = l'.depth)
    (hword : l.word register = l'.word register)
    (hrest : (l.rest register).toList = (l'.rest register).toList) : l = l' := by
  cases l with
  | statement depth s =>
      cases s with
      | assign s v =>
        cases l' with
        | statement depth' s' =>
          cases s' with
          | assign s' v' =>
              obtain rfl : depth = depth' := hdepth
              obtain rfl : s = s' := Signal.name_injective hword
              obtain rfl : v = v' := String.toList_inj.mp (by
                simpa [rest, String.toList_append] using hrest)
              rfl
          | goto t' => simp [rest, String.toList_append] at hrest
        | _ => simp [rest, String.toList_append] at hrest
      | goto t =>
        cases l' with
        | statement depth' s' =>
          cases s' with
          | assign s' v' => simp [rest, String.toList_append] at hrest
          | goto t' =>
              obtain rfl : depth = depth' := hdepth
              obtain rfl : t = t' := String.toList_inj.mp (by
                simpa [rest, String.toList_append] using hrest)
              rfl
        | _ => simp [rest, String.toList_append] at hrest
  | guard condition =>
      cases l' with
      | guard condition' =>
          obtain rfl : condition = condition' := String.toList_inj.mp (by
            simpa [rest, String.toList_append] using hrest)
          rfl
      | statement depth' s' => cases s' <;> simp [rest, String.toList_append] at hrest
      | _ => simp [rest, String.toList_append] at hrest
  | otherwise =>
      cases l' with
      | otherwise => rfl
      | statement depth' s' => cases s' <;> simp [rest, String.toList_append] at hrest
      | _ => simp [rest, String.toList_append] at hrest
  | close =>
      cases l' with
      | close => rfl
      | statement depth' s' => cases s' <;> simp [rest, String.toList_append] at hrest
      | _ => simp [rest, String.toList_append] at hrest

/-- Behind its margin, a line begins with a character that is no margin. -/
theorem word_append_rest_head (he : e.IsPlain) (l : Line) :
    ∀ c ∈ (l.word e.stateRegister ++ l.rest e.stateRegister).toList.head?,
      isMargin c = false := by
  intro c hc
  rw [String.toList_append, List.head?_append] at hc
  cases hfirst : (l.word e.stateRegister).toList.head? with
  | some d =>
      rw [hfirst] at hc
      obtain rfl : d = c := Option.some.inj hc
      exact isMargin_of_isWordPart (word_isWord he l d (List.mem_of_head? hfirst))
  | none =>
      -- only lines without a word begin with what stands behind it
      rw [hfirst] at hc
      cases l with
      | statement depth s =>
          cases s with
          | assign s v =>
              rw [List.head?_eq_none_iff, String.toList_eq_nil_iff] at hfirst
              exact absurd hfirst s.name_ne_empty
          | goto t =>
              obtain rfl : '.' = c := by simpa [rest, String.toList_append] using hc
              rfl
      | guard condition => simp [word] at hfirst
      | otherwise =>
          obtain rfl : '\x7d' = c := by simpa [rest, String.toList_append] using hc
          rfl
      | close =>
          obtain rfl : '\x7d' = c := by simpa [rest, String.toList_append] using hc
          rfl

/-- **Lines determine what they were written for.** -/
theorem text_injective (he : e.IsPlain) : Function.Injective (Line.text e) := by
  intro l l' h
  -- the margin of a line is made of blanks, and its length gives the depth
  let margin (n : Nat) : List Char := (List.replicate n e.indent).flatMap String.toList
  have hmargin : ∀ n, ∀ c ∈ margin n, isMargin c = true := by
    intro n c hc
    obtain ⟨step, hstep, hc⟩ := List.mem_flatMap.mp hc
    rw [List.eq_of_mem_replicate hstep] at hc
    exact he.indent_margin c hc
  have hlength : ∀ n, (margin n).length = n * e.indent.toList.length := by
    intro n
    simp [margin]
  have htext : ∀ l : Line, (l.text e).toList =
      margin l.depth ++ (l.word e.stateRegister ++ l.rest e.stateRegister).toList := by
    intro l
    unfold text Emitter.indented
    rw [String.toList_append, String.toList_join]
  have hlines := congrArg String.toList h
  rw [htext, htext] at hlines
  obtain ⟨hmargins, hcode⟩ := run_append_inj (hmargin l.depth) (hmargin l'.depth)
    (word_append_rest_head he l) (word_append_rest_head he l') hlines
  have hdepth : l.depth = l'.depth := by
    have hpos : 0 < e.indent.toList.length := by
      rw [List.length_pos_iff, ne_eq, String.toList_eq_nil_iff]
      exact he.indent_ne
    have hlengths := congrArg List.length hmargins
    rw [hlength, hlength] at hlengths
    exact Nat.eq_of_mul_eq_mul_right hpos hlengths
  rw [String.toList_append, String.toList_append] at hcode
  obtain ⟨hword, hrest⟩ := run_append_inj (word_isWord he l) (word_isWord he l')
    (rest_head e.stateRegister l) (rest_head e.stateRegister l') hcode
  exact eq_of_parts hdepth (String.toList_inj.mp hword) hrest

end Line

/-! ### Programs -/

/-- The lines that end a guard: those of the else body, if there is one. -/
def closingLines : Option (List Statement) → List Line
  | none => [.close]
  | some other => .otherwise :: (other.map (.statement 2) ++ [.close])

/-- The lines of an item. -/
def Item.lines : Item → List Line
  | .plain s => [.statement 1 s]
  | .guarded condition body otherwise =>
      .guard condition :: (body.map (.statement 2) ++ closingLines otherwise)

/-- The lines of a program. -/
def Program.lines (p : Program) : List Line := p.flatMap Item.lines

/-- The outline of an item gives each of its lines with its depth. -/
theorem Item.outline_eq (register : String) (item : Item) :
    item.outline register =
      item.lines.map fun l => (l.depth, l.word register ++ l.rest register) := by
  have hcode : ∀ s : Statement, ∀ n : Nat, s.code register =
      (Line.statement n s).word register ++ (Line.statement n s).rest register := by
    intro s n
    cases s <;> simp [Statement.code, Line.word, Line.rest, String.append_assoc]
  have hbody : ∀ body : List Statement, (body.map fun s => (2, s.code register)) =
      (body.map (Line.statement 2)).map fun l => (l.depth, l.word register ++ l.rest register) := by
    intro body
    rw [List.map_map]
    refine List.map_congr_left fun s _ => ?_
    rw [hcode s 2]
    rfl
  have hguard : ∀ condition : String, "if(" ++ condition ++ ") \x7b" =
      (Line.guard condition).word register ++ (Line.guard condition).rest register := by
    intro condition
    apply String.toList_inj.mp
    simp [Line.word, Line.rest, String.toList_append]
  cases item with
  | plain s =>
      show [(1, s.code register)] = [_]
      rw [hcode s 1]
      rfl
  | guarded condition body otherwise =>
      cases otherwise with
      | none =>
          rw [outline, lines, closingLines, hguard, hbody]
          simp [Line.depth, Line.word, Line.rest]
      | some other =>
          rw [outline, lines, closingLines, hguard, hbody, hbody]
          simp [Line.depth, Line.word, Line.rest]

/-- A block is its header and the text of the lines of its program. -/
theorem Emitter.block_eq_lines (e : Emitter) (state : String) (p : Program) :
    e.block state p = (e.stateRegister ++ "." ++ state ++ ":") :: p.lines.map (Line.text e) := by
  have houtline : p.outline e.stateRegister =
      p.lines.map fun l => (l.depth, l.word e.stateRegister ++ l.rest e.stateRegister) := by
    unfold Program.outline Program.lines
    rw [List.map_flatMap]
    exact congrArg (p.flatMap ·) (funext (Item.outline_eq e.stateRegister))
  rw [e.block_eq_outline, houtline, List.map_map]
  rfl

/-- A body ends at the first line that is no statement of it. -/
theorem statements_append_inj {body body' : List Statement} {ls ls' : List Line}
    (hls : ∀ s, ls.head? ≠ some (.statement 2 s)) (hls' : ∀ s, ls'.head? ≠ some (.statement 2 s))
    (h : body.map (Line.statement 2) ++ ls = body'.map (Line.statement 2) ++ ls') :
    body = body' ∧ ls = ls' := by
  induction body generalizing body' with
  | nil =>
      cases body' with
      | nil => exact ⟨rfl, h⟩
      | cons s' body' => exact absurd (congrArg List.head? h) (hls s')
  | cons s body ih =>
      cases body' with
      | nil => exact absurd (congrArg List.head? h).symm (hls' s)
      | cons s' body' =>
          obtain ⟨hs, hrest⟩ := List.cons.inj h
          obtain ⟨rfl, hend⟩ := ih hrest
          cases hs
          exact ⟨rfl, hend⟩

theorem closingLines_head (otherwise : Option (List Statement)) (ls : List Line) (s : Statement) :
    (closingLines otherwise ++ ls).head? ≠ some (.statement 2 s) := by
  cases otherwise <;> simp [closingLines]

/-- A guard ends where its lines say so. -/
theorem closingLines_append_inj {otherwise otherwise' : Option (List Statement)}
    {ls ls' : List Line} (h : closingLines otherwise ++ ls = closingLines otherwise' ++ ls') :
    otherwise = otherwise' ∧ ls = ls' := by
  have hclose : ∀ (ls : List Line) (s : Statement),
      (Line.close :: ls).head? ≠ some (.statement 2 s) := by
    intro ls s
    simp
  cases otherwise with
  | none =>
      cases otherwise' with
      | none => exact ⟨rfl, (List.cons.inj h).2⟩
      | some other' => cases (List.cons.inj h).1
  | some other =>
      cases otherwise' with
      | none => cases (List.cons.inj h).1
      | some other' =>
          simp only [closingLines, List.cons_append, List.append_assoc, List.nil_append] at h
          obtain ⟨rfl, hrest⟩ :=
            statements_append_inj (hclose ls) (hclose ls') (List.cons.inj h).2
          exact ⟨rfl, (List.cons.inj hrest).2⟩

/-- An item ends where its lines say so. -/
theorem Item.lines_append_inj {item item' : Item} {ls ls' : List Line}
    (h : item.lines ++ ls = item'.lines ++ ls') : item = item' ∧ ls = ls' := by
  cases item with
  | plain s =>
      cases item' with
      | plain s' =>
          obtain ⟨hs, hls⟩ := List.cons.inj h
          cases hs
          exact ⟨rfl, hls⟩
      | guarded condition' body' otherwise' => cases (List.cons.inj h).1
  | guarded condition body otherwise =>
      cases item' with
      | plain s' => cases (List.cons.inj h).1
      | guarded condition' body' otherwise' =>
          simp only [lines, List.cons_append, List.append_assoc] at h
          obtain ⟨hguard, hrest⟩ := List.cons.inj h
          obtain ⟨rfl, hclosing⟩ := statements_append_inj (closingLines_head otherwise ls)
            (closingLines_head otherwise' ls') hrest
          obtain ⟨rfl, hls⟩ := closingLines_append_inj hclosing
          cases hguard
          exact ⟨rfl, hls⟩

theorem Item.lines_ne_nil (item : Item) : item.lines ≠ [] := by
  cases item <;> simp [lines]

/-- **The lines of a program determine the program.** -/
theorem Program.lines_injective : Function.Injective Program.lines := by
  intro p q h
  induction p generalizing q with
  | nil =>
      cases q with
      | nil => rfl
      | cons item q => exact absurd (List.append_eq_nil_iff.mp h.symm).1 item.lines_ne_nil
  | cons item p ih =>
      cases q with
      | nil => exact absurd (List.append_eq_nil_iff.mp h).1 item.lines_ne_nil
      | cons item' q =>
          obtain ⟨rfl, hrest⟩ := Item.lines_append_inj h
          rw [ih hrest]

/-- **The lines of a block determine its state and its program.** -/
theorem Emitter.IsPlain.block_inj {e : Emitter} (he : e.IsPlain) {state state' : String}
    {p p' : Program} (h : e.block state p = e.block state' p') : state = state' ∧ p = p' := by
  rw [e.block_eq_lines, e.block_eq_lines] at h
  obtain ⟨hheader, hlines⟩ := List.cons.inj h
  constructor
  · have hcs := congrArg String.toList hheader
    apply String.toList_inj.mp
    simpa [String.toList_append] using hcs
  · exact Program.lines_injective (List.map_injective_iff.mpr (Line.text_injective he) hlines)

end Sequencer
