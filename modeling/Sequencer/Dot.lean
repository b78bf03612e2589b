import Sequencer.Diagram

/-!
# DOT graphs

A directed graph under construction, and its text in the DOT language: one line
for each node and each edge.  Names and labels are quoted, so that any text may
stand in them and no line break leaves its quotes.

## Main Definitions

* `Dot.quote` — a text between quotes.
* `DotGraph` — a named graph; `DotGraph.feed` adds a node or an edge.
* `DotGraph.text` — the text of the graph.
-/

namespace Sequencer

open Diagram

namespace Dot

/-- Escapes one character between quotes. -/
def escape : Char → List Char
  | '"' => ['\\', '"']
  | '\\' => ['\\', '\\']
  | '\n' => ['\\', 'n']
  | c => [c]

/-- A text between quotes. -/
def quote (text : String) : String :=
  String.ofList ('"' :: text.toList.flatMap escape ++ ['"'])

/-- The statement that adds a node or an edge. -/
def statement : Call → String
  | .node name label => quote name ++ " [label=" ++ quote label ++ "]"
  | .edge source target label =>
      quote source ++ " -> " ++ quote target ++ " [label=" ++ quote label ++ "]"

end Dot

/-- A named directed graph, with its nodes and edges in the order of their addition. -/
structure DotGraph where
  name : String := "state_transition_diagram"
  calls : List Call := []
  deriving DecidableEq, Repr

namespace DotGraph

/-- Adds a node or an edge. -/
def feed (g : DotGraph) (call : Call) : DotGraph :=
  { g with calls := g.calls ++ [call] }

/-- Whether nothing was added. -/
def isEmpty (g : DotGraph) : Bool := g.calls.isEmpty

/-- The text of a graph in the DOT language. -/
def text (g : DotGraph) : String :=
  "digraph " ++ g.name ++ " \x7b\n" ++
  String.join (g.calls.map fun call => "\t" ++ Dot.statement call ++ "\n") ++
  "\x7d\n"

end DotGraph

/-- Draws a machine onto a graph. -/
def Machine.toDot (m : Machine) (graph : DotGraph) : DotGraph × Option EdgeError :=
  m.drawInto DotGraph.feed graph

end Sequencer
