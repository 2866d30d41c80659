import Overseer.Lifecycle

/-!
The table of moves drawn as a directed graph in the DOT language.
-/
namespace Overseer.Lifecycle

def Row.label (row : Row) : String :=
  match row.guard.label with
  | none => row.trigger.name
  | some condition => row.trigger.name ++ " [" ++ condition ++ "]"

def node (s : State) : String :=
  "\t" ++ s.name ++ " [label=\"" ++ s.name ++ "\"];"

def edge (row : Row) : String :=
  "\t" ++ row.source.name ++ " -> " ++ row.target.name ++ " [label=\"" ++ row.label ++ "\"];"

def diagramLines : List String :=
  ["digraph \x7b", "\tcompound=true;", "\tnode [shape=Mrecord]", "\trankdir=\"LR\"", ""]
    ++ State.all.map node ++ [""] ++ table.map edge
    ++ ["\tinit [label=\"\", shape=point];", "\tinit -> " ++ State.notStarted.name ++ ";", "\x7d"]

def diagram : String :=
  String.join (diagramLines.map (· ++ "\n"))

end Overseer.Lifecycle
