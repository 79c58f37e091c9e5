import LexerGen.Graph.Basic
import LexerGen.Text.Quoted

/-!
# The text of a graph

Graphs are written in the DOT language on a single line: the kind of the graph, then between braces
its attributes, its nodes and its edges, each statement ended by a semicolon. Names and values are
always quoted, and the attributes of one thing are listed in alphabetical order of their names.
-/

namespace LexerGen.Graph

open Text

/-- Attributes that are set, with their names. -/
def given (attrs : List (String × Option String)) : List (String × String) :=
  attrs.filterMap fun a => a.2.map (a.1, ·)

/-- The attributes of a graph in alphabetical order. -/
def Attrs.toList (attrs : Attrs) : List (String × String) :=
  given [("label", attrs.label), ("rankdir", attrs.rankdir)]

/-- The attributes of a node in alphabetical order. -/
def NodeAttrs.toList (attrs : NodeAttrs) : List (String × String) :=
  given [("label", attrs.label), ("peripheries", attrs.peripheries), ("shape", attrs.shape),
    ("style", attrs.style)]

/-- The attributes of an edge in alphabetical order. -/
def EdgeAttrs.toList (attrs : EdgeAttrs) : List (String × String) :=
  given [("color", attrs.color), ("label", attrs.label)]

/-- The keyword that starts a graph. -/
def Kind.keyword : Kind → String
  | .undirected => "graph"
  | .directed => "digraph"

/-- The mark between the ends of an edge. -/
def Kind.arrow : Kind → String
  | .undirected => "--"
  | .directed => "->"

/-- An assignment of a quoted value. -/
def assignment (attr : String × String) : List Char :=
  attr.1.toList ++ ['='] ++ quoted attr.2.toList

/-- **A list of attributes** between brackets, and nothing if there are none. -/
def attrList (attrs : List (String × String)) : List Char :=
  match attrs with
  | [] => []
  | attrs => ['['] ++ [','].intercalate (attrs.map assignment) ++ [']']

/-- The statement for a node. -/
def nodeStatement (node : String × NodeAttrs) : List Char :=
  quoted node.1.toList ++ attrList node.2.toList ++ [';']

/-- The statement for an edge. -/
def edgeStatement (kind : Kind) (edge : (String × String) × EdgeAttrs) : List Char :=
  quoted edge.1.1.toList ++ kind.arrow.toList ++ quoted edge.1.2.toList ++
    attrList edge.2.toList ++ [';']

/-- **The text of a graph.** -/
def text (g : Graph) : List Char :=
  g.kind.keyword.toList ++ [' ', '\x7b'] ++
    g.attrs.toList.flatMap (fun attr => assignment attr ++ [';']) ++
    g.nodes.toList.flatMap nodeStatement ++
    g.edgeList.flatMap (edgeStatement g.kind) ++ ['\x7d']

end LexerGen.Graph
