import LexerGen.OrderedMap

/-!
# Graphs to be drawn

A graph has nodes, named by arbitrary text, and edges between them, and the graph, each node and
each edge have attributes that say how they are drawn. Nodes are listed in the order in which they
were first mentioned, be it as the end of an edge. Edges that join the same two nodes in the same
order form one group; groups are listed in the order of their first edges, and edges within a group
in the order in which they were added.

A graph is built by `Graph.edit`, one `Graph.Edit` at a time.
-/

namespace LexerGen

/-- Whether edges have a direction. -/
inductive Graph.Kind
  | undirected
  | directed
  deriving DecidableEq, Repr

/-- Attributes of a graph as a whole. -/
structure Graph.Attrs where
  label : Option String := none
  rankdir : Option String := none
  deriving DecidableEq, Repr

/-- Attributes of a node. -/
structure Graph.NodeAttrs where
  label : Option String := none
  peripheries : Option String := none
  shape : Option String := none
  style : Option String := none
  deriving DecidableEq, Repr

/-- Attributes of an edge. -/
structure Graph.EdgeAttrs where
  color : Option String := none
  label : Option String := none
  deriving DecidableEq, Repr

/-- One attribute given to a node. -/
inductive Graph.NodeAttr
  | label (value : String)
  | peripheries (value : String)
  | shape (value : String)
  | style (value : String)
  deriving DecidableEq, Repr

/-- One attribute given to an edge. -/
inductive Graph.EdgeAttr
  | color (value : String)
  | label (value : String)
  deriving DecidableEq, Repr

/-- **A graph with attributes.** -/
structure Graph where
  kind : Graph.Kind
  attrs : Graph.Attrs
  /-- The nodes in the order of their first mention. -/
  nodes : OrderedMap String Graph.NodeAttrs
  /-- The groups of parallel edges, by source and target, in the order of their first edges. -/
  edges : OrderedMap (String × String) (List Graph.EdgeAttrs)

namespace Graph

/-- Gives a node one attribute, in place of an earlier one of that name. -/
def NodeAttrs.set (attrs : NodeAttrs) : NodeAttr → NodeAttrs
  | .label value => { attrs with label := some value }
  | .peripheries value => { attrs with peripheries := some value }
  | .shape value => { attrs with shape := some value }
  | .style value => { attrs with style := some value }

/-- Gives an edge one attribute, in place of an earlier one of that name. -/
def EdgeAttrs.set (attrs : EdgeAttrs) : EdgeAttr → EdgeAttrs
  | .color value => { attrs with color := some value }
  | .label value => { attrs with label := some value }

/-- **One step in building a graph.** -/
inductive Edit
  /-- Sets the label of the graph. -/
  | label (value : String)
  /-- Sets the direction in which the graph is laid out. -/
  | rankdir (value : String)
  /-- Mentions a node and gives it attributes. -/
  | node (id : String) (attrs : List NodeAttr)
  /-- Mentions two nodes and adds an edge from the first to the second. -/
  | edge (source target : String) (attrs : List EdgeAttr)
  deriving DecidableEq, Repr

/-- The graph without nodes. -/
def empty (kind : Kind) : Graph := ⟨kind, {}, ∅, ∅⟩

/-- Mentions a node, and sets the given attributes on it. -/
def mention (g : Graph) (id : String) (attrs : List NodeAttr) : Graph :=
  { g with nodes := g.nodes.alter id fun old => attrs.foldl NodeAttrs.set (old.getD {}) }

/-- **Carries out one step.** -/
def edit (g : Graph) : Edit → Graph
  | .label value => { g with attrs := { g.attrs with label := some value } }
  | .rankdir value => { g with attrs := { g.attrs with rankdir := some value } }
  | .node id attrs => g.mention id attrs
  | .edge source target attrs =>
    let g := (g.mention source []).mention target []
    { g with
      edges := g.edges.alter (source, target) fun old =>
        old.getD [] ++ [attrs.foldl EdgeAttrs.set {}] }

/-- **The edges in the order in which they are listed**, each with its source and target. -/
def edgeList (g : Graph) : List ((String × String) × EdgeAttrs) :=
  g.edges.toList.flatMap fun group => group.2.map (group.1, ·)

/-- The graph that a list of steps builds from nothing. -/
def build (kind : Kind) (edits : List Edit) : Graph := edits.foldl edit (empty kind)

end Graph

end LexerGen
