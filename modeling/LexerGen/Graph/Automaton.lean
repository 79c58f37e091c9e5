import LexerGen.Dfa.Basic
import LexerGen.Graph.Basic
import LexerGen.Regex.Basic
import LexerGen.Text.Quoted

/-!
# Automata as graphs

An automaton is drawn from left to right with one node per state and one edge per transition. A
node shows the number of its state and the token it stands for, and has a double border if the
state is final; an arrow from an invisible point marks the start. The sink of a deterministic
automaton, which most transitions lead to, can be left out together with the edges into it.
-/

namespace LexerGen.Graph

/-- **A state to be drawn.** -/
structure DrawnState where
  number : Nat
  isFinal : Bool
  tag : Option Tag
  /-- The transitions out of the state, with no label for an empty move. -/
  edges : List (Option Char × Nat)
  deriving DecidableEq, Repr

/-- The name of the node for a state. -/
def stateId (q : Nat) : String := toString q

/-- The label of a state: its number, followed by the name of its token if it has one. -/
def stateLabel (s : DrawnState) : String :=
  match s.tag with
  | some tag => stateId s.number ++ ":" ++ tag.name
  | none => stateId s.number

/-- **The label of a transition**: the sign for an empty move, or the character, which is quoted
and escaped if it could not be seen or taken for itself otherwise. -/
def transitionLabel : Option Char → String
  | none => "ϵ"
  | some c =>
    if Regex.needsQuotes c then String.ofList ('\'' :: Text.escapeChar .both c ++ ['\''])
    else String.singleton c

/-- The steps that draw one state and the transitions out of it. -/
def stateEdits (s : DrawnState) : List Edit :=
  .node (stateId s.number)
      (.label (stateLabel s) :: if s.isFinal then [.peripheries "2"] else []) ::
    s.edges.map fun e =>
      .edge (stateId s.number) (stateId e.2) [.label (transitionLabel e.1)]

/-- The name of the invisible node that marks the start. -/
def startId : String := "_start"

/-- The steps that mark the start state. -/
def startEdits (start : Nat) : List Edit :=
  [.node startId [.style "invis", .shape "point", .label ""], .edge startId (stateId start) []]

/-- **The graph of an automaton** with the given states. -/
def ofStates (states : List DrawnState) (start : Nat) : Graph :=
  build .directed (.rankdir "LR" :: (states.flatMap stateEdits ++ startEdits start))

end LexerGen.Graph

namespace LexerGen

/-- A state of a nondeterministic automaton as it is drawn. -/
def Nfa.drawn (s : Nfa.State) (number : Nat) : Graph.DrawnState :=
  ⟨number, s.isFinal, s.tag, s.edges⟩

/-- **The graph of a nondeterministic automaton.** -/
def Nfa.graph (n : Nfa) : Graph :=
  Graph.ofStates (n.states.toList.mapIdx fun q s => drawn s q) n.start

/-- A state of a deterministic automaton as it is drawn, with the transitions that are shown. -/
def Dfa.drawn (shown : Nat → Bool) (s : Dfa.State) (number : Nat) : Graph.DrawnState :=
  ⟨number, s.isFinal, s.tag, (s.edges.filter fun e => shown e.2).map fun e => (some e.1, e.2)⟩

/-- **The graph of a deterministic automaton**, with or without its sink. -/
def Dfa.graph (d : Dfa) (showSink : Bool) : Graph :=
  let shown := fun q => showSink || !d.isSink q
  Graph.ofStates
    ((d.states.toList.mapIdx fun q s => drawn shown s q).filter fun s => shown s.number) d.start

end LexerGen
