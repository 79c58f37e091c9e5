import LexerGen.SortedSet

/-!
# Nondeterministic automata with empty moves

An automaton is an array of states, numbered by their index, with one start state. An edge is
labelled by a character, which it consumes, or by nothing, in which case it may be followed freely.
The edges of a state are listed in the order in which they were added, since that order is shown
when the automaton is printed.

A final state may carry a `Tag`, the name of a token together with its rank; where several tokens
match the same text, the one of smallest rank wins.
-/

namespace LexerGen

/-- **The token that a final state stands for.** -/
structure Tag where
  /-- The name of the token. -/
  name : String
  /-- Its priority; smaller is stronger. -/
  rank : Nat
  deriving DecidableEq, Repr

/-- **One state of a nondeterministic automaton.** -/
structure Nfa.State where
  /-- The edges out of the state, oldest first; no label means an empty move. -/
  edges : List (Option Char × Nat)
  isStart : Bool
  isFinal : Bool
  tag : Option Tag
  deriving DecidableEq, Repr

/-- A state without edges, neither start nor final. -/
def Nfa.State.blank : Nfa.State := ⟨[], false, false, none⟩

instance : Inhabited Nfa.State := ⟨.blank⟩

/-- **A nondeterministic automaton.** -/
structure Nfa where
  states : Array Nfa.State
  start : Nat
  /-- The characters that label edges. -/
  alphabet : SortedSet Char
  deriving DecidableEq

namespace Nfa

/-- The number of states. -/
def size (n : Nfa) : Nat := n.states.size

/-- **The automaton without edges**: a start state `0` and a final state `1`. -/
def empty : Nfa :=
  ⟨#[{ State.blank with isStart := true }, { State.blank with isFinal := true }], 0, ∅⟩

/-- Adds a blank state, whose number is the size before. -/
def addState (n : Nfa) : Nfa := { n with states := n.states.push .blank }

/-- Adds the characters of a label to an alphabet. -/
def labelled (alphabet : SortedSet Char) : Option Char → SortedSet Char
  | none => alphabet
  | some c => alphabet.insert c

/-- **Adds an edge** after those that the state has. -/
def connect (n : Nfa) (source : Nat) (label : Option Char) (target : Nat) : Nfa where
  states := n.states.modify source fun s => { s with edges := s.edges ++ [(label, target)] }
  start := n.start
  alphabet := labelled n.alphabet label

/-- The edges out of a state; a number that is no state has none. -/
def edges (n : Nfa) (q : Nat) : List (Option Char × Nat) :=
  match n.states[q]? with
  | some s => s.edges
  | none => []

/-- Whether a number is a state with the start flag. -/
def isStart (n : Nfa) (q : Nat) : Bool :=
  match n.states[q]? with
  | some s => s.isStart
  | none => false

/-- Whether a number is a final state. -/
def isFinal (n : Nfa) (q : Nat) : Bool :=
  match n.states[q]? with
  | some s => s.isFinal
  | none => false

/-- The token of a state, if it has one. -/
def tag? (n : Nfa) (q : Nat) : Option Tag :=
  match n.states[q]? with
  | some s => s.tag
  | none => none

/-- **The states that one edge with this label leads to.** -/
def targets (n : Nfa) (label : Option Char) (q : Nat) : List Nat :=
  (n.edges q).filterMap fun e => if e.1 = label then some e.2 else none

/-- **Tags every final state.** -/
def tagFinal (n : Nfa) (tag : Tag) : Nfa :=
  { n with states := n.states.map fun s => if s.isFinal then { s with tag := some tag } else s }

end Nfa

end LexerGen
