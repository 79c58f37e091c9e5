import LexerGen.Nfa.Basic
import LexerGen.StateSet

/-!
# Deterministic automata

A deterministic automaton has one edge per state and character of its alphabet. Each state stands
for the set of states of a nondeterministic automaton that the same text can lead to. The last
state is the *sink*, which stands for the empty set: texts that lead there cannot be continued, and
a character without an edge leads there too.
-/

namespace LexerGen

/-- **One state of a deterministic automaton.** -/
structure Dfa.State where
  /-- The states of the nondeterministic automaton that this one stands for. -/
  subset : StateSet
  /-- The target for each character, in ascending order of characters. -/
  edges : List (Char × Nat)
  isStart : Bool
  isFinal : Bool
  tag : Option Tag
  deriving DecidableEq

/-- **A deterministic automaton.** -/
structure Dfa where
  states : Array Dfa.State
  start : Nat
  sink : Nat
  alphabet : SortedSet Char
  deriving DecidableEq

namespace Dfa

/-- The number of states, the sink included. -/
def size (d : Dfa) : Nat := d.states.size

/-- Whether a state is the sink. -/
def isSink (d : Dfa) (q : Nat) : Bool := q == d.sink

/-- **The state that a character leads to**, which is the sink where there is no edge. -/
def step (d : Dfa) (q : Nat) (c : Char) : Nat :=
  match d.states[q]? with
  | some s => (s.edges.lookup c).getD d.sink
  | none => d.sink

/-- The state that a text leads to from `q`. -/
def run (d : Dfa) (q : Nat) (text : List Char) : Nat := text.foldl d.step q

theorem run_append {d : Dfa} {q : Nat} {u v : List Char} :
    d.run q (u ++ v) = d.run (d.run q u) v := List.foldl_append

theorem run_append_singleton {d : Dfa} {q : Nat} {u : List Char} {c : Char} :
    d.run q (u ++ [c]) = d.step (d.run q u) c := run_append

/-- Whether a number is a final state. -/
def isFinal (d : Dfa) (q : Nat) : Bool :=
  match d.states[q]? with
  | some s => s.isFinal
  | none => false

/-- The token of a state, if it has one. -/
def tag? (d : Dfa) (q : Nat) : Option Tag :=
  match d.states[q]? with
  | some s => s.tag
  | none => none

/-- **Whether a text leads to a final state** from `q`. The text need not be read further once the
sink is reached. -/
def acceptsFrom (d : Dfa) (q : Nat) : List Char → Bool
  | [] => d.isFinal q
  | c :: text => if d.isSink (d.step q c) then false else d.acceptsFrom (d.step q c) text

/-- **Whether the automaton accepts a text.** -/
def accepts (d : Dfa) (text : List Char) : Bool := d.acceptsFrom d.start text

end Dfa

end LexerGen
