import LexerGen.Nfa.Basic

/-!
# Joining automata

Several automata are joined into one for the union of their languages. The states of the first keep
their numbers, those of each further one are shifted past the states already there, and the start
state of the first gets an empty move to each of the other start states. Final states and tags are
kept, so the joined automaton still knows which of the parts matched.
-/

namespace LexerGen.Nfa

/-- A state whose edges lead `offset` further on, and which is no longer a start state. -/
def State.shift (offset : Nat) (s : State) : State :=
  { s with
    edges := s.edges.map fun e => (e.1, e.2 + offset)
    isStart := false }

/-- **Adds one automaton to another.** -/
def append (n m : Nfa) : Nfa where
  states :=
    (n.states ++ m.states.map (State.shift n.size)).modify n.start fun s =>
      { s with edges := s.edges ++ [(none, m.start + n.size)] }
  start := n.start
  alphabet := n.alphabet.union m.alphabet

/-- **Joins a list of automata**, of which there must be at least one. -/
def merge : List Nfa → Option Nfa
  | [] => none
  | n :: rest => some (rest.foldl append n)

end LexerGen.Nfa
