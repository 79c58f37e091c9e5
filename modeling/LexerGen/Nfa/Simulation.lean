import LexerGen.Closure
import LexerGen.Nfa.Basic

/-!
# Running a nondeterministic automaton

A text is read by keeping the set of all states that some path for the text so far ends in. Empty
moves are followed at the start and after every character, so the set is always closed under them.
-/

namespace LexerGen.Nfa

/-- **The states that empty moves lead to** from the given ones, which are included. -/
def closure (n : Nfa) (states : List Nat) : StateSet :=
  close n.size (n.targets none) ∅ states

/-- The states that an edge labelled `c` leads to from one of the given states, with
repetitions. -/
def move (n : Nfa) (states : List Nat) (c : Char) : List Nat := states.flatMap (n.targets (some c))

/-- **Whether some path for the text ends in a final state**, starting from a set of states. The
text need not be read further once no state is left. -/
def acceptsFrom (n : Nfa) (states : StateSet) : List Char → Bool
  | [] => states.toList.any n.isFinal
  | c :: text =>
    match n.move states.toList c with
    | [] => false
    | moved => n.acceptsFrom (n.closure moved) text

/-- **Whether the automaton accepts a text.** -/
def accepts (n : Nfa) (text : List Char) : Bool := n.acceptsFrom (n.closure [n.start]) text

end LexerGen.Nfa
