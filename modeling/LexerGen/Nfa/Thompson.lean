import LexerGen.Nfa.Basic
import LexerGen.Regex.Basic

/-!
# The automaton of a regular expression

Thompson's construction. Every subexpression is built between two states that its surroundings
supply, a *head* where its words start and a *tail* where they end, so the whole automaton keeps
the one start and the one final state it began with. A construction adds states and edges between
its head and its tail and touches nothing else: no edge enters the head and none leaves the tail,
which is what keeps the loop of one repetition from leaking into its neighbours.
-/

namespace LexerGen.Nfa

/-- **One branch from head to tail**: `body` is built between two states of its own, with an empty
move into it and another out of it. -/
def branch (body : Nat → Nat → Nfa → Nfa) (head tail : Nat) (n : Nfa) : Nfa :=
  let first := n.size
  let last := n.size + 1
  ((body first last n.addState.addState).connect head none first).connect last none tail

/-- **A loop from head to tail**: a branch that can be passed over and run again. -/
def loop (body : Nat → Nat → Nfa → Nfa) (head tail : Nat) (n : Nfa) : Nfa :=
  let first := n.size
  let last := n.size + 1
  ((branch body head tail n).connect head none tail).connect last none first

/-- **Two parts in a row**, meeting in a state of their own. -/
def sequence (left right : Nat → Nat → Nfa → Nfa) (head tail : Nat) (n : Nfa) : Nfa :=
  let middle := n.size
  right middle tail (left head middle n.addState)

/-- **Adds the words of an expression between head and tail.** -/
def build : Regex → (head tail : Nat) → Nfa → Nfa
  | .void => fun _ _ n => n
  | .eps => fun head tail n => n.connect head none tail
  | .lit c | .quoted c => fun head tail n => n.connect head (some c) tail
  | .concat l r => sequence (build l) (build r)
  | .union l r => fun head tail n => branch (build r) head tail (branch (build l) head tail n)
  | .star r => loop (build r)
  | .plus r => sequence (build r) (loop (build r))
  | .maybe r => fun head tail n =>
    branch (build r) head tail (branch (fun h t n => n.connect h none t) head tail n)

/-- **The automaton of an expression.** -/
def ofRegex (r : Regex) : Nfa := build r 0 1 empty

end LexerGen.Nfa
