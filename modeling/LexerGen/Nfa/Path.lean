import LexerGen.Nfa.Merge
import LexerGen.Nfa.Thompson

/-!
# Paths of a nondeterministic automaton

What an automaton accepts is a matter of the paths through it: `Path n p w q` says that some path
from `p` to `q` spells the word `w`, empty moves adding nothing to it. `Built rs n` says that the
automaton `n` was put together from the expressions `rs` by the three ways there are: the automaton
of one expression, the same automaton with its final states tagged, and several joined.
-/

namespace LexerGen.Nfa

/-- **Paths and the words that they spell.** -/
inductive Path (n : Nfa) : Nat → List Char → Nat → Prop
  /-- Staying where one is spells nothing. -/
  | nil {q : Nat} : Path n q [] q
  /-- An empty move adds nothing to the word. -/
  | empty {p q r : Nat} {w : List Char} :
      (none, q) ∈ n.edges p → Path n q w r → Path n p w r
  /-- An edge adds its character. -/
  | char {p q r : Nat} {c : Char} {w : List Char} :
      (some c, q) ∈ n.edges p → Path n q w r → Path n p (c :: w) r

/-- Paths that meet end to start make one path. -/
theorem Path.append {n : Nfa} {p q r : Nat} {u v : List Char} (h : Path n p u q)
    (k : Path n q v r) : Path n p (u ++ v) r := by
  induction h with
  | nil => exact k
  | empty e _ ih => exact .empty e (ih k)
  | char e _ ih => exact .char e (ih k)

/-- **The automata that can be put together**, with the expressions they come from, in order. -/
inductive Built : List Regex → Nfa → Prop
  | ofRegex (r : Regex) : Built [r] (ofRegex r)
  | tagFinal {rs : List Regex} {n : Nfa} (tag : Tag) : Built rs n → Built rs (n.tagFinal tag)
  | merge {parts : List (List Regex × Nfa)} {n : Nfa} :
      (∀ p ∈ parts, Built p.1 p.2) → merge (parts.map Prod.snd) = some n →
      Built (parts.flatMap Prod.fst) n

end LexerGen.Nfa
