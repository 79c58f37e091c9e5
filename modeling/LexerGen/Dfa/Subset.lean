import LexerGen.Dfa.Basic
import LexerGen.Exploration
import LexerGen.Nfa.Simulation

/-!
# The subset construction

The deterministic automaton of a nondeterministic one has as states the sets of states that texts
can lead to, numbered in the order in which a breadth-first search meets them, characters in
ascending order; the sink comes last. A state is final if one of its members is, and of the tags of
its final members it has the first of smallest rank.

Only finitely many sets can be met, since all their members are states
(`closure_mem_allBelow`).
-/

namespace LexerGen

namespace Dfa

/-- The set that a character leads to from one of the given states, unless that is none. -/
def successor (n : Nfa) (states : List Nat) (c : Char) : Option StateSet :=
  let t := n.closure (n.move states c)
  if t.isEmpty then none else some t

/-- The sets that the characters of the alphabet lead to, in ascending order of characters. -/
def successors (n : Nfa) (s : StateSet) : List (Option StateSet) :=
  let states := s.toList
  n.alphabet.toList.map (successor n states)

/-- Every set that is met holds states only. -/
theorem closure_mem_allBelow (n : Nfa) (states : List Nat) :
    n.closure states ∈ StateSet.allBelow n.size :=
  StateSet.mem_allBelow (lt_of_mem_close fun q hq => absurd hq (StateSet.not_mem_empty q))

theorem exists_space (n : Nfa) :
    ∃ space : List StateSet, ∀ s t, some t ∈ successors n s → t ∈ space := by
  refine ⟨StateSet.allBelow n.size, fun s t h => ?_⟩
  obtain ⟨c, _, e⟩ := List.mem_map.1 h
  unfold successor at e
  dsimp only at e
  split at e
  · cases e
  · cases e; exact closure_mem_allBelow n _

/-- **The sets that texts can lead to**, numbered breadth first from the closure of the start. -/
def exploration (n : Nfa) : Exploration StateSet :=
  explore (successors n) (exists_space n) #[n.closure [n.start]] #[]

/-- **The stronger of two tags**, the first if they have the same rank. -/
def strongest : List Tag → Option Tag
  | [] => none
  | t :: rest =>
    match strongest rest with
    | none => some t
    | some u => if u.rank < t.rank then some u else some t

/-- **The token that a set of states stands for**: the strongest among its final members. -/
def tagOf (n : Nfa) (s : StateSet) : Option Tag :=
  strongest ((s.toList.filter n.isFinal).filterMap n.tag?)

/-- **The state for a set**, given the numbers of its successors. -/
def stateOf (n : Nfa) (sink : Nat) (s : StateSet) (row : List (Option Nat)) : State where
  subset := s
  edges := n.alphabet.toList.zip (row.map (·.getD sink))
  isStart := s.toList.any n.isStart
  isFinal := s.toList.any n.isFinal
  tag := tagOf n s

/-- The state that cannot be left. -/
def sinkState : State := ⟨∅, [], false, false, none⟩

/-- **The subset construction.** -/
def ofNfa (n : Nfa) : Dfa :=
  let found := exploration n
  -- the sink is numbered after all others, so its number is known only now
  let sink := found.nodes.size
  { states := (found.nodes.zipWith (stateOf n sink) found.rows).push sinkState
    start := 0
    sink := sink
    alphabet := n.alphabet }

end Dfa

end LexerGen
