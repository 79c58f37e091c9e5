import LexerGen.Nfa.Path
import LexerGen.Nfa.Simulation
import LexerGen.Proofs.Closure

/-!
# Running an automaton is following its paths

The simulation of an automaton keeps a set of states, closed under empty moves, and replaces it at
each character by the closure of the states that one edge leads to (`advance`). This module ties
that set to paths: after a text it holds exactly the states at the end of a path that spells the
text (`mem_statesAfter`), and the automaton accepts a text exactly if one of them is final
(`accepts_iff`).

Sets are closed by a worklist that ignores numbers that are no states, so the automaton has to be
`WellFormed`: all its edges lead to states. The induction over the text is stated for an arbitrary
set that is closed under empty moves (`mem_foldl_advance`), since that is what every step
preserves.
-/

namespace LexerGen.Nfa

variable {n : Nfa} {p q r : Nat} {c : Char} {l : Option Char} {u w : List Char}
  {S : StateSet} {states : List Nat}

/-- **Well-formed automata.** The start and the targets of all edges are states, and every label is
in the alphabet. -/
structure WellFormed (n : Nfa) : Prop where
  /-- The start is a state. -/
  start_lt : n.start < n.size
  /-- Edges lead to states. -/
  target_lt : ∀ {p q : Nat} {l : Option Char}, (l, q) ∈ n.edges p → q < n.size
  /-- Edges are labelled by letters of the alphabet. -/
  mem_alphabet : ∀ {p q : Nat} {c : Char}, (some c, q) ∈ n.edges p → c ∈ n.alphabet

/-! ### Edges -/

theorem mem_targets : q ∈ n.targets l p ↔ (l, q) ∈ n.edges p := by
  unfold targets
  rw [List.mem_filterMap]
  refine ⟨?_, ?_⟩
  · rintro ⟨⟨l', q'⟩, he, hq⟩
    split at hq
    · next hl =>
      obtain rfl : l' = l := hl
      obtain rfl : q' = q := Option.some.inj hq
      exact he
    · cases hq
  · exact fun he => ⟨(l, q), he, if_pos rfl⟩

theorem mem_move : q ∈ n.move states c ↔ ∃ p ∈ states, (some c, q) ∈ n.edges p := by
  unfold move
  simp only [List.mem_flatMap, mem_targets]

/-! ### Paths that spell nothing or start with a character -/

/-- A path that spells a non-empty word takes empty moves, then the edge of the first character. -/
theorem Path.cons_inv (h : Path n p (c :: w) r) :
    ∃ q q', Path n p [] q ∧ (some c, q') ∈ n.edges q ∧ Path n q' w r := by
  -- on the path, whose word is not a variable yet
  generalize hv : c :: w = v at h
  induction h with
  | nil => cases hv
  | empty he _ ih =>
    obtain ⟨q, q', hq, hc, hw⟩ := ih hv
    exact ⟨q, q', .empty he hq, hc, hw⟩
  | char he hw _ =>
    cases hv
    exact ⟨_, _, .nil, he, hw⟩

/-- Empty moves extend reachability at its far end. -/
theorem reach_of_path {seeds : List Nat} (hn : n.WellFormed) (h : Path n p w q)
    (hw : w = []) (hp : Reach n.size (n.targets none) ∅ seeds p) :
    Reach n.size (n.targets none) ∅ seeds q := by
  induction h with
  | nil => exact hp
  | empty he _ ih =>
    refine ih hw (.step hp (mem_targets.2 he) (hn.target_lt he) (StateSet.not_mem_empty _))
  | char => cases hw

/-- **The closure of some states** holds the states that empty moves lead to from them. -/
theorem mem_closure (hn : n.WellFormed) (hs : ∀ s ∈ states, s < n.size) :
    q ∈ n.closure states ↔ ∃ s ∈ states, Path n s [] q := by
  unfold closure
  rw [mem_close]
  refine ⟨?_, ?_⟩
  · rintro (h | h)
    · exact absurd h (StateSet.not_mem_empty q)
    · induction h with
      | @seed s hs _ _ => exact ⟨s, hs, .nil⟩
      | step _ he _ _ ih =>
        obtain ⟨s, hs, hp⟩ := ih
        exact ⟨s, hs, hp.append (.empty (mem_targets.1 he) .nil)⟩
  · rintro ⟨s, hmem, hp⟩
    exact .inr (reach_of_path hn hp rfl (.seed hmem (hs s hmem) (StateSet.not_mem_empty s)))

/-! ### Sets closed under empty moves -/

/-- Empty moves do not lead out of the set. -/
def EmptyClosed (n : Nfa) (S : StateSet) : Prop := ∀ s ∈ S, ∀ q, Path n s [] q → q ∈ S

theorem emptyClosed_closure (hn : n.WellFormed) (hs : ∀ s ∈ states, s < n.size) :
    n.EmptyClosed (n.closure states) := by
  intro p hp q hq
  rw [mem_closure hn hs] at hp ⊢
  obtain ⟨s, hmem, h⟩ := hp
  exact ⟨s, hmem, h.append hq⟩

/-- The targets of edges are states, wherever the edges start. -/
theorem lt_of_mem_move (hn : n.WellFormed) : ∀ q ∈ n.move states c, q < n.size := by
  intro q hq
  obtain ⟨p, -, he⟩ := mem_move.1 hq
  exact hn.target_lt he

theorem start_lt_of_mem (hn : n.WellFormed) : ∀ s ∈ [n.start], s < n.size := by
  intro s hs
  rw [List.mem_singleton] at hs
  rw [hs]
  exact hn.start_lt

/-! ### Reading a text -/

/-- **The set after one more character.** -/
def advance (n : Nfa) (S : StateSet) (c : Char) : StateSet := n.closure (n.move S.toList c)

/-- **The set after a text**, read from the start. -/
def statesAfter (n : Nfa) (w : List Char) : StateSet := w.foldl n.advance (n.closure [n.start])

theorem emptyClosed_advance (hn : n.WellFormed) : n.EmptyClosed (n.advance S c) :=
  emptyClosed_closure hn (lt_of_mem_move hn)

/-- From the empty set nothing is reached. -/
theorem advance_empty : n.advance ∅ c = ∅ := by
  refine StateSet.ext_mem fun q => ?_
  have hm : n.move (∅ : StateSet).toList c = [] := by
    refine List.eq_nil_iff_forall_not_mem.2 fun q hq => ?_
    obtain ⟨p, hp, -⟩ := mem_move.1 hq
    exact StateSet.not_mem_empty p (StateSet.mem_toList.1 hp)
  rw [advance, hm, closure, close]

theorem foldl_advance_empty : w.foldl n.advance ∅ = ∅ := by
  induction w with
  | nil => rfl
  | cons c w ih => rw [List.foldl_cons, advance_empty, ih]

/-- **One character.** The states after `c :: w` from a closed set are those after `w` from the next
set. -/
theorem exists_path_cons_iff (hn : n.WellFormed) (hS : n.EmptyClosed S) :
    (∃ s ∈ S, Path n s (c :: w) q) ↔ ∃ s ∈ n.advance S c, Path n s w q := by
  refine ⟨?_, ?_⟩
  · rintro ⟨s, hs, h⟩
    obtain ⟨t, m, ht, he, hw⟩ := h.cons_inv
    have hm : m ∈ n.move S.toList c := mem_move.2 ⟨t, StateSet.mem_toList.2 (hS s hs t ht), he⟩
    exact ⟨m, (mem_closure hn (lt_of_mem_move hn)).2 ⟨m, hm, .nil⟩, hw⟩
  · rintro ⟨s, hs, h⟩
    obtain ⟨m, hm, hs⟩ := (mem_closure hn (lt_of_mem_move hn)).1 hs
    obtain ⟨t, ht, he⟩ := mem_move.1 hm
    exact ⟨t, StateSet.mem_toList.1 ht, .char he (hs.append h)⟩

/-- **Sets follow paths**: from a closed set, the set after a text holds the states that a path for
the text leads to. -/
theorem mem_foldl_advance (hn : n.WellFormed) (hS : n.EmptyClosed S) :
    q ∈ w.foldl n.advance S ↔ ∃ s ∈ S, Path n s w q := by
  induction w generalizing S with
  | nil =>
    refine ⟨?_, ?_⟩
    · exact fun h => ⟨q, h, .nil⟩
    · rintro ⟨s, hs, h⟩
      exact hS s hs q h
  | cons c w ih =>
    rw [List.foldl_cons, ih (emptyClosed_advance hn), exists_path_cons_iff hn hS]

/-- The set after a text holds the states at the end of its paths from the start. -/
theorem mem_statesAfter (hn : n.WellFormed) : q ∈ n.statesAfter w ↔ Path n n.start w q := by
  unfold statesAfter
  -- the closure of the start is closed, and it is what empty moves lead to from the start
  rw [mem_foldl_advance hn (emptyClosed_closure hn (start_lt_of_mem hn))]
  refine ⟨?_, ?_⟩
  · rintro ⟨s, hs, h⟩
    obtain ⟨s', hs', hp⟩ := (mem_closure hn (start_lt_of_mem hn)).1 hs
    rw [List.mem_singleton] at hs'
    subst hs'
    exact hp.append h
  · intro h
    exact ⟨n.start, (mem_closure hn (start_lt_of_mem hn)).2 ⟨_, List.mem_singleton_self _, .nil⟩, h⟩

/-! ### Acceptance -/

/-- **Stopping early changes nothing**: where no edge is left the set stays empty. -/
theorem acceptsFrom_eq : n.acceptsFrom S w = (w.foldl n.advance S).toList.any n.isFinal := by
  induction w generalizing S with
  | nil => rfl
  | cons c w ih =>
    rw [acceptsFrom, List.foldl_cons]
    split
    · -- no edge is left, so the set is empty now and stays so
      next hm =>
      have hstuck : n.advance S c = ∅ := by rw [advance, hm, closure, close]
      rw [hstuck, foldl_advance_empty]
      rfl
    · exact ih

theorem any_isFinal_iff : S.toList.any n.isFinal = true ↔ ∃ q ∈ S, n.isFinal q = true := by
  simp only [List.any_eq_true, StateSet.mem_toList]

/-- **A text is accepted** if some path for it leads from the start to a final state. -/
theorem accepts_iff (hn : n.WellFormed) :
    n.accepts w = true ↔ ∃ q, Path n n.start w q ∧ n.isFinal q = true := by
  unfold accepts
  rw [acceptsFrom_eq, any_isFinal_iff]
  exact exists_congr fun q => and_congr_left' (mem_statesAfter hn)

end LexerGen.Nfa
