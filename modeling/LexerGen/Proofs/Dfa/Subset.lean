import LexerGen.Dfa.Subset
import LexerGen.Proofs.Exploration
import LexerGen.Proofs.Nfa.Merge

/-!
# The subset construction is right

The states of `ofNfa n` stand for the sets that `Nfa.advance` computes. The argument is a
simulation. `StandsFor n q S` says that the deterministic state `q` stands for the set `S`: either
`S` is the node that the exploration found with number `q`, or `q` is the sink and `S` is empty. The
start stands for the closure of the start, and one character takes both sides to a pair that stands
to each other again (`StandsFor.step`), so a whole text does as well (`StandsFor.run`).

In one step four things can happen. The sink is left by no character, and the empty set stays empty.
A character outside the alphabet labels no edge, so it leads to the empty set, and the state has no
edge for it. A character of the alphabet may lead to the empty set, which the exploration leaves
out; its edge goes to the sink. Otherwise its edge goes to the number of the set that it leads to.
-/

namespace LexerGen

theorem StateSet.toList_empty : (∅ : StateSet).toList = [] :=
  List.eq_nil_iff_forall_not_mem.2 fun q hq => StateSet.not_mem_empty q (StateSet.mem_toList.1 hq)

namespace Dfa

variable {n : Nfa} {S : StateSet} {q : Nat} {c : Char} {w : List Char}

/-! ### What the exploration finds -/

/-- The set that a character leads to is left out just if it is empty. -/
theorem successor_eq :
    successor n S.toList c = if n.advance S c = ∅ then none else some (n.advance S c) := by
  show (if (n.advance S c).isEmpty then none else some (n.advance S c)) = _
  by_cases hempty : n.advance S c = ∅
  · rw [if_pos hempty, if_pos (StateSet.isEmpty_iff.2 hempty)]
  · rw [if_neg hempty, if_neg (mt StateSet.isEmpty_iff.1 hempty)]

theorem successor_eq_some_iff {T : StateSet} :
    successor n S.toList c = some T ↔ n.advance S c = T ∧ T ≠ ∅ := by
  rw [successor_eq]
  split
  · next hempty =>
    constructor
    · intro h
      cases h
    · rintro ⟨rfl, hne⟩
      exact absurd hempty hne
  · next hne =>
    rw [Option.some_inj]
    constructor
    · rintro rfl
      exact ⟨rfl, hne⟩
    · exact And.left

/-- **No set that is found is empty.** The first holds the start, and empty successors are left
out. -/
theorem ne_empty_of_mem_nodes (hn : n.WellFormed) : ∀ S ∈ (exploration n).nodes, S ≠ ∅ := by
  refine forall_mem_explore (exists_space n) ?_ ?_
  · intro S hS hempty
    have hstart : n.start ∈ n.closure [n.start] :=
      (Nfa.mem_closure hn (Nfa.start_lt_of_mem hn)).2 ⟨_, List.mem_singleton_self _, .nil⟩
    rw [Array.mem_def, List.mem_singleton] at hS
    rw [← hS, hempty] at hstart
    exact StateSet.not_mem_empty _ hstart
  · intro S T _ hT hempty
    obtain ⟨c, -, hc⟩ := List.mem_map.1 hT
    exact (successor_eq_some_iff.1 hc).2 hempty

/-- The exploration ends with a row for every set, which holds the numbers of its successors. -/
theorem expanded_exploration :
    Expanded (successors n) (exploration n).nodes (exploration n).rows ∧
      (exploration n).rows.size = (exploration n).nodes.size :=
  -- at first no set has a row
  expanded_explore (exists_space n) (expanded_singleton _)

/-! ### What the table holds -/

/-- There is one row for every set. -/
theorem size_zipWith_rows (f : StateSet → List (Option Nat) → State) :
    ((exploration n).nodes.zipWith f (exploration n).rows).size = (exploration n).nodes.size := by
  rw [Array.size_zipWith, expanded_exploration.2, Nat.min_self]

/-- **The state for a set that was found** has the edges of its row. -/
theorem states_of_node (h : (exploration n).nodes[q]? = some S) :
    ∃ row, List.Forall₂ (Numbered (exploration n).nodes) (successors n S) row ∧
      (ofNfa n).states[q]? = some (stateOf n (ofNfa n).sink S row) := by
  obtain ⟨hexp, hsize⟩ := expanded_exploration (n := n)
  have hlt : q < (exploration n).nodes.size := (Array.getElem?_eq_some_iff.1 h).1
  have hrow : (exploration n).rows[q]? = some (exploration n).rows[q] :=
    Array.getElem?_eq_getElem (hsize ▸ hlt)
  refine ⟨_, hexp.row h hrow, ?_⟩
  show (((exploration n).nodes.zipWith (stateOf n (exploration n).nodes.size)
    (exploration n).rows).push sinkState)[q]? = _
  rw [Array.getElem?_push_lt, ← Array.getElem?_eq_getElem, Array.getElem?_zipWith, h, hrow]
  · rfl
  · rw [size_zipWith_rows]
    exact hlt

/-- The last state is the sink. -/
theorem states_sink : (ofNfa n).states[(ofNfa n).sink]? = some sinkState := by
  show (((exploration n).nodes.zipWith (stateOf n (exploration n).nodes.size)
    (exploration n).rows).push sinkState)[(exploration n).nodes.size]? = _
  rw [Array.getElem?_push, if_pos (size_zipWith_rows _).symm]

theorem size_ofNfa : (ofNfa n).size = (ofNfa n).sink + 1 := by
  show (((exploration n).nodes.zipWith (stateOf n (exploration n).nodes.size)
    (exploration n).rows).push sinkState).size = (exploration n).nodes.size + 1
  rw [Array.size_push, size_zipWith_rows]

/-- **Finding an edge.** The edges pair the characters with the numbers of a row, so a character
finds the number of what it leads to, or the sink if that is absent. -/
theorem lookup_zip {α : Type} {found : Array α} {f : Char → Option α} {l : List Char}
    {row : List (Option Nat)} (sink : Nat) (h : List.Forall₂ (Numbered found) (l.map f) row)
    (hc : c ∈ l) :
    ∃ k, Numbered found (f c) k ∧
      (l.zip (row.map (·.getD sink))).lookup c = some (k.getD sink) := by
  induction l generalizing row with
  | nil => cases hc
  | cons a l ih =>
    obtain ⟨k, row, hk, hrow, rfl⟩ := List.forall₂_cons_left_iff.1 h
    -- the first pair with the character is the one that is found
    by_cases hca : c = a
    · subst hca
      refine ⟨k, hk, ?_⟩
      rw [List.map_cons, List.zip_cons_cons, List.lookup_cons_self]
    · obtain ⟨k', hk', hlookup⟩ := ih hrow (List.mem_of_ne_of_mem hca hc)
      refine ⟨k', hk', ?_⟩
      rw [List.map_cons, List.zip_cons_cons, List.lookup_cons, beq_eq_false_iff_ne.2 hca]
      exact hlookup

/-- Characters that are not listed find nothing. -/
theorem lookup_zip_of_not_mem {l : List Char} {targets : List Nat} (hc : c ∉ l) :
    (l.zip targets).lookup c = none := by
  rw [List.lookup_eq_none_iff]
  intro e he
  rw [bne_iff_ne]
  rintro rfl
  exact hc (List.of_mem_zip he).1

/-! ### The simulation -/

/-- **A state stands for a set** that was found with its number, and the sink for the empty
set. -/
def StandsFor (n : Nfa) (q : Nat) (S : StateSet) : Prop :=
  (exploration n).nodes[q]? = some S ∨ q = (ofNfa n).sink ∧ S = ∅

/-- **What is recorded in a state** is true of the set that it stands for. -/
theorem StandsFor.state (h : StandsFor n q S) :
    ∃ s, (ofNfa n).states[q]? = some s ∧ s.subset = S ∧
      s.isFinal = S.toList.any n.isFinal ∧ s.tag = tagOf n S := by
  rcases h with hnode | ⟨rfl, rfl⟩
  · obtain ⟨row, -, hstate⟩ := states_of_node hnode
    exact ⟨_, hstate, rfl, rfl, rfl⟩
  · refine ⟨_, states_sink, rfl, ?_, ?_⟩
    · rw [StateSet.toList_empty, List.any_nil]
      rfl
    · rw [tagOf, StateSet.toList_empty, List.filter_nil, List.filterMap_nil]
      rfl

theorem StandsFor.isFinal (h : StandsFor n q S) :
    (ofNfa n).isFinal q = S.toList.any n.isFinal := by
  obtain ⟨s, hs, -, hfinal, -⟩ := h.state
  rw [Dfa.isFinal, hs]
  exact hfinal

theorem StandsFor.tag? (h : StandsFor n q S) : (ofNfa n).tag? q = tagOf n S := by
  obtain ⟨s, hs, -, -, htag⟩ := h.state
  rw [Dfa.tag?, hs]
  exact htag

/-- **The sink stands for the empty set**, and no other state does. -/
theorem StandsFor.isSink_iff (hn : n.WellFormed) (h : StandsFor n q S) :
    (ofNfa n).isSink q = true ↔ S = ∅ := by
  rw [isSink, beq_iff_eq]
  rcases h with hnode | ⟨hq, hS⟩
  · -- a set that was found is not empty, and its number is smaller than that of the sink
    obtain ⟨hlt, hmem⟩ := Array.getElem?_eq_some_iff.1 hnode
    have hsink : q ≠ (ofNfa n).sink := Nat.ne_of_lt hlt
    have hS : S ≠ ∅ := ne_empty_of_mem_nodes hn S (hmem ▸ Array.getElem_mem hlt)
    exact iff_of_false hsink hS
  · exact iff_of_true hq hS

/-- **Every state stands for a set.** -/
theorem exists_standsFor {s : State} (h : (ofNfa n).states[q]? = some s) :
    ∃ S, StandsFor n q S := by
  have hlt : q < (ofNfa n).size := (Array.getElem?_eq_some_iff.1 h).1
  rw [size_ofNfa] at hlt
  -- the last state is the sink, and the others were found
  rcases Nat.lt_or_eq_of_le (Nat.le_of_lt_succ hlt) with hq | hq
  · exact ⟨_, .inl (Array.getElem?_eq_getElem hq)⟩
  · exact ⟨∅, .inr ⟨hq, rfl⟩⟩

/-- The start stands for the closure of the start. -/
theorem standsFor_start : StandsFor n (ofNfa n).start (n.closure [n.start]) :=
  .inl (keeps_explore (exists_space n) _ _ rfl)

/-- No character leaves the sink. -/
theorem step_sink : (ofNfa n).step (ofNfa n).sink c = (ofNfa n).sink := by
  rw [step, states_sink]
  rfl

theorem run_sink : (ofNfa n).run (ofNfa n).sink w = (ofNfa n).sink := by
  induction w with
  | nil => rfl
  | cons c w ih => rw [run, List.foldl_cons, step_sink]; exact ih

/-- A character outside the alphabet leads nowhere. -/
theorem advance_eq_empty (hn : n.WellFormed) (hc : c ∉ n.alphabet) : n.advance S c = ∅ := by
  have hmove : n.move S.toList c = [] := by
    refine List.eq_nil_iff_forall_not_mem.2 fun p hp => ?_
    obtain ⟨r, -, hedge⟩ := Nfa.mem_move.1 hp
    exact hc (hn.mem_alphabet hedge)
  rw [Nfa.advance, hmove, Nfa.closure, close]

/-- **One character** takes a state and the set that it stands for to such a pair again. -/
theorem StandsFor.step (hn : n.WellFormed) (h : StandsFor n q S) :
    StandsFor n ((ofNfa n).step q c) (n.advance S c) := by
  rcases h with hnode | ⟨rfl, rfl⟩
  · obtain ⟨row, hrow, hstate⟩ := states_of_node hnode
    rw [Dfa.step, hstate]
    by_cases hc : c ∈ n.alphabet
    · obtain ⟨k, hk, hlookup⟩ := lookup_zip (ofNfa n).sink hrow hc
      show StandsFor n (((n.alphabet.toList.zip (row.map (·.getD (ofNfa n).sink))).lookup c).getD
        (ofNfa n).sink) _
      rw [hlookup]
      rw [successor_eq] at hk
      split at hk
      · -- the set is left out, and the edge goes to the sink
        next hempty =>
        cases hk
        exact .inr ⟨rfl, hempty⟩
      · cases hk with
        | present hfound => exact .inl hfound
    · -- the character labels no edge, on neither side
      show StandsFor n (((n.alphabet.toList.zip (row.map (·.getD (ofNfa n).sink))).lookup c).getD
        (ofNfa n).sink) _
      rw [lookup_zip_of_not_mem hc]
      exact .inr ⟨rfl, advance_eq_empty hn hc⟩
  · exact .inr ⟨step_sink, Nfa.advance_empty⟩

/-- **A whole text** takes a state and the set that it stands for to such a pair again. -/
theorem StandsFor.run (hn : n.WellFormed) (h : StandsFor n q S) :
    StandsFor n ((ofNfa n).run q w) (w.foldl n.advance S) := by
  induction w generalizing q S with
  | nil => exact h
  | cons c w ih => exact ih (h.step hn)

/-- **After a text**, read from the start, the state stands for the set of states that paths for the
text lead to. -/
theorem standsFor_run (hn : n.WellFormed) :
    StandsFor n ((ofNfa n).run (ofNfa n).start w) (n.statesAfter w) :=
  standsFor_start.run hn

/-- **Stopping at the sink changes nothing**: it is not final, and no character leaves it. -/
theorem acceptsFrom_eq : (ofNfa n).acceptsFrom q w = (ofNfa n).isFinal ((ofNfa n).run q w) := by
  induction w generalizing q with
  | nil => rfl
  | cons c w ih =>
    rw [acceptsFrom, run, List.foldl_cons]
    split
    · -- once in the sink, the run ends there as well
      next hsink =>
      rw [isSink, beq_iff_eq] at hsink
      have hrun : w.foldl (ofNfa n).step ((ofNfa n).step q c) = (ofNfa n).sink := by
        rw [hsink]
        exact run_sink
      rw [hrun, Dfa.isFinal, states_sink]
      rfl
    · exact ih

/-- **Reading with sets and reading with the table** are the same. After any text the state of the
table lists, in ascending order, the states that paths for the text lead to. There is none just
if the state is the sink, and a final one among them just if it is final; and neither automaton
changes its answer by stopping early. -/
theorem ofNfa_simulates {rs : List Regex} (h : Nfa.Built rs n) (w : List Char) :
    (∃ s, (ofNfa n).states[(ofNfa n).run (ofNfa n).start w]? = some s ∧
      s.subset.toList.Pairwise (· < ·) ∧
      ∀ p, p ∈ s.subset.toList ↔ Nfa.Path n n.start w p) ∧
    ((ofNfa n).isSink ((ofNfa n).run (ofNfa n).start w) = true ↔
      ∀ p, ¬Nfa.Path n n.start w p) ∧
    ((ofNfa n).isFinal ((ofNfa n).run (ofNfa n).start w) = true ↔
      ∃ p, Nfa.Path n n.start w p ∧ n.isFinal p = true) ∧
    (ofNfa n).accepts w = (ofNfa n).isFinal ((ofNfa n).run (ofNfa n).start w) ∧
    n.accepts w = (ofNfa n).isFinal ((ofNfa n).run (ofNfa n).start w) := by
  have hn : n.WellFormed := (Nfa.rooted_of_built h).toWellFormed
  have hstands : StandsFor n ((ofNfa n).run (ofNfa n).start w) (n.statesAfter w) :=
    standsFor_run hn
  refine ⟨?_, ?_, ?_, acceptsFrom_eq, ?_⟩
  · obtain ⟨s, hs, hsubset, -, -⟩ := hstands.state
    refine ⟨s, hs, StateSet.pairwise_toList _, fun p => ?_⟩
    rw [StateSet.mem_toList, hsubset, Nfa.mem_statesAfter hn]
  · rw [hstands.isSink_iff hn]
    refine ⟨?_, ?_⟩
    · intro hempty p hp
      rw [← Nfa.mem_statesAfter hn, hempty] at hp
      exact StateSet.not_mem_empty p hp
    · intro hnone
      refine StateSet.ext_mem fun p => iff_of_false ?_ (StateSet.not_mem_empty p)
      rw [Nfa.mem_statesAfter hn]
      exact hnone p
  · rw [hstands.isFinal, Nfa.any_isFinal_iff]
    exact exists_congr fun p => and_congr_left' (Nfa.mem_statesAfter hn)
  · rw [hstands.isFinal]
    exact Nfa.acceptsFrom_eq

/-- A tagged automaton joined with an untagged one that has a cycle of empty moves, and a text that
goes around it. -/
theorem ofNfa_simulates_joined :
    ∃ n, Nfa.Built [.lit 'a', .star (.star (.lit 'b'))] n ∧
      (ofNfa n).accepts ['b', 'b'] = true ∧ n.accepts ['b', 'b'] = true := by
  have hparts : ∀ p ∈ [([Regex.lit 'a'], (Nfa.ofRegex (.lit 'a')).tagFinal ⟨"A", 0⟩),
      ([.star (.star (.lit 'b'))], Nfa.ofRegex (.star (.star (.lit 'b'))))], Nfa.Built p.1 p.2 :=
    List.forall_mem_cons.2 ⟨.tagFinal _ (.ofRegex _), List.forall_mem_singleton.2 (.ofRegex _)⟩
  obtain ⟨n, hmerge⟩ : ∃ n, Nfa.merge [(Nfa.ofRegex (.lit 'a')).tagFinal ⟨"A", 0⟩,
      Nfa.ofRegex (.star (.star (.lit 'b')))] = some n := ⟨_, rfl⟩
  have hbuilt : Nfa.Built [.lit 'a', .star (.star (.lit 'b'))] n := .merge hparts hmerge
  have hmatches : (Regex.star (.star (.lit 'b'))).Matches ((['b'] ++ (['b'] ++ [])) ++ []) :=
    .starAppend (.starAppend .lit (.starAppend .lit .starNil)) .starNil
  -- the second automaton accepts the text, so the joined one has an outcome
  obtain ⟨p, hp, hp', -⟩ : Nfa.Outcome n ['b', 'b'] none := by
    refine (Nfa.outcome_merge (fun m hm => ?_) hmerge).2
      ⟨_, .tail _ (.head _), 1, ?_, Nfa.isFinal_ofRegex.2 rfl, Nfa.tag?_ofRegex⟩
    · rcases List.mem_pair.1 hm with rfl | rfl
      · exact (Nfa.rooted_ofRegex _).tagFinal _
      · exact Nfa.rooted_ofRegex _
    · rw [Nfa.start_ofRegex]
      exact Nfa.path_ofRegex.2 hmatches
  obtain ⟨-, -, hfinal, hdfa, hnfa⟩ := ofNfa_simulates hbuilt ['b', 'b']
  have hend := hfinal.2 ⟨p, hp, hp'⟩
  exact ⟨n, hbuilt, hdfa.trans hend, hnfa.trans hend⟩

end Dfa

end LexerGen
