import LexerGen.Proofs.Dfa.Nesting
import LexerGen.Proofs.Nfa.Shape
import LexerGen.Proofs.OrderedMap
import Mathlib.Algebra.Group.Nat.Defs
import Mathlib.Data.List.Permutation

/-!
# The shape of a deterministic automaton

The table that the subset construction makes is used by everything that comes after it, and all of
them rely on its shape. `Represents` lists what they may rely on: which sets the states stand for,
where the edges lead, what is special about the first state and about the last, and how many states
there are at most.

Almost all of it is read off `StandsFor`, which is a bijection: a state stands for one set
(`StandsFor.unique`), and no set has two states (`StandsFor.inj`). So a fact about numbers becomes a
fact about sets, and the sets are those that texts lead to (`exists_text_of_mem_nodes`). That the
first state is never entered again is such a fact. Its set is the only one that holds the start,
since no path leads back there, and that is an invariant of everything that can be put together
(`Rooted`).

The search for these sets is a number of rounds, each of which gives one set its row. The sets are
not empty, and there is one number with `n.size` binary digits for each, so fewer than
`2 ^ n.size` rounds are made.
-/

namespace LexerGen

namespace Nfa

variable {n m : Nfa} {p q r : Nat} {c : Char} {w : List Char} {t : Tag} {S : StateSet}

/-! ### The start is not met again -/

/-- **No path leads back to the start**, except the one that stays there. -/
theorem Rooted.eq_nil_of_path (hn : n.Rooted) (h : Path n p w n.start) :
    p = n.start ∧ w = [] := by
  generalize hr : n.start = r at h
  induction h with
  | nil => exact ⟨rfl, rfl⟩
  | empty he _ ih =>
    -- what is left of the path starts at the start, and the edge leads there
    have hq := (ih hr).1
    exact absurd (hq.trans hr.symm) (hn.ne_start he)
  | char he _ ih =>
    have hq := (ih hr).1
    exact absurd (hq.trans hr.symm) (hn.ne_start he)

/-! ### Sets -/

/-- **The set after one more character** holds what an edge and then empty moves lead to. -/
theorem mem_advance (hn : n.WellFormed) :
    r ∈ n.advance S c ↔ ∃ p ∈ S, ∃ m, (some c, m) ∈ n.edges p ∧ Path n m [] r := by
  unfold advance
  rw [mem_closure hn (lt_of_mem_move hn)]
  simp only [mem_move, StateSet.mem_toList]
  constructor
  · rintro ⟨m, ⟨p, hp, he⟩, hr⟩
    exact ⟨p, hp, m, he, hr⟩
  · rintro ⟨p, hp, m, he, hr⟩
    exact ⟨m, ⟨p, hp, he⟩, hr⟩

/-- The set is empty just if no edge leads on. -/
theorem advance_eq_empty_iff (hn : n.WellFormed) :
    n.advance S c = ∅ ↔ ∀ p ∈ S, ∀ m, (some c, m) ∉ n.edges p := by
  constructor
  · intro hempty p hp m he
    have hm : m ∈ n.advance S c := (mem_advance hn).2 ⟨p, hp, m, he, .nil⟩
    rw [hempty] at hm
    exact StateSet.not_mem_empty m hm
  · intro hnone
    apply StateSet.ext_mem
    intro r
    refine iff_of_false ?_ (StateSet.not_mem_empty r)
    intro hr
    obtain ⟨p, hp, m, he, -⟩ := (mem_advance hn).1 hr
    exact hnone p hp m he

/-- The set for the empty text. -/
theorem mem_closure_start (hn : n.WellFormed) :
    r ∈ n.closure [n.start] ↔ Path n n.start [] r := mem_statesAfter (w := []) hn

theorem statesAfter_mem_allBelow (hn : n.WellFormed) :
    n.statesAfter w ∈ StateSet.allBelow n.size := by
  apply StateSet.mem_allBelow
  intro q hq
  have hpath : Path n n.start w q := (mem_statesAfter hn).1 hq
  exact hpath.lt hn hn.start_lt

/-- **Sets for texts are closed under empty moves.** -/
theorem emptyClosed_statesAfter (hn : n.WellFormed) : n.EmptyClosed (n.statesAfter w) := by
  intro p hp q hq
  rw [mem_statesAfter hn] at hp ⊢
  have hpath := hp.append hq
  rwa [List.append_nil] at hpath

end Nfa

namespace Dfa

open Nfa (Path)

variable {n : Nfa} {S T : StateSet} {p q : Nat} {c : Char} {w : List Char} {s s' : State}

/-! ### States and sets -/

/-- **The sets that are found** are sets that texts lead to. -/
theorem exists_text_of_mem_nodes : ∀ S ∈ (exploration n).nodes, ∃ w, S = n.statesAfter w :=
  forall_mem_explore (exists_space n) (fun _ => exists_text_of_mem_start)
    fun _ _ => exists_text_of_mem_successors

/-- **A state stands for one set.** -/
theorem StandsFor.unique (h : StandsFor n q S) (h' : StandsFor n q T) : S = T := by
  obtain ⟨s, hs, hS, -, -⟩ := h.state
  obtain ⟨s', hs', hT, -, -⟩ := h'.state
  have hstate : s = s' := Option.some.inj (hs.symm.trans hs')
  rw [← hS, ← hT, hstate]

/-- **No set has two states.** -/
theorem StandsFor.inj (hn : n.WellFormed) (h : StandsFor n p S) (h' : StandsFor n q S) : p = q := by
  by_cases hempty : S = ∅
  · -- only the sink stands for the empty set
    have hp := (h.isSink_iff hn).2 hempty
    have hq := (h'.isSink_iff hn).2 hempty
    rw [isSink, beq_iff_eq] at hp hq
    exact hp.trans hq.symm
  · have hp : (exploration n).nodes[p]? = some S := h.resolve_right fun hsink => hempty hsink.2
    have hq : (exploration n).nodes[q]? = some S := h'.resolve_right fun hsink => hempty hsink.2
    have hlt : p < (exploration n).nodes.toList.length := (Array.getElem?_eq_some_iff.1 hp).1
    rw [← Array.getElem?_toList] at hp hq
    exact (List.getElem?_inj hlt expanded_exploration.1.nodup).1 (hp.trans hq.symm)

/-- What a state records of its set. -/
theorem exists_standsFor_subset (h : (ofNfa n).states[q]? = some s) : StandsFor n q s.subset := by
  obtain ⟨S, hS⟩ := exists_standsFor h
  obtain ⟨s', hs', hsubset, -, -⟩ := hS.state
  have hstate : s' = s := Option.some.inj (hs'.symm.trans h)
  rwa [← hstate, hsubset]

theorem state_sink (h : (ofNfa n).states[(ofNfa n).sink]? = some s) : s = sinkState :=
  Option.some.inj (h.symm.trans states_sink)

/-- **Every other state is found** by the search. -/
theorem node_of_ne_sink (h : (ofNfa n).states[q]? = some s) (hq : q ≠ (ofNfa n).sink) :
    (exploration n).nodes[q]? = some s.subset :=
  (exists_standsFor_subset h).resolve_right fun hsink => hq hsink.1

/-- **Texts lead to every state but the sink**, the one that stands for the set that they lead
to. -/
theorem exists_run_eq (hn : n.WellFormed) (h : (exploration n).nodes[q]? = some S) :
    ∃ w, (ofNfa n).run (ofNfa n).start w = q ∧ S = n.statesAfter w := by
  have hmem : S ∈ (exploration n).nodes := Array.mem_of_getElem? h
  obtain ⟨w, rfl⟩ := exists_text_of_mem_nodes S hmem
  have hstands : StandsFor n q (n.statesAfter w) := .inl h
  exact ⟨w, (standsFor_run hn).inj hn hstands, rfl⟩

/-! ### Edges -/

/-- **There is an edge for each character** of the alphabet, in ascending order. -/
theorem keys_of_node (h : (exploration n).nodes[q]? = some S) :
    ∃ s, (ofNfa n).states[q]? = some s ∧ s.edges.map Prod.fst = n.alphabet.toList := by
  obtain ⟨row, hrow, hs⟩ := states_of_node h
  refine ⟨_, hs, ?_⟩
  have hlength : n.alphabet.toList.length = row.length := by
    have hsucc : (successors n S).length = row.length := hrow.length_eq
    rwa [successors, List.length_map] at hsucc
  refine List.map_fst_zip (Nat.le_of_eq ?_)
  rw [List.length_map, hlength]

/-- **An edge leads where its character leads.** -/
theorem step_of_mem_edges (h : (ofNfa n).states[p]? = some s) (he : (c, q) ∈ s.edges) :
    (ofNfa n).step p c = q := by
  have hp : p ≠ (ofNfa n).sink := by
    rintro rfl
    rw [state_sink h] at he
    exact absurd he List.not_mem_nil
  obtain ⟨s', hs', hkeys⟩ := keys_of_node (node_of_ne_sink h hp)
  obtain rfl : s' = s := Option.some.inj (hs'.symm.trans h)
  have hnodup : (s'.edges.map Prod.fst).Nodup := by
    rw [hkeys]
    exact n.alphabet.ascending.nodup
  rw [step, h]
  show (s'.edges.lookup c).getD (ofNfa n).sink = q
  rw [(OrderedMap.mem_iff_lookup_eq_some hnodup).1 he]
  rfl

/-- **An edge goes to the state for the next set.** -/
theorem standsFor_of_mem_edges (hn : n.WellFormed) (h : (ofNfa n).states[p]? = some s)
    (he : (c, q) ∈ s.edges) : StandsFor n q (n.advance s.subset c) := by
  have hstep : StandsFor n ((ofNfa n).step p c) (n.advance s.subset c) :=
    (exists_standsFor_subset h).step hn
  rwa [step_of_mem_edges h he] at hstep

/-! ### The first state -/

theorem standsFor_zero : StandsFor n 0 (n.closure [n.start]) := standsFor_start

/-- **The first state alone is flagged as start**, since no other set holds the start. -/
theorem isStart_iff (hn : n.Rooted) (hflag : n.Flagged) (h : (ofNfa n).states[q]? = some s) :
    s.isStart = true ↔ q = 0 := by
  have hzero : n.start ∈ n.closure [n.start] := (Nfa.mem_closure_start hn.toWellFormed).2 .nil
  have hstands := exists_standsFor_subset h
  by_cases hq : q = (ofNfa n).sink
  · subst hq
    obtain rfl := state_sink h
    refine iff_of_false Bool.false_ne_true ?_
    intro hq
    -- otherwise the first set would be empty
    rw [hq] at hstands
    rw [← hstands.unique standsFor_zero] at hzero
    exact StateSet.not_mem_empty _ hzero
  · have hnode := node_of_ne_sink h hq
    obtain ⟨row, -, hs⟩ := states_of_node hnode
    have hstart : s.isStart = s.subset.toList.any n.isStart := by
      rw [← Option.some.inj (hs.symm.trans h)]
      rfl
    have hmem : s.isStart = true ↔ n.start ∈ s.subset := by
      rw [hstart, List.any_eq_true]
      constructor
      · rintro ⟨p, hp, hflagged⟩
        rw [(hflag p).1 hflagged] at hp
        exact StateSet.mem_toList.1 hp
      · intro hp
        exact ⟨n.start, StateSet.mem_toList.2 hp, (hflag _).2 rfl⟩
    rw [hmem]
    constructor
    · intro hp
      -- only the empty text leads back to the start
      obtain ⟨w, -, hw⟩ := exists_run_eq hn.toWellFormed hnode
      rw [hw, Nfa.mem_statesAfter hn.toWellFormed] at hp
      obtain ⟨-, rfl⟩ := hn.eq_nil_of_path hp
      rw [hw] at hstands
      exact hstands.inj hn.toWellFormed standsFor_zero
    · rintro rfl
      rwa [hstands.unique standsFor_zero]

/-- **No edge leads to the first state.** -/
theorem ne_zero_of_mem_edges (hn : n.Rooted) (h : (ofNfa n).states[p]? = some s)
    (he : (c, q) ∈ s.edges) : q ≠ 0 := by
  rintro rfl
  have hset : n.advance s.subset c = n.closure [n.start] :=
    (standsFor_of_mem_edges hn.toWellFormed h he).unique standsFor_zero
  have hstart : n.start ∈ n.advance s.subset c := by
    rw [hset]
    exact (Nfa.mem_closure_start hn.toWellFormed).2 .nil
  -- the start would be reached by an edge, and what follows it would be a path back
  obtain ⟨r, -, m, hm, hpath⟩ := (Nfa.mem_advance hn.toWellFormed).1 hstart
  exact hn.ne_start hm (hn.eq_nil_of_path hpath).1

/-! ### How many states there are -/

/-- **Fewer sets are found than there are sets**, since the empty one is not found. -/
theorem size_nodes_lt (hn : n.WellFormed) : (exploration n).nodes.size < 2 ^ n.size := by
  have hnodup : (∅ :: (exploration n).nodes.toList).Nodup := by
    refine List.nodup_cons.2 ⟨?_, expanded_exploration.1.nodup⟩
    intro hempty
    exact ne_empty_of_mem_nodes hn ∅ (Array.mem_def.2 hempty) rfl
  have hsub : ∅ :: (exploration n).nodes.toList ⊆ StateSet.allBelow n.size := by
    intro S hS
    rcases List.mem_cons.1 hS with rfl | hS
    · exact StateSet.mem_allBelow fun q hq => absurd hq (StateSet.not_mem_empty q)
    · obtain ⟨w, rfl⟩ := exists_text_of_mem_nodes S (Array.mem_def.2 hS)
      exact Nfa.statesAfter_mem_allBelow hn
  have hlength := hnodup.length_le_of_subset hsub
  rwa [StateSet.allBelow, List.length_map, List.length_range, Nat.one_shiftLeft, List.length_cons,
    Array.length_toList] at hlength

/-- **The search ends** after fewer rounds than there are sets, and no set is left without its
row. -/
theorem exists_rounds_exploration (hn : n.WellFormed) :
    ∃ k < 2 ^ n.size,
      Rounds (successors n) k ⟨#[n.closure [n.start]], #[]⟩ (exploration n) ∧
        (exploration n).rows.size = (exploration n).nodes.size := by
  obtain ⟨k, hk⟩ : ∃ k,
      Rounds (successors n) k ⟨#[n.closure [n.start]], #[]⟩ (exploration n) :=
    exists_rounds_explore (exists_space n)
  have hrows : (exploration n).rows.size = 0 + k := hk.size_rows
  have hsize : (exploration n).rows.size = (exploration n).nodes.size := expanded_exploration.2
  have hlt := size_nodes_lt hn
  exact ⟨k, by omega, hk, hsize⟩

/-! ### The shape of the table -/

/-- **What the table of a deterministic automaton is like.** -/
structure Represents (n : Nfa) (d : Dfa) : Prop where
  alphabet : d.alphabet = n.alphabet
  start : d.start = 0
  /-- The sink is the last state. -/
  size : d.size = d.sink + 1
  /-- It stands for the empty set and has no edges, no flags and no tag. -/
  sink : d.states[d.sink]? = some ⟨∅, [], false, false, none⟩
  /-- No other state stands for the empty set. -/
  subset_ne_nil {q : Nat} {s : State} :
    d.states[q]? = some s → q ≠ d.sink → s.subset.toList ≠ []
  /-- Subsets are listed in ascending order. -/
  pairwise_subset {q : Nat} {s : State} :
    d.states[q]? = some s → s.subset.toList.Pairwise (· < ·)
  /-- They are closed under empty moves. -/
  closed {q : Nat} {s : State} : d.states[q]? = some s →
    ∀ p ∈ s.subset.toList, ∀ r, (none, r) ∈ n.edges p → r ∈ s.subset.toList
  /-- No two states have the same subset. -/
  subset_inj {q q' : Nat} {s s' : State} : d.states[q]? = some s → d.states[q']? = some s' →
    s.subset.toList = s'.subset.toList → q = q'
  /-- Each state but the sink has one edge for each character. -/
  keys {q : Nat} {s : State} :
    d.states[q]? = some s → q ≠ d.sink → s.edges.map Prod.fst = n.alphabet.toList
  /-- The edge leads to the state for what the character and then empty moves lead to. -/
  target {q q' : Nat} {s : State} {c : Char} : d.states[q]? = some s → (c, q') ∈ s.edges →
    ∃ s', d.states[q']? = some s' ∧ ∀ r, r ∈ s'.subset.toList ↔
      ∃ p ∈ s.subset.toList, ∃ m, (some c, m) ∈ n.edges p ∧ Path n m [] r
  /-- That is the sink just if the character leads nowhere. -/
  target_sink {q q' : Nat} {s : State} {c : Char} : d.states[q]? = some s → (c, q') ∈ s.edges →
    (q' = d.sink ↔ ∀ p ∈ s.subset.toList, ∀ m, (some c, m) ∉ n.edges p)
  /-- The first state stands for what empty moves lead to from the start. -/
  first : ∃ s, d.states[0]? = some s ∧ ∀ r, r ∈ s.subset.toList ↔ Path n n.start [] r
  /-- It is the only one that is flagged as start. -/
  isStart {q : Nat} {s : State} : d.states[q]? = some s → (s.isStart = true ↔ q = 0)
  /-- No edge leads to it. -/
  target_ne_zero {q q' : Nat} {s : State} {c : Char} :
    d.states[q]? = some s → (c, q') ∈ s.edges → q' ≠ 0
  /-- Texts lead from it to every state but the sink. -/
  reachable {q : Nat} : q < d.sink → ∃ w, d.run 0 w = q
  size_le : d.size ≤ 2 ^ n.size

theorem represents_of_rooted (hn : n.Rooted) (hflag : n.Flagged) : Represents n (ofNfa n) where
  alphabet := rfl
  start := rfl
  size := size_ofNfa
  sink := states_sink
  subset_ne_nil hs hq hnil := by
    have hmem := Array.mem_of_getElem? (node_of_ne_sink hs hq)
    apply ne_empty_of_mem_nodes hn.toWellFormed _ hmem
    apply StateSet.ext_mem
    intro p
    rw [← StateSet.mem_toList, hnil]
    exact iff_of_false List.not_mem_nil (StateSet.not_mem_empty p)
  pairwise_subset _ := StateSet.pairwise_toList _
  closed {q} s hs p hp r he := by
    rw [StateSet.mem_toList] at hp ⊢
    by_cases hq : q = (ofNfa n).sink
    · subst hq
      rw [state_sink hs] at hp
      exact absurd hp (StateSet.not_mem_empty p)
    · obtain ⟨w, -, hw⟩ := exists_run_eq hn.toWellFormed (node_of_ne_sink hs hq)
      rw [hw] at hp ⊢
      exact Nfa.emptyClosed_statesAfter hn.toWellFormed p hp r (.empty he .nil)
  subset_inj {q q'} s s' hs hs' heq := by
    have hsubset : s.subset = s'.subset := by
      apply StateSet.ext_mem
      intro p
      rw [← StateSet.mem_toList, heq, StateSet.mem_toList]
    have hstands := exists_standsFor_subset hs
    rw [hsubset] at hstands
    exact hstands.inj hn.toWellFormed (exists_standsFor_subset hs')
  keys hs hq := by
    obtain ⟨s', hs', hkeys⟩ := keys_of_node (node_of_ne_sink hs hq)
    rwa [Option.some.inj (hs'.symm.trans hs)] at hkeys
  target hs he := by
    obtain ⟨s', hs', hsubset, -, -⟩ := (standsFor_of_mem_edges hn.toWellFormed hs he).state
    refine ⟨s', hs', fun r => ?_⟩
    simp only [StateSet.mem_toList, hsubset, Nfa.mem_advance hn.toWellFormed]
  target_sink hs he := by
    have hsink := (standsFor_of_mem_edges hn.toWellFormed hs he).isSink_iff hn.toWellFormed
    rw [isSink, beq_iff_eq] at hsink
    rw [hsink, Nfa.advance_eq_empty_iff hn.toWellFormed]
    simp only [StateSet.mem_toList]
  first := by
    obtain ⟨s, hs, hsubset, -, -⟩ := (standsFor_zero (n := n)).state
    refine ⟨s, hs, fun r => ?_⟩
    rw [StateSet.mem_toList, hsubset]
    exact Nfa.mem_closure_start hn.toWellFormed
  isStart hs := isStart_iff hn hflag hs
  target_ne_zero hs he := ne_zero_of_mem_edges hn hs he
  reachable hq := by
    obtain ⟨w, hw, -⟩ := exists_run_eq hn.toWellFormed (Array.getElem?_eq_getElem hq)
    exact ⟨w, hw⟩
  size_le := by
    rw [size_ofNfa]
    exact size_nodes_lt hn.toWellFormed

/-- **The shape of every table** that the subset construction makes, whatever the automaton was put
together from. The search for its sets ends after fewer rounds than the automaton has sets of
states. -/
theorem ofNfa_represents {rs : List Regex} (h : Nfa.Built rs n) :
    (∃ k < 2 ^ n.size,
      Rounds (successors n) k ⟨#[n.closure [n.start]], #[]⟩ (exploration n) ∧
        (exploration n).rows.size = (exploration n).nodes.size) ∧
    Represents n (ofNfa n) := by
  have hn : n.Rooted := Nfa.rooted_of_built h
  exact ⟨exists_rounds_exploration hn.toWellFormed,
    represents_of_rooted hn (Nfa.flagged_of_built h)⟩

/-- A tagged automaton joined with one that has a cycle of empty moves: the start, one state for
each character, and the sink. -/
theorem ofNfa_represents_cycle :
    ∃ n, Nfa.Built [.lit 'a', .star (.star (.lit 'b'))] n ∧ n.size = 8 ∧ (ofNfa n).size = 4 ∧
      Represents n (ofNfa n) := by
  have hbuilt := Nfa.built_append_tagFinal (.lit 'a') (.star (.star (.lit 'b'))) ⟨"A", 0⟩
  exact ⟨_, hbuilt, by cbv, by cbv, (ofNfa_represents hbuilt).2⟩

end Dfa

end LexerGen
