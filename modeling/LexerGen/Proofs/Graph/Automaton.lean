import LexerGen.Proofs.Dfa.Representation
import LexerGen.Proofs.Graph.Depiction

/-!
# Graphs of automata show the automaton and nothing else

The states of an automaton are numbered in their order and their edges lead to states, so its graph
depicts it (`depicts_of_built`).

Leaving out the sink of a deterministic automaton is done before the graph is drawn, to the states
and to the transitions of the others. It comes to the same as leaving out the node of the sink
afterwards, with the edges into it (`without_ofStates`), since the sink has no edges of its own and
does not mark the start.
-/

namespace LexerGen

namespace Graph

variable {g : Graph} {size start sink p q : Nat} {s : DrawnState} {states : List DrawnState}
  {isFinal : Nat → Bool} {tag? : Nat → Option Tag} {edges : Nat → List (Option Char × Nat)}

/-! ### Leaving out the sink -/

/-- A state without its transitions to the sink. -/
def DrawnState.hide (s : DrawnState) (sink : Nat) : DrawnState :=
  { s with edges := s.edges.filter fun e => e.2 ≠ sink }

/-- The step for one transition. -/
def transitionEdit (p : Nat) (e : Option Char × Nat) : Edit :=
  .edge (stateId p) (stateId e.2) [.label (transitionLabel e.1)]

/-- Transitions to the sink leave no trace, since their source is known by now. -/
theorem without_foldl_transitionEdit (hp : p ≠ sink) (edges : List (Option Char × Nat))
    (hmem : stateId p ∈ g.nodes.keys) :
    ((edges.map (transitionEdit p)).foldl edit g).without (stateId sink) =
      ((edges.filter fun e => e.2 ≠ sink).map (transitionEdit p)).foldl edit
        (g.without (stateId sink)) := by
  induction edges generalizing g with
  | nil => rfl
  | cons e edges ih =>
    -- the source stays known after this step
    rw [List.map_cons, List.foldl_cons, ih (mem_keys_edit hmem)]
    by_cases he : e.2 = sink
    · rw [List.filter_cons_of_neg (by simpa using he), transitionEdit, he, without_edit_into hmem]
    · rw [List.filter_cons_of_pos (by simpa using he), List.map_cons, List.foldl_cons,
        transitionEdit, without_edit_edge (mt stateId_inj.1 hp) (mt stateId_inj.1 he)]

/-- **The steps for a state** can be taken without the sink. -/
theorem without_stateEdits (hs : s.number ≠ sink) :
    ((stateEdits s).foldl edit g).without (stateId sink) =
      (stateEdits (s.hide sink)).foldl edit (g.without (stateId sink)) := by
  -- the state is mentioned first, with attributes that do not depend on its transitions
  obtain ⟨attrs, hattrs⟩ : ∃ attrs, ∀ edges, stateEdits { s with edges := edges } =
      .node (stateId s.number) attrs :: edges.map (transitionEdit s.number) :=
    ⟨.label (stateLabel s) :: if s.isFinal then [.peripheries "2"] else [], fun _ => rfl⟩
  have hmem : stateId s.number ∈ (g.mention (stateId s.number) attrs).nodes.keys :=
    OrderedMap.mem_keys_alter.2 (.inl rfl)
  calc ((stateEdits s).foldl edit g).without (stateId sink)
      = ((s.edges.map (transitionEdit s.number)).foldl edit
          (g.mention (stateId s.number) attrs)).without (stateId sink) := by
        rw [hattrs s.edges]
        rfl
    _ = ((s.hide sink).edges.map (transitionEdit s.number)).foldl edit
          ((g.without (stateId sink)).mention (stateId s.number) attrs) := by
        rw [without_foldl_transitionEdit hs s.edges hmem, without_mention (mt stateId_inj.1 hs)]
        rfl
    _ = (stateEdits (s.hide sink)).foldl edit (g.without (stateId sink)) := by
        rw [DrawnState.hide, hattrs]
        rfl

/-- **The step for the sink** need not be taken. -/
theorem without_stateEdits_sink (hedges : s.edges = []) :
    ((stateEdits s).foldl edit g).without (stateId s.number) = g.without (stateId s.number) := by
  unfold stateEdits
  rw [hedges]
  exact without_mention_self

/-- **The steps for all states** can be taken without the sink. -/
theorem without_foldl_stateEdits (hsink : ∀ s ∈ states, s.number = sink → s.edges = []) :
    ((states.flatMap stateEdits).foldl edit g).without (stateId sink) =
      (((states.filter fun s => s.number ≠ sink).map (·.hide sink)).flatMap stateEdits).foldl edit
        (g.without (stateId sink)) := by
  induction states generalizing g with
  | nil => rfl
  | cons s states ih =>
    rw [List.flatMap_cons, List.foldl_append, ih fun s hs => hsink s (List.mem_cons_of_mem _ hs)]
    by_cases hs : s.number = sink
    · subst hs
      rw [List.filter_cons_of_neg (by simp),
        without_stateEdits_sink (hsink s List.mem_cons_self rfl)]
    · rw [List.filter_cons_of_pos (by simpa using hs), List.map_cons, List.flatMap_cons,
        List.foldl_append, without_stateEdits hs]

theorem without_startEdits (hstart : start ≠ sink) :
    ((startEdits start).foldl edit g).without (stateId sink) =
      (startEdits start).foldl edit (g.without (stateId sink)) := by
  show ((g.mention startId _).edit (.edge startId (stateId start) [])).without _ = _
  rw [without_edit_edge (Ne.symm stateId_ne_startId) (mt stateId_inj.1 hstart),
    without_mention (Ne.symm stateId_ne_startId)]
  rfl

/-- **Leaving out the sink** before drawing is leaving out its node afterwards. -/
theorem without_ofStates (hsink : ∀ s ∈ states, s.number = sink → s.edges = [])
    (hstart : start ≠ sink) : (ofStates states start).without (stateId sink) =
      ofStates ((states.filter fun s => s.number ≠ sink).map (·.hide sink)) start := by
  unfold ofStates build
  rw [List.foldl_cons, List.foldl_cons, List.foldl_append, List.foldl_append,
    without_startEdits hstart, without_foldl_stateEdits hsink]
  rfl

/-- **A node that is there and has a label.** -/
def HasLabel (g : Graph) (id : String) : Prop :=
  ∃ attrs, (id, attrs) ∈ g.nodes.toList ∧ attrs.label.isSome

theorem Depicts.hasLabel (h : Depicts g size start isFinal tag? edges)
    (hq : q < size) : g.HasLabel (stateId q) := by
  refine ⟨_, h.nodes.mem_iff.2 (List.mem_cons_of_mem _ (List.mem_map.2 ⟨q, ?_, rfl⟩)), rfl⟩
  exact List.mem_range.2 hq

theorem Depicts.hasLabel_startId (h : Depicts g size start isFinal tag? edges) :
    g.HasLabel startId :=
  ⟨_, h.nodes.mem_iff.2 List.mem_cons_self, rfl⟩

theorem HasLabel.without {id x : String} (h : g.HasLabel id) (hid : id ≠ x) :
    (g.without x).HasLabel id := by
  obtain ⟨attrs, hmem, hlabel⟩ := h
  refine ⟨attrs, List.mem_filter.2 ⟨hmem, ?_⟩, hlabel⟩
  simpa using hid

/-- **Without the sink, every edge joins nodes with labels.** -/
theorem Depicts.hasLabel_without (h : Depicts g size start isFinal tag? edges)
    (hedges : edges sink = []) {edge : (String × String) × EdgeAttrs}
    (hedge : edge ∈ (g.without (stateId sink)).edgeList) :
    (g.without (stateId sink)).HasLabel edge.1.1 ∧
      (g.without (stateId sink)).HasLabel edge.1.2 := by
  rw [edgeList_without, List.mem_filter, decide_eq_true_eq] at hedge
  obtain ⟨hedge, htarget⟩ := hedge
  rcases h.ends edge hedge with heq | ⟨i, hi, j, hj, heq⟩
  · rw [heq] at htarget ⊢
    have hstart := h.hasLabel_startId
    exact ⟨hstart.without stateId_ne_startId.symm, (h.hasLabel h.start_lt).without htarget⟩
  · rw [heq] at htarget ⊢
    refine ⟨(h.hasLabel hi).without ?_, (h.hasLabel hj).without htarget⟩
    intro hsource
    -- the sink has no edges
    obtain rfl := stateId_inj.1 hsource
    have hmem : edge.2 ∈ g.between (stateId i) (stateId j) := by
      rw [mem_between, ← heq]
      exact hedge
    rw [h.between i hi j hj, hedges] at hmem
    exact List.not_mem_nil hmem

end Graph

namespace Nfa

/-- A state as it is drawn in its place. -/
def drawnAt (n : Nfa) (q : Nat) : Graph.DrawnState := ⟨q, n.isFinal q, n.tag? q, n.edges q⟩

theorem graph_eq (n : Nfa) : n.graph = Graph.ofNumbered n.drawnAt n.size n.start := by
  unfold graph Graph.ofNumbered
  congr 1
  apply List.ext_getElem
  · simp [size]
  · intro q hq _
    rw [List.length_mapIdx, Array.length_toList] at hq
    simp [drawn, drawnAt, isFinal, tag?, edges, hq]

theorem drawable (n : Nfa) (hn : n.WellFormed) : Graph.Drawable n.drawnAt n.size n.start where
  number _ := rfl
  start_lt := hn.start_lt
  target_lt _ he := hn.target_lt he

end Nfa

namespace Dfa

variable {d : Dfa} {n : Nfa}

/-- **The transitions out of a state** in ascending order of characters. -/
def transitions (d : Dfa) (q : Nat) : List (Option Char × Nat) :=
  match d.states[q]? with
  | some s => s.edges.map fun e => (some e.1, e.2)
  | none => []

/-- A state as it is drawn in its place. -/
def drawnAt (d : Dfa) (q : Nat) : Graph.DrawnState :=
  ⟨q, d.isFinal q, d.tag? q, d.transitions q⟩

theorem mapIdx_drawn (shown : Nat → Bool) :
    d.states.toList.mapIdx (fun q s => drawn shown s q) =
      (List.range d.size).map fun q =>
        { d.drawnAt q with edges := (d.transitions q).filter fun e => shown e.2 } := by
  apply List.ext_getElem
  · simp [size]
  · intro q hq _
    rw [List.length_mapIdx, Array.length_toList] at hq
    simp [drawn, drawnAt, isFinal, tag?, transitions, hq, List.filter_map, Function.comp_def]

/-- With the sink, all states and transitions are drawn. -/
theorem graph_true : d.graph true = Graph.ofNumbered d.drawnAt d.size d.start := by
  unfold graph Graph.ofNumbered
  dsimp only
  rw [mapIdx_drawn]
  simp only [Bool.true_or, List.filter_true]
  rfl

/-- **The sink is left out in both places**, of the states and of the transitions. -/
theorem graph_false (hsink : d.transitions d.sink = []) (hstart : d.start ≠ d.sink) :
    d.graph false = (d.graph true).without (Graph.stateId d.sink) := by
  have hshown (q : Nat) : (false || !d.isSink q) = decide (q ≠ d.sink) := by
    rw [Bool.eq_iff_iff]
    simp [isSink]
  rw [graph_true, Graph.ofNumbered, Graph.without_ofStates _ hstart]
  · -- filtering the states and filtering their transitions are independent
    unfold graph
    dsimp only
    rw [mapIdx_drawn, List.filter_map, List.filter_map, List.map_map]
    simp only [hshown]
    rfl
  · intro s hs hnumber
    obtain ⟨q, -, rfl⟩ := List.mem_map.1 hs
    obtain rfl : q = d.sink := hnumber
    exact hsink

theorem Represents.transitions_sink (h : Represents n d) : d.transitions d.sink = [] := by
  unfold transitions
  rw [h.sink]
  rfl

theorem Represents.start_ne_sink (h : Represents n d) : d.start ≠ d.sink := by
  rw [h.start]
  intro hzero
  -- the first state stands for a set that has the start in it
  obtain ⟨s, hs, hmem⟩ := h.first
  have hsink := h.sink
  rw [← hzero, hs] at hsink
  have hstart := (hmem n.start).2 .nil
  rw [Option.some.inj hsink] at hstart
  exact List.not_mem_nil hstart

theorem Represents.drawable (h : Represents n d) :
    Graph.Drawable d.drawnAt d.size d.start where
  number _ := rfl
  start_lt := by
    rw [h.start, h.size]
    exact Nat.zero_lt_succ _
  target_lt {p e} _ he := by
    change e ∈ d.transitions p at he
    unfold transitions at he
    cases hs : d.states[p]? with
    | none =>
      rw [hs] at he
      exact absurd he List.not_mem_nil
    | some s =>
      rw [hs] at he
      obtain ⟨⟨c, q⟩, hmem, rfl⟩ := List.mem_map.1 he
      obtain ⟨s', hs', -⟩ := h.target hs hmem
      exact (Array.getElem?_eq_some_iff.1 hs').1

end Dfa

namespace Graph

/-- **Graphs of automata show the automaton and nothing else**, whatever it was put together from.
Without its sink, a deterministic automaton is shown by the same graph less the node of the sink and
the edges into it, and all edges that are left join nodes with labels. -/
theorem depicts_of_built {rs : List Regex} {n : Nfa} (h : Nfa.Built rs n) :
    Depicts n.graph n.size n.start n.isFinal n.tag? n.edges ∧
    Depicts ((Dfa.ofNfa n).graph true) (Dfa.ofNfa n).size (Dfa.ofNfa n).start
      (Dfa.ofNfa n).isFinal (Dfa.ofNfa n).tag? (Dfa.ofNfa n).transitions ∧
    (Dfa.ofNfa n).graph false = ((Dfa.ofNfa n).graph true).without (stateId (Dfa.ofNfa n).sink) ∧
    ∀ edge ∈ ((Dfa.ofNfa n).graph false).edgeList,
      ((Dfa.ofNfa n).graph false).HasLabel edge.1.1 ∧
        ((Dfa.ofNfa n).graph false).HasLabel edge.1.2 := by
  have hn : n.Rooted := Nfa.rooted_of_built h
  have hd : Dfa.Represents n (Dfa.ofNfa n) :=
    Dfa.represents_of_rooted hn (Nfa.flagged_of_built h)
  have hnfa : Depicts n.graph n.size n.start n.isFinal n.tag? n.edges := by
    rw [Nfa.graph_eq]
    exact depicts_ofNumbered (n.drawable hn.toWellFormed)
  have hdfa : Depicts ((Dfa.ofNfa n).graph true) (Dfa.ofNfa n).size (Dfa.ofNfa n).start
      (Dfa.ofNfa n).isFinal (Dfa.ofNfa n).tag? (Dfa.ofNfa n).transitions := by
    rw [Dfa.graph_true]
    exact depicts_ofNumbered hd.drawable
  have hwithout := Dfa.graph_false hd.transitions_sink hd.start_ne_sink
  refine ⟨hnfa, hdfa, hwithout, ?_⟩
  intro edge hedge
  rw [hwithout] at hedge ⊢
  exact hdfa.hasLabel_without hd.transitions_sink hedge

/-- A letter with a token joined with a blank: of the six transitions of the deterministic automaton
four lead to the sink. -/
theorem depicts_of_built_letter_or_blank :
    ∃ n, Nfa.Built [.lit 'a', .quoted ' '] n ∧
      ((Dfa.ofNfa n).graph true).edgeList.length = 7 ∧
      ((Dfa.ofNfa n).graph false).edgeList = [(("0", "1"), { label := some "' '" }),
        (("0", "2"), { label := some "a" }), (("_start", "0"), {})] ∧
      Depicts n.graph n.size n.start n.isFinal n.tag? n.edges ∧
      Depicts ((Dfa.ofNfa n).graph true) (Dfa.ofNfa n).size (Dfa.ofNfa n).start
        (Dfa.ofNfa n).isFinal (Dfa.ofNfa n).tag? (Dfa.ofNfa n).transitions ∧
      (Dfa.ofNfa n).graph false = ((Dfa.ofNfa n).graph true).without (stateId (Dfa.ofNfa n).sink) ∧
      ∀ edge ∈ ((Dfa.ofNfa n).graph false).edgeList,
        ((Dfa.ofNfa n).graph false).HasLabel edge.1.1 ∧
          ((Dfa.ofNfa n).graph false).HasLabel edge.1.2 := by
  have hbuilt := Nfa.built_append_tagFinal (.lit 'a') (.quoted ' ') ⟨"A", 0⟩
  exact ⟨_, hbuilt, by cbv, by cbv, depicts_of_built hbuilt⟩

end Graph

end LexerGen
