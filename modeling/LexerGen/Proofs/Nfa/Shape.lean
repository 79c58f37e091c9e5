import LexerGen.Proofs.Nfa.Merge
import LexerGen.Regex.Forms

/-!
# The shape of what is put together

A construction builds between states that its surroundings own, joining renumbers one automaton and
hangs it on the start of another, and tagging rewrites states in place. `Shape` collects what
survives all three, in whatever order they are applied. There is one start, it is state `0`, and
nothing leads to it. A final state is a dead end, and there is one for each expression that went in.
The alphabet holds the labels of the edges and nothing else, and these are the characters that the
expressions mention.

Each part is an invariant (`built_induction`), and joining is the case with an argument. The start
of the first automaton gets a new edge, so its final states stay dead ends only because the start is
not one of them. The final states of the second automaton are those it had, shifted
(`finals_append`), so they can be counted.

What tagging does is said once more from outside (`Retagged`): the tags of final states are all that
it changes.
-/

namespace LexerGen.Nfa

variable {n m : Nfa} {p q head tail : Nat} {l : Option Char} {c : Char} {r : Regex}
  {rs rs' : List Regex} {t : Tag} {body left right : Nat → Nat → Nfa → Nfa}

/-! ### One start -/

/-- **The start is the only state that is flagged as one.** -/
def Flagged (n : Nfa) : Prop := ∀ q, n.isStart q = true ↔ q = n.start

theorem flagged_ofRegex (r : Regex) : (ofRegex r).Flagged := by
  intro q
  rw [(extends_ofRegex r).isStart_eq, start_ofRegex]
  -- the states of the empty automaton, and a number that is none of its states
  rcases q with _ | _ | q
  · decide
  · decide
  · exact iff_of_false (by rintro ⟨⟩) (by omega)

theorem isStart_tagFinal : (n.tagFinal t).isStart q = n.isStart q := by
  rw [isStart_eq, isStart_eq, stateAt_tagFinal]
  split <;> rfl

theorem Flagged.tagFinal (h : n.Flagged) (t : Tag) : (n.tagFinal t).Flagged := by
  intro q
  rw [isStart_tagFinal]
  exact h q

/-- Joining takes the flag from the start of the second automaton. -/
theorem Flagged.append (hn : n.Rooted) (h : n.Flagged) : (append n m).Flagged := by
  intro q
  show (Nfa.append n m).isStart q = true ↔ q = n.start
  rcases lt_or_exists_add n q with hq | ⟨k, rfl⟩
  · rw [isStart_eq, stateAt_append_left hq, ← isStart_eq]
    exact h q
  · rw [isStart_eq, stateAt_append_right hn.start_lt]
    have hlt := hn.start_lt
    exact iff_of_false Bool.false_ne_true (by omega)

/-- **Whatever is put together has one start**, and only that is flagged. -/
theorem flagged_of_built (h : Built rs n) : n.Flagged := by
  have hflagged : n.Rooted ∧ n.Flagged := by
    refine built_induction ?_ ?_ ?_ h
    · exact fun r => ⟨rooted_ofRegex r, flagged_ofRegex r⟩
    · exact fun _ _ t hn => ⟨hn.1.tagFinal t, hn.2.tagFinal t⟩
    · exact fun _ _ _ _ hn hm => ⟨hn.1.append hm.1, hn.2.append hn.1⟩
  exact hflagged.2

/-- The first automaton of a joined list keeps the start, so that is state `0` throughout. -/
theorem start_of_built (h : Built rs n) : n.start = 0 := by
  refine built_induction (P := fun _ n => n.start = 0) ?_ ?_ ?_ h
  · exact fun _ => start_ofRegex
  · exact fun _ _ _ hn => hn
  · exact fun _ _ _ _ hn _ => hn

/-! ### Final states -/

/-- **The final states in ascending order.** -/
def finals (n : Nfa) : List Nat := (List.range n.size).filter n.isFinal

/-- State `1` is the final state of an expression, and there is no other. -/
theorem finals_ofRegex (r : Regex) : (ofRegex r).finals = [1] := by
  obtain ⟨k, hk⟩ : ∃ k, (ofRegex r).size = 2 + k := Nat.exists_eq_add_of_le (fragment_ofRegex r).le
  have hfinal : (ofRegex r).isFinal = fun q => q == 1 := by
    ext q
    rw [Bool.eq_iff_iff, isFinal_ofRegex, beq_iff_eq]
  -- the other states come after these two
  have hfresh : ((List.range k).map (2 + ·)).filter (fun q => q == 1) = [] := by
    rw [List.filter_eq_nil_iff]
    intro q hq
    obtain ⟨i, -, rfl⟩ := List.mem_map.1 hq
    rw [beq_iff_eq]
    omega
  rw [finals, hk, hfinal, List.range_add, List.filter_append, hfresh]
  rfl

theorem finals_tagFinal : (n.tagFinal t).finals = n.finals := by
  unfold finals
  rw [size_tagFinal]
  congr 1
  ext q
  rw [isFinal_tagFinal]

/-- **Joined automata keep the final states of both.** -/
theorem finals_append (hn : n.start < n.size) :
    (append n m).finals = n.finals ++ m.finals.map (n.size + ·) := by
  have hleft : (List.range n.size).filter (append n m).isFinal =
      (List.range n.size).filter n.isFinal := by
    apply List.filter_congr
    intro q hq
    exact isFinal_append_left (List.mem_range.1 hq)
  have hright : (append n m).isFinal ∘ (n.size + ·) = m.isFinal := by
    ext q
    rw [Function.comp_apply, Nat.add_comm, isFinal_append_right hn]
  calc (append n m).finals
      = (List.range (n.size + m.size)).filter (append n m).isFinal := by rw [finals, size_append]
    _ = (List.range n.size).filter (append n m).isFinal ++
          ((List.range m.size).map (n.size + ·)).filter (append n m).isFinal := by
        rw [List.range_add, List.filter_append]
    _ = n.finals ++ m.finals.map (n.size + ·) := by
        rw [hleft, List.filter_map, hright, finals, finals]

/-- **Final states are dead ends**, and the start is none of them. -/
def DeadEnded (n : Nfa) : Prop := ∀ q, n.isFinal q = true → q ≠ n.start ∧ n.edges q = []

theorem deadEnded_ofRegex (r : Regex) : (ofRegex r).DeadEnded := by
  intro q hq
  obtain rfl := isFinal_ofRegex.1 hq
  refine ⟨by rw [start_ofRegex]; exact Nat.one_ne_zero, List.eq_nil_iff_forall_not_mem.2 ?_⟩
  -- state `1` is the tail of the fragment, which no edge leaves
  rintro ⟨l, p⟩ he
  exact (fragment_ofRegex r).not_source Nat.one_ne_zero Nat.one_lt_two he

theorem DeadEnded.tagFinal (h : n.DeadEnded) (t : Tag) : (n.tagFinal t).DeadEnded := by
  intro q hq
  rw [isFinal_tagFinal] at hq
  rw [edges_tagFinal]
  exact h q hq

theorem DeadEnded.append (hn : n.Rooted) (h : n.DeadEnded) (k : m.DeadEnded) :
    (append n m).DeadEnded := by
  have hns := hn.start_lt
  intro q hq
  show q ≠ n.start ∧ _
  rcases lt_or_exists_add n q with hlt | ⟨k', rfl⟩
  · rw [isFinal_append_left hlt] at hq
    obtain ⟨hne, hnil⟩ := h q hq
    -- only the start gets an edge
    rw [edges_eq, stateAt_append_left hlt, if_neg hne, List.append_nil, ← edges_eq]
    exact ⟨hne, hnil⟩
  · rw [isFinal_append_right hns] at hq
    have hnil := (k k' hq).2
    rw [edges_eq] at hnil
    rw [edges_eq, stateAt_append_right hns]
    refine ⟨by omega, ?_⟩
    show (m.stateAt k').edges.map _ = []
    rw [hnil, List.map_nil]

/-! ### The alphabet -/

theorem alphabet_sequence : (sequence left right head tail n).alphabet =
    (right n.size tail (left head n.size n.addState)).alphabet := rfl

theorem alphabet_branch : (branch body head tail n).alphabet =
    (body n.size (n.size + 1) n.addState.addState).alphabet := rfl

theorem alphabet_loop : (loop body head tail n).alphabet =
    (body n.size (n.size + 1) n.addState.addState).alphabet := rfl

theorem alphabet_addState : n.addState.alphabet = n.alphabet := rfl

/-- **A construction adds the characters of its expression** to the alphabet. -/
theorem mem_alphabet_build :
    c ∈ (build r head tail n).alphabet ↔ c ∈ n.alphabet ∨ c ∈ r.chars := by
  -- only the edges of literals have labels, so states and empty moves can be passed over
  induction r generalizing head tail n with
  | void => simp [build, Regex.chars]
  | eps => simp [build, connect, labelled, Regex.chars]
  | lit d | quoted d => simp [build, connect, mem_labelled, Regex.chars, eq_comm]
  | concat a b iha ihb =>
    rw [build, alphabet_sequence, ihb, iha, alphabet_addState, or_assoc, Regex.chars,
      List.mem_append]
  | union a b iha ihb =>
    show c ∈ (branch (build b) head tail (branch (build a) head tail n)).alphabet ↔ _
    rw [alphabet_branch, ihb, alphabet_addState, alphabet_addState, alphabet_branch, iha,
      alphabet_addState, alphabet_addState, or_assoc, Regex.chars, List.mem_append]
  | star a ih => rw [build, alphabet_loop, ih, alphabet_addState, alphabet_addState, Regex.chars]
  | plus a ih =>
    -- the body is built twice, and the second time adds nothing
    rw [build, alphabet_sequence, alphabet_loop, ih, alphabet_addState, alphabet_addState, ih,
      alphabet_addState, or_assoc, or_self, Regex.chars]
  | maybe a ih =>
    show c ∈ (branch (build a) head tail (branch (build .eps) head tail n)).alphabet ↔ _
    rw [alphabet_branch, ih, alphabet_addState, alphabet_addState, Regex.chars]
    rfl

/-- **The alphabet holds the characters of the expressions**, all of them and no others. -/
theorem mem_alphabet_of_built (h : Built rs n) : c ∈ n.alphabet ↔ ∃ r ∈ rs, c ∈ r.chars := by
  refine built_induction (P := fun rs n => c ∈ n.alphabet ↔ ∃ r ∈ rs, c ∈ r.chars) ?_ ?_ ?_ h
  · intro r
    rw [ofRegex, mem_alphabet_build]
    simp [empty]
  · exact fun _ _ _ hn => hn
  · intro rs rs' n m hn hm
    show c ∈ n.alphabet.union m.alphabet ↔ _
    rw [SortedSet.mem_union, hn, hm]
    simp only [List.mem_append, or_and_right, exists_or]

/-- **Every character of the alphabet labels an edge.** -/
def Labelled (n : Nfa) : Prop := ∀ c ∈ n.alphabet, ∃ p q, (some c, q) ∈ n.edges p

theorem labelled_ofRegex (r : Regex) : (ofRegex r).Labelled := by
  intro c hc
  -- the empty automaton has no letters, so this one was added with an edge
  exact ((extends_ofRegex r).mem_alphabet.1 hc).resolve_left (SortedSet.not_mem_empty c)

theorem Labelled.tagFinal (h : n.Labelled) (t : Tag) : (n.tagFinal t).Labelled := by
  intro c hc
  obtain ⟨p, q, he⟩ := h c hc
  exact ⟨p, q, by rwa [edges_tagFinal]⟩

theorem Labelled.append (hn : n.Rooted) (h : n.Labelled) (k : m.Labelled) :
    (append n m).Labelled := by
  intro c hc
  rcases SortedSet.mem_union.1 hc with hc | hc
  · obtain ⟨p, q, he⟩ := h c hc
    exact ⟨p, q, (mem_edges_append_left (lt_of_mem_edges he)).2 (.inl he)⟩
  · obtain ⟨p, q, he⟩ := k c hc
    exact ⟨p + n.size, q + n.size, (mem_edges_append_right hn.start_lt).2 ⟨q, rfl, he⟩⟩

/-! ### All of it together -/

/-- **What an automaton looks like** that was put together from the expressions `rs`. -/
structure Shape (rs : List Regex) (n : Nfa) : Prop where
  /-- The start is state `0`. -/
  start : n.start = 0 ∧ 0 < n.size
  /-- It is the only state that is flagged as start. -/
  isStart : ∀ q, n.isStart q = true ↔ q = 0
  /-- Edges lead to states. -/
  target_lt : ∀ {p q : Nat} {l : Option Char}, (l, q) ∈ n.edges p → q < n.size
  /-- No edge leads to the start. -/
  target_ne_zero : ∀ {p q : Nat} {l : Option Char}, (l, q) ∈ n.edges p → q ≠ 0
  /-- No edge leaves a final state. -/
  edges_final : ∀ q, n.isFinal q = true → n.edges q = []
  /-- There are as many final states as expressions. -/
  length_finals : n.finals.length = rs.length
  /-- The alphabet holds the labels of the edges. -/
  mem_alphabet_iff_label : ∀ c, c ∈ n.alphabet ↔ ∃ p q, (some c, q) ∈ n.edges p
  /-- These are the characters of the expressions. -/
  mem_alphabet_iff_char : ∀ c, c ∈ n.alphabet ↔ ∃ r ∈ rs, c ∈ r.chars

/-- **The tags of final states are all that differs** from the first automaton to the second. -/
structure Retagged (n m : Nfa) : Prop where
  start : m.start = n.start
  alphabet : m.alphabet = n.alphabet
  size : m.size = n.size
  edges : ∀ q, m.edges q = n.edges q
  isStart : ∀ q, m.isStart q = n.isStart q
  isFinal : ∀ q, m.isFinal q = n.isFinal q
  tag? : ∀ q, n.isFinal q = false → m.tag? q = n.tag? q

/-- **Tagging changes nothing else.** -/
theorem retagged_tagFinal (n : Nfa) (t : Tag) : Retagged n (n.tagFinal t) where
  start := rfl
  alphabet := rfl
  size := size_tagFinal
  edges _ := edges_tagFinal
  isStart _ := isStart_tagFinal
  isFinal _ := isFinal_tagFinal
  tag? q hq := by
    rw [isFinal_eq] at hq
    rw [tag?_eq, stateAt_tagFinal, if_neg (Bool.eq_false_iff.1 hq), tag?_eq]

/-- The parts of the invariant that joining needs together. -/
theorem deadEnded_and_labelled_of_built (h : Built rs n) :
    n.DeadEnded ∧ n.Labelled ∧ n.finals.length = rs.length := by
  have hshape : n.Rooted ∧ n.DeadEnded ∧ n.Labelled ∧ n.finals.length = rs.length := by
    refine built_induction ?_ ?_ ?_ h
    · intro r
      refine ⟨rooted_ofRegex r, deadEnded_ofRegex r, labelled_ofRegex r, ?_⟩
      rw [finals_ofRegex]
      rfl
    · rintro rs n t ⟨hn, hdead, hlabelled, hlength⟩
      refine ⟨hn.tagFinal t, hdead.tagFinal t, hlabelled.tagFinal t, ?_⟩
      rwa [finals_tagFinal]
    · rintro rs rs' n m ⟨hn, hdead, hlabelled, hlength⟩ ⟨hm, hdead', hlabelled', hlength'⟩
      refine ⟨hn.append hm, hdead.append hn hdead', hlabelled.append hn hlabelled', ?_⟩
      rw [finals_append hn.start_lt, List.length_append, List.length_map, hlength, hlength',
        List.length_append]
  exact hshape.2

/-- **The shape of every automaton that can be put together**, and what tagging does to it. -/
theorem shape_of_built (h : Built rs n) : Shape rs n ∧ ∀ t, Retagged n (n.tagFinal t) := by
  have hn : n.Rooted := rooted_of_built h
  have hstart : n.start = 0 := start_of_built h
  obtain ⟨hdead, hlabelled, hlength⟩ := deadEnded_and_labelled_of_built h
  refine ⟨?_, retagged_tagFinal n⟩
  exact {
    start := by
      have hlt := hn.start_lt
      exact ⟨hstart, by omega⟩
    isStart := by
      rw [← hstart]
      exact flagged_of_built h
    target_lt := hn.target_lt
    target_ne_zero := by
      rw [← hstart]
      exact hn.ne_start
    edges_final := fun q hq => (hdead q hq).2
    length_finals := hlength
    mem_alphabet_iff_label := by
      intro c
      constructor
      · exact hlabelled c
      · rintro ⟨p, q, he⟩
        exact hn.mem_alphabet he
    mem_alphabet_iff_char := fun c => mem_alphabet_of_built h }

/-- A joined automaton that is tagged again and joined first, with an expression that matches
nothing after it: three final states, and the letter in front of `void` is in the alphabet. -/
theorem shape_of_built_rejoined :
    ∃ n, Built [.lit 'a', .star (.quoted ' '), .concat (.lit 'b') .void] n ∧
      n.finals = [1, 3, 7] ∧ n.alphabet.toList = [' ', 'a', 'b'] ∧
      Shape [.lit 'a', .star (.quoted ' '), .concat (.lit 'b') .void] n ∧
      ∀ t, Retagged n (n.tagFinal t) := by
  have hfirst := (built_append_tagFinal (.lit 'a') (.star (.quoted ' ')) ⟨"A", 0⟩).tagFinal ⟨"B", 1⟩
  have hbuilt := hfirst.append (.ofRegex (.concat (.lit 'b') .void))
  exact ⟨_, hbuilt, by decide +kernel, by decide +kernel, shape_of_built hbuilt⟩

end LexerGen.Nfa
