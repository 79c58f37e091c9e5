import LexerGen.Proofs.Dfa.Representation
import Mathlib.Data.List.Shortlex

/-!
# The numbers of states

Each state of a deterministic automaton, the sink apart, has a least word that leads to it: a
shortest one, and among the shortest the first in the order of code points. The states are numbered
in the order of these words (`ofNfa_numbered`), so their numbers are determined by what the
automaton does and tell nothing about how it was put together.

The argument has two halves that meet in `BreadthFirst`. In such an automaton every state but the
first has an *entry*, an edge that leads to it from a smaller number, such that all edges that come
before it, from an even smaller number or with an earlier character, lead to smaller numbers
or to the sink. The subset construction makes automata of this kind (`breadthFirst_ofNfa`), since
the exploration lists the successors of each set in the order of the alphabet.

The other half does not know the search any more. Following the entries back to the start gives
each state an *access word*. A word that leads to a number as large as that of the state, or to a
larger one, is not before the access word (`AccessWord.le`). Its last edge does not come before the
entry, so the induction on the word goes from the end: either what is left of it leads to a larger
number than the entry comes from, and is itself later, or the two differ in the last character only.
-/

namespace LexerGen.Dfa

open List (Shortlex)

variable {n : Nfa} {d : Dfa} {i j p q : Nat} {a c : Char} {u u' v v' w : List Char}
  {S : StateSet}

/-! ### Edges in the order of the search -/

/-- **The edge by which a state is met first.** -/
structure Entry (d : Dfa) (j p : Nat) (c : Char) : Prop where
  lt : p < j
  step_eq : d.step p c = j
  /-- Earlier edges lead to smaller numbers. -/
  earlier : ∀ q a, q < p ∨ q = p ∧ a < c → d.step q a < j ∨ d.step q a = d.sink

/-- **Automata whose states are numbered breadth first.** -/
structure BreadthFirst (d : Dfa) : Prop where
  start : d.start = 0
  step_sink {c : Char} : d.step d.sink c = d.sink
  /-- States are met in the order of their numbers. -/
  exists_entry {j : Nat} : 0 < j → j < d.sink → ∃ p c, Entry d j p c

/-! ### Access words -/

/-- **The word that the entries spell**, from the start to a state. -/
inductive AccessWord (d : Dfa) : Nat → List Char → Prop
  | nil : AccessWord d 0 []
  | snoc {j p : Nat} {c : Char} {u : List Char} :
      Entry d j p c → AccessWord d p u → AccessWord d j (u ++ [c])

theorem BreadthFirst.exists_accessWord (hd : d.BreadthFirst) (hj : j < d.sink) :
    ∃ u, AccessWord d j u := by
  induction j using Nat.strongRecOn with
  | ind j ih =>
    rcases Nat.eq_zero_or_pos j with rfl | hpos
    · exact ⟨[], .nil⟩
    · obtain ⟨p, c, hentry⟩ := hd.exists_entry hpos hj
      obtain ⟨u, hu⟩ := ih p hentry.lt (Nat.lt_trans hentry.lt hj)
      exact ⟨u ++ [c], .snoc hentry hu⟩

theorem AccessWord.run_eq (hd : d.BreadthFirst) (h : AccessWord d j u) :
    d.run d.start u = j := by
  induction h with
  | nil => exact hd.start
  | snoc hentry _ ih => rw [run_append_singleton, ih, hentry.step_eq]

/-- Words of one length differ before anything that is added to them. -/
theorem lex_append (h : List.Lex (· < ·) u v) (hlength : u.length = v.length) :
    List.Lex (· < ·) (u ++ u') (v ++ v') := by
  induction h with
  | nil => cases hlength
  | cons _ ih => exact .cons (ih (Nat.succ.inj hlength))
  | rel hlt => exact .rel hlt

/-- One more character on both sides does not change which word is first. -/
theorem shortlex_append_singleton (h : Shortlex (· < ·) u v) :
    Shortlex (· < ·) (u ++ [a]) (v ++ [c]) := by
  rcases List.shortlex_def.1 h with hlt | ⟨heq, hlex⟩
  · apply Shortlex.of_length_lt
    simpa using hlt
  · apply Shortlex.of_lex
    · simpa using heq
    · exact lex_append hlex heq

/-- **No word is before the access word** if it leads to the same number or to a larger one. -/
theorem AccessWord.le (hd : d.BreadthFirst) (hu : AccessWord d i u) (hw : d.run d.start w = j)
    (hj : j ≠ d.sink) (hij : i ≤ j) : u = w ∨ Shortlex (· < ·) u w := by
  induction w using List.reverseRecOn generalizing i j u with
  | nil =>
    obtain rfl : j = 0 := hw.symm.trans hd.start
    obtain rfl : i = 0 := Nat.le_zero.1 hij
    cases hu with
    | nil => exact .inl rfl
    | snoc hentry _ => exact absurd hentry.lt (Nat.not_lt_zero _)
  | append_singleton w a ih =>
    cases hu with
    | nil =>
      right
      apply Shortlex.of_length_lt
      simp
    | @snoc _ p c u hentry hu =>
      rw [run_append_singleton] at hw
      have hq : d.run d.start w ≠ d.sink := by
        intro hsink
        rw [hsink, hd.step_sink] at hw
        exact hj hw.symm
      -- the last edge of the word does not come before the entry
      have hlater : ¬(d.run d.start w < p ∨ d.run d.start w = p ∧ a < c) := by
        intro hbefore
        rcases hentry.earlier _ _ hbefore with hlt | hsink
        · omega
        · exact hj (hw.symm.trans hsink)
      rw [not_or, not_and] at hlater
      rcases ih hu rfl hq (Nat.not_lt.1 hlater.1) with rfl | hlt
      · -- the two words differ in the last character only
        have hac : ¬a < c := hlater.2 (hu.run_eq hd)
        rcases Std.lt_trichotomy a c with hlt | rfl | hca
        · exact absurd hlt hac
        · exact .inl rfl
        · right
          apply Shortlex.append_left
          exact (List.shortlex_singleton_iff c a).2 hca
      · exact .inr (shortlex_append_singleton hlt)

/-! ### Least words -/

/-- **The least word that leads to a state**: the shortest, and among the shortest the first. -/
structure LeastWord (d : Dfa) (q : Nat) (w : List Char) : Prop where
  run_eq : d.run d.start w = q
  le : ∀ v, d.run d.start v = q → w = v ∨ Shortlex (· < ·) w v

/-- There is only one least word. -/
theorem LeastWord.unique (hu : LeastWord d q u) (hv : LeastWord d q v) : u = v := by
  rcases hu.le v hv.run_eq with rfl | huv
  · rfl
  · rcases hv.le u hu.run_eq with rfl | hvu
    · rfl
    · exact absurd hvu (asymm huv)

theorem AccessWord.leastWord (hd : d.BreadthFirst) (hu : AccessWord d q u) (hq : q < d.sink) :
    LeastWord d q u where
  run_eq := hu.run_eq hd
  le _ hv := hu.le hd hv (Nat.ne_of_lt hq) (Nat.le_refl q)

/-- **Smaller numbers have earlier words.** -/
theorem BreadthFirst.shortlex_of_lt (hd : d.BreadthFirst) (hu : LeastWord d i u)
    (hv : LeastWord d j v) (hij : i < j) (hj : j < d.sink) : Shortlex (· < ·) u v := by
  have hi : i < d.sink := Nat.lt_trans hij hj
  obtain ⟨u', hu'⟩ := hd.exists_accessWord hi
  obtain rfl := hu.unique (hu'.leastWord hd hi)
  refine (hu'.le hd hv.run_eq (Nat.ne_of_lt hj) (Nat.le_of_lt hij)).resolve_left ?_
  rintro rfl
  exact absurd (hu.run_eq.symm.trans hv.run_eq) (Nat.ne_of_lt hij)

/-! ### The subset construction -/

/-- An edge leads to a smaller number if the set that it leads to, if there is one, has a smaller
number. -/
theorem step_lt_or_eq_sink (hn : n.WellFormed) (hq : (exploration n).nodes[q]? = some S)
    (h : ∀ T, successor n S.toList c = some T → c ∈ n.alphabet →
      Below (exploration n).nodes j T) :
    (ofNfa n).step q c < j ∨ (ofNfa n).step q c = (ofNfa n).sink := by
  have hstands : StandsFor n ((ofNfa n).step q c) (n.advance S c) := StandsFor.step hn (.inl hq)
  by_cases hempty : n.advance S c = ∅
  · right
    have hsink := (hstands.isSink_iff hn).2 hempty
    rwa [isSink, beq_iff_eq] at hsink
  · left
    -- a character outside the alphabet would lead to the empty set
    have hc : c ∈ n.alphabet := by
      by_contra hc
      exact hempty (advance_eq_empty hn hc)
    obtain ⟨i, hi, hnode⟩ := h _ (successor_eq_some_iff.2 ⟨rfl, hempty⟩) hc
    rwa [hstands.inj hn (.inl hnode)]

/-- **The place where a set is met first** gives the entry of its state. -/
theorem exists_entry_of_firstMet (hn : n.WellFormed)
    (h : FirstMet (successors n) (exploration n).nodes j) : ∃ p c, Entry (ofNfa n) j p c := by
  obtain @⟨p, S, T, before, after, hp, hx, hy, hnext, hbefore, hearlier⟩ := h
  -- the sets before this one are those for the characters before one of the alphabet
  obtain ⟨chars, rest, halphabet, hchars, hrest⟩ := List.map_eq_append_iff.1 hnext
  obtain ⟨c, chars', rfl, hc, -⟩ := List.map_eq_cons_iff.1 hrest
  refine ⟨p, c, hp, ?_, ?_⟩
  · have hstands : StandsFor n ((ofNfa n).step p c) (n.advance S c) := StandsFor.step hn (.inl hx)
    rw [(successor_eq_some_iff.1 hc).1] at hstands
    exact hstands.inj hn (.inl hy)
  · rintro q a (hq | ⟨rfl, ha⟩)
    · obtain ⟨S', hS'⟩ : ∃ S', (exploration n).nodes[q]? = some S' := by
        have hlt : p < (exploration n).nodes.size := (Array.getElem?_eq_some_iff.1 hx).1
        exact ⟨_, Array.getElem?_eq_getElem (Nat.lt_trans hq hlt)⟩
      apply step_lt_or_eq_sink hn hS'
      intro T' hT' ha
      exact hearlier q S' hq hS' T' (List.mem_map.2 ⟨a, ha, hT'⟩)
    · apply step_lt_or_eq_sink hn hx
      intro T' hT' hmem
      -- a character that is smaller stands further left in the alphabet
      have hascending : (chars ++ c :: chars').Pairwise (· < ·) := halphabet ▸ n.alphabet.ascending
      have hleft : a ∈ chars := SortedSet.mem_left_of_lt hascending (halphabet ▸ hmem) ha
      apply hbefore T'
      rw [← hchars]
      exact List.mem_map.2 ⟨a, hleft, hT'⟩

/-- **The subset construction numbers its states breadth first.** -/
theorem breadthFirst_ofNfa (hn : n.WellFormed) : (ofNfa n).BreadthFirst where
  start := rfl
  step_sink := step_sink
  exists_entry {j} hpos hj := by
    apply exists_entry_of_firstMet hn
    refine firstMet_explore (exists_space n) (expanded_singleton _) ?_ j hpos hj
    -- only the first set is there at the start
    intro j hpos hlt
    exact absurd hlt (Nat.not_lt.2 hpos)

/-- **States are numbered in the order of their least words**, whatever the automaton was put
together from. Every state but the sink has a least word that leads to it, the empty one leads to
state 0, and of two states the one with the smaller number has the earlier word. -/
theorem ofNfa_numbered {rs : List Regex} (h : Nfa.Built rs n) :
    (∀ q < (ofNfa n).sink, ∃ w, LeastWord (ofNfa n) q w) ∧ LeastWord (ofNfa n) 0 [] ∧
    ∀ i j u v, i < (ofNfa n).sink → j < (ofNfa n).sink → LeastWord (ofNfa n) i u →
      LeastWord (ofNfa n) j v → (i < j ↔ Shortlex (· < ·) u v) := by
  have hn : n.WellFormed := (Nfa.rooted_of_built h).toWellFormed
  have hd : (ofNfa n).BreadthFirst := breadthFirst_ofNfa hn
  refine ⟨?_, ?_, ?_⟩
  · intro q hq
    obtain ⟨w, hw⟩ := hd.exists_accessWord hq
    exact ⟨w, hw.leastWord hd hq⟩
  · refine ⟨rfl, ?_⟩
    intro v _
    rcases List.shortlex_nil_or_eq_nil v with hlt | rfl
    · exact .inr hlt
    · exact .inl rfl
  · intro i j u v hi hj hu hv
    constructor
    · intro hij
      exact hd.shortlex_of_lt hu hv hij hj
    · intro huv
      -- otherwise the words would be the same, or the other one would be the earlier
      rcases Nat.lt_trichotomy i j with hij | rfl | hji
      · exact hij
      · rw [hu.unique hv] at huv
        exact absurd huv (irrefl v)
      · exact absurd huv (asymm (hd.shortlex_of_lt hv hu hji hi))

/-- Two joined automata with four states besides the sink. -/
theorem ofNfa_numbered_joined :
    ∃ n u v, Nfa.Built [.lit 'b', .concat (.lit 'a') (.lit 'b')] n ∧ (ofNfa n).sink = 4 ∧
      LeastWord (ofNfa n) 1 u ∧ LeastWord (ofNfa n) 2 v ∧ Shortlex (· < ·) u v := by
  have hbuilt := Nfa.built_append_tagFinal (.lit 'b') (.concat (.lit 'a') (.lit 'b')) ⟨"B", 0⟩
  obtain ⟨hexists, -, hnumbers⟩ := ofNfa_numbered hbuilt
  have hsink : (ofNfa (Nfa.append ((Nfa.ofRegex (.lit 'b')).tagFinal ⟨"B", 0⟩)
      (Nfa.ofRegex (.concat (.lit 'a') (.lit 'b'))))).sink = 4 := by cbv
  have hone : 1 < 4 := by decide
  have htwo : 2 < 4 := by decide
  rw [← hsink] at hone htwo
  obtain ⟨u, hu⟩ := hexists 1 hone
  obtain ⟨v, hv⟩ := hexists 2 htwo
  exact ⟨_, u, v, hbuilt, hsink, hu, hv, (hnumbers 1 2 u v hone htwo hu hv).1 Nat.one_lt_two⟩

end LexerGen.Dfa
