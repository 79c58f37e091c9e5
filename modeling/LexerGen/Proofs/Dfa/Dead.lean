import LexerGen.Proofs.Dfa.Representation
import LexerGen.Proofs.Dfa.Tags

/-!
# Dead states

A state is *dead* if no text leads from it to a final state. The sink is dead, and the subset
construction makes it because no state of the nondeterministic automaton is left there. It does not
look further, so there may be other dead states: after `a`, the automaton of `a` followed by `void`
is still in a state that waits for something that never comes.

In an automaton without dead ends that cannot be. Every state that is left has a path to a final
one, and the text that this path spells leads the deterministic automaton to a final state as well
(`isSink_run_iff_dead`). What was put together from expressions without `void` has no dead ends
(`Nfa.live_of_built`), so there the test for the sink is a test for whether the text can be
continued at all (`sink_only_dead`).

That can be said of texts, which lead to the sink just if no continuation is accepted, and of
states, of which the sink alone is dead. Both say the same of any automaton, since texts lead to
every state (`sink_iff_dead_texts_iff`).
-/

namespace LexerGen.Dfa

variable {n : Nfa} {d : Dfa} {q : Nat} {v w : List Char}

/-- No text leads to a final state any more. -/
def Dead (d : Dfa) (q : Nat) : Prop := ∀ v, d.isFinal (d.run q v) = false

theorem isFinal_run (hn : n.WellFormed) :
    (ofNfa n).isFinal ((ofNfa n).run (ofNfa n).start w) = n.accepts w := by
  rw [(standsFor_run hn).isFinal]
  exact Nfa.acceptsFrom_eq.symm

/-- **Dead texts** cannot be continued to one that is accepted. -/
theorem dead_run_iff (hn : n.WellFormed) :
    (ofNfa n).Dead ((ofNfa n).run (ofNfa n).start w) ↔ ∀ v, n.accepts (w ++ v) = false := by
  unfold Dead
  simp only [← run_append, isFinal_run hn]

theorem dead_sink : (ofNfa n).Dead (ofNfa n).sink := by
  intro v
  rw [run_sink, Dfa.isFinal, states_sink]
  rfl

/-- Texts lead to every state but the sink. -/
theorem exists_run_eq_of_ne_sink (hn : n.WellFormed) (hq : q < (ofNfa n).size)
    (hsink : q ≠ (ofNfa n).sink) : ∃ w, (ofNfa n).run (ofNfa n).start w = q := by
  have hstate : (ofNfa n).states[q]? = some (ofNfa n).states[q] := Array.getElem?_eq_getElem hq
  obtain ⟨w, hw, -⟩ := exists_run_eq hn (node_of_ne_sink hstate hsink)
  exact ⟨w, hw⟩

/-- **Texts that cannot be continued lead to the sink** just if all dead states are the sink. -/
theorem sink_iff_dead_texts_iff (hn : n.WellFormed) :
    (∀ w, (ofNfa n).isSink ((ofNfa n).run (ofNfa n).start w) = true ↔
        ∀ v, n.accepts (w ++ v) = false) ↔
      ∀ q < (ofNfa n).size, (ofNfa n).Dead q ↔ q = (ofNfa n).sink := by
  simp only [← dead_run_iff hn, isSink, beq_iff_eq]
  constructor
  · intro h q hq
    constructor
    · intro hdead
      by_contra hsink
      obtain ⟨w, rfl⟩ := exists_run_eq_of_ne_sink hn hq hsink
      exact hsink ((h w).2 hdead)
    · rintro rfl
      exact dead_sink
  · intro h w
    obtain ⟨s, hs, -⟩ := (standsFor_run hn (w := w)).state
    exact (h _ (Array.getElem?_eq_some_iff.1 hs).1).symm

/-- **Without dead ends the sink alone is dead.** -/
theorem isSink_run_iff_dead (hn : n.WellFormed) (hlive : n.Live) (w : List Char) :
    (ofNfa n).isSink ((ofNfa n).run (ofNfa n).start w) = true ↔
      ∀ v, n.accepts (w ++ v) = false := by
  rw [isSink_run_iff hn hlive]
  apply forall_congr'
  intro v
  rw [← Bool.not_eq_true, Nfa.accepts_iff_exists_outcome hn, not_exists]

/-- **The sink is the only dead state** of what was put together from expressions without `void`.
A text leads there just if neither automaton accepts any continuation of it, and from every other
state some text leads to a final state. -/
theorem sink_only_dead {rs : List Regex} (h : Nfa.Built rs n) (hrs : ∀ r ∈ rs, r.VoidFree) :
    (∀ w, (ofNfa n).isSink ((ofNfa n).run (ofNfa n).start w) = true ↔
      ¬∃ v, n.accepts (w ++ v) = true) ∧
    (∀ w, (ofNfa n).isSink ((ofNfa n).run (ofNfa n).start w) = true ↔
      ¬∃ v, (ofNfa n).accepts (w ++ v) = true) ∧
    ∀ q < (ofNfa n).size, q ≠ (ofNfa n).sink ↔ ∃ v, (ofNfa n).isFinal ((ofNfa n).run q v) = true := by
  have hn : n.WellFormed := (Nfa.rooted_of_built h).toWellFormed
  have htexts := isSink_run_iff_dead hn (Nfa.live_of_built h hrs)
  have hstates := (sink_iff_dead_texts_iff hn).1 htexts
  refine ⟨?_, ?_, ?_⟩
  · intro w
    rw [htexts w]
    simp only [not_exists, Bool.not_eq_true]
  · intro w
    rw [htexts w]
    simp only [accepts, acceptsFrom_eq, isFinal_run hn, not_exists, Bool.not_eq_true]
  · intro q hq
    rw [ne_eq, ← hstates q hq, Dead]
    simp only [not_forall, Bool.not_eq_false]

/-- Two joined automata, the second with a loop. State 2 is the one that the loop comes back to. -/
theorem sink_only_dead_loop :
    ∃ n, Nfa.Built [.lit 'a', .concat (.star (.lit 'b')) (.lit 'c')] n ∧ (ofNfa n).sink = 4 ∧
      (∃ v, (ofNfa n).isFinal ((ofNfa n).run 2 v) = true) ∧
      ((ofNfa n).isSink ((ofNfa n).run (ofNfa n).start ['a', 'b']) = true ↔
        ¬∃ v, n.accepts (['a', 'b'] ++ v) = true) := by
  have hbuilt := Nfa.built_append_tagFinal (.lit 'a')
    (.concat (.star (.lit 'b')) (.lit 'c')) ⟨"A", 0⟩
  have hrs : ∀ r ∈ [Regex.lit 'a', .concat (.star (.lit 'b')) (.lit 'c')], r.VoidFree := by
    simp [Regex.VoidFree]
  obtain ⟨htexts, -, hstates⟩ := sink_only_dead hbuilt hrs
  have hsink : (ofNfa (Nfa.append ((Nfa.ofRegex (.lit 'a')).tagFinal ⟨"A", 0⟩)
      (Nfa.ofRegex (.concat (.star (.lit 'b')) (.lit 'c'))))).sink = 4 := by cbv
  refine ⟨_, hbuilt, hsink, (hstates 2 ?_).1 ?_, htexts ['a', 'b']⟩
  · rw [size_ofNfa, hsink]
    decide
  · rw [hsink]
    decide

/-- With `void` there are other dead states: no state is final here, and two are not the sink. -/
example : ((ofNfa (Nfa.ofRegex (.concat (.lit 'a') .void))).states.any (·.isFinal)) = false ∧
    (ofNfa (Nfa.ofRegex (.concat (.lit 'a') .void))).sink = 2 := by
  constructor <;> cbv

end LexerGen.Dfa
