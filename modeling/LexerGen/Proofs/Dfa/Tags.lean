import LexerGen.Proofs.Dfa.Subset

/-!
# The tags of the deterministic automaton

What a text can end in, for the nondeterministic automaton, are its outcomes: the tags of the
final states that paths for the text lead to. The deterministic automaton has one state per text,
so it has to choose, and it keeps a tag of smallest rank among the outcomes
(`outcome_of_tag?_run`). It has none just if no outcome has one (`tag?_run_eq_none`).

The sink is where no path is left. In an automaton that is `Live` that means that the text cannot
be continued to one that ends in a final state (`isSink_run_iff`).
-/

namespace LexerGen.Dfa

open Nfa (Path Outcome)

variable {n : Nfa} {w : List Char} {t : Tag} {ts : List Tag}

/-! ### The strongest of several tags -/

theorem strongest_eq_none : strongest ts = none ↔ ts = [] := by
  cases ts with
  | nil => exact iff_of_true rfl rfl
  | cons t rest =>
    refine iff_of_false ?_ (List.cons_ne_nil t rest)
    rw [strongest]
    split
    · exact Option.some_ne_none t
    · split <;> exact Option.some_ne_none _

/-- **The strongest tag** is one of the tags, and none of them has a smaller rank. -/
theorem strongest_spec (h : strongest ts = some t) : t ∈ ts ∧ ∀ u ∈ ts, t.rank ≤ u.rank := by
  induction ts generalizing t with
  | nil => cases h
  | cons first rest ih =>
    rw [strongest] at h
    split at h
    · -- nothing competes with the first
      next hnone =>
      obtain rfl := strongest_eq_none.1 hnone
      obtain rfl := Option.some.inj h
      exact ⟨List.mem_singleton_self _, List.forall_mem_singleton.2 (Nat.le_refl _)⟩
    · -- the first competes with the strongest of the rest
      next u hu =>
      obtain ⟨hmem, hle⟩ := ih hu
      rw [List.forall_mem_cons]
      split at h
      · next hlt =>
        obtain rfl := Option.some.inj h
        exact ⟨List.mem_cons_of_mem _ hmem, Nat.le_of_lt hlt, hle⟩
      · next hge =>
        obtain rfl := Option.some.inj h
        have hfirst : first.rank ≤ u.rank := Nat.le_of_not_lt hge
        exact ⟨List.mem_cons_self, Nat.le_refl _, fun v hv => Nat.le_trans hfirst (hle v hv)⟩

/-! ### Tags of texts -/

/-- The tags among which a set chooses are the outcomes of the text that leads to the set. -/
theorem mem_tags_iff (hn : n.WellFormed) :
    t ∈ ((n.statesAfter w).toList.filter n.isFinal).filterMap n.tag? ↔
      Outcome n w (some t) := by
  rw [List.mem_filterMap]
  refine exists_congr fun q => ?_
  rw [List.mem_filter, StateSet.mem_toList, Nfa.mem_statesAfter hn, and_assoc]

theorem tag?_run (hn : n.WellFormed) :
    (ofNfa n).tag? ((ofNfa n).run (ofNfa n).start w) = tagOf n (n.statesAfter w) :=
  (standsFor_run hn).tag?

/-- **A text leads to no tag** if it has no outcome with one. -/
theorem tag?_run_eq_none (hn : n.WellFormed) :
    (ofNfa n).tag? ((ofNfa n).run (ofNfa n).start w) = none ↔ ∀ t, ¬Outcome n w (some t) := by
  rw [tag?_run hn, tagOf, strongest_eq_none, List.eq_nil_iff_forall_not_mem]
  exact forall_congr' fun t => not_congr (mem_tags_iff hn)

/-- **The tag that a text leads to** is an outcome of smallest rank. -/
theorem outcome_of_tag?_run (hn : n.WellFormed)
    (h : (ofNfa n).tag? ((ofNfa n).run (ofNfa n).start w) = some t) :
    Outcome n w (some t) ∧ ∀ u, Outcome n w (some u) → t.rank ≤ u.rank := by
  rw [tag?_run hn, tagOf] at h
  obtain ⟨hmem, hle⟩ := strongest_spec h
  exact ⟨(mem_tags_iff hn).1 hmem, fun u hu => hle u ((mem_tags_iff hn).2 hu)⟩

/-! ### The sink -/

/-- **No text leads out of the sink.** -/
theorem tag?_sink : (ofNfa n).tag? (ofNfa n).sink = none := by
  rw [Dfa.tag?, states_sink]
  rfl

theorem isSink_run (hn : n.WellFormed) :
    (ofNfa n).isSink ((ofNfa n).run (ofNfa n).start w) = true ↔ n.statesAfter w = ∅ :=
  (standsFor_run hn).isSink_iff hn

/-- **In a live automaton the sink means that there is no way on**: no text that begins with the one
read has an outcome. -/
theorem isSink_run_iff (hn : n.WellFormed) (hlive : n.Live) :
    (ofNfa n).isSink ((ofNfa n).run (ofNfa n).start w) = true ↔
      ∀ v tag, ¬Outcome n (w ++ v) tag := by
  rw [isSink_run hn]
  refine ⟨?_, ?_⟩
  · -- the empty set stays empty
    rintro hempty v tag ⟨q, hq, -, -⟩
    have hafter : n.statesAfter (w ++ v) = ∅ := by
      calc n.statesAfter (w ++ v) = v.foldl n.advance (n.statesAfter w) := List.foldl_append
        _ = v.foldl n.advance ∅ := by rw [hempty]
        _ = ∅ := Nfa.foldl_advance_empty
    rw [← Nfa.mem_statesAfter hn, hafter] at hq
    exact StateSet.not_mem_empty q hq
  · -- from a state that is left, a path leads on to a final one
    intro hnone
    refine StateSet.ext_mem fun q => iff_of_false (fun hq => ?_) (StateSet.not_mem_empty q)
    have hpath : Path n n.start w q := (Nfa.mem_statesAfter hn).1 hq
    obtain ⟨v, f, hv, hf⟩ := hlive q w hpath
    exact hnone v (n.tag? f) ⟨f, hpath.append hv, hf, rfl⟩

end LexerGen.Dfa
