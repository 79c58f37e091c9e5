import LexerGen.Proofs.Dfa.Tags

/-!
# The tags of joined automata

Among the tags that a text can end in, a deterministic automaton keeps the first of smallest rank,
where the tags are listed in the order of the states that carry them (`tagsAfter`). Joining keeps
that order: the states of each part stay together, and those of one part come before those of the
next. So the list for the joined automaton is the concatenation of the lists for its parts
(`tagsAfter_merge`), and its first tag of smallest rank can be found part by part
(`strongest_flatMap`). Of two parts whose tags have the same rank, the earlier one wins.

An automaton is `Tagged` if tagging was the last thing done to each of its parts. All its final
states have tags, so the states of its deterministic automaton are final just if they are tagged.
-/

namespace LexerGen

namespace Dfa

variable {t u : Tag} {ts us vs : List Tag}

/-! ### The first tag of smallest rank -/

/-- **The tag that is kept** has a smaller rank than all before it, and none after it is
stronger. -/
theorem strongest_eq_some_iff : strongest ts = some t ↔
    ∃ before after, ts = before ++ t :: after ∧
      (∀ u ∈ before, t.rank < u.rank) ∧ ∀ u ∈ after, t.rank ≤ u.rank := by
  constructor
  · intro h
    induction ts with
    | nil => cases h
    | cons first rest ih =>
      rw [strongest] at h
      split at h
      · next hnone =>
        obtain rfl := strongest_eq_none.1 hnone
        obtain rfl := Option.some.inj h
        exact ⟨[], [], rfl, List.forall_mem_nil _, List.forall_mem_nil _⟩
      · next u hu =>
        split at h
        · -- a later tag has a smaller rank than the first
          next hlt =>
          obtain rfl := Option.some.inj h
          obtain ⟨before, after, rfl, hbefore, hafter⟩ := ih hu
          exact ⟨first :: before, after, rfl, List.forall_mem_cons.2 ⟨hlt, hbefore⟩, hafter⟩
        · next hge =>
          obtain rfl := Option.some.inj h
          have hfirst : first.rank ≤ u.rank := Nat.le_of_not_lt hge
          refine ⟨[], rest, rfl, List.forall_mem_nil _, fun v hv => ?_⟩
          exact Nat.le_trans hfirst ((strongest_spec hu).2 v hv)
  · rintro ⟨before, after, rfl, hbefore, hafter⟩
    induction before with
    | nil =>
      rw [List.nil_append, strongest]
      split
      · rfl
      · next u hu => exact if_neg (Nat.not_lt.2 (hafter u (strongest_spec hu).1))
    | cons first before ih =>
      rw [List.forall_mem_cons] at hbefore
      rw [List.cons_append, strongest, ih hbefore.2]
      exact if_pos hbefore.1

/-- Of two tags in front, the weaker may be left out. -/
theorem strongest_cons_cons : strongest (t :: u :: ts) =
    if u.rank < t.rank then strongest (u :: ts) else strongest (t :: ts) := by
  simp only [strongest]
  cases strongest ts with
  | none => rfl
  | some v =>
    by_cases hvu : v.rank < u.rank <;> by_cases hut : u.rank < t.rank <;>
      by_cases hvt : v.rank < t.rank <;> simp [hvu, hut, hvt] <;> omega

/-- Of the tags in front, only the strongest matters. -/
theorem strongest_append_left :
    strongest (ts ++ us) = strongest ((strongest ts).toList ++ us) := by
  induction ts with
  | nil => rfl
  | cons t ts ih =>
    have hcons : strongest (t :: (ts ++ us)) = strongest (t :: ((strongest ts).toList ++ us)) := by
      simp only [strongest, ih]
    rw [List.cons_append, hcons]
    cases hts : strongest ts with
    | none => simp [strongest, hts]
    | some u =>
      -- both `t` and `u` are in front, and one of them is the strongest so far
      show strongest (t :: u :: us) = _
      rw [strongest_cons_cons]
      simp only [strongest, hts]
      split <;> rfl

theorem strongest_append_congr (h : strongest us = strongest vs) :
    strongest (ts ++ us) = strongest (ts ++ vs) := by
  induction ts with
  | nil => exact h
  | cons t ts ih => simp only [List.cons_append, strongest, ih]

/-- **The strongest of several lists** is the strongest among the strongest of each. -/
theorem strongest_flatMap {α : Type} {f : α → List Tag} {l : List α} :
    strongest (l.flatMap f) = strongest (l.filterMap fun a => strongest (f a)) := by
  induction l with
  | nil => rfl
  | cons a l ih =>
    calc strongest ((a :: l).flatMap f)
        = strongest (f a ++ l.flatMap f) := by rw [List.flatMap_cons]
      _ = strongest ((strongest (f a)).toList ++ l.flatMap f) := strongest_append_left
      _ = strongest ((strongest (f a)).toList ++ l.filterMap fun a => strongest (f a)) :=
        strongest_append_congr ih
      _ = strongest ((a :: l).filterMap fun a => strongest (f a)) := by
        rw [List.filterMap_cons]
        cases strongest (f a) <;> rfl

/-- Where the tags come from the members of a list, the one that is kept comes from a member that no
other beats, and that none before it equals. -/
theorem strongest_filterMap_eq_some_iff {α : Type} {f : α → Option Tag} {l : List α} :
    strongest (l.filterMap f) = some t ↔
      ∃ before a after, l = before ++ a :: after ∧ f a = some t ∧
        (∀ b ∈ before, ∀ u, f b = some u → t.rank < u.rank) ∧
        ∀ b ∈ after, ∀ u, f b = some u → t.rank ≤ u.rank := by
  rw [strongest_eq_some_iff]
  constructor
  · rintro ⟨before, after, hl, hbefore, hafter⟩
    obtain ⟨l₁, l₂, rfl, rfl, hl₂⟩ := List.filterMap_eq_append_iff.1 hl
    -- members without a tag may stand before the one that gives it
    obtain ⟨skipped, a, rest, rfl, hskipped, ha, rfl⟩ := List.filterMap_eq_cons_iff.1 hl₂
    refine ⟨l₁ ++ skipped, a, rest, by simp, ha, fun b hb u hu => ?_, fun b hb u hu => ?_⟩
    · rcases List.mem_append.1 hb with hb | hb
      · exact hbefore u (List.mem_filterMap.2 ⟨b, hb, hu⟩)
      · rw [hskipped b hb] at hu
        cases hu
    · exact hafter u (List.mem_filterMap.2 ⟨b, hb, hu⟩)
  · rintro ⟨before, a, after, rfl, ha, hbefore, hafter⟩
    refine ⟨before.filterMap f, after.filterMap f, by simp [ha], fun u hu => ?_, fun u hu => ?_⟩
    · obtain ⟨b, hb, hu⟩ := List.mem_filterMap.1 hu
      exact hbefore b hb u hu
    · obtain ⟨b, hb, hu⟩ := List.mem_filterMap.1 hu
      exact hafter b hb u hu

end Dfa

namespace Nfa

variable {n m : Nfa} {ns : List Nfa} {w : List Char}

/-! ### The tags that a text can end in -/

/-- **The tags of a text**: those of the final states that paths for it lead to, in the order of
these states. -/
def tagsAfter (n : Nfa) (w : List Char) : List Tag :=
  ((n.statesAfter w).toList.filter n.isFinal).filterMap n.tag?

/-- **The states after a text** in two joined automata are those of the first, followed by the
shifted ones of the second. -/
theorem toList_statesAfter_append (hn : n.Rooted) (hm : m.Rooted) :
    ((append n m).statesAfter w).toList =
      (n.statesAfter w).toList ++ (m.statesAfter w).toList.map (· + n.size) := by
  have hlt : ∀ q ∈ (n.statesAfter w).toList, q < n.size := fun q hq =>
    ((mem_statesAfter hn.toWellFormed).1 (StateSet.mem_toList.1 hq)).lt hn.toWellFormed hn.start_lt
  -- both lists are ascending, and they have the same members
  apply SortedSet.eq_of_ascending (StateSet.pairwise_toList _)
  · refine List.pairwise_append.2 ⟨StateSet.pairwise_toList _, ?_, fun p hp q hq => ?_⟩
    · exact (StateSet.pairwise_toList _).map _ fun p q hpq => Nat.add_lt_add_right hpq _
    · obtain ⟨k, -, rfl⟩ := List.mem_map.1 hq
      exact Nat.lt_of_lt_of_le (hlt p hp) (Nat.le_add_left n.size k)
  · intro q
    simp only [List.mem_append, List.mem_map, StateSet.mem_toList, mem_statesAfter hn.toWellFormed,
      mem_statesAfter hm.toWellFormed, mem_statesAfter (hn.append hm).toWellFormed]
    show Path (append n m) n.start w q ↔ _
    rw [path_append_iff hn]
    exact or_congr_right (exists_congr fun k => by rw [and_comm, eq_comm])

/-- **Two joined automata list the tags of the first before those of the second.** -/
theorem tagsAfter_append (hn : n.Rooted) (hm : m.Rooted) :
    (append n m).tagsAfter w = n.tagsAfter w ++ m.tagsAfter w := by
  have hlt : ∀ q ∈ (n.statesAfter w).toList, q < n.size := fun q hq =>
    ((mem_statesAfter hn.toWellFormed).1 (StateSet.mem_toList.1 hq)).lt hn.toWellFormed hn.start_lt
  unfold tagsAfter
  rw [toList_statesAfter_append hn hm, List.filter_append, List.filterMap_append]
  congr 1
  · -- the states of the first keep their numbers
    have hfinal : (n.statesAfter w).toList.filter (append n m).isFinal =
        (n.statesAfter w).toList.filter n.isFinal :=
      List.filter_congr fun q hq => isFinal_append_left (hlt q hq)
    rw [hfinal]
    exact List.filterMap_congr fun q hq => tag?_append_left (hlt q (List.mem_of_mem_filter hq))
  · -- those of the second are shifted, with their flags and tags
    have hfinal : (append n m).isFinal ∘ (· + n.size) = m.isFinal :=
      funext fun q => isFinal_append_right hn.start_lt
    have htag : (append n m).tag? ∘ (· + n.size) = m.tag? :=
      funext fun q => tag?_append_right hn.start_lt
    rw [List.filter_map, List.filterMap_map, hfinal, htag]

/-- **A joined list lists the tags of its members, one after the other.** -/
theorem tagsAfter_merge (hns : ∀ m ∈ ns, m.Rooted) (h : merge ns = some n) :
    n.tagsAfter w = ns.flatMap (tagsAfter · w) := by
  revert hns
  refine merge_induction ?_ ?_ h
  · intro m _
    rw [List.flatMap_singleton]
  · intro ns n m hn ih hns
    rw [List.forall_mem_append, List.forall_mem_singleton] at hns
    rw [tagsAfter_append (rooted_merge hns.1 hn) hns.2, ih hns.1, List.flatMap_append,
      List.flatMap_singleton]

/-! ### Automata whose final states have tags -/

/-- **Automata that went through tagging**, as a whole or part by part. -/
inductive Tagged : Nfa → Prop
  | tagFinal {rs : List Regex} {n : Nfa} (t : Tag) : Built rs n → Tagged (n.tagFinal t)
  | merge {ns : List Nfa} {n : Nfa} : (∀ m ∈ ns, Tagged m) → merge ns = some n → Tagged n

theorem Tagged.exists_tag (h : Tagged n) :
    n.Rooted ∧ ∀ q, n.isFinal q = true → ∃ t, n.tag? q = some t := by
  induction h with
  | tagFinal t hbuilt =>
    refine ⟨(rooted_of_built hbuilt).tagFinal t, fun q hq => ⟨t, tag?_tagFinal ?_⟩⟩
    rwa [isFinal_tagFinal] at hq
  | merge _ hmerge ih =>
    refine merge_closed (fun n m hn hm => ⟨hn.1.append hm.1, fun q hq => ?_⟩) ih hmerge
    -- a state of two joined automata has the flag and the tag that it had before
    rcases lt_or_exists_add n q with hlt | ⟨k, rfl⟩
    · rw [isFinal_append_left hlt] at hq
      rw [tag?_append_left hlt]
      exact hn.2 q hq
    · rw [isFinal_append_right hn.1.start_lt] at hq
      rw [tag?_append_right hn.1.start_lt]
      exact hm.2 k hq

end Nfa

namespace Dfa

variable {n : Nfa} {w : List Char} {t u : Tag} {r : Regex}

/-! ### The deterministic automaton of joined automata -/

/-- **The tag of a text**: that of the state which it leads to. -/
def tagAfter (n : Nfa) (w : List Char) : Option Tag :=
  (ofNfa n).tag? ((ofNfa n).run (ofNfa n).start w)

/-- The tag of a text is the first of smallest rank among those that it can end in. -/
theorem tagAfter_eq (hn : n.WellFormed) : tagAfter n w = strongest (n.tagsAfter w) := tag?_run hn

/-- A tagged expression gives its words the tag. -/
theorem tagAfter_tagFinal_ofRegex :
    tagAfter ((Nfa.ofRegex r).tagFinal t) w = some u ↔ r.Matches w ∧ u = t := by
  have hn : ((Nfa.ofRegex r).tagFinal t).WellFormed :=
    ((Nfa.rooted_ofRegex r).tagFinal t).toWellFormed
  constructor
  · intro h
    obtain ⟨hw, htag⟩ := Nfa.outcome_tagFinal_ofRegex.1 (outcome_of_tag?_run hn h).1
    exact ⟨hw, Option.some.inj htag⟩
  · rintro ⟨hw, rfl⟩
    -- some tag is kept, and there is only one that it can be
    cases htag : tagAfter ((Nfa.ofRegex r).tagFinal u) w with
    | none =>
      exact absurd (Nfa.outcome_tagFinal_ofRegex.2 ⟨hw, rfl⟩) ((tag?_run_eq_none hn).1 htag u)
    | some v =>
      obtain ⟨-, hv⟩ := Nfa.outcome_tagFinal_ofRegex.1 (outcome_of_tag?_run hn htag).1
      rw [hv]

theorem tagAfter_ofRegex : tagAfter (Nfa.ofRegex r) w = none := by
  refine (tag?_run_eq_none (Nfa.wellFormed_ofRegex r)).2 ?_
  rintro t ⟨q, -, -, ht⟩
  rw [Nfa.tag?_ofRegex] at ht
  cases ht

/-- If final states have tags, then so do those of the deterministic automaton, and no others. -/
theorem isFinal_iff_exists_tag (h : ∀ q, n.isFinal q = true → ∃ t, n.tag? q = some t) (q : Nat) :
    (ofNfa n).isFinal q = true ↔ ∃ t, (ofNfa n).tag? q = some t := by
  cases hstate : (ofNfa n).states[q]? with
  | none => simp [Dfa.isFinal, Dfa.tag?, hstate]
  | some s =>
    obtain ⟨S, hS⟩ := exists_standsFor hstate
    rw [hS.isFinal, hS.tag?, ← Option.ne_none_iff_exists', tagOf, Ne, strongest_eq_none,
      List.eq_nil_iff_forall_not_mem, List.any_eq_true]
    push Not
    constructor
    · rintro ⟨p, hp, hfinal⟩
      obtain ⟨t, ht⟩ := h p hfinal
      exact ⟨t, List.mem_filterMap.2 ⟨p, List.mem_filter.2 ⟨hp, hfinal⟩, ht⟩⟩
    · rintro ⟨t, ht⟩
      obtain ⟨p, hp, -⟩ := List.mem_filterMap.1 ht
      exact ⟨p, List.mem_filter.1 hp⟩

/-- **What joining does.** Automata that were put together, at least one of them, can be joined. The
result accepts what any of them accepts. A text leads to a tag that one of them gives it, with a
rank that is smaller than those of the tags which earlier ones give it, and not larger than those of
later ones; and it leads to no tag just if none of them gives it one. If all of them went through
tagging, then the final states of the result are those with a tag. -/
theorem ofNfa_merge {ns : List Nfa} (hns : ∀ m ∈ ns, ∃ rs, Nfa.Built rs m) (hne : ns ≠ []) :
    ∃ n, Nfa.merge ns = some n ∧
      (∀ w, n.accepts w = true ↔ ∃ m ∈ ns, m.accepts w = true) ∧
      (∀ w t, tagAfter n w = some t ↔
        ∃ before m after, ns = before ++ m :: after ∧ tagAfter m w = some t ∧
          (∀ k ∈ before, ∀ u, tagAfter k w = some u → t.rank < u.rank) ∧
          ∀ k ∈ after, ∀ u, tagAfter k w = some u → t.rank ≤ u.rank) ∧
      (∀ w, tagAfter n w = none ↔ ∀ m ∈ ns, tagAfter m w = none) ∧
      ((∀ m ∈ ns, Nfa.Tagged m) →
        ∀ q, (ofNfa n).isFinal q = true ↔ ∃ t, (ofNfa n).tag? q = some t) := by
  have hrooted : ∀ m ∈ ns, m.Rooted := Nfa.forall_rooted_of_built hns
  obtain ⟨first, rest, rfl⟩ := List.exists_cons_of_ne_nil hne
  obtain ⟨n, hmerge⟩ : ∃ n, Nfa.merge (first :: rest) = some n := ⟨_, rfl⟩
  have hn : n.Rooted := Nfa.rooted_merge hrooted hmerge
  -- the tag of the result is found among the tags of the parts
  have htag : ∀ w, tagAfter n w = strongest ((first :: rest).filterMap (tagAfter · w)) := by
    intro w
    rw [tagAfter_eq hn.toWellFormed, Nfa.tagsAfter_merge hrooted hmerge, strongest_flatMap]
    congr 1
    exact List.filterMap_congr fun m hm => (tagAfter_eq (hrooted m hm).toWellFormed).symm
  refine ⟨n, hmerge, fun w => ?_, fun w t => ?_, fun w => ?_, fun htagged => ?_⟩
  · rw [Nfa.accepts_iff_exists_outcome hn.toWellFormed]
    simp only [Nfa.outcome_merge hrooted hmerge]
    rw [exists_comm]
    refine exists_congr fun m => ?_
    rw [exists_and_left]
    exact and_congr_right fun hm =>
      (Nfa.accepts_iff_exists_outcome (hrooted m hm).toWellFormed).symm
  · rw [htag, strongest_filterMap_eq_some_iff]
  · rw [htag, strongest_eq_none, List.filterMap_eq_nil_iff]
  · refine isFinal_iff_exists_tag ?_
    have hjoined : Nfa.Tagged n := .merge htagged hmerge
    exact hjoined.exists_tag.2

/-- An automaton without a tag is joined with two that have tags of one rank and were joined before.
For a text that all of them match, the earlier of the two tags wins. -/
theorem ofNfa_merge_tie :
    ∃ k n, Nfa.merge [(Nfa.ofRegex (.lit 'a')).tagFinal ⟨"A", 1⟩,
        (Nfa.ofRegex (.star (.lit 'a'))).tagFinal ⟨"B", 1⟩] = some k ∧
      Nfa.merge [Nfa.ofRegex (.lit 'a'), k] = some n ∧
      tagAfter n ['a'] = some ⟨"A", 1⟩ ∧ tagAfter n [] = some ⟨"B", 1⟩ ∧
      ∀ q, (ofNfa k).isFinal q = true ↔ ∃ t, (ofNfa k).tag? q = some t := by
  have hparts : ∀ p ∈ [([Regex.lit 'a'], (Nfa.ofRegex (.lit 'a')).tagFinal ⟨"A", 1⟩),
      ([.star (.lit 'a')], (Nfa.ofRegex (.star (.lit 'a'))).tagFinal ⟨"B", 1⟩)],
      Nfa.Built p.1 p.2 :=
    List.forall_mem_cons.2 ⟨.tagFinal _ (.ofRegex _),
      List.forall_mem_singleton.2 (.tagFinal _ (.ofRegex _))⟩
  have htagged : ∀ m ∈ [(Nfa.ofRegex (.lit 'a')).tagFinal ⟨"A", 1⟩,
      (Nfa.ofRegex (.star (.lit 'a'))).tagFinal ⟨"B", 1⟩], ∃ rs, Nfa.Built rs m :=
    List.forall_mem_cons.2 ⟨⟨_, .tagFinal _ (.ofRegex _)⟩,
      List.forall_mem_singleton.2 ⟨_, .tagFinal _ (.ofRegex _)⟩⟩
  obtain ⟨k, hk, -, htag, -, hfinal⟩ := ofNfa_merge htagged (List.cons_ne_nil _ _)
  have hbuilt : Nfa.Built [.lit 'a', .star (.lit 'a')] k := .merge hparts hk
  have hboth : ∀ m ∈ [Nfa.ofRegex (.lit 'a'), k], ∃ rs, Nfa.Built rs m :=
    List.forall_mem_cons.2 ⟨⟨_, .ofRegex _⟩, List.forall_mem_singleton.2 ⟨_, hbuilt⟩⟩
  obtain ⟨n, hn, -, htag', -⟩ := ofNfa_merge hboth (List.cons_ne_nil _ _)
  -- the first of the two tags is kept where both are given, and the second where it is alone
  have hkA : tagAfter k ['a'] = some ⟨"A", 1⟩ := by
    refine (htag _ _).2 ⟨[], _, _, rfl, tagAfter_tagFinal_ofRegex.2 ⟨.lit, rfl⟩,
      List.forall_mem_nil _, List.forall_mem_singleton.2 fun u hu => ?_⟩
    obtain ⟨-, rfl⟩ := tagAfter_tagFinal_ofRegex.1 hu
    exact Nat.le_refl 1
  have hkB : tagAfter k [] = some ⟨"B", 1⟩ := by
    refine (htag _ _).2 ⟨[_], _, [], rfl, tagAfter_tagFinal_ofRegex.2 ⟨.starNil, rfl⟩,
      List.forall_mem_singleton.2 fun u hu => ?_, List.forall_mem_nil _⟩
    obtain ⟨hempty, -⟩ := tagAfter_tagFinal_ofRegex.1 hu
    cases hempty
  -- what has no tag does not compete
  have hkeep : ∀ w t, tagAfter k w = some t → tagAfter n w = some t := by
    intro w t ht
    refine (htag' w t).2 ⟨[_], k, [], rfl, ht, List.forall_mem_singleton.2 fun u hu => ?_,
      List.forall_mem_nil _⟩
    rw [tagAfter_ofRegex] at hu
    cases hu
  refine ⟨k, n, hk, hn, hkeep _ _ hkA, hkeep _ _ hkB, hfinal ?_⟩
  exact List.forall_mem_cons.2
    ⟨.tagFinal _ (.ofRegex _), List.forall_mem_singleton.2 (.tagFinal _ (.ofRegex _))⟩

end Dfa

end LexerGen
