import LexerGen.Lexer
import LexerGen.Nfa.Path
import LexerGen.Proofs.Dfa.Longest
import LexerGen.Proofs.Dfa.Tags
import LexerGen.Proofs.Pattern.Trees
import LexerGen.Proofs.Prenex.RoundTrip
import LexerGen.Proofs.Tokenization

/-!
# What a compiled lexer recognizes

A list of definitions compiles by way of its *rules*, the names with the trees that the patterns
denote. Everything that a scan needs to know of the automaton is said in terms of these
(`Recognizes`): which texts lead to a tag, and to which; and which lead to the sink. The steps on
the way are

* the detour over prenex text, which changes nothing, since trees that were read can be written
  (`toPrenex_bind_ofPrenex`);
* the joined automaton, whose outcomes are the tagged words of the rules (`outcome_parts`), the
  rank in a tag being the place of its rule;
* the deterministic automaton, which keeps the outcome of smallest rank, and so the first rule
  (`firstMatch_of_outcome`).

Patterns have no void parts, so the joined automaton is live, and the sink means that a text
cannot be continued.
-/

namespace LexerGen

open Nfa (Outcome)

/-- **A definition and its rule**: the same name, and the tree that the pattern denotes. -/
def ReadsAs (token : String × String) (rule : String × Regex) : Prop :=
  rule.1 = token.1 ∧ Pattern.parse token.2.toList = .ok rule.2

/-- **What an automaton knows of rules**: texts lead to the name of the first rule that matches
them, and to the sink if they cannot be continued. Some text is matched, so the empty one can be
continued. -/
structure Recognizes (d : Dfa) (rules : List (String × Regex)) : Prop where
  trapping : d.Trapping
  viable_nil : Viable rules []
  untagged : ∀ w, d.Untagged (d.run d.start w) ↔ ¬Matched rules w
  firstMatch : ∀ w tag, d.tag? (d.run d.start w) = some tag → FirstMatch rules w tag.name
  isSink : ∀ w, d.isSink (d.run d.start w) = true ↔ ¬Viable rules w

variable {rules : List (String × Regex)} {tokens : List (String × String)} {rank : Nat}
  {w : List Char} {t : Tag} {tag : Option Tag} {n : Nfa}

/-- **Definitions have one list of rules**, since reading a pattern has one result. -/
theorem rules_unique {rules' : List (String × Regex)} (h : List.Forall₂ ReadsAs tokens rules)
    (h' : List.Forall₂ ReadsAs tokens rules') : rules = rules' := by
  refine List.right_unique_forall₂' (fun token rule rule' hrule hrule' => ?_) h h'
  obtain ⟨hname, hparse⟩ := hrule
  obtain ⟨hname', hparse'⟩ := hrule'
  have htree : rule.2 = rule'.2 := Except.ok.inj (hparse.symm.trans hparse')
  exact Prod.ext (hname.trans hname'.symm) htree

/-- Rules that were read have no void parts. -/
theorem voidFree_of_readsAs (h : List.Forall₂ ReadsAs tokens rules) :
    ∀ p ∈ rules, p.2.VoidFree := by
  induction h with
  | nil => exact List.forall_mem_nil _
  | cons hrule _ ih => exact List.forall_mem_cons.2 ⟨Pattern.voidFree_parse hrule.2, ih⟩

/-! ### The detour over prenex text -/

/-- **Patterns may be compiled from their prenex text** as well as from their trees. -/
theorem toPrenex_bind_ofPrenex (pattern : List Char) :
    (Pattern.toPrenex pattern >>= Nfa.ofPrenex) = Nfa.ofPattern pattern := by
  unfold Pattern.toPrenex Nfa.ofPattern
  cases hparse : Pattern.parse pattern with
  | error e => rfl
  | ok r =>
    -- a tree that was read is written as it stands
    have hread : Prenex.read (Prenex.render r) = .ok r := by
      calc Prenex.read (Prenex.render r) = .ok r.normalize := Prenex.read_render r
        _ = .ok r := by rw [Regex.normalize_of_writable (Pattern.writable_parse hparse)]
    show Nfa.ofPrenex (Prenex.render r) = _
    rw [Nfa.ofPrenex, hread]

/-! ### The automata of rules -/

/-- **The tagged automata of rules**, the first of which has the given rank, each with the
expression that it comes from. -/
def parts (rank : Nat) : List (String × Regex) → List (List Regex × Nfa)
  | [] => []
  | (name, r) :: rules => ([r], (Nfa.ofRegex r).tagFinal ⟨name, rank⟩) :: parts (rank + 1) rules

theorem flatMap_fst_parts (rank : Nat) (rules : List (String × Regex)) :
    (parts rank rules).flatMap Prod.fst = rules.map Prod.snd := by
  induction rules generalizing rank with
  | nil => rfl
  | cons p rules ih => rw [parts, List.flatMap_cons, ih]; rfl

theorem built_of_mem_parts : ∀ p ∈ parts rank rules, Nfa.Built p.1 p.2 := by
  induction rules generalizing rank with
  | nil => exact List.forall_mem_nil _
  | cons p rules ih => exact List.forall_mem_cons.2 ⟨.tagFinal _ (.ofRegex p.2), ih⟩

/-- **The outcomes of a text** for any of the automata. -/
def HasOutcome (rank : Nat) (rules : List (String × Regex)) (w : List Char) (tag : Option Tag) :
    Prop :=
  ∃ m ∈ (parts rank rules).map Prod.snd, Outcome m w tag

theorem hasOutcome_cons {name : String} {r : Regex} :
    HasOutcome rank ((name, r) :: rules) w tag ↔
      r.Matches w ∧ tag = some ⟨name, rank⟩ ∨ HasOutcome (rank + 1) rules w tag := by
  rw [HasOutcome, parts, List.map_cons, List.exists_mem_cons_iff, Nfa.outcome_tagFinal_ofRegex]
  rfl

/-- Ranks count up from the first. -/
theorem HasOutcome.le_rank (h : HasOutcome rank rules w (some t)) : rank ≤ t.rank := by
  induction rules generalizing rank with
  | nil =>
    obtain ⟨m, hm, -⟩ := h
    cases hm
  | cons p rules ih =>
    -- the first rule has the rank itself, and the others have larger ones
    rcases hasOutcome_cons.1 h with ⟨-, ht⟩ | hrest
    · obtain rfl := Option.some.inj ht
      exact Nat.le_refl rank
    · exact Nat.le_of_succ_le (ih hrest)

/-- A text has an outcome just if some rule matches it. -/
theorem exists_hasOutcome_iff (rank : Nat) :
    (∃ tag, HasOutcome rank rules w tag) ↔ Matched rules w := by
  induction rules generalizing rank with
  | nil =>
    refine iff_of_false ?_ ?_
    · rintro ⟨tag, m, hm, -⟩
      cases hm
    · rintro ⟨p, hp, -⟩
      cases hp
  | cons p rules ih =>
    obtain ⟨name, r⟩ := p
    unfold Matched
    rw [List.exists_mem_cons_iff]
    simp only [hasOutcome_cons, exists_or, ih, exists_and_left, exists_eq, and_true]
    rfl

/-- All outcomes are tags. -/
theorem HasOutcome.exists_tag (h : HasOutcome rank rules w tag) : ∃ t, tag = some t := by
  induction rules generalizing rank with
  | nil =>
    obtain ⟨m, hm, -⟩ := h
    cases hm
  | cons p rules ih =>
    rcases hasOutcome_cons.1 h with ⟨-, ht⟩ | hrest
    · exact ⟨_, ht⟩
    · exact ih hrest

/-- **The outcome of smallest rank** has the name of the first rule that matches. -/
theorem firstMatch_of_outcome (h : HasOutcome rank rules w (some t))
    (hle : ∀ u, HasOutcome rank rules w (some u) → t.rank ≤ u.rank) :
    FirstMatch rules w t.name := by
  induction rules generalizing rank with
  | nil =>
    obtain ⟨m, hm, -⟩ := h
    cases hm
  | cons p rules ih =>
    obtain ⟨name, r⟩ := p
    by_cases hr : r.Matches w
    · -- the first rule has the smallest rank of all, so the outcome is its tag
      have hrank : t.rank ≤ rank := hle ⟨name, rank⟩ (hasOutcome_cons.2 (.inl ⟨hr, rfl⟩))
      rcases hasOutcome_cons.1 h with ⟨-, ht⟩ | hrest
      · rw [Option.some.inj ht]
        exact .here hr
      · exact absurd hrest.le_rank (Nat.not_le.2 (Nat.lt_succ_of_le hrank))
    · -- the first rule has no outcome, and the smallest rank is that of a later one
      rcases hasOutcome_cons.1 h with ⟨hw, -⟩ | hrest
      · exact absurd hw hr
      · exact .later hr (ih hrest fun u hu => hle u (hasOutcome_cons.2 (.inr hu)))

/-- **The joined automaton** has the outcomes of the rules. -/
theorem outcome_parts (h : Nfa.merge ((parts rank rules).map Prod.snd) = some n) :
    Outcome n w tag ↔ HasOutcome rank rules w tag := by
  refine Nfa.outcome_merge (fun m hm => ?_) h
  obtain ⟨p, hp, rfl⟩ := List.mem_map.1 hm
  exact Nfa.rooted_of_built (built_of_mem_parts p hp)

theorem built_parts (h : Nfa.merge ((parts rank rules).map Prod.snd) = some n) :
    Nfa.Built (rules.map Prod.snd) n := by
  rw [← flatMap_fst_parts rank]
  exact .merge built_of_mem_parts h

/-! ### The compiled automaton -/

/-- **The deterministic automaton of the joined rules** recognizes them. -/
theorem recognizes_ofNfa (h : Nfa.merge ((parts rank rules).map Prod.snd) = some n)
    (hvoid : ∀ p ∈ rules, p.2.VoidFree) : Recognizes (Dfa.ofNfa n) rules := by
  have hbuilt : Nfa.Built (rules.map Prod.snd) n := built_parts h
  have hn : n.WellFormed := (Nfa.rooted_of_built hbuilt).toWellFormed
  have hlive : n.Live := by
    refine Nfa.live_of_built hbuilt fun r hr => ?_
    obtain ⟨p, hp, rfl⟩ := List.mem_map.1 hr
    exact hvoid p hp
  -- a text with an outcome is one that some rule matches
  have hmatched : ∀ w, (∃ tag, Outcome n w tag) ↔ Matched rules w := fun w => by
    rw [← exists_hasOutcome_iff rank]
    exact exists_congr fun tag => outcome_parts h
  refine ⟨⟨fun c => Dfa.step_sink, Dfa.tag?_sink⟩, ?_, fun w => ?_, fun w t ht => ?_, fun w => ?_⟩
  · -- from the start itself a path leads to a final state
    obtain ⟨v, f, hv, hf⟩ := hlive n.start [] .nil
    exact ⟨v, (hmatched v).1 ⟨n.tag? f, f, hv, hf, rfl⟩⟩
  · rw [← hmatched w, Dfa.Untagged, Dfa.tag?_run_eq_none hn]
    refine ⟨?_, ?_⟩
    · rintro hnone ⟨tag, htag⟩
      obtain ⟨t, rfl⟩ := ((outcome_parts h).1 htag).exists_tag
      exact hnone t htag
    · exact fun hnone t ht => hnone ⟨some t, ht⟩
  · obtain ⟨ht, hle⟩ := Dfa.outcome_of_tag?_run hn ht
    exact firstMatch_of_outcome ((outcome_parts h).1 ht)
      fun u hu => hle u ((outcome_parts h).2 hu)
  · rw [Dfa.isSink_run_iff hn hlive, Viable, not_exists]
    refine forall_congr' fun v => ?_
    rw [← hmatched, not_exists]

namespace Lexer

/-- **One definition compiles** if its pattern can be read, to the tagged automaton of its rule. -/
theorem compileToken_eq_ok {name pattern : String} :
    compileToken rank name pattern = .ok n ↔
      ∃ r, Pattern.parse pattern.toList = .ok r ∧ n = (Nfa.ofRegex r).tagFinal ⟨name, rank⟩ := by
  rw [compileToken, toPrenex_bind_ofPrenex, Nfa.ofPattern]
  cases hparse : Pattern.parse pattern.toList with
  | error e =>
    refine ⟨?_, ?_⟩
    · intro h
      cases h
    · rintro ⟨r, hr, -⟩
      cases hr
  | ok r =>
    refine ⟨?_, ?_⟩
    · intro h
      cases h
      exact ⟨r, rfl, rfl⟩
    · rintro ⟨r', hr, rfl⟩
      cases hr
      rfl

/-- **Definitions compile** if they have rules, to the automata of these. -/
theorem compileTokens_eq_ok {ns : List Nfa} :
    compileTokens rank tokens = .ok ns ↔
      ∃ rules, List.Forall₂ ReadsAs tokens rules ∧ ns = (parts rank rules).map Prod.snd := by
  induction tokens generalizing rank ns with
  | nil =>
    refine ⟨?_, ?_⟩
    · intro h
      cases h
      exact ⟨[], .nil, rfl⟩
    · rintro ⟨rules, hrules, rfl⟩
      cases hrules
      rfl
  | cons token tokens ih =>
    obtain ⟨name, pattern⟩ := token
    rw [compileTokens, bind_eq_ok]
    refine ⟨?_, ?_⟩
    · rintro ⟨m, hm, h⟩
      obtain ⟨ms, hms, h⟩ := bind_eq_ok.1 h
      obtain ⟨r, hr, rfl⟩ := compileToken_eq_ok.1 hm
      obtain ⟨rules, hrules, rfl⟩ := ih.1 hms
      cases h
      exact ⟨(name, r) :: rules, .cons ⟨rfl, hr⟩ hrules, rfl⟩
    · rintro ⟨rules, hrules, rfl⟩
      obtain ⟨⟨_, r⟩, rest, ⟨rfl, hr⟩, hrest, rfl⟩ := List.forall₂_cons_left_iff.1 hrules
      refine ⟨_, compileToken_eq_ok.2 ⟨r, hr, rfl⟩, ?_⟩
      exact bind_eq_ok.2 ⟨_, ih.2 ⟨rest, hrest, rfl⟩, rfl⟩

/-- **A list of definitions compiles** if it has rules whose automata can be joined. -/
theorem compile_eq_ok_iff {lexer : Lexer} : compile tokens = .ok lexer ↔
    ∃ rules, List.Forall₂ ReadsAs tokens rules ∧
      Nfa.merge ((parts 0 rules).map Prod.snd) = some lexer.nfa ∧
      lexer.dfa = Dfa.ofNfa lexer.nfa := by
  unfold compile
  rw [bind_eq_ok]
  constructor
  · rintro ⟨ns, hns, h⟩
    obtain ⟨rules, hrules, rfl⟩ := compileTokens_eq_ok.1 hns
    split at h
    · cases h
    · next n hmerge =>
      cases h
      exact ⟨rules, hrules, hmerge, rfl⟩
  · rintro ⟨rules, hrules, hmerge, hdfa⟩
    obtain ⟨nfa, dfa⟩ := lexer
    obtain rfl : dfa = Dfa.ofNfa nfa := hdfa
    refine ⟨_, compileTokens_eq_ok.2 ⟨rules, hrules, rfl⟩, ?_⟩
    rw [hmerge]

/-- **Definitions that can be read compile**, unless there are none. -/
theorem exists_compile (h : List.Forall₂ ReadsAs tokens rules) (hne : tokens ≠ []) :
    ∃ lexer, compile tokens = .ok lexer := by
  cases h with
  | nil => exact absurd rfl hne
  | @cons token rule tokens rules htoken htokens =>
    obtain ⟨n, hn⟩ : ∃ n, Nfa.merge ((parts 0 (rule :: rules)).map Prod.snd) = some n := ⟨_, rfl⟩
    exact ⟨⟨n, Dfa.ofNfa n⟩,
      compile_eq_ok_iff.2 ⟨rule :: rules, .cons htoken htokens, hn, rfl⟩⟩

/-- **A lexer recognizes the rules of its definitions.** -/
theorem recognizes_of_compile {lexer : Lexer} (h : compile tokens = .ok lexer) :
    ∃ rules, List.Forall₂ ReadsAs tokens rules ∧ Recognizes lexer.dfa rules := by
  obtain ⟨rules, hrules, hmerge, hdfa⟩ := compile_eq_ok_iff.1 h
  rw [hdfa]
  exact ⟨rules, hrules, recognizes_ofNfa hmerge (voidFree_of_readsAs hrules)⟩

end Lexer

end LexerGen
