import LexerGen.Proofs.Desugaring
import LexerGen.Proofs.Dfa.Dead
import LexerGen.Proofs.Pattern.Grammar
import LexerGen.Proofs.Prenex.Writable

/-!
# Any text can be matched literally

`Regex.literal` is the expression for one text, whatever its characters are, and everything that can
be done with an expression does with this one what it should (`literal_exact`). It matches its text
and nothing else, it is read back from its prenex text, and there is a pattern for it, in which each
character stands between quotes.

Its deterministic automaton is a chain, with one state for each part that the text begins with, and
the sink. This is not read off the construction. After two words the automaton is in the same state
only if the same continuations are accepted after both, and if one text is accepted alone, different
beginnings of it are continued differently. All other words cannot be continued. So it is true of
every automaton without dead ends that accepts one text (`Dfa.size_of_accepts_iff`).
-/

namespace LexerGen

variable {s : List Char}

/-! ### Automata that accept one text -/

namespace Nfa

variable {n : Nfa} {u v w : List Char}

theorem accepts_eq : n.accepts w = (n.statesAfter w).toList.any n.isFinal := acceptsFrom_eq

/-- **Words that lead to the same states are continued in the same way.** -/
theorem accepts_append_congr (h : n.statesAfter u = n.statesAfter v) :
    n.accepts (u ++ w) = n.accepts (v ++ w) := by
  have happend : ∀ u, n.statesAfter (u ++ w) = w.foldl n.advance (n.statesAfter u) :=
    fun u => List.foldl_append
  rw [accepts_eq, accepts_eq, happend, happend, h]

end Nfa

namespace Dfa

variable {n : Nfa} {w : List Char} {S : StateSet}

/-- **The sets that are found** are those that texts lead to, without the empty one. -/
theorem mem_nodes_iff (hn : n.WellFormed) :
    S ∈ (exploration n).nodes ↔ S ≠ ∅ ∧ ∃ w, S = n.statesAfter w := by
  constructor
  · intro hS
    exact ⟨ne_empty_of_mem_nodes hn S hS, exists_text_of_mem_nodes S hS⟩
  · rintro ⟨hne, w, rfl⟩
    rcases standsFor_run hn (w := w) with hnode | ⟨-, hempty⟩
    · exact Array.mem_of_getElem? hnode
    · exact absurd hempty hne

section OneText

variable (hn : n.WellFormed) (hlive : n.Live) (h : ∀ w, n.accepts w = true ↔ w = s)
include hn hlive h

/-- Some states are left after the beginnings of the text, and after no other word. -/
theorem statesAfter_ne_empty_iff : n.statesAfter w ≠ ∅ ↔ w <+: s := by
  rw [Ne, ← isSink_run hn, isSink_run_iff_dead hn hlive]
  simp only [← Bool.not_eq_true, h, not_forall, not_not]
  rfl

omit hn hlive in
/-- **Different beginnings lead to different sets**: what is left of the text continues one of them
only. -/
theorem statesAfter_take_inj {j k : Nat} (hj : j ≤ s.length) (hk : k ≤ s.length)
    (heq : n.statesAfter (s.take j) = n.statesAfter (s.take k)) : j = k := by
  have haccepts : n.accepts (s.take k ++ s.drop j) = true := by
    rw [← Nfa.accepts_append_congr heq, List.take_append_drop]
    exact (h s).2 rfl
  have hlength := congrArg List.length ((h _).1 haccepts)
  rw [List.length_append, List.length_take, List.length_drop] at hlength
  omega

/-- **The deterministic automaton of one text** has a state for each of its beginnings, and the
sink. -/
theorem size_of_accepts_iff : (ofNfa n).size = s.length + 2 := by
  have hnodup : ((List.range (s.length + 1)).map fun k => n.statesAfter (s.take k)).Nodup := by
    refine List.Nodup.map_on ?_ List.nodup_range
    intro j hj k hk heq
    rw [List.mem_range] at hj hk
    exact statesAfter_take_inj h (by omega) (by omega) heq
  -- two lists without repetition that have the same members have the same length
  have hperm : (exploration n).nodes.toList.Perm
      ((List.range (s.length + 1)).map fun k => n.statesAfter (s.take k)) := by
    rw [List.perm_ext_iff_of_nodup expanded_exploration.1.nodup hnodup]
    intro S
    rw [← Array.mem_def, mem_nodes_iff hn, List.mem_map]
    constructor
    · rintro ⟨hne, w, rfl⟩
      have hw : w <+: s := (statesAfter_ne_empty_iff hn hlive h).1 hne
      have hle := hw.length_le
      refine ⟨w.length, List.mem_range.2 (by omega), ?_⟩
      rw [← List.prefix_iff_eq_take.1 hw]
    · rintro ⟨k, -, rfl⟩
      exact ⟨(statesAfter_ne_empty_iff hn hlive h).2 (List.take_prefix k s), _, rfl⟩
  have hlength := hperm.length_eq
  rw [List.length_map, List.length_range, Array.length_toList] at hlength
  rw [size_ofNfa]
  show (exploration n).nodes.size + 1 = _
  rw [hlength]

end OneText

end Dfa

/-! ### The expression for one text -/

namespace Regex

theorem matches_ofChar {c : Char} {w : List Char} : Matches (ofChar c) w ↔ w = [c] := by
  unfold ofChar
  split
  · exact matches_quoted
  · exact matches_lit

/-- **The words of a literal.** -/
theorem matches_literal {w : List Char} : Matches (literal s) w ↔ w = s := by
  fun_induction literal s generalizing w with
  | case1 => exact matches_eps
  | case2 c => exact matches_ofChar
  | case3 c cs _ ih =>
    rw [matches_concat]
    simp only [matches_ofChar, ih]
    constructor
    · rintro ⟨u, v, rfl, rfl, rfl⟩
      rfl
    · rintro rfl
      exact ⟨[c], cs, rfl, rfl, rfl⟩

theorem voidFree_literal (s : List Char) : VoidFree (literal s) := by
  fun_induction literal s with
  | case1 => exact trivial
  | case2 c => exact Pattern.voidFree_ofChar c
  | case3 c cs _ ih => exact ⟨Pattern.voidFree_ofChar c, ih⟩

theorem writable_literal (s : List Char) : Writable (literal s) := by
  fun_induction literal s with
  | case1 => exact trivial
  | case2 c => exact writable_ofChar c
  | case3 c cs _ ih => exact ⟨writable_ofChar c, ih⟩

/-- Whether a literal is quoted makes no difference to its automaton. -/
theorem desugar_ofChar (c : Char) : desugar (ofChar c) = .lit c := by
  unfold ofChar
  split <;> rfl

end Regex

namespace Pattern

open Regex

/-- **A text with quotes around each character.** -/
def inQuotes (s : List Char) : List Char := s.flatMap fun c => ['\'', c, '\'']

/-- **Every text can be written with quotes**, in front of any rest. What is derived differs from
its literal in quotes only. -/
theorem exists_derives_inQuotes (hs : s ≠ []) (rest : List Char) :
    ∃ r, Derives .sequence (inQuotes s) rest r ∧ desugar r = desugar (literal s) := by
  induction s with
  | nil => exact absurd rfl hs
  | cons c cs ih =>
    have hatom : ∀ rest, Derives .repetition ['\'', c, '\''] rest (.quoted c) :=
      fun rest => .atom .quoted
    cases cs with
    | nil =>
      refine ⟨.quoted c, .repetition (hatom rest), ?_⟩
      rw [literal, desugar_ofChar, desugar]
    | cons d ds =>
      obtain ⟨r, hr, hdesugar⟩ := ih (List.cons_ne_nil d ds)
      refine ⟨.concat (.quoted c) r, .concat (hatom _) hr, ?_⟩
      show Regex.concat (.lit c) (desugar r) =
        .concat (desugar (ofChar c)) (desugar (literal (d :: ds)))
      rw [hdesugar, desugar_ofChar]

end Pattern

/-- **Any text can be matched literally.** Both automata of its literal accept the text and no other
word, the deterministic one has two states more than the text has characters, and reading gives the
literal back from what is written for it. A text that is not empty also has a pattern, with quotes
around each character, and the automaton of that pattern is the same. -/
theorem literal_exact :
    (∀ s, (∀ w, (Nfa.ofRegex (.literal s)).accepts w = true ↔ w = s) ∧
      (∀ w, (Dfa.ofNfa (Nfa.ofRegex (.literal s))).accepts w = true ↔ w = s) ∧
      (Dfa.ofNfa (Nfa.ofRegex (.literal s))).size = s.length + 2 ∧
      Prenex.read (Prenex.render (.literal s)) = .ok (.literal s)) ∧
    ∀ s ≠ [], ∃ r, Pattern.parse (Pattern.inQuotes s) = .ok r ∧
      Nfa.ofRegex r = Nfa.ofRegex (.literal s) := by
  constructor
  · intro s
    have hn : (Nfa.ofRegex (.literal s)).WellFormed := Nfa.wellFormed_ofRegex _
    have hnfa : ∀ w, (Nfa.ofRegex (.literal s)).accepts w = true ↔ w = s := by
      intro w
      -- the one final state is reached by the words of the literal
      rw [Nfa.accepts_iff hn, Nfa.start_ofRegex]
      simp only [Nfa.isFinal_ofRegex, exists_eq_right, Nfa.path_ofRegex, Regex.matches_literal]
    refine ⟨hnfa, ?_, ?_, Prenex.read_render_of_writable (Regex.writable_literal s)⟩
    · intro w
      rw [Dfa.accepts, Dfa.acceptsFrom_eq, Dfa.isFinal_run hn]
      exact hnfa w
    · exact Dfa.size_of_accepts_iff hn (Nfa.live_ofRegex (Regex.voidFree_literal s)) hnfa
  · intro s hs
    obtain ⟨r, hr, hdesugar⟩ := Pattern.exists_derives_inQuotes hs []
    refine ⟨r, Pattern.parse_eq_ok_iff.2 (.sequence hr), ?_⟩
    rw [← Nfa.ofRegex_desugar, hdesugar, Nfa.ofRegex_desugar]

/-- A quote, a bracket and a quote again: the pattern is the bracket in a row of quotes. -/
theorem literal_exact_quotes :
    Pattern.inQuotes ['\'', '[', '\''] = "''''[''''".toList ∧
      (Dfa.ofNfa (Nfa.ofRegex (.literal ['\'', '[', '\'']))).size = 5 ∧
      ['\'', '[', '\''] ≠ [] ∧
      ∃ r, Pattern.parse (Pattern.inQuotes ['\'', '[', '\'']) = .ok r ∧
        Nfa.ofRegex r = Nfa.ofRegex (.literal ['\'', '[', '\'']) := by
  obtain ⟨hall, hpattern⟩ := literal_exact
  have hne : ['\'', '[', '\''] ≠ [] := List.cons_ne_nil _ _
  exact ⟨rfl, (hall _).2.2.1, hne, hpattern _ hne⟩

end LexerGen
