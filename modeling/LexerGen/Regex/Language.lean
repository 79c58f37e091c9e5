import LexerGen.Regex.Basic

/-!
# The language of a regular expression

Which words does an expression denote? `Matches r w` is the usual answer, given by one rule for each
way in which a word can come about; no automaton is involved. A bare and a quoted literal denote the
same word, `plus r` denotes a word of `r` followed by words of `star r`, and `void` has no rule. The
lemmas after the definition say for each form of expression which words it matches.
-/

namespace LexerGen.Regex

/-- **The words of an expression.** -/
inductive Matches : Regex → List Char → Prop
  | unionLeft {l r : Regex} {w : List Char} : Matches l w → Matches (.union l r) w
  | unionRight {l r : Regex} {w : List Char} : Matches r w → Matches (.union l r) w
  | concat {l r : Regex} {u v : List Char} :
      Matches l u → Matches r v → Matches (.concat l r) (u ++ v)
  | starNil {r : Regex} : Matches (.star r) []
  | starAppend {r : Regex} {u v : List Char} :
      Matches r u → Matches (.star r) v → Matches (.star r) (u ++ v)
  | plus {r : Regex} {u v : List Char} :
      Matches r u → Matches (.star r) v → Matches (.plus r) (u ++ v)
  | maybeNil {r : Regex} : Matches (.maybe r) []
  | maybe {r : Regex} {w : List Char} : Matches r w → Matches (.maybe r) w
  | eps : Matches .eps []
  | lit {c : Char} : Matches (.lit c) [c]
  | quoted {c : Char} : Matches (.quoted c) [c]

theorem matches_union {l r : Regex} {w : List Char} :
    Matches (.union l r) w ↔ Matches l w ∨ Matches r w := by
  refine ⟨?_, ?_⟩
  · intro h
    cases h with
    | unionLeft h => exact .inl h
    | unionRight h => exact .inr h
  · exact fun h => h.elim .unionLeft .unionRight

theorem matches_concat {l r : Regex} {w : List Char} :
    Matches (.concat l r) w ↔ ∃ u v, w = u ++ v ∧ Matches l u ∧ Matches r v := by
  refine ⟨?_, ?_⟩
  · intro h
    cases h with
    | concat hu hv => exact ⟨_, _, rfl, hu, hv⟩
  · rintro ⟨u, v, rfl, hu, hv⟩
    exact .concat hu hv

/-- One or more repetitions are one repetition followed by zero or more. -/
theorem matches_plus {r : Regex} {w : List Char} :
    Matches (.plus r) w ↔ Matches (.concat r (.star r)) w := by
  rw [matches_concat]
  refine ⟨?_, ?_⟩
  · intro h
    cases h with
    | plus hu hv => exact ⟨_, _, rfl, hu, hv⟩
  · rintro ⟨u, v, rfl, hu, hv⟩
    exact .plus hu hv

/-- At most one occurrence is nothing or one occurrence. -/
theorem matches_maybe {r : Regex} {w : List Char} :
    Matches (.maybe r) w ↔ w = [] ∨ Matches r w := by
  refine ⟨?_, ?_⟩
  · intro h
    cases h with
    | maybeNil => exact .inl rfl
    | maybe h => exact .inr h
  · rintro (rfl | h)
    · exact .maybeNil
    · exact .maybe h

theorem matches_eps {w : List Char} : Matches .eps w ↔ w = [] := by
  refine ⟨?_, ?_⟩
  · intro h
    cases h
    rfl
  · rintro rfl
    exact .eps

theorem not_matches_void {w : List Char} : ¬ Matches .void w := by
  intro h
  cases h

theorem matches_lit {c : Char} {w : List Char} : Matches (.lit c) w ↔ w = [c] := by
  refine ⟨?_, ?_⟩
  · intro h
    cases h
    rfl
  · rintro rfl
    exact .lit

theorem matches_quoted {c : Char} {w : List Char} : Matches (.quoted c) w ↔ w = [c] := by
  refine ⟨?_, ?_⟩
  · intro h
    cases h
    rfl
  · rintro rfl
    exact .quoted

/-- **Zero or more repetitions** are nothing, or a non-empty word followed by repetitions. -/
theorem matches_star {r : Regex} {w : List Char} :
    Matches (.star r) w ↔
      w = [] ∨ ∃ u v, w = u ++ v ∧ u ≠ [] ∧ Matches r u ∧ Matches (.star r) v := by
  refine ⟨?_, ?_⟩
  · intro h
    generalize hs : Regex.star r = s at h
    induction h with
    | starNil => exact .inl rfl
    | @starAppend _ u v hu hv _ ih =>
      cases hs
      -- a repetition that adds nothing can be left out
      rcases u with _ | ⟨c, u⟩
      · exact ih rfl
      · exact .inr ⟨c :: u, v, rfl, List.cons_ne_nil c u, hu, hv⟩
    | _ => cases hs
  · rintro (rfl | ⟨u, v, rfl, _, hu, hv⟩)
    · exact .starNil
    · exact .starAppend hu hv

end LexerGen.Regex
