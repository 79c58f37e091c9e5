import LexerGen.Proofs.Compile

/-!
# What a scan yields

A scanner whose automaton recognizes some rules cuts its text as `Tokenizes` says, and where no
prefix is matched it fails at a place that the languages of the rules determine (`FailsAt`). Both
follow from one description of a single step, `Step`: a step yields the next token, or nothing
since the text is at its end, or the failure (`step_next`). The run is an induction on the items
(`tokenizes_items`).

How far a scanner reads before it gives up is seen in the failure. While what was read can be
continued, the automaton is not in the sink; so the scan fails at the first character after which
it cannot be continued, and at the end of the text if there is no such character.
-/

namespace LexerGen

variable {rules : List (String × Regex)} {text u v rest : List Char} {toks : List Token}
  {offset line : Nat} {e : LexError}

/-! ### Failures -/

/-- **The failure of a scan** at `offset` and `line` with the text `rest` left: no prefix of what is
left is matched. -/
inductive FailsAt (rules : List (String × Regex)) (offset line : Nat) (rest : List Char) :
    LexError → Prop
  /-- After the character at the position the text cannot be continued, though it could be up to
  there. -/
  | stuck {u v : List Char} {c : Char} :
      Unmatched rules rest → rest = u ++ c :: v → Viable rules u → ¬Viable rules (u ++ [c]) →
      FailsAt rules offset line rest ⟨.offset (offset + u.length), line + newlines u⟩
  /-- All that is left could be continued. -/
  | ended :
      Unmatched rules rest → rest ≠ [] → Viable rules rest →
      FailsAt rules offset line rest ⟨.endOfText, line + newlines rest.dropLast⟩

theorem FailsAt.unmatched (h : FailsAt rules offset line rest e) : Unmatched rules rest := by
  cases h with
  | stuck hunmatched => exact hunmatched
  | ended hunmatched => exact hunmatched

theorem FailsAt.ne_nil (h : FailsAt rules offset line rest e) : rest ≠ [] := by
  cases h with
  | stuck _ hrest =>
    rw [hrest]
    exact List.append_ne_nil_of_right_ne_nil _ (List.cons_ne_nil _ _)
  | ended _ hne => exact hne

/-! ### What the automaton shows -/

namespace Recognizes

variable {d : Dfa} (hd : Recognizes d rules)

include hd

/-- Where no state on the way has a tag, no prefix is matched. -/
theorem unmatched_of_along (h : d.Along d.Untagged d.start text) : Unmatched rules text := by
  intro u v huv hu
  exact (hd.untagged u).1 (Dfa.along_iff.1 h u v huv hu)

/-- **Where the sink is not met**, what was read can be continued. -/
theorem viable_of_along (h : d.Along d.Quiet d.start text) : Viable rules text := by
  by_cases hempty : text = []
  · rw [hempty]
    exact hd.viable_nil
  · -- the state after the whole text is not the sink
    have hquiet : d.Quiet (d.run d.start text) :=
      Dfa.along_iff.1 h text [] (List.append_nil text).symm hempty
    refine Classical.byContradiction fun hdead => ?_
    rw [← hd.isSink, hquiet.2] at hdead
    cases hdead

/-- **A prefix with a tag, after which no prefix has one**, is the next token. -/
theorem isNext_of_tag {tag : Tag} (hu : u ≠ []) (htag : d.tag? (d.run d.start u) = some tag)
    (hv : d.Along d.Untagged (d.run d.start u) v) : IsNext rules u v := by
  refine ⟨hu, (hd.firstMatch u tag htag).matched, fun u' v' heq hmatched => ?_⟩
  rcases List.append_eq_append_iff.1 heq with ⟨x, rfl, hx⟩ | ⟨x, rfl, -⟩
  · -- a longer prefix ends in a state without a tag
    by_cases hempty : x = []
    · exact Nat.le_of_eq (by rw [hempty, List.append_nil])
    · have hnone : d.Untagged (d.run (d.run d.start u) x) := Dfa.along_iff.1 hv x v' hx hempty
      rw [← Dfa.run_append, hd.untagged] at hnone
      exact absurd hmatched hnone
  · rw [List.length_append]
    exact Nat.le_add_right _ _

end Recognizes

namespace Scanner

variable {s : Scanner}

/-! ### One step -/

/-- **What one step yields**, and the scanner after it. -/
inductive Step (rules : List (String × Regex)) (s : Scanner) :
    Option (Except LexError Token) → Scanner → Prop
  | token {u v : List Char} {name : String} :
      s.rest = u ++ v → IsNext rules u v → FirstMatch rules u name →
      Step rules s (some (.ok ⟨name, u⟩)) (s.advance u.length)
  | failure {e : LexError} :
      FailsAt rules s.offset s.line s.rest e → Step rules s (some (.error e)) s.stop
  | done : s.rest = [] → Step rules s none s

/-- **The step of a scanner.** Each result of the longest match is read as a fact about the
languages of the rules. -/
theorem step_next (hd : Recognizes s.dfa rules) : Step rules s s.next.1 s.next.2 := by
  unfold next
  split
  · -- a match was found, and none before the step
    next n tag hlongest =>
    rcases Dfa.found_of_longest hd.trapping hlongest with
      ⟨u, v, hrest, hu, hn, htag, hv⟩ | ⟨hbest, -⟩
    · have hlength : n = u.length := by rw [hn, Nat.zero_add]
      have htake : s.rest.take n = u := by rw [hlength, hrest, List.take_left]
      rw [htake, hlength]
      exact .token hrest (hd.isNext_of_tag hu htag hv) (hd.firstMatch u tag htag)
    · cases hbest
  · next n hlongest =>
    obtain ⟨-, u, c, v, hrest, hn, hquiet, -, hsink⟩ := Dfa.stuck_of_longest hlongest
    have hlength : n = u.length := by rw [hn, Nat.zero_add]
    have htake : s.rest.take n = u := by rw [hlength, hrest, List.take_left]
    have hunmatched : Unmatched rules s.rest :=
      hd.unmatched_of_along (Dfa.untagged_of_stuck hd.trapping hlongest)
    rw [htake, hlength]
    exact .failure (.stuck hunmatched hrest (hd.viable_of_along hquiet) ((hd.isSink _).1 hsink))
  · next hlongest =>
    obtain ⟨-, hquiet⟩ := Dfa.ended_of_longest hlongest
    by_cases hempty : s.rest = []
    · rw [if_pos (List.isEmpty_iff.2 hempty)]
      exact .done hempty
    · rw [if_neg (mt List.isEmpty_iff.1 hempty)]
      have hunmatched : Unmatched rules s.rest :=
        hd.unmatched_of_along (hquiet.mono fun q hq => hq.1)
      exact .failure (.ended hunmatched hempty (hd.viable_of_along hquiet))

/-! ### All steps -/

theorem newlines_append : newlines (u ++ v) = newlines u + newlines v := List.count_append

/-- Nothing follows a failure. -/
theorem items_stop : s.stop.items = [] := by
  rw [items]
  rfl

/-- **The items of a scan** are the tokens of the text that is left, and after them, unless nothing
is left, the failure. -/
theorem tokenizes_items (hd : Recognizes s.dfa rules) :
    ∃ toks rest, Tokenizes rules s.rest toks rest ∧
      (rest = [] ∧ s.items = toks.map .ok ∨
        ∃ e, s.items = toks.map .ok ++ [.error e] ∧
          FailsAt rules (s.offset + (toks.flatMap Token.lexeme).length)
            (s.line + newlines (toks.flatMap Token.lexeme)) rest e) := by
  -- on the items: each step is one of `Step`, and only a token is followed by others
  fun_induction items s with
  | case1 s t hnext =>
    have hstep := step_next hd
    rw [hnext] at hstep
    cases hstep with
    | done hempty =>
      rw [hempty]
      exact ⟨[], [], .stop unmatched_nil, .inl ⟨rfl, rfl⟩⟩
  | case2 s item t hnext ih =>
    have hstep := step_next hd
    rw [hnext] at hstep
    cases hstep with
    | @failure e hfail =>
      refine ⟨[], s.rest, .stop hfail.unmatched, .inr ⟨e, ?_, hfail⟩⟩
      show Except.error e :: s.stop.items = _
      rw [items_stop]
      rfl
    | @token u v name hrest hisNext hname =>
      -- scanning goes on with what follows the token
      have hdrop : s.rest.drop u.length = v := by rw [hrest, List.drop_left]
      have htake : s.rest.take u.length = u := by rw [hrest, List.take_left]
      obtain ⟨toks, rest, htoks, hitems⟩ := ih hd
      have hcut : Tokenizes rules v toks rest := hdrop ▸ htoks
      refine ⟨⟨name, u⟩ :: toks, rest, ?_, ?_⟩
      · rw [hrest]
        exact .token hisNext hname hcut
      · rcases hitems with ⟨hempty, hitems⟩ | ⟨e, hitems, hfail⟩
        · refine .inl ⟨hempty, ?_⟩
          rw [hitems]
          rfl
        · refine .inr ⟨e, ?_, ?_⟩
          · rw [hitems]
            rfl
          · -- the offset and the line after the token count what it covers
            rw [List.flatMap_cons, List.length_append, newlines_append, ← Nat.add_assoc,
              ← Nat.add_assoc]
            show FailsAt rules (s.offset + u.length + _) (s.line + newlines u + _) rest e
            have hfail : FailsAt rules (s.offset + u.length + (toks.flatMap Token.lexeme).length)
                (s.line + newlines (s.rest.take u.length) +
                  newlines (toks.flatMap Token.lexeme)) rest e := hfail
            rwa [htake] at hfail

end Scanner

end LexerGen
