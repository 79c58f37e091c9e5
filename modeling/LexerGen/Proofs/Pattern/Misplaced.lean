import LexerGen.Proofs.Pattern.Stacks

/-!
# Misplaced symbols

A pattern that can be cut into symbols may be rejected all the same, and the yard then names an
operator, a parenthesis or a group. What each of these errors means is said here by the symbols
alone (`Misplaced`): what stands before and after the symbol that is named, up to the phrases that
a parenthesis is misplaced behind or in front of.

Two things are known of the yard when a symbol is refused. Its stacks stand for the symbols before
(`Holds`), so every operator that has to be applied finds its operands, and what is read up to an
open group or to the beginning is a phrase. And it recalls the last of these symbols (`Recalls`),
which is all that a diagnosis looks at if that symbol did not end an operand.

One offset is not near at hand, the one of a group that is open at the end of the pattern, since it
lies in the stack where a reduction has left it. But the symbols behind the parenthesis are a phrase
and phrases are read on any stack, so that reading them once more, on top of the parenthesis, leads
to its offset (`finish_of_unclosed`).
-/

namespace LexerGen.Pattern

open Regex

variable {ss : List Symbol} {symbol : Symbol} {offset : Nat} {r : Regex} {c : Char}
  {e : PatternError} {found before after : List (Symbol × Nat)}

/-- The character that stands for a written operator in a message. -/
def Symbol.operator? : Symbol → Option Char
  | quantifier q => some (quantifierSymbol q)
  | binary .union => some '|'
  | _ => none

/-- **What is wrong with the symbols** of a pattern. -/
inductive Misplaced : List (Symbol × Nat) → PatternError → Prop
  | emptyPattern : Misplaced [] (.empty 0)
  | emptyGroup {before after : List (Symbol × Nat)} {opened closed : Nat} :
      Misplaced (before ++ (.openGroup, opened) :: (.closeGroup, closed) :: after) (.empty opened)
  /-- A whole pattern stands before the parenthesis, or nothing. -/
  | unmatchedClose {before after : List (Symbol × Nat)} {offset : Nat} :
      (before = [] ∨ ∃ r, Phrase .alternation (before.map Prod.fst) r) →
      Misplaced (before ++ (.closeGroup, offset) :: after) (.unmatchedClose offset)
  /-- A whole pattern stands after the parenthesis, or nothing. -/
  | unclosedGroup {before after : List (Symbol × Nat)} {offset : Nat} :
      (after = [] ∨ ∃ r, Phrase .alternation (after.map Prod.fst) r) →
      Misplaced (before ++ (.openGroup, offset) :: after) (.unclosedGroup offset)
  | operatorAtStart {after : List (Symbol × Nat)} {symbol : Symbol} {c : Char} {offset : Nat} :
      symbol.operator? = some c →
      Misplaced ((symbol, offset) :: after) (.missingOperand c offset)
  | operatorAfter {before after : List (Symbol × Nat)} {symbol : Symbol} {c : Char}
      {offset : Nat} {s : Symbol × Nat} :
      s.1 = .openGroup ∨ s.1 = .binary .union → symbol.operator? = some c →
      Misplaced (before ++ s :: (symbol, offset) :: after) (.missingOperand c offset)
  | barAtEnd {before : List (Symbol × Nat)} {offset : Nat} :
      Misplaced (before ++ [(.binary .union, offset)]) (.missingOperand '|' offset)
  | barBefore {before after : List (Symbol × Nat)} {offset closed : Nat} :
      Misplaced (before ++ (.binary .union, offset) :: (.closeGroup, closed) :: after)
        (.missingOperand '|' offset)

namespace Yard

variable {y y' : Yard} {operands : List Regex} {pending : List (Pending × Nat)}

/-! ### What the yard recalls -/

/-- **The last symbol** that was taken, as the yard knows it. -/
inductive Recalls : List (Symbol × Nat) → Yard → Prop
  | start : Recalls [] start
  | openGroup {before : List (Symbol × Nat)} {operands : List Regex}
      {pending : List (Pending × Nat)} {offset : Nat} :
      Recalls (before ++ [(.openGroup, offset)])
        ⟨operands, (.group, offset) :: pending, false, some offset⟩
  | union {before : List (Symbol × Nat)} {operands : List Regex}
      {pending : List (Pending × Nat)} {offset : Nat} :
      Recalls (before ++ [(.binary .union, offset)])
        ⟨operands, (.binary .union, offset) :: pending, false, none⟩
  /-- Of a symbol that ends an operand nothing else is recalled. -/
  | operand {before : List (Symbol × Nat)} {s : Symbol × Nat} {y : Yard} :
      y.afterOperand = true → Recalls (before ++ [s]) y

/-- A symbol is taken by feeding it, after an implied concatenation or not. -/
theorem exists_feed_of_take (h : y.take symbol offset = .ok y') :
    ∃ z : Yard, z.feed symbol offset = .ok y' := by
  rw [take] at h
  split at h
  · obtain ⟨z, -, hz⟩ := bind_eq_ok.1 h
    exact ⟨z, hz⟩
  · exact ⟨y, h⟩

theorem recalls_take (before : List (Symbol × Nat)) (hwritten : symbol ≠ .binary .concat)
    (h : y.take symbol offset = .ok y') : Recalls (before ++ [(symbol, offset)]) y' := by
  obtain ⟨z, hfeed⟩ := exists_feed_of_take h
  have hafter : y'.afterOperand = symbol.endsOperand := afterOperand_feed hfeed
  cases symbol with
  | operand r => exact .operand hafter
  | quantifier q => exact .operand hafter
  | closeGroup => exact .operand hafter
  | openGroup =>
    cases hfeed
    exact .openGroup
  | binary op =>
    cases op with
    | union =>
      rw [feed] at hfeed
      split at hfeed
      · obtain ⟨⟨operands, pending⟩, -, hfeed⟩ := bind_eq_ok.1 hfeed
        cases hfeed
        exact .union
      · cases hfeed
    | concat => exact absurd rfl hwritten

theorem Recalls.takeAll (h : Recalls before y) (hwritten : ∀ s ∈ found, s.1 ≠ .binary .concat)
    (htake : y.takeAll found = .ok y') : Recalls (before ++ found) y' := by
  induction found generalizing before y with
  | nil =>
    cases htake
    rwa [List.append_nil]
  | cons s found ih =>
    rw [List.forall_mem_cons] at hwritten
    obtain ⟨z, hz, htake⟩ := bind_eq_ok.1 htake
    rw [List.append_cons]
    exact ih (recalls_take before hwritten.1 hz) hwritten.2 htake

/-- **What is known of the yard** after some symbols of a pattern. -/
theorem holds_and_recalls (hwritten : ∀ s ∈ found, s.1 ≠ .binary .concat)
    (htake : start.takeAll found = .ok y) : Holds (found.map Prod.fst) y ∧ Recalls found y := by
  have hholds : Holds ([] ++ found.map Prod.fst) y := holds_start.takeAll hwritten htake
  have hrecalls : Recalls ([] ++ found) y := Recalls.start.takeAll hwritten htake
  exact ⟨hholds, hrecalls⟩

/-! ### A symbol that is refused -/

/-- **An error comes from one symbol**, and those before it were taken. -/
theorem exists_refused (h : y.takeAll found = .error e) :
    ∃ (before : List (Symbol × Nat)) (symbol : Symbol) (offset : Nat)
      (after : List (Symbol × Nat)) (y' : Yard), found = before ++ (symbol, offset) :: after ∧
        y.takeAll before = .ok y' ∧ y'.take symbol offset = .error e := by
  induction found generalizing y with
  | nil => cases h
  | cons s found ih =>
    obtain ⟨symbol, offset⟩ := s
    rcases bind_eq_error.1 h with hsymbol | ⟨z, hz, hrest⟩
    · exact ⟨[], symbol, offset, found, y, rfl, rfl, hsymbol⟩
    · obtain ⟨before, symbol', offset', after, y', rfl, hbefore, hrefused⟩ := ih hrest
      refine ⟨(symbol, offset) :: before, symbol', offset', after, y', rfl, ?_, hrefused⟩
      rw [takeAll, hz]
      exact hbefore

/-- An operator is refused where nothing ends an operand. -/
theorem Recalls.misplaced_operator (h : Recalls before y) (hafter : y.afterOperand = false)
    (hsymbol : symbol.operator? = some c) :
    Misplaced (before ++ (symbol, offset) :: after) (.missingOperand c offset) := by
  cases h with
  | start => exact .operatorAtStart hsymbol
  | openGroup =>
    rw [← List.append_cons]
    exact .operatorAfter (.inl rfl) hsymbol
  | union =>
    rw [← List.append_cons]
    exact .operatorAfter (.inr rfl) hsymbol
  | operand htrue =>
    rw [hafter] at htrue
    cases htrue

/-- So is a closing parenthesis. -/
theorem Recalls.misplaced_close (h : Recalls before y) (hafter : y.afterOperand = false) :
    Misplaced (before ++ (.closeGroup, offset) :: after) (y.closeError offset) := by
  cases h with
  | start => exact .unmatchedClose (.inl rfl)
  | openGroup =>
    rw [← List.append_cons]
    exact .emptyGroup
  | union =>
    rw [← List.append_cons]
    exact .barBefore
  | operand htrue =>
    rw [hafter] at htrue
    cases htrue

theorem Holding.exists_cons {level : Level} (h : Holding level ss operands pending) :
    ∃ r rest, operands = r :: rest := by
  cases h with
  | mk => exact ⟨_, _, rfl⟩

/-- Without an open group, an alternation is all that the stacks hold. -/
theorem Holding.exists_phrase (h : Holding .alternation ss operands []) :
    ∃ r, operands = [r] ∧ Phrase .alternation ss r := by
  cases h with
  | mk hawaits hphrase =>
    cases hawaits
    exact ⟨_, rfl, hphrase⟩

/-- **No symbol is refused for another reason.** -/
theorem Holds.misplaced_of_take (h : Holds (before.map Prod.fst) y) (hrecalls : Recalls before y)
    (hwritten : symbol ≠ .binary .concat) (htake : y.take symbol offset = .error e) :
    Misplaced (before ++ (symbol, offset) :: after) e := by
  cases symbol with
  | operand r =>
    -- what starts an operand is never refused
    obtain ⟨z, -, hz⟩ := h.exists_awaits (.operand r) offset rfl
    rw [hz] at htake
    cases htake
  | openGroup =>
    obtain ⟨z, -, hz⟩ := h.exists_awaits .openGroup offset rfl
    rw [hz] at htake
    cases htake
  | quantifier q =>
    rw [take_eq_feed rfl, feed] at htake
    split at htake
    · next hafter =>
      obtain ⟨r, operands, hoperands⟩ := (h.holding_of_afterOperand hafter).exists_cons
      rw [hoperands] at htake
      cases htake
    · next hafter =>
      cases htake
      exact hrecalls.misplaced_operator (Bool.eq_false_iff.2 hafter) rfl
  | binary op =>
    cases op with
    | concat => exact absurd rfl hwritten
    | union =>
      rw [take_eq_feed rfl, feed] at htake
      split at htake
      · next hafter =>
        obtain ⟨operands, pending, -, hsettled, hreduce⟩ :=
          (h.holding_of_afterOperand hafter).sequence.exists_settled
        rw [hreduce _ rfl, reduce_of_settled hsettled] at htake
        cases htake
      · next hafter =>
        cases htake
        exact hrecalls.misplaced_operator (Bool.eq_false_iff.2 hafter) rfl
  | closeGroup =>
    rw [take_eq_feed rfl, feed, Yard.close] at htake
    split at htake
    · next hafter =>
      obtain ⟨operands, pending, hholding, hgrouped, hreduce⟩ :=
        (h.holding_of_afterOperand hafter).exists_grouped
      rw [hreduce _ fun op => rfl] at htake
      cases hgrouped with
      | nil =>
        obtain ⟨r, -, hphrase⟩ := hholding.exists_phrase
        cases htake
        exact .unmatchedClose (.inr ⟨r, hphrase⟩)
      | cons =>
        rw [reduce_stop rfl] at htake
        cases htake
    · next hafter =>
      cases htake
      exact hrecalls.misplaced_close (Bool.eq_false_iff.2 hafter)

/-! ### A pattern that does not end -/

/-- With an open group, an alternation is all that follows its parenthesis. -/
theorem Holding.exists_group (h : Holding .alternation ss operands ((.group, offset) :: pending)) :
    ∃ ss₁ ss₂ r, ss = ss₁ ++ .openGroup :: ss₂ ∧ Phrase .alternation ss₂ r := by
  cases h with
  | mk hawaits hphrase =>
    cases hawaits with
    | @group ss₁ =>
      refine ⟨ss₁, _, _, ?_, hphrase⟩
      rw [List.append_assoc]
      rfl

/-- **A group is unclosed** if a phrase follows its parenthesis up to the end. -/
theorem finish_of_unclosed (htake : start.takeAll (before ++ (.openGroup, offset) :: after) = .ok y)
    (hphrase : Phrase .alternation (after.map Prod.fst) r) :
    y.finish = .error (.unclosedGroup offset) := by
  rw [takeAll_append] at htake
  obtain ⟨y₁, -, htake⟩ := bind_eq_ok.1 htake
  obtain ⟨y₂, hopen, htake⟩ := bind_eq_ok.1 htake
  obtain ⟨z, hopen⟩ := exists_feed_of_take hopen
  cases hopen
  -- the phrase is read on top of the parenthesis, and nothing in it closes the group
  obtain ⟨y', hy', hreached⟩ := takeAll_phrase z.operands ((.group, offset) :: z.pending)
    (some offset) hphrase rfl fun _ => trivial
  obtain rfl : y' = y := Except.ok.inj (hy'.symm.trans htake)
  rw [finish, if_pos hreached.afterOperand, hreached.reduce _ fun op _ => rfl]
  rfl

/-- **Nor does the end fail for another reason.** -/
theorem misplaced_of_finish (htake : start.takeAll found = .ok y)
    (hwritten : ∀ s ∈ found, s.1 ≠ .binary .concat) (hfinish : y.finish = .error e) :
    Misplaced found e := by
  obtain ⟨hholds, hrecalls⟩ := holds_and_recalls hwritten htake
  cases hafter : y.afterOperand with
  | true =>
    obtain ⟨operands, pending, hholding, hgrouped, hreduce⟩ :=
      (hholds.holding_of_afterOperand hafter).exists_grouped
    cases hgrouped with
    | nil =>
      -- a whole phrase is accepted
      obtain ⟨r, rfl, -⟩ := hholding.exists_phrase
      rw [finish, if_pos hafter, hreduce _ fun op => rfl] at hfinish
      cases hfinish
    | cons =>
      obtain ⟨ss₁, ss₂, r, hss, hphrase⟩ := hholding.exists_group
      obtain ⟨before, _, rfl, -, hrest⟩ := List.map_eq_append_iff.1 hss
      obtain ⟨⟨_, opened⟩, after, rfl, rfl, rfl⟩ := List.map_eq_cons_iff.1 hrest
      rw [finish_of_unclosed htake hphrase] at hfinish
      cases hfinish
      exact .unclosedGroup (.inr ⟨r, hphrase⟩)
  | false =>
    rw [finish, if_neg (Bool.eq_false_iff.1 hafter)] at hfinish
    cases hrecalls with
    | start =>
      cases hfinish
      exact .emptyPattern
    | openGroup =>
      cases hfinish
      exact .unclosedGroup (.inl rfl)
    | union =>
      cases hfinish
      exact .barAtEnd
    | operand htrue =>
      rw [hafter] at htrue
      cases htrue

/-- **Every rejection names what is misplaced.** -/
theorem misplaced_of_read (hwritten : ∀ s ∈ found, s.1 ≠ .binary .concat)
    (h : (start.feedAll (join false found) >>= finish) = .error e) : Misplaced found e := by
  have hjoin : start.feedAll (join false found) = start.takeAll found := feedAll_join
  rw [hjoin] at h
  rcases bind_eq_error.1 h with hrefused | ⟨y, htake, hfinish⟩
  · obtain ⟨before, symbol, offset, after, y, rfl, htake, hrefused⟩ := exists_refused hrefused
    rw [List.forall_mem_append, List.forall_mem_cons] at hwritten
    obtain ⟨hbefore, hsymbol, -⟩ := hwritten
    obtain ⟨hholds, hrecalls⟩ := holds_and_recalls hbefore htake
    exact hholds.misplaced_of_take hrecalls hsymbol hrefused
  · exact misplaced_of_finish htake hwritten hfinish

end Yard

end LexerGen.Pattern
