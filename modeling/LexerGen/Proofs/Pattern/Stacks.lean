import LexerGen.Proofs.Pattern.Phrases

/-!
# What the stacks of the yard stand for

The yard forgets the symbols that it has taken, but they can be told from its stacks. Each operator
on the stack waits for its right operand, and its left operand is the tree of a phrase; each open
group is a parenthesis. `Awaits` puts these together again, and `Holding` adds the phrase that has
been read since, if one has. Which symbols were taken is what every step keeps track of: a reduction
joins phrases to longer ones and changes no symbol (`Holding.exists_settled`,
`Holding.exists_grouped`), and one more symbol is one more symbol (`Holds.take`).

At the end of a pattern that is accepted all operators have been applied and no group is open, so
the symbols are those of a single phrase. With the converse, that every phrase is read, this says
exactly what the yard accepts (`read_eq_ok_iff`).
-/

namespace LexerGen.Pattern.Yard

open Regex

variable {level : Level} {r l : Regex} {ss ts : List Symbol} {symbol : Symbol} {offset : Nat}
  {found : List (Symbol × Nat)} {y y' : Yard} {operands : List Regex}
  {pending : List (Pending × Nat)}

/-! ### Symbols that the stacks stand for -/

/-- **The stacks wait for an operand**, after the given symbols. -/
inductive Awaits : List Symbol → List Regex → List (Pending × Nat) → Prop
  | start : Awaits [] [] []
  | group {ss : List Symbol} {operands : List Regex} {pending : List (Pending × Nat)}
      {offset : Nat} : Awaits ss operands pending →
      Awaits (ss ++ [.openGroup]) operands ((.group, offset) :: pending)
  /-- A union has taken the concatenations before it. -/
  | union {ss ts : List Symbol} {l : Regex} {operands : List Regex}
      {pending : List (Pending × Nat)} {offset : Nat} : Awaits ss operands pending →
      Settled pending → Phrase .sequence ts l →
      Awaits (ss ++ ts ++ [.binary .union]) (l :: operands) ((.binary .union, offset) :: pending)
  /-- A concatenation leaves no symbol. -/
  | concat {ss ts : List Symbol} {l : Regex} {operands : List Regex}
      {pending : List (Pending × Nat)} {offset : Nat} : Awaits ss operands pending →
      Phrase .repetition ts l →
      Awaits (ss ++ ts) (l :: operands) ((.binary .concat, offset) :: pending)

/-- **The stacks hold a phrase** of the given level, which ends with the given symbols. -/
inductive Holding (level : Level) : List Symbol → List Regex → List (Pending × Nat) → Prop
  | mk {ss ts : List Symbol} {r : Regex} {operands : List Regex}
      {pending : List (Pending × Nat)} : Awaits ss operands pending → Phrase level ts r →
      Holding level (ss ++ ts) (r :: operands) pending

/-- **The yard after the given symbols** holds a phrase or waits for one. -/
inductive Holds (ss : List Symbol) (y : Yard) : Prop
  | awaits : y.afterOperand = false → Awaits ss y.operands y.pending → Holds ss y
  | holding : y.afterOperand = true → Holding .repetition ss y.operands y.pending → Holds ss y

theorem holds_start : Holds [] start := .awaits rfl .start

/-! ### Reducing joins phrases -/

theorem Holding.sequence (h : Holding .repetition ss operands pending) :
    Holding .sequence ss operands pending := by
  cases h with
  | mk hawaits hphrase => exact .mk hawaits (.repetition hphrase)

theorem Holding.alternation (h : Holding .sequence ss operands pending) :
    Holding .alternation ss operands pending := by
  cases h with
  | mk hawaits hphrase => exact .mk hawaits (.sequence hphrase)

/-- **Applying the concatenations** on top leaves a sequence of the same symbols. -/
theorem Holding.exists_settled (h : Holding .sequence ss operands pending) :
    ∃ operands' pending', Holding .sequence ss operands' pending' ∧ Settled pending' ∧
      ∀ stop, stop (.binary .concat) = false →
        reduce stop operands pending = reduce stop operands' pending' := by
  obtain ⟨hawaits, hphrase⟩ := h
  rename_i ss ts r operands
  -- on what the stacks stand for: each concatenation on top takes the phrase into a longer one
  induction hawaits generalizing ts r with
  | start => exact ⟨_, _, .mk .start hphrase, trivial, fun _ _ => rfl⟩
  | group hawaits _ => exact ⟨_, _, .mk (.group hawaits) hphrase, trivial, fun _ _ => rfl⟩
  | union hawaits hsettled hleft _ =>
    exact ⟨_, _, .mk (.union hawaits hsettled hleft) hphrase, trivial, fun _ _ => rfl⟩
  | concat _ hleft ih =>
    -- the phrase on top is the right operand, and the one below it the left
    obtain ⟨operands', pending', hholding, hsettled, hreduce⟩ := ih (.concat hleft hphrase)
    rw [← List.append_assoc] at hholding
    refine ⟨operands', pending', hholding, hsettled, fun stop hstop => ?_⟩
    rw [reduce_binary hstop]
    exact hreduce stop hstop

/-- **No operator is on top**: the pattern or the innermost group begins here. -/
inductive Grouped : List (Pending × Nat) → Prop
  | nil : Grouped []
  | cons {offset : Nat} {pending : List (Pending × Nat)} : Grouped ((.group, offset) :: pending)

/-- Applying the unions on top, when there is no concatenation above them, leaves an alternation. -/
theorem Holding.exists_grouped_of_settled (h : Holding .alternation ss operands pending)
    (hsettled : Settled pending) :
    ∃ operands' pending', Holding .alternation ss operands' pending' ∧ Grouped pending' ∧
      ∀ stop, stop (.binary .union) = false →
        reduce stop operands pending = reduce stop operands' pending' := by
  obtain ⟨hawaits, hphrase⟩ := h
  rename_i ss ts r operands
  induction hawaits generalizing ts r with
  | start => exact ⟨_, _, .mk .start hphrase, .nil, fun _ _ => rfl⟩
  | group hawaits _ => exact ⟨_, _, .mk (.group hawaits) hphrase, .cons, fun _ _ => rfl⟩
  | union _ hbelow hleft ih =>
    -- a union was pushed on top of no concatenation, so below it the same holds
    obtain ⟨operands', pending', hholding, hgrouped, hreduce⟩ := ih hbelow (.union hleft hphrase)
    refine ⟨operands', pending', ?_, hgrouped, fun stop hstop => ?_⟩
    · simpa using hholding
    · rw [reduce_binary hstop]
      exact hreduce stop hstop
  | concat => exact hsettled.elim

/-- **Applying all operators** on top leaves an alternation of the same symbols. -/
theorem Holding.exists_grouped (h : Holding .repetition ss operands pending) :
    ∃ operands' pending', Holding .alternation ss operands' pending' ∧ Grouped pending' ∧
      ∀ stop, (∀ op, stop (.binary op) = false) →
        reduce stop operands pending = reduce stop operands' pending' := by
  obtain ⟨operands₁, pending₁, hsequence, hsettled, hreduce₁⟩ := h.sequence.exists_settled
  obtain ⟨operands₂, pending₂, halternation, hgrouped, hreduce₂⟩ :=
    hsequence.alternation.exists_grouped_of_settled hsettled
  refine ⟨operands₂, pending₂, halternation, hgrouped, fun stop hstop => ?_⟩
  calc reduce stop operands pending
      = reduce stop operands₁ pending₁ := hreduce₁ stop (hstop _)
    _ = reduce stop operands₂ pending₂ := hreduce₂ stop (hstop _)

/-! ### One more symbol -/

/-- A symbol that starts an operand is fed to a yard that waits for one: the yard itself, or the
yard after the concatenation that is implied. -/
theorem Holds.exists_awaits (symbol : Symbol) (offset : Nat) (h : Holds ss y)
    (hsymbol : symbol.startsOperand = true) :
    ∃ z : Yard, Awaits ss z.operands z.pending ∧ y.take symbol offset = z.feed symbol offset := by
  cases h with
  | awaits hafter hawaits =>
    refine ⟨y, hawaits, ?_⟩
    rw [take, hafter]
    rfl
  | holding hafter hholding =>
    obtain ⟨operands, pending, afterOperand, justOpened⟩ := y
    obtain rfl : afterOperand = true := hafter
    cases hholding with
    | @mk ss ts r operands _ hawaits hphrase =>
      -- the implied concatenation comes first, and leaves no symbol
      refine ⟨⟨r :: operands, (.binary .concat, offset) :: pending, false, none⟩,
        .concat hawaits hphrase, ?_⟩
      rw [take, hsymbol]
      show (feed _ (.binary .concat) offset >>= _) = _
      rw [feed_concat rfl]
      rfl

theorem Holds.holding_of_afterOperand (h : Holds ss y) (hafter : y.afterOperand = true) :
    Holding .repetition ss y.operands y.pending := by
  cases h with
  | awaits hnot => exact absurd hafter (Bool.eq_false_iff.1 hnot)
  | holding _ hholding => exact hholding

theorem take_eq_feed (h : symbol.startsOperand = false) :
    y.take symbol offset = y.feed symbol offset := by
  rw [take, h, Bool.and_false]
  rfl

theorem Holds.feed_quantifier {q : Quantifier} (h : Holds ss y)
    (hfeed : y.feed (.quantifier q) offset = .ok y') : Holds (ss ++ [.quantifier q]) y' := by
  rw [feed] at hfeed
  split at hfeed
  · next hafter =>
    have hholding := h.holding_of_afterOperand hafter
    obtain ⟨operands, pending, afterOperand, justOpened⟩ := y
    cases hholding with
    | @mk ss ts r operands _ hawaits hphrase =>
      cases hfeed
      refine .holding rfl ?_
      rw [List.append_assoc]
      exact .mk hawaits (.quantifier q hphrase)
  · cases hfeed

/-- A union takes the sequence before it as its left operand. -/
theorem Holds.feed_union (h : Holds ss y)
    (hfeed : y.feed (.binary .union) offset = .ok y') : Holds (ss ++ [.binary .union]) y' := by
  rw [feed] at hfeed
  split at hfeed
  · next hafter =>
    obtain ⟨operands, pending, hholding, hsettled, hreduce⟩ :=
      (h.holding_of_afterOperand hafter).sequence.exists_settled
    rw [hreduce _ rfl, reduce_of_settled hsettled] at hfeed
    cases hfeed
    cases hholding with
    | mk hawaits hphrase => exact .awaits rfl (.union hawaits hsettled hphrase)
  · cases hfeed

/-- A closing parenthesis makes an operand of the alternation in its group. -/
theorem Holds.close (h : Holds ss y) (hclose : y.close offset = .ok y') :
    Holds (ss ++ [.closeGroup]) y' := by
  rw [Yard.close] at hclose
  split at hclose
  · next hafter =>
    obtain ⟨operands, pending, hholding, hgrouped, hreduce⟩ :=
      (h.holding_of_afterOperand hafter).exists_grouped
    rw [hreduce _ fun op => rfl] at hclose
    cases hgrouped with
    | nil =>
      -- without an open group there is nothing to close
      cases hclose
    | @cons opened pending =>
      rw [reduce_stop rfl] at hclose
      cases hclose
      cases hholding with
      | @mk _ ts r _ _ hawaits hphrase =>
        cases hawaits with
        | @group ss _ _ _ hawaits =>
          refine .holding rfl ?_
          rw [List.append_assoc, List.append_assoc]
          exact .mk hawaits (.atom (.group hphrase))
  · cases hclose

/-- **Every written symbol is added** to the symbols that the yard stands for. -/
theorem Holds.take (h : Holds ss y) (hwritten : symbol ≠ .binary .concat)
    (htake : y.take symbol offset = .ok y') : Holds (ss ++ [symbol]) y' := by
  cases symbol with
  | operand r =>
    obtain ⟨z, hawaits, hz⟩ := h.exists_awaits (.operand r) offset rfl
    rw [hz] at htake
    cases htake
    exact .holding rfl (.mk hawaits (.atom .operand))
  | openGroup =>
    obtain ⟨z, hawaits, hz⟩ := h.exists_awaits .openGroup offset rfl
    rw [hz] at htake
    cases htake
    exact .awaits rfl (.group hawaits)
  | quantifier q =>
    rw [take_eq_feed rfl] at htake
    exact h.feed_quantifier htake
  | closeGroup =>
    rw [take_eq_feed rfl] at htake
    exact h.close htake
  | binary op =>
    rw [take_eq_feed rfl] at htake
    cases op with
    | union => exact h.feed_union htake
    | concat => exact absurd rfl hwritten

theorem Holds.takeAll (h : Holds ss y) (hwritten : ∀ s ∈ found, s.1 ≠ .binary .concat)
    (htake : y.takeAll found = .ok y') : Holds (ss ++ found.map Prod.fst) y' := by
  induction found generalizing ss y with
  | nil =>
    cases htake
    rwa [List.map_nil, List.append_nil]
  | cons s found ih =>
    rw [List.forall_mem_cons] at hwritten
    obtain ⟨z, hz, htake⟩ := bind_eq_ok.1 htake
    have hnext := ih (h.take hwritten.1 hz) hwritten.2 htake
    rwa [List.append_assoc] at hnext

/-! ### The end of a pattern -/

/-- **What is accepted is a phrase.** -/
theorem Holds.phrase_of_finish (h : Holds ss y) (hfinish : y.finish = .ok r) :
    Phrase .alternation ss r := by
  rw [finish] at hfinish
  split at hfinish
  · next hafter =>
    obtain ⟨operands, pending, hholding, hgrouped, hreduce⟩ :=
      (h.holding_of_afterOperand hafter).exists_grouped
    rw [hreduce _ fun op => rfl] at hfinish
    cases hgrouped with
    | cons =>
      -- an open group cannot be applied
      cases hholding
      cases hfinish
    | nil =>
      cases hholding with
      | mk hawaits hphrase =>
        cases hawaits
        cases hfinish
        exact hphrase
  · split at hfinish <;> cases hfinish

/-- **A phrase is accepted.** -/
theorem exists_finish_of_phrase (h : Phrase .alternation (found.map Prod.fst) r) :
    ∃ y, start.takeAll found = .ok y ∧ y.finish = .ok r := by
  obtain ⟨y, hy, hreached⟩ := takeAll_phrase [] [] none h rfl fun _ => trivial
  refine ⟨y, hy, ?_⟩
  rw [finish, if_pos hreached.afterOperand, hreached.reduce _ fun op _ => rfl]
  rfl

/-- **The yard reads exactly the phrases** that written symbols make up. -/
theorem read_eq_ok_iff (hwritten : ∀ s ∈ found, s.1 ≠ .binary .concat) :
    (start.feedAll (join false found) >>= finish) = .ok r ↔
      Phrase .alternation (found.map Prod.fst) r := by
  have hjoin : start.feedAll (join false found) = start.takeAll found := feedAll_join
  rw [hjoin, bind_eq_ok]
  constructor
  · rintro ⟨y, hy, hfinish⟩
    have hholds : Holds ([] ++ found.map Prod.fst) y := holds_start.takeAll hwritten hy
    exact hholds.phrase_of_finish hfinish
  · exact exists_finish_of_phrase

end LexerGen.Pattern.Yard
