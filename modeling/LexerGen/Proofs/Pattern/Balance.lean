import LexerGen.Proofs.Pattern.Classes

/-!
# The stacks of the yard are in balance

An operator that waits on the stack has its left operand below it, and its right operand comes
later. So there are as many trees as operators, and one more after an operand (`Balanced`), since
then a right operand is complete. It follows that no operator is ever applied to too few trees
(`reduce_cases`), and that at the end of a pattern one tree is left (`Balanced.reduce_all`).

The balance depends on the symbols that come in. No operand may start where one has just ended, and
this is what the implied concatenations are inserted for. Therefore a concatenation always stands
between the end of an operand and the beginning of another (`Spaced`). Every single symbol keeps the
balance (`Balanced.feed`), and so do all of them (`Balanced.feedAll`).

The operators within a group are in order: no union waits above a concatenation (`Tidy`), since a
union applies the concatenations before it. That is why operators that wait can be applied from the
top.
-/

namespace LexerGen.Pattern

open Regex

variable {symbol : Symbol} {offset : Nat} {s : Symbol × Nat}
  {found before after : List (Symbol × Nat)} {flag : Bool}

/-! ### Where operands start -/

/-- Whether symbols end an operand; the flag is for no symbols. -/
def endsOperand (flag : Bool) (found : List (Symbol × Nat)) : Bool :=
  (found.getLast?.map fun s => s.1.endsOperand).getD flag

theorem endsOperand_cons : endsOperand flag (s :: found) = endsOperand s.1.endsOperand found := by
  rw [endsOperand, endsOperand, List.getLast?_cons]
  cases found.getLast? <;> rfl

/-- **Symbols with all concatenations inserted**: an operand starts only where none has just ended,
and a concatenation stands only between the end of one and the start of another. The flag says
whether an operand ended before the symbols. -/
def Spaced (flag : Bool) : List (Symbol × Nat) → Prop
  | [] => True
  | s :: found =>
    (s.1.startsOperand = true → flag = false) ∧
      (s.1 = .binary .concat →
        flag = true ∧ ∃ t more, found = t :: more ∧ t.1.startsOperand = true) ∧
      Spaced s.1.endsOperand found

/-- **Inserting the implied concatenations** spaces the symbols. -/
theorem spaced_join (h : ∀ s ∈ found, s.1 ≠ .binary .concat) : Spaced flag (join flag found) := by
  induction found generalizing flag with
  | nil => exact trivial
  | cons s found ih =>
    obtain ⟨hs, hfound⟩ := List.forall_mem_cons.1 h
    rw [join]
    split
    · next hboth =>
      obtain ⟨hflag, hstart⟩ := Bool.and_eq_true_iff.1 hboth
      refine ⟨fun hop => ?_, fun _ => ⟨hflag, s, _, rfl, hstart⟩, fun _ => rfl, ?_, ih hfound⟩
      · cases hop
      · exact fun hconcat => absurd hconcat hs
    · next hnot =>
      refine ⟨fun hstart => ?_, fun hconcat => absurd hconcat hs, ih hfound⟩
      rw [hstart, Bool.and_true] at hnot
      exact Bool.eq_false_iff.2 hnot

theorem Spaced.of_append (h : Spaced flag (before ++ after)) :
    Spaced (endsOperand flag before) after := by
  induction before generalizing flag with
  | nil => exact h
  | cons s before ih =>
    rw [endsOperand_cons]
    exact ih h.2.2

namespace Yard

variable {y y' : Yard} {operands operands' : List Regex} {pending pending' : List (Pending × Nat)}
  {stop : Pending → Bool}

/-! ### Operators in order -/

/-- **No union waits above a concatenation** of the same group. -/
def Tidy (pending : List (Pending × Nat)) : Prop :=
  ∀ above between below i j,
    pending = above ++ (.binary .union, i) :: between ++ (.binary .concat, j) :: below →
    ∃ k, (.group, k) ∈ between

theorem tidy_nil : Tidy [] := by
  intro above between below i j h
  simp at h

theorem Tidy.of_suffix (h : Tidy pending) (hsuffix : pending' <:+ pending) : Tidy pending' := by
  obtain ⟨more, rfl⟩ := hsuffix
  intro above between below i j heq
  refine h (more ++ above) between below i j ?_
  rw [heq]
  simp

/-- Whatever is no union may be put on top. -/
theorem Tidy.cons {entry : Pending × Nat} (h : Tidy pending) (hentry : entry.1 ≠ .binary .union) :
    Tidy (entry :: pending) := by
  intro above between below i j heq
  cases above with
  | nil =>
    obtain ⟨rfl, -⟩ := List.cons.inj heq
    exact absurd rfl hentry
  | cons top above => exact h above between below i j (List.cons.inj heq).2

/-- A union may be put on top if no concatenation is there. -/
theorem Tidy.cons_union (h : Tidy pending) (hsettled : Settled pending) :
    Tidy ((.binary .union, offset) :: pending) := by
  intro above between below i j heq
  cases above with
  | cons top above => exact h above between below i j (List.cons.inj heq).2
  | nil =>
    have hpending : pending = between ++ (.binary .concat, j) :: below := (List.cons.inj heq).2
    rcases between with _ | ⟨⟨_ | op, k⟩, between⟩
    · rw [hpending] at hsettled
      exact hsettled.elim
    · exact ⟨k, List.mem_cons_self⟩
    · cases op with
      | concat =>
        rw [hpending] at hsettled
        exact hsettled.elim
      | union =>
        -- the union below has a group above the concatenation
        obtain ⟨k', hk'⟩ := h [] between below k j hpending
        exact ⟨k', List.mem_cons_of_mem _ hk'⟩

/-! ### The balance -/

/-- The number of operators that wait, groups not counted. -/
def operators (pending : List (Pending × Nat)) : Nat := pending.countP fun entry => entry.1 ≠ .group

theorem operators_group : operators ((.group, offset) :: pending) = operators pending := by
  simp [operators]

theorem operators_binary {op : BinaryOp} :
    operators ((.binary op, offset) :: pending) = operators pending + 1 := by
  simp [operators]

/-- **The balance of the stacks.** There is a tree for each operator that waits, and one more after
an operand; and the operators are in order. -/
structure Balanced (y : Yard) : Prop where
  length_operands : y.operands.length = operators y.pending + if y.afterOperand then 1 else 0
  tidy : Tidy y.pending

theorem balanced_start : Balanced start := ⟨rfl, tidy_nil⟩

/-- **Where one tree more waits than operators do, each operator finds its operands**: two trees are
on top, and with the operator applied to them there is still one tree more. -/
theorem exists_operands {op : BinaryOp}
    (h : operands.length = operators ((.binary op, offset) :: pending) + 1) :
    ∃ r l rest, operands = r :: l :: rest ∧
      (op.apply l r :: rest).length = operators pending + 1 := by
  rw [operators_binary] at h
  rcases operands with _ | ⟨r, _ | ⟨l, rest⟩⟩
  · simp at h
  · simp at h
  · refine ⟨r, l, rest, rfl, ?_⟩
    rw [List.length_cons, List.length_cons] at h
    rw [List.length_cons]
    omega

/-- **A reduction keeps one tree more**, and it stops only at an entry that it is told to stop at.
There is no other reason for it to fail than an open group, so no operator lacks a tree. -/
theorem reduce_cases (stop : Pending → Bool) (h : operands.length = operators pending + 1) :
    (∃ operands' pending', reduce stop operands pending = .ok (operands', pending') ∧
      operands'.length = operators pending' + 1 ∧ pending' <:+ pending ∧
      ∀ entry ∈ pending'.head?, stop entry.1 = true) ∨
    ∃ offset, reduce stop operands pending = .error (.unclosedGroup offset) := by
  induction pending generalizing operands with
  | nil => exact .inl ⟨operands, [], rfl, h, List.suffix_rfl, by simp⟩
  | cons entry pending ih =>
    obtain ⟨entry, offset⟩ := entry
    cases hstop : stop entry with
    | true =>
      refine .inl ⟨operands, _, reduce_stop hstop, h, List.suffix_rfl, ?_⟩
      rintro _ ⟨⟩
      exact hstop
    | false =>
      cases entry with
      | group =>
        refine .inr ⟨offset, ?_⟩
        rw [reduce, if_neg (Bool.eq_false_iff.1 hstop)]
        rfl
      | binary op =>
        -- the two trees on top become one, so one more than the operators is still left
        obtain ⟨r, l, rest, rfl, hrest⟩ := exists_operands h
        rw [reduce_binary hstop]
        rcases ih hrest with ⟨operands', pending', hreduce, hlength, hsuffix, hhead⟩ | herror
        · exact .inl ⟨operands', pending', hreduce, hlength, hsuffix.trans (List.suffix_cons _ _),
            hhead⟩
        · exact .inr herror

/-- What a reduction leaves. -/
theorem reduce_ok (h : operands.length = operators pending + 1)
    (hreduce : reduce stop operands pending = .ok (operands', pending')) :
    operands'.length = operators pending' + 1 ∧ pending' <:+ pending ∧
      ∀ entry ∈ pending'.head?, stop entry.1 = true := by
  rcases reduce_cases stop h with ⟨_, _, hok, hleft⟩ | ⟨_, herror⟩
  · cases hok.symm.trans hreduce
    exact hleft
  · cases herror.symm.trans hreduce

theorem Balanced.length_of_afterOperand (h : Balanced y) (hafter : y.afterOperand = true) :
    y.operands.length = operators y.pending + 1 := by
  rw [h.length_operands, if_pos hafter]

/-- After an operand a quantifier finds its tree. -/
theorem Balanced.applyQuantifier (h : Balanced y) (hafter : y.afterOperand = true)
    (q : Quantifier) (offset : Nat) :
    ∃ r rest, y.operands = r :: rest ∧
      Yard.applyQuantifier q offset y.operands = .ok (q.apply r :: rest) := by
  have hlength := h.length_of_afterOperand hafter
  cases hoperands : y.operands with
  | nil =>
    rw [hoperands] at hlength
    cases hlength
  | cons r rest => exact ⟨r, rest, rfl, rfl⟩

/-- **At the end one tree is left**, and no operator. -/
theorem Balanced.reduce_all (h : Balanced y) (hafter : y.afterOperand = true)
    (hreduce : reduce (fun _ => false) y.operands y.pending = .ok (operands, pending)) :
    ∃ r, operands = [r] ∧ pending = [] := by
  obtain ⟨hlength, -, hhead⟩ := reduce_ok (h.length_of_afterOperand hafter) hreduce
  obtain rfl : pending = [] := by
    cases pending with
    | nil => rfl
    | cons entry pending => exact absurd (hhead entry rfl) Bool.false_ne_true
  obtain ⟨r, rfl⟩ := List.length_eq_one_iff.1 hlength
  exact ⟨r, rfl, rfl⟩

/-! ### Every symbol keeps the balance -/

theorem Balanced.close (h : Balanced y) (hclose : y.close offset = .ok y') : Balanced y' := by
  unfold Yard.close at hclose
  split at hclose
  · next hafter =>
    obtain ⟨⟨operands, pending⟩, hreduce, hclose⟩ := bind_eq_ok.1 hclose
    obtain ⟨hlength, hsuffix, hhead⟩ := reduce_ok (h.length_of_afterOperand hafter) hreduce
    rcases pending with _ | ⟨⟨entry, opened⟩, pending⟩
    · cases hclose
    · cases hclose
      -- what is left starts with the parenthesis, which is no operator
      obtain rfl : entry = .group := by simpa using hhead _ rfl
      exact ⟨by rw [hlength, operators_group]; rfl,
        h.tidy.of_suffix ((List.suffix_cons _ _).trans hsuffix)⟩
  · cases hclose

theorem Balanced.feed_binary {op : BinaryOp} (h : Balanced y)
    (hfeed : y.feed (.binary op) offset = .ok y') : Balanced y' := by
  rw [feed] at hfeed
  split at hfeed
  · next hafter =>
    obtain ⟨⟨operands, pending⟩, hreduce, hfeed⟩ := bind_eq_ok.1 hfeed
    obtain ⟨hlength, hsuffix, hhead⟩ := reduce_ok (h.length_of_afterOperand hafter) hreduce
    have htidy : Tidy pending := h.tidy.of_suffix hsuffix
    cases hfeed
    refine ⟨by rw [operators_binary]; exact hlength, ?_⟩
    cases op with
    | concat =>
      refine htidy.cons fun hunion => ?_
      cases hunion
    | union =>
      -- concatenations do not stop a union, so there is none on top any more
      refine htidy.cons_union ?_
      rcases pending with _ | ⟨⟨_ | _ | _, _⟩, pending⟩
      · trivial
      · trivial
      · trivial
      · cases hhead _ rfl
  · cases hfeed

/-- **A symbol keeps the balance**, if it starts no operand where one has just ended. -/
theorem Balanced.feed (h : Balanced y)
    (hstart : symbol.startsOperand = true → y.afterOperand = false)
    (hfeed : y.feed symbol offset = .ok y') : Balanced y' := by
  cases symbol with
  | operand r =>
    have hlength := h.length_operands
    rw [hstart rfl] at hlength
    cases hfeed
    exact ⟨congrArg (· + 1) hlength, h.tidy⟩
  | openGroup =>
    have hlength := h.length_operands
    rw [hstart rfl] at hlength
    cases hfeed
    exact ⟨by rw [operators_group]; exact hlength, h.tidy.cons nofun⟩
  | closeGroup => exact h.close hfeed
  | quantifier q =>
    rw [Yard.feed] at hfeed
    split at hfeed
    · next hafter =>
      have hlength := h.length_of_afterOperand hafter
      obtain ⟨r, rest, hoperands, hquantifier⟩ := h.applyQuantifier hafter q offset
      rw [hquantifier] at hfeed
      cases hfeed
      rw [hoperands] at hlength
      exact ⟨hlength, h.tidy⟩
    · cases hfeed
  | binary op => exact h.feed_binary hfeed

/-- **All symbols keep the balance**, and the yard knows whether they ended an operand. -/
theorem Balanced.feedAll (h : Balanced y) (hspaced : Spaced y.afterOperand (before ++ after))
    (hfeed : y.feedAll before = .ok y') :
    y'.afterOperand = endsOperand y.afterOperand before ∧ Balanced y' := by
  induction before generalizing y with
  | nil =>
    cases hfeed
    exact ⟨rfl, h⟩
  | cons s before ih =>
    obtain ⟨symbol, offset⟩ := s
    obtain ⟨hstart, -, hrest⟩ := hspaced
    obtain ⟨z, hz, hfeed⟩ := bind_eq_ok.1 hfeed
    have hafter : z.afterOperand = symbol.endsOperand := afterOperand_feed hz
    rw [endsOperand_cons, ← hafter]
    exact ih (h.feed hstart hz) (by rw [hafter]; exact hrest) hfeed

/-! ### What the balance is good for -/

/-- **No tree is missing** where an operand has just ended, whatever is applied next. -/
structure Supplied (y : Yard) : Prop where
  /-- A quantifier finds the operand before it. -/
  quantifier : ∀ q offset, ∃ operands, applyQuantifier q offset y.operands = .ok operands
  /-- Operators find their operands, how many of them are applied. So a reduction fails only at a
  group that it is not told to stop at. -/
  binary : ∀ stop e, reduce stop y.operands y.pending = .error e →
    ∃ offset, e = .unclosedGroup offset
  /-- If all of them can be applied, one tree is left. -/
  finish : ∀ operands pending,
    reduce (fun _ => false) y.operands y.pending = .ok (operands, pending) →
    ∃ r, operands = [r] ∧ pending = []

theorem Balanced.supplied (h : Balanced y) (hafter : y.afterOperand = true) : Supplied y where
  quantifier q offset := by
    obtain ⟨r, rest, -, hquantifier⟩ := h.applyQuantifier hafter q offset
    exact ⟨_, hquantifier⟩
  binary stop e he := by
    have hlength := h.length_of_afterOperand hafter
    rcases reduce_cases stop hlength with ⟨_, _, hok, -⟩ | ⟨offset, herror⟩
    · cases hok.symm.trans he
    · exact ⟨offset, Except.error.inj (he.symm.trans herror)⟩
  finish operands pending hreduce := h.reduce_all hafter hreduce

/-- What is accepted is the tree that is left. -/
theorem Balanced.reduce_of_finish (h : Balanced y) (hfinish : y.finish = .ok r) :
    reduce (fun _ => false) y.operands y.pending = .ok ([r], []) := by
  rw [Yard.finish] at hfinish
  split at hfinish
  · next hafter =>
    obtain ⟨⟨operands, pending⟩, hreduce, hfinish⟩ := bind_eq_ok.1 hfinish
    obtain ⟨r', rfl, rfl⟩ := h.reduce_all hafter hreduce
    cases hfinish
    exact hreduce
  · split at hfinish <;> cases hfinish

end Yard

theorem endsOperand_iff : endsOperand false found = true ↔
    ∃ s, found.getLast? = some s ∧ s.1.endsOperand = true := by
  rw [endsOperand]
  cases found.getLast? <;> simp

theorem exists_of_startsOperand (h : symbol.startsOperand = true) :
    (∃ r, symbol = .operand r) ∨ symbol = .openGroup := by
  cases symbol with
  | operand r => exact .inl ⟨r, rfl⟩
  | openGroup => exact .inr rfl
  | _ => cases h

/-- The symbols of a pattern are spaced, and what is read of them is the pattern, whether classes
are written out or not. -/
theorem spaced_and_parse {text : List Char} {stream : List (Symbol × Nat)}
    (h : symbols text = .ok stream ∨ spreadSymbols text = .ok stream) :
    Spaced false stream ∧ parse text = (Yard.start.feedAll stream >>= Yard.finish) := by
  rcases h with h | h
  · obtain ⟨found, hfound, rfl⟩ := map_eq_ok.1 h
    refine ⟨spaced_join (forall_ne_concat_of_cut (split_eq_ok_iff.1 hfound)), ?_⟩
    rw [parse, h]
    rfl
  · obtain ⟨found', hfound', rfl⟩ := map_eq_ok.1 h
    refine ⟨?_, by rw [parse_eq_spread, h]; rfl⟩
    rcases spread_cases 0 text with ⟨found, _, hsplit, hspread, hspreads⟩ | ⟨e, -, hspread⟩
    · obtain rfl := Except.ok.inj (hspread.symm.trans hfound')
      have hfound := forall_ne_concat_of_cut (split_eq_ok_iff.1 hsplit)
      exact spaced_join (hspreads.forall_ne_concat hfound)
    · rw [hspread] at hfound'
      cases hfound'

/-- **The yard is in balance after every symbol** of a pattern, also of one whose classes are
written out. There are as many trees as operators that wait, and one more after an operand; within a
group no union waits above a concatenation; and a concatenation stands between the end of an operand
and a symbol that starts one. So no operand is ever missing, and what is accepted is the one tree
that is left. -/
theorem yard_balanced (text : List Char) :
    parse text = (spreadSymbols text >>= fun stream => Yard.start.feedAll stream >>= Yard.finish) ∧
    ∀ stream, symbols text = .ok stream ∨ spreadSymbols text = .ok stream →
      (∀ before after y, stream = before ++ after → Yard.start.feedAll before = .ok y →
        (y.afterOperand = true ↔ ∃ s, before.getLast? = some s ∧ s.1.endsOperand = true) ∧
        y.operands.length = Yard.operators y.pending + (if y.afterOperand then 1 else 0) ∧
        Yard.Tidy y.pending ∧
        (y.afterOperand = true → Yard.Supplied y)) ∧
      (∀ before after offset, stream = before ++ (.binary .concat, offset) :: after →
        (∃ s, before.getLast? = some s ∧ s.1.endsOperand = true) ∧
        ∃ s more, after = s :: more ∧ ((∃ r, s.1 = .operand r) ∨ s.1 = .openGroup)) ∧
      ∀ r, parse text = .ok r → ∃ y, Yard.start.feedAll stream = .ok y ∧
        Yard.reduce (fun _ => false) y.operands y.pending = .ok ([r], []) := by
  refine ⟨by rw [parse_eq_spread, bind_assoc], fun stream hstream => ?_⟩
  obtain ⟨hspaced, hparse⟩ := spaced_and_parse hstream
  refine ⟨?_, ?_, ?_⟩
  · rintro before after y rfl hfeed
    obtain ⟨hafter, hbalanced⟩ := Yard.balanced_start.feedAll hspaced hfeed
    refine ⟨?_, hbalanced.length_operands, hbalanced.tidy, hbalanced.supplied⟩
    rw [hafter]
    exact endsOperand_iff
  · rintro before after offset rfl
    obtain ⟨-, hconcat, -⟩ := hspaced.of_append
    obtain ⟨hends, s, more, rfl, hstart⟩ := hconcat rfl
    exact ⟨endsOperand_iff.1 hends, s, more, rfl, exists_of_startsOperand hstart⟩
  · intro r hr
    rw [hparse] at hr
    obtain ⟨y, hfeed, hfinish⟩ := bind_eq_ok.1 hr
    refine ⟨y, hfeed, ?_⟩
    have hspaced' : Spaced Yard.start.afterOperand (stream ++ []) := by rwa [List.append_nil]
    exact (Yard.balanced_start.feedAll hspaced' hfeed).2.reduce_of_finish hfinish

/-- Inside a class that is written out two operators wait, with a group between them, and there are
two trees. At the end there is one. -/
theorem yard_balanced_class :
    (∃ y, Yard.start.feedAll [(.operand (.lit 'x'), 0), (.binary .concat, 1), (.openGroup, 1),
        (.operand (.lit 'a'), 1), (.binary .union, 1)] = .ok y ∧
      y.pending = [(.binary .union, 1), (.group, 1), (.binary .concat, 1)] ∧
      y.operands.length = Yard.operators y.pending ∧ Yard.Tidy y.pending) ∧
    ∃ stream y', spreadSymbols "x[a-b]|y".toList = .ok stream ∧
      Yard.start.feedAll stream = .ok y' ∧
      Yard.reduce (fun _ => false) y'.operands y'.pending =
        .ok ([.union (.concat (.lit 'x') (.union (.lit 'a') (.lit 'b'))) (.lit 'y')], []) := by
  have hspread : spread 0 "x[a-b]|y".toList = .ok ((.operand (.lit 'x'), 0) ::
      classSymbols 'a' 'b' 1 ++ [(.binary .union, 6), (.operand (.lit 'y'), 7)]) :=
    spread_of_read rfl (spread_of_read rfl (spread_of_read rfl (spread_of_read rfl (spread_nil 8))))
  have hstream : spreadSymbols "x[a-b]|y".toList = .ok ([(.operand (.lit 'x'), 0),
      (.binary .concat, 1), (.openGroup, 1), (.operand (.lit 'a'), 1), (.binary .union, 1)] ++
      [(.operand (.lit 'b'), 1), (.closeGroup, 1), (.binary .union, 6),
        (.operand (.lit 'y'), 7)]) := by
    rw [spreadSymbols, hspread]
    rfl
  obtain ⟨hparse, hbalanced⟩ := yard_balanced "x[a-b]|y".toList
  rw [hstream] at hparse
  obtain ⟨hbefore, -, hend⟩ := hbalanced _ (.inr hstream)
  obtain ⟨y', hfeed, hreduce⟩ := hend _ hparse
  obtain ⟨-, hlength, htidy, -⟩ := hbefore _ _ _ rfl rfl
  exact ⟨⟨_, rfl, rfl, hlength, htidy⟩, _, y', hstream, hfeed, hreduce⟩

end LexerGen.Pattern
