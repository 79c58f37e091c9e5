import LexerGen.Proofs.Pattern.Phrases
import LexerGen.Proofs.Pattern.Symbols

/-!
# Classes as groups

A class is read as one operand, the union of its characters. It might as well be written out as a
group, with a bar between any two characters (`classSymbols`): the yard then goes through more
states, but it comes to the same one after the class (`takeAll_classSymbols`), whatever it was
reading before. So a pattern may be read with its classes written out (`parse_eq_spread`), and what
is shown of the yard for these symbols holds at a finer grain.

The symbols of the group are a phrase for the union, and that a phrase is read on any stacks is
known already.
-/

namespace LexerGen.Pattern

open Regex

variable {first last c : Char} {text : List Char} {offset : Nat} {symbol : Symbol}
  {found found' : List (Symbol × Nat)}

/-! ### Writing classes out -/

/-- The characters of a class with bars between them. -/
def runSymbols (offset : Nat) (c : Char) : List Char → List (Symbol × Nat)
  | [] => [(.operand (.lit c), offset)]
  | d :: ds => (.operand (.lit c), offset) :: (.binary .union, offset) :: runSymbols offset d ds

/-- **A class as a group.** All its symbols are where the class is. -/
def classSymbols (first last : Char) (offset : Nat) : List (Symbol × Nat) :=
  (.openGroup, offset) :: runSymbols offset first (charsUpTo first last) ++ [(.closeGroup, offset)]

/-- The symbols for one that starts with `c`, where `rest` follows. -/
def spreadSymbol (c : Char) (rest : List Char) (symbol : Symbol) (offset : Nat) :
    List (Symbol × Nat) :=
  match c, rest with
  | '[', first :: _ :: last :: _ => classSymbols first last offset
  | _, _ => [(symbol, offset)]

/-- **Cuts a text into its written symbols, with the classes written out.** -/
def spread (offset : Nat) : List Char → Except PatternError (List (Symbol × Nat))
  | [] => .ok []
  | c :: rest => do
    let (symbol, more) ← readSymbol offset c rest
    let symbols ← spread (offset + 1 + more) (rest.drop more)
    return spreadSymbol c rest symbol offset ++ symbols
termination_by text => text.length
decreasing_by simp only [List.length_drop, List.length_cons]; omega

/-- The symbols of a pattern with its classes written out, unwritten symbols included. -/
def spreadSymbols (text : List Char) : Except PatternError (List (Symbol × Nat)) :=
  (spread 0 text).map (join false)

/-- **The second list has classes of the first written out.** -/
inductive Spreads : List (Symbol × Nat) → List (Symbol × Nat) → Prop
  | nil : Spreads [] []
  | cons {found found' : List (Symbol × Nat)} (s : Symbol × Nat) :
      Spreads found found' → Spreads (s :: found) (s :: found')
  | charClass {found found' : List (Symbol × Nat)} (first last : Char) (offset : Nat) :
      Spreads found found' →
      Spreads ((.operand (classUnion first last), offset) :: found)
        (classSymbols first last offset ++ found')

/-- **After a bracket only a class is read.** -/
theorem eq_classUnion_of_readSymbol {dash : Char} {rest : List Char} {more : Nat}
    (h : readSymbol offset '[' (first :: dash :: last :: rest) = .ok (symbol, more)) :
    symbol = .operand (classUnion first last) := by
  obtain ⟨hword, hmore⟩ := written_of_readSymbol h
  generalize hw : '[' :: (first :: dash :: last :: rest).take more = word at hword
  generalize (first :: dash :: last :: rest).drop more = tail at hword
  cases hword with
  | charClass hclass =>
    -- four characters were counted, and they are the bounds with what is around them
    obtain ⟨-, hw⟩ := List.cons.inj hw
    rcases more with _ | _ | _ | more
    · cases hw
    · cases hw
    · cases hw
    · simp only [List.take_succ_cons, List.cons.injEq] at hw
      obtain ⟨rfl, -, rfl, -⟩ := hw
      rfl
  | char hbare =>
    obtain ⟨rfl, -⟩ := List.cons.inj hw
    exact absurd hbare (by decide)
  | _ => cases hw

/-- A symbol that was read is written out as it is, or it is a class. -/
theorem spreads_spreadSymbol {rest : List Char} {more : Nat}
    (h : readSymbol offset c rest = .ok (symbol, more)) (hspreads : Spreads found found') :
    Spreads ((symbol, offset) :: found) (spreadSymbol c rest symbol offset ++ found') := by
  unfold spreadSymbol
  split
  · next first dash last rest =>
    rw [eq_classUnion_of_readSymbol h]
    exact .charClass first last offset hspreads
  · exact .cons _ hspreads

theorem spread_nil (offset : Nat) : spread offset [] = .ok [] := by
  rw [spread]

/-- A symbol that can be read is written out in front of the others. -/
theorem spread_of_read {rest : List Char} {more : Nat}
    (h : readSymbol offset c rest = .ok (symbol, more))
    (hrest : spread (offset + 1 + more) (rest.drop more) = .ok found) :
    spread offset (c :: rest) = .ok (spreadSymbol c rest symbol offset ++ found) := by
  rw [spread, h]
  show (spread _ _ >>= _) = _
  rw [hrest]
  rfl

/-- **Both ways of cutting agree**, also where they fail. -/
theorem spread_cases (offset : Nat) (text : List Char) :
    (∃ found found', split offset text = .ok found ∧ spread offset text = .ok found' ∧
      Spreads found found') ∨
    ∃ e, split offset text = .error e ∧ spread offset text = .error e := by
  fun_induction split offset text with
  | case1 offset => exact .inl ⟨[], [], rfl, spread_nil offset, .nil⟩
  | case2 offset c rest ih =>
    cases hread : readSymbol offset c rest with
    | error e =>
      rw [spread, hread]
      exact .inr ⟨e, rfl, rfl⟩
    | ok read =>
      obtain ⟨symbol, more⟩ := read
      rcases ih more with ⟨found, found', hsplit, hspread, hspreads⟩ | ⟨e, hsplit, hspread⟩
      · refine .inl ⟨(symbol, offset) :: found, _, ?_, spread_of_read hread hspread,
          spreads_spreadSymbol hread hspreads⟩
        show (split _ _ >>= _) = _
        rw [hsplit]
        rfl
      · rw [spread, hread]
        refine .inr ⟨e, ?_, ?_⟩
        · show (split _ _ >>= _) = _
          rw [hsplit]
          rfl
        · show (spread _ _ >>= _) = _
          rw [hspread]
          rfl

/-! ### Reading classes that are written out -/

/-- **The characters of a class are a phrase** for their union. -/
theorem phrase_runSymbols (offset : Nat) (c : Char) (cs : List Char) :
    Phrase .alternation ((runSymbols offset c cs).map Prod.fst) (anyOf c cs) := by
  have hlit : ∀ c, Phrase .sequence [.operand (.lit c)] (.lit c) := fun c =>
    .repetition (.atom .operand)
  induction cs generalizing c with
  | nil => exact .sequence (hlit c)
  | cons d ds ih => exact .union (hlit c) (ih d)

theorem phrase_classSymbols (first last : Char) (offset : Nat) :
    Phrase .atom ((classSymbols first last offset).map Prod.fst) (classUnion first last) := by
  rw [classSymbols, List.map_append, List.map_cons]
  exact .group (phrase_runSymbols offset first _)

theorem forall_ne_concat_classSymbols (first last : Char) (offset : Nat) :
    ∀ s ∈ classSymbols first last offset, s.1 ≠ .binary .concat := by
  have hrun : ∀ c cs, ∀ s ∈ runSymbols offset c cs, s.1 ≠ .binary .concat := by
    intro c cs
    induction cs generalizing c with
    | nil => simp [runSymbols]
    | cons d ds ih => simpa [runSymbols] using ih d
  intro s hs
  rw [classSymbols, List.mem_append, List.mem_cons, List.mem_singleton] at hs
  rcases hs with (rfl | hs) | rfl
  · exact Symbol.noConfusion
  · exact hrun _ _ s hs
  · exact Symbol.noConfusion

theorem Spreads.forall_ne_concat (h : Spreads found found')
    (hwritten : ∀ s ∈ found, s.1 ≠ .binary .concat) : ∀ s ∈ found', s.1 ≠ .binary .concat := by
  induction h with
  | nil => exact hwritten
  | cons s _ ih =>
    obtain ⟨hs, hfound⟩ := List.forall_mem_cons.1 hwritten
    exact List.forall_mem_cons.2 ⟨hs, ih hfound⟩
  | charClass first last offset _ ih =>
    obtain ⟨-, hfound⟩ := List.forall_mem_cons.1 hwritten
    exact List.forall_mem_append.2 ⟨forall_ne_concat_classSymbols first last offset, ih hfound⟩

namespace Yard

variable {y : Yard}

/-- **What starts an operand is fed to a yard that waits for one.** -/
theorem exists_take_eq (y : Yard) (offset : Nat) : ∃ operands pending opened,
    ∀ symbol : Symbol, symbol.startsOperand = true → y.take symbol offset =
      take ⟨operands, pending, false, opened⟩ symbol offset := by
  obtain ⟨operands, pending, afterOperand, justOpened⟩ := y
  cases afterOperand with
  | false => exact ⟨operands, pending, justOpened, fun _ _ => rfl⟩
  | true =>
    refine ⟨operands, (.binary .concat, offset) :: pending, none, fun symbol hsymbol => ?_⟩
    rw [take, take, hsymbol]
    show (feed _ (.binary .concat) offset >>= _) = _
    rw [feed_concat rfl]
    rfl

/-- **A class that is written out comes to the same** as its union. -/
theorem takeAll_classSymbols (y : Yard) (first last : Char) (offset : Nat) :
    y.takeAll (classSymbols first last offset) =
      y.take (.operand (classUnion first last)) offset := by
  obtain ⟨operands, pending, opened, htake⟩ := exists_take_eq y offset
  obtain ⟨y', hy', hreached⟩ := takeAll_phrase operands pending opened
    (phrase_classSymbols first last offset) rfl nofun
  obtain rfl := hreached.eq fun _ => id
  calc y.takeAll (classSymbols first last offset)
      = takeAll ⟨operands, pending, false, opened⟩ (classSymbols first last offset) := by
        rw [classSymbols, List.cons_append, takeAll, takeAll, htake .openGroup rfl]
    _ = .ok ⟨classUnion first last :: operands, pending, true, none⟩ := hy'
    _ = y.take (.operand (classUnion first last)) offset := (htake (.operand _) rfl).symm

/-- **Writing classes out changes nothing in the end.** -/
theorem takeAll_spreads (h : Spreads found found') (y : Yard) :
    y.takeAll found' = y.takeAll found := by
  induction h generalizing y with
  | nil => rfl
  | cons s _ ih =>
    obtain ⟨symbol, offset⟩ := s
    rw [takeAll, takeAll]
    exact congrArg _ (funext ih)
  | charClass first last offset _ ih =>
    rw [takeAll_append, takeAll_classSymbols, takeAll]
    exact congrArg _ (funext ih)

end Yard

/-- **A pattern may be read with its classes written out.** -/
theorem parse_eq_spread (text : List Char) :
    parse text = (spreadSymbols text >>= Yard.start.feedAll) >>= Yard.finish := by
  rw [parse, symbols, spreadSymbols]
  rcases spread_cases 0 text with ⟨found, found', hsplit, hspread, hspreads⟩ | ⟨e, hsplit, hspread⟩
  · rw [hsplit, hspread]
    show (Yard.start.feedAll (join Yard.start.afterOperand found) >>= Yard.finish) =
      (Yard.start.feedAll (join Yard.start.afterOperand found') >>= Yard.finish)
    rw [Yard.feedAll_join, Yard.feedAll_join, Yard.takeAll_spreads hspreads]
  · rw [hsplit, hspread]
    rfl

end LexerGen.Pattern
