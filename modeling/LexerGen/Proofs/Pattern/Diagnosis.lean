import LexerGen.Proofs.Pattern.Grammar
import LexerGen.Proofs.Pattern.Misplaced
import Mathlib.Data.List.Permutation

/-!
# What an error says about a pattern

A pattern is rejected with an error that names a kind of fault and an offset. `Diagnosis` says of
each error what it means for the text: which characters stand at the offset, and what is before and
after them. The offset is always the length of what is before, which is cut into symbols there
(`Divided`), so a parenthesis or an operator that is named is one, and no quoted character.

There are two kinds of errors. The *lexical* ones say where the text cannot be cut into symbols, and
the others which symbol is misplaced. A text that cannot be cut is rejected for that reason,
whatever is misplaced in it, and the error is at the first offset where no symbol is written
(`exists_misread`). If the text can be cut, what is said about its symbols (`Misplaced`) is carried
over to the characters that are written for them (`Misplaced.diagnosis`).
-/

namespace LexerGen

/-- **The errors that say where a pattern cannot be cut** into symbols. -/
def PatternError.isLexical : PatternError → Bool
  | malformedClass _ | emptyClass _ _ _ | unterminatedQuote _ | strayBracket _ => true
  | _ => false

namespace Pattern

open Regex

variable {word text left right rest : List Char} {symbol : Symbol} {offset more : Nat} {c : Char}
  {r : Regex} {e : PatternError} {found before after : List (Symbol × Nat)}

/-! ### Where a text cannot be cut -/

/-- **No symbol is written** at the beginning of a text. -/
def Unreadable (text : List Char) : Prop :=
  ∀ word rest symbol, text = word ++ rest → ¬Written word rest symbol

/-- **Texts that begin with no symbol**, and the error for each. -/
inductive Misread : (text : List Char) → (offset : Nat) → PatternError → Prop
  | malformedClass {rest : List Char} {offset : Nat} :
      (∀ first last tail, rest ≠ first :: '-' :: last :: ']' :: tail) →
      Misread ('[' :: rest) offset (.malformedClass offset)
  | emptyClass {first last : Char} {rest : List Char} {offset : Nat} :
      isClass first last = false →
      Misread ('[' :: first :: '-' :: last :: ']' :: rest) offset (.emptyClass first last offset)
  | unterminatedQuote {rest : List Char} {offset : Nat} : (∀ x tail, rest ≠ x :: '\'' :: tail) →
      Misread ('\'' :: rest) offset (.unterminatedQuote offset)
  | strayBracket {rest : List Char} {offset : Nat} :
      Misread (']' :: rest) offset (.strayBracket offset)

theorem misread_of_readSymbol (h : readSymbol offset c rest = .error e) :
    Misread (c :: rest) offset e := by
  unfold readSymbol at h
  split at h
  · split at h
    · split at h
      · cases h
      · next hclass =>
        cases h
        exact .emptyClass (Bool.eq_false_iff.2 hclass)
    · next hrest =>
      cases h
      exact .malformedClass hrest
  · split at h
    · cases h
    · next hrest =>
      cases h
      exact .unterminatedQuote hrest
  · split at h
    · cases h
    · cases h
  all_goals cases h
  exact .strayBracket

theorem unreadable_of_readSymbol (h : readSymbol offset c rest = .error e) :
    Unreadable (c :: rest) := by
  intro word tail symbol htext hword
  obtain ⟨d, word, rfl⟩ := List.exists_cons_of_ne_nil hword.ne_nil
  obtain ⟨rfl, hrest⟩ := List.cons.inj htext
  -- what is written is read
  rw [hrest, List.append_eq, readSymbol_of_written hword] at h
  cases h

/-- **Cutting fails at the first offset** where no symbol is written. -/
theorem exists_misread (h : split offset text = .error e) :
    ∃ (left right : List Char) (found : List (Symbol × Nat)), text = left ++ right ∧
      Cut right offset left found ∧ Unreadable right ∧ Misread right (offset + left.length) e := by
  induction offset, text using split.induct with
  | case1 offset =>
    rw [split] at h
    cases h
  | case2 offset c rest ih =>
    rw [split] at h
    rcases bind_eq_error.1 h with hsymbol | ⟨⟨symbol, more⟩, hsymbol, h⟩
    · exact ⟨[], c :: rest, [], rfl, .nil, unreadable_of_readSymbol hsymbol,
        misread_of_readSymbol hsymbol⟩
    · rcases bind_eq_error.1 h with hrest | ⟨symbols, -, h⟩
      · obtain ⟨hword, hmore⟩ := written_of_readSymbol hsymbol
        obtain ⟨left, right, found, htext, hcut, hright, hmisread⟩ := ih more hrest
        -- the symbol that was read comes before what is cut of the rest
        refine ⟨(c :: rest.take more) ++ left, right, (symbol, offset) :: found, ?_, ?_, hright, ?_⟩
        · rw [List.append_assoc, ← htext, List.cons_append, List.take_append_drop]
        · rw [htext] at hword
          refine .cons hword ?_
          rwa [offset_add_length hmore]
        · rwa [List.length_append, ← Nat.add_assoc, offset_add_length hmore]
      · cases h

/-! ### Dividing a text that can be cut -/

/-- **What is written in front of a rest** is written at the end of a text, too. -/
theorem Written.of_append (h : Written word (text ++ rest) symbol) : Written word text symbol := by
  cases h with
  | charClass hclass => exact .charClass hclass
  | quoted => exact .quoted
  | eps => exact .eps
  | char hbare heps =>
    refine .char hbare fun hword => heps ⟨hword.1, ?_⟩
    exact hword.2.trans (List.prefix_append text rest)
  | openGroup => exact .openGroup
  | closeGroup => exact .closeGroup
  | union => exact .union
  | star => exact .star
  | plus => exact .plus
  | maybe => exact .maybe

theorem Cut.of_rest (h : Cut rest offset text found) : Cut [] offset text found := by
  induction h with
  | nil => exact .nil
  | cons hword _ ih =>
    refine .cons ?_ ih
    rw [List.append_nil]
    exact hword.of_append

/-- A text cut into the symbols of a phrase is a pattern, whatever the offset of its first symbol
and whatever follows it. -/
theorem Phrase.parse (h : Phrase .alternation (found.map Prod.fst) r)
    (hcut : Cut rest offset text found) : parse text = .ok r :=
  parse_eq_ok_iff.2 (h.derives hcut.of_rest rfl)

/-- The character that stands for a parenthesis or an operator. -/
def Symbol.char? : Symbol → Option Char
  | openGroup => some '('
  | closeGroup => some ')'
  | symbol => symbol.operator?

/-- The characters of the operators. -/
def operatorChars : List Char := ['|', '*', '+', '?']

theorem char?_of_operator? (h : symbol.operator? = some c) :
    symbol.char? = some c ∧ c ∈ operatorChars := by
  rcases symbol with _ | (_ | _ | _) | (_ | _) | _ | _
  all_goals cases h
  all_goals exact ⟨rfl, by decide⟩

theorem Written.eq_singleton (h : Written word rest symbol) (hsymbol : symbol.char? = some c) :
    word = [c] := by
  cases h with
  | openGroup | closeGroup | union | star | plus | maybe =>
    cases hsymbol
    rfl
  | charClass | quoted | eps | char => cases hsymbol

/-- **A symbol of one character** divides a text into what is before and what is after it. -/
theorem Cut.exists_division (h : Cut [] 0 text (before ++ (symbol, offset) :: after))
    (hsymbol : symbol.char? = some c) :
    ∃ left right, text = left ++ c :: right ∧ Cut (c :: right) 0 left before ∧
      offset = left.length ∧ Cut [] (left.length + 1) right after := by
  obtain ⟨left, _, rfl, hbefore, hafter⟩ := cut_append_iff.1 h
  rw [Nat.zero_add] at hafter
  cases hafter with
  | @cons _ word right _ _ hword hafter =>
    obtain rfl := hword.eq_singleton hsymbol
    rw [List.append_nil] at hbefore
    exact ⟨left, right, rfl, hbefore, rfl, hafter⟩

theorem Cut.exists_cons (h : Cut rest offset text ((symbol, more) :: after))
    (hsymbol : symbol.char? = some c) : ∃ right, text = c :: right ∧ more = offset := by
  cases h with
  | cons hword _ =>
    obtain rfl := hword.eq_singleton hsymbol
    exact ⟨_, rfl, rfl⟩

/-! ### What each error means -/

/-- **A symbol ends**, or the pattern begins, between the two parts of a text. -/
def Divided (left right : List Char) : Prop := ∃ found, Cut right 0 left found

/-- **What an error says** about a pattern. Offsets are the lengths of what is before. -/
inductive Diagnosis : List Char → PatternError → Prop
  /-- No symbol can be read after `left`, for the reason that is given. -/
  | misread {left right : List Char} {e : PatternError} :
      Divided left right → Unreadable right → Misread right left.length e →
      Diagnosis (left ++ right) e
  | emptyPattern : Diagnosis [] (.empty 0)
  | emptyGroup {left right : List Char} : Divided left ('(' :: ')' :: right) →
      Diagnosis (left ++ '(' :: ')' :: right) (.empty left.length)
  /-- What is before the parenthesis is a whole pattern, or nothing. -/
  | unmatchedClose {left right : List Char} : Divided left (')' :: right) →
      (left = [] ∨ ∃ r, parse left = .ok r) →
      Diagnosis (left ++ ')' :: right) (.unmatchedClose left.length)
  /-- What is after the parenthesis is a whole pattern, or nothing. -/
  | unclosedGroup {left right : List Char} : Divided left ('(' :: right) →
      (right = [] ∨ ∃ r, parse right = .ok r) →
      Diagnosis (left ++ '(' :: right) (.unclosedGroup left.length)
  | operatorAtStart {op : Char} {right : List Char} : op ∈ operatorChars →
      Diagnosis (op :: right) (.missingOperand op 0)
  /-- The operator comes right after an opening parenthesis or a bar. -/
  | operatorAfter {left right : List Char} {c op : Char} : Divided left (c :: op :: right) →
      c = '(' ∨ c = '|' → op ∈ operatorChars →
      Diagnosis (left ++ c :: op :: right) (.missingOperand op (left.length + 1))
  | barAtEnd {left : List Char} : Divided left ['|'] →
      Diagnosis (left ++ ['|']) (.missingOperand '|' left.length)
  /-- The bar comes right before a closing parenthesis. -/
  | barBefore {left right : List Char} : Divided left ('|' :: ')' :: right) →
      Diagnosis (left ++ '|' :: ')' :: right) (.missingOperand '|' left.length)

/-- **What is wrong with the symbols** is wrong with the text that is written for them. -/
theorem Misplaced.diagnosis (h : Misplaced found e) (hcut : Cut [] 0 text found) :
    Diagnosis text e := by
  cases h with
  | emptyPattern =>
    cases hcut
    exact .emptyPattern
  | emptyGroup =>
    obtain ⟨left, _, rfl, hleft, rfl, hright⟩ := hcut.exists_division rfl
    obtain ⟨right, rfl, -⟩ := hright.exists_cons rfl
    exact .emptyGroup ⟨_, hleft⟩
  | unmatchedClose hbefore =>
    obtain ⟨left, right, rfl, hleft, rfl, -⟩ := hcut.exists_division rfl
    refine .unmatchedClose ⟨_, hleft⟩ ?_
    rcases hbefore with rfl | ⟨r, hphrase⟩
    · cases hleft
      exact .inl rfl
    · exact .inr ⟨r, hphrase.parse hleft⟩
  | unclosedGroup hafter =>
    obtain ⟨left, right, rfl, hleft, rfl, hright⟩ := hcut.exists_division rfl
    refine .unclosedGroup ⟨_, hleft⟩ ?_
    rcases hafter with rfl | ⟨r, hphrase⟩
    · cases hright
      exact .inl rfl
    · exact .inr ⟨r, hphrase.parse hright⟩
  | operatorAtStart hsymbol =>
    obtain ⟨hchar, hop⟩ := char?_of_operator? hsymbol
    obtain ⟨right, rfl, rfl⟩ := hcut.exists_cons hchar
    exact .operatorAtStart hop
  | @operatorAfter before after symbol op offset s hs hsymbol =>
    obtain ⟨hop, hmem⟩ := char?_of_operator? hsymbol
    have hfirst : ∃ c, s.1.char? = some c ∧ (c = '(' ∨ c = '|') := by
      rcases hs with hs | hs
      · exact ⟨'(', by rw [hs]; rfl, .inl rfl⟩
      · exact ⟨'|', by rw [hs]; rfl, .inr rfl⟩
    obtain ⟨c, hc, hchar⟩ := hfirst
    obtain ⟨left, _, rfl, hleft, -, hright⟩ := hcut.exists_division hc
    obtain ⟨right, rfl, rfl⟩ := hright.exists_cons hop
    exact .operatorAfter ⟨_, hleft⟩ hchar hmem
  | barAtEnd =>
    obtain ⟨left, _, rfl, hleft, rfl, hright⟩ := hcut.exists_division rfl
    cases hright
    exact .barAtEnd ⟨_, hleft⟩
  | barBefore =>
    obtain ⟨left, _, rfl, hleft, rfl, hright⟩ := hcut.exists_division rfl
    obtain ⟨right, rfl, -⟩ := hright.exists_cons rfl
    exact .barBefore ⟨_, hleft⟩

/-! ### Every error -/

theorem Misread.isLexical (h : Misread text offset e) : e.isLexical = true := by
  cases h <;> rfl

theorem Misplaced.isLexical (h : Misplaced found e) : e.isLexical = false := by
  cases h <;> rfl

/-- **A rejected pattern** cannot be cut, or its symbols are misplaced. -/
theorem parse_eq_error (h : parse text = .error e) :
    split 0 text = .error e ∨ ∃ found, Cut [] 0 text found ∧ Misplaced found e := by
  unfold parse symbols at h
  rcases bind_eq_error.1 h with hsplit | ⟨_, hfound, hread⟩
  · exact .inl (map_eq_error.1 hsplit)
  · obtain ⟨found, hsplit, rfl⟩ := map_eq_ok.1 hfound
    have hcut : Cut [] 0 text found := split_eq_ok_iff.1 hsplit
    exact .inr ⟨found, hcut, Yard.misplaced_of_read (forall_ne_concat_of_cut hcut) hread⟩

/-- **Errors are accurate.** A pattern is rejected with a lexical error exactly if it cannot be cut
into symbols, whatever else is wrong with it. And whatever error it is rejected with, the pattern
has the fault that the error names, at the offset that the error gives. -/
theorem parse_diagnoses :
    (∀ text, (∃ e, parse text = .error e ∧ e.isLexical = true) ↔ ∀ found, ¬Cut [] 0 text found) ∧
      ∀ text e, parse text = .error e → Diagnosis text e := by
  refine ⟨fun text => ⟨?_, fun h => ?_⟩, fun text e h => ?_⟩
  · rintro ⟨e, he, hlexical⟩ found hcut
    rcases parse_eq_error he with hsplit | ⟨found, -, hmisplaced⟩
    · rw [split_eq_ok_iff.2 hcut] at hsplit
      cases hsplit
    · rw [hmisplaced.isLexical] at hlexical
      cases hlexical
  · cases hsplit : split 0 text with
    | ok found => exact absurd (split_eq_ok_iff.1 hsplit) (h found)
    | error e =>
      obtain ⟨left, right, found, -, -, -, hmisread⟩ := exists_misread hsplit
      refine ⟨e, ?_, hmisread.isLexical⟩
      rw [parse, symbols, hsplit]
      rfl
  · rcases parse_eq_error h with hsplit | ⟨found, hcut, hmisplaced⟩
    · obtain ⟨left, right, found, rfl, hcut, hright, hmisread⟩ := exists_misread hsplit
      rw [Nat.zero_add] at hmisread
      exact .misread ⟨found, hcut⟩ hright hmisread
    · exact hmisplaced.diagnosis hcut

/-- The parenthesis and the star of the first pattern are misplaced, but the class behind them is
what is reported. In the second, the group that is reported is the inner one. -/
theorem parse_diagnoses_class :
    parse [')', '*', '[', 'z', '-', 'a', ']'] = .error (.emptyClass 'z' 'a' 2) ∧
      (∀ found, ¬Cut [] 0 [')', '*', '[', 'z', '-', 'a', ']'] found) ∧
      Diagnosis [')', '*', '[', 'z', '-', 'a', ']'] (.emptyClass 'z' 'a' 2) ∧
      parse ['(', 'a', '(', 'b', '|', 'c'] = .error (.unclosedGroup 2) ∧
      Diagnosis ['(', 'a', '(', 'b', '|', 'c'] (.unclosedGroup 2) := by
  have hclass : parse [')', '*', '[', 'z', '-', 'a', ']'] = .error (.emptyClass 'z' 'a' 2) := by cbv
  have hgroup : parse ['(', 'a', '(', 'b', '|', 'c'] = .error (.unclosedGroup 2) := by cbv
  obtain ⟨hlexical, hdiagnosis⟩ := parse_diagnoses
  exact ⟨hclass, (hlexical _).1 ⟨_, hclass, rfl⟩, hdiagnosis _ _ hclass, hgroup,
    hdiagnosis _ _ hgroup⟩

end Pattern

end LexerGen
