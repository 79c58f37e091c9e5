import LexerGen.Proofs.Pattern.Trees

/-!
# Patterns for all trees

Reading nests unions and concatenations to the right, leaves no `void` behind and writes no literal
bare that cannot stand so. The first of these is a habit and not a limit: with parentheses around
each operand a pattern can be written for a tree of any shape (`parenthesize`), and reading it gives
that tree. So the trees that patterns denote are those without `void` whose bare literals can be
written bare, and no others.

The proof derives the written pattern in the grammar and leaves the yard alone. A group is an atom
whatever is inside it, so every operator finds operands of the level it asks for. What has to be
carried through the induction is the rest of the pattern: a bare `e` is a literal only if the rest
does not go on with `ps`. Inside a group the rest starts with a parenthesis.
-/

namespace LexerGen.Pattern

open Regex

variable {text rest : List Char} {r : Regex}

/-- A pattern between parentheses. -/
def inGroup (text : List Char) : List Char := '(' :: text ++ [')']

/-- **The fully parenthesized pattern of a tree**, with every operand in a group. There is nothing
to write for `void`. -/
def parenthesize : Regex → List Char
  | .union l r => inGroup (parenthesize l) ++ '|' :: inGroup (parenthesize r)
  | .concat l r => inGroup (parenthesize l) ++ inGroup (parenthesize r)
  | .star r => inGroup (parenthesize r) ++ ['*']
  | .plus r => inGroup (parenthesize r) ++ ['+']
  | .maybe r => inGroup (parenthesize r) ++ ['?']
  | .eps => ['e', 'p', 's']
  | .void => []
  | .lit c => [c]
  | .quoted c => ['\'', c, '\'']

/-- A literal that can stand bare is no punctuation. -/
theorem isPunctuation_eq_false {c : Char} (h : needsQuotes c = false) :
    isPunctuation c = false := by
  unfold needsQuotes at h
  exact (Bool.or_eq_false_iff.1 h).2

/-- **A group is an operand of every operator**, in front of any rest, since the parenthesis that
closes it completes no longer symbol. -/
theorem derives_inGroup
    (h : ∀ rest, ¬ ['p', 's'] <+: rest → Derives .alternation text rest r) (rest : List Char) :
    Derives .repetition (inGroup text) rest r := by
  have hclose : ¬ ['p', 's'] <+: ')' :: rest := by
    rintro ⟨tail, h⟩
    cases h
  exact .atom (.group (h _ hclose))

/-- **The fully parenthesized pattern is derived**, in front of any rest that does not turn a letter
into the start of a longer symbol. -/
theorem derives_parenthesize (hvoid : r.VoidFree) (hbare : r.Writable) (rest : List Char)
    (hrest : ¬ ['p', 's'] <+: rest) : Derives .alternation (parenthesize r) rest r := by
  induction r generalizing rest with
  | union l r ihl ihr =>
    have hl := derives_inGroup (ihl hvoid.1 hbare.1)
    have hr := derives_inGroup (ihr hvoid.2 hbare.2)
    exact .union (.repetition (hl _)) (.sequence (.repetition (hr rest)))
  | concat l r ihl ihr =>
    -- the second group starts right behind the first, and the concatenation is implied
    have hl := derives_inGroup (ihl hvoid.1 hbare.1)
    have hr := derives_inGroup (ihr hvoid.2 hbare.2)
    exact .sequence (.concat (hl _) (.repetition (hr rest)))
  | star r ih =>
    have hr := derives_inGroup (ih hvoid hbare)
    exact .sequence (.repetition (.star (hr _)))
  | plus r ih =>
    have hr := derives_inGroup (ih hvoid hbare)
    exact .sequence (.repetition (.plus (hr _)))
  | maybe r ih =>
    have hr := derives_inGroup (ih hvoid hbare)
    exact .sequence (.repetition (.maybe (hr _)))
  | eps => exact .sequence (.repetition (.atom .eps))
  | void => exact hvoid.elim
  | lit c =>
    have hliteral : Derives .atom [c] rest (ofChar c) :=
      .char (isPunctuation_eq_false hbare) fun h => hrest h.2
    rw [ofChar, if_neg (Bool.eq_false_iff.1 hbare)] at hliteral
    exact .sequence (.repetition (.atom hliteral))
  | quoted c => exact .sequence (.repetition (.atom .quoted))

/-- **The trees that patterns denote.** A tree that is read has no `void` and no bare literal that
needs quotes, and every such tree is what its fully parenthesized pattern is read as. -/
theorem parse_parenthesize :
    (∀ text r, parse text = .ok r → r.VoidFree ∧ r.Writable) ∧
    ∀ r : Regex, r.VoidFree → r.Writable → parse (parenthesize r) = .ok r := by
  constructor
  · intro text r h
    exact ⟨voidFree_parse h, writable_parse h⟩
  · intro r hvoid hbare
    rw [parse_eq_ok_iff]
    apply derives_parenthesize hvoid hbare
    rintro ⟨tail, h⟩
    cases h

/-- The letters `e`, `p` and `s` side by side, nested to the left below two quantifiers, next to a
quoted parenthesis. -/
theorem parse_parenthesize_letters :
    ∃ r : Regex, r = .union (.plus (.star (.concat (.concat (.lit 'e') (.lit 'p')) (.lit 's'))))
        (.maybe (.quoted ')')) ∧
      parenthesize r = "(((((e)(p))(s))*)+)|((')')?)".toList ∧
      parse (parenthesize r) = .ok r ∧ r.VoidFree ∧ r.Writable := by
  obtain ⟨hread, hwrite⟩ := parse_parenthesize
  refine ⟨_, rfl, rfl, ?_⟩
  have hbare : needsQuotes 'e' = false ∧ needsQuotes 'p' = false ∧ needsQuotes 's' = false := by
    decide
  have hparse := hwrite (.union (.plus (.star (.concat (.concat (.lit 'e') (.lit 'p')) (.lit 's'))))
    (.maybe (.quoted ')'))) ⟨⟨⟨trivial, trivial⟩, trivial⟩, trivial⟩
    ⟨⟨⟨hbare.1, hbare.2.1⟩, hbare.2.2⟩, trivial⟩
  exact ⟨hparse, hread _ _ hparse⟩

end LexerGen.Pattern
