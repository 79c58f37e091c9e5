import LexerGen.Text.Blank

/-!
# Regular expressions

The trees that patterns denote. A literal is kept in one of two forms, bare (`lit`) or written
between single quotes (`quoted`); both denote the same one-character word, and the distinction
lives on only so that a tree can be written out again as it was written down. A character that has
a meaning of its own in a pattern, or that a reader could not see, cannot be written bare
(`needsQuotes`), and `ofChar` picks the form that can be written.
-/

namespace LexerGen

/-- **Regular expressions** over characters. -/
inductive Regex
  /-- Either operand. -/
  | union (l r : Regex)
  /-- The left operand, then the right one. -/
  | concat (l r : Regex)
  /-- Zero or more repetitions. -/
  | star (r : Regex)
  /-- One or more repetitions. -/
  | plus (r : Regex)
  /-- At most one occurrence. -/
  | maybe (r : Regex)
  /-- The empty word alone. -/
  | eps
  /-- No word at all. -/
  | void
  /-- One character, written bare. -/
  | lit (c : Char)
  /-- One character, written between single quotes. -/
  | quoted (c : Char)
  deriving DecidableEq, Repr, Inhabited

namespace Regex

/-- The two ways of joining two expressions. -/
inductive BinaryOp
  | union
  | concat
  deriving DecidableEq, Repr

/-- The three ways of repeating an expression. -/
inductive Quantifier
  | star
  | plus
  | maybe
  deriving DecidableEq, Repr

/-- The tree with operator `op` at its root. -/
def BinaryOp.apply : BinaryOp → Regex → Regex → Regex
  | .union => .union
  | .concat => .concat

/-- The tree with quantifier `q` at its root. -/
def Quantifier.apply : Quantifier → Regex → Regex
  | .star => .star
  | .plus => .plus
  | .maybe => .maybe

/-- The characters that are punctuation in a pattern. -/
def isPunctuation (c : Char) : Bool :=
  c == '\'' || c == '(' || c == ')' || c == '[' || c == ']' || c == '|' || c == '*' || c == '+' ||
    c == '?'

/-- **Whether a literal has to be quoted** when it is written: punctuation would be read as an
operator, and white space and control characters could not be seen. -/
def needsQuotes (c : Char) : Bool :=
  Text.isBlank c || Text.isControl c || isPunctuation c

/-- **The literal for a character**, quoted where it has to be. -/
def ofChar (c : Char) : Regex := if needsQuotes c then .quoted c else .lit c

/-- **The expression for one word**: the right-nested concatenation of its characters, and `eps`
for the empty word. -/
def literal : List Char → Regex
  | [] => .eps
  | [c] => ofChar c
  | c :: cs => .concat (ofChar c) (literal cs)

/-- **The expression for a run of characters**: the right-nested union of `c` and those that
follow it in the list. -/
def anyOf (c : Char) : List Char → Regex
  | [] => .lit c
  | d :: ds => .union (.lit c) (anyOf d ds)

end Regex

end LexerGen
