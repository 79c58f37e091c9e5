import LexerGen.Regex.Error

/-!
# Prenex words

In prenex notation an expression is a sequence of words separated by spaces, each operator a
keyword that stands before its operands; no parentheses are needed. `Word` is what a word can be,
`words` the sequence of a tree, and `render` its text.
-/

namespace LexerGen.Prenex

open Regex

/-- **A word of prenex notation.** -/
inductive Word
  /-- A keyword that takes operands. -/
  | keyword (k : Keyword)
  | eps
  | void
  /-- A character written bare. -/
  | lit (c : Char)
  /-- A character between single quotes. -/
  | quoted (c : Char)
  deriving DecidableEq, Repr

/-- **A word as it is written.** A bare literal whose character could not be read back is
quoted. -/
def Word.text : Word → List Char
  | keyword k => k.text.toList
  | eps => ['e', 'p', 's']
  | void => ['v', 'o', 'i', 'd']
  | lit c => if needsQuotes c then ['\'', c, '\''] else [c]
  | quoted c => ['\'', c, '\'']

/-- **The words of a tree in preorder.** -/
def words : Regex → List Word
  | .union l r => .keyword (.binary .union) :: (words l ++ words r)
  | .concat l r => .keyword (.binary .concat) :: (words l ++ words r)
  | .star r => .keyword (.quantifier .star) :: words r
  | .plus r => .keyword (.quantifier .plus) :: words r
  | .maybe r => .keyword (.quantifier .maybe) :: words r
  | .eps => [.eps]
  | .void => [.void]
  | .lit c => [.lit c]
  | .quoted c => [.quoted c]

/-- **The prenex text of a tree**: its words, separated by single spaces. -/
def render (r : Regex) : List Char := [' '].intercalate ((words r).map Word.text)

end LexerGen.Prenex
