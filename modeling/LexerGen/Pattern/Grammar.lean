import LexerGen.Pattern.Symbol

/-!
# The grammar of patterns

What a pattern means is fixed by a grammar with four levels, one for each strength of binding: an
*alternation* is a sequence or a sequence, a bar and an alternation; a *sequence* is a repetition or
a repetition and a sequence; a *repetition* is an atom or a repetition and a quantifier; and an
*atom* is a group, a class, a quoted character, `eps` or a character that is no punctuation. Such a
character stands for itself; one that could not be seen, a white space or control character, stands
for itself in quotes. Unions and concatenations nest to the right.

The three letters `eps` are never read as literals. Whether a letter `e` is one depends therefore on
what follows it, and `Derives` says of a text not only which tree it stands for but also in front of
which rest of the pattern.
-/

namespace LexerGen.Pattern

open Regex

/-- **How tightly the operators outside parentheses bind.** -/
inductive Level
  | alternation
  | sequence
  | repetition
  | atom
  deriving DecidableEq, Repr

/-- **The grammar.** `Derives level text rest r` says that `text`, where `rest` follows, is an
expression of this level and stands for the tree `r`. -/
inductive Derives : Level → (text rest : List Char) → Regex → Prop
  | sequence {text rest : List Char} {r : Regex} :
      Derives .sequence text rest r → Derives .alternation text rest r
  | union {left right rest : List Char} {l r : Regex} :
      Derives .sequence left ('|' :: right ++ rest) l → Derives .alternation right rest r →
      Derives .alternation (left ++ '|' :: right) rest (.union l r)
  | repetition {text rest : List Char} {r : Regex} :
      Derives .repetition text rest r → Derives .sequence text rest r
  | concat {left right rest : List Char} {l r : Regex} :
      Derives .repetition left (right ++ rest) l → Derives .sequence right rest r →
      Derives .sequence (left ++ right) rest (.concat l r)
  | atom {text rest : List Char} {r : Regex} :
      Derives .atom text rest r → Derives .repetition text rest r
  | star {text rest : List Char} {r : Regex} :
      Derives .repetition text ('*' :: rest) r → Derives .repetition (text ++ ['*']) rest (.star r)
  | plus {text rest : List Char} {r : Regex} :
      Derives .repetition text ('+' :: rest) r → Derives .repetition (text ++ ['+']) rest (.plus r)
  | maybe {text rest : List Char} {r : Regex} :
      Derives .repetition text ('?' :: rest) r → Derives .repetition (text ++ ['?']) rest (.maybe r)
  | group {text rest : List Char} {r : Regex} :
      Derives .alternation text (')' :: rest) r → Derives .atom ('(' :: text ++ [')']) rest r
  | charClass {first last : Char} {rest : List Char} :
      isClass first last = true →
      Derives .atom ['[', first, '-', last, ']'] rest (classUnion first last)
  | quoted {c : Char} {rest : List Char} : Derives .atom ['\'', c, '\''] rest (.quoted c)
  | eps {rest : List Char} : Derives .atom ['e', 'p', 's'] rest .eps
  | bare {c : Char} {rest : List Char} :
      isPunctuation c = false → Text.isBlank c = false → Text.isControl c = false →
      ¬ (c = 'e' ∧ ['p', 's'] <+: rest) → Derives .atom [c] rest (.lit c)
  | invisible {c : Char} {rest : List Char} :
      isPunctuation c = false → Text.isBlank c = true ∨ Text.isControl c = true →
      Derives .atom [c] rest (.quoted c)

end LexerGen.Pattern
