/-!
# Tokens and failed scans

What a scan of a text yields: tokens, each with its name and the text that it covers, and at the
place where no token matches, an error that says where that is.
-/

namespace LexerGen

/-- **A token**: the name of its definition and the text it covers. -/
structure Token where
  name : String
  lexeme : List Char
  deriving DecidableEq, Repr

/-- **Where a scan failed.** -/
inductive Position
  /-- At the character with this offset. -/
  | offset (n : Nat)
  /-- At the end of the text. -/
  | endOfText
  deriving DecidableEq, Repr

/-- A position as messages show it. -/
def Position.text : Position → String
  | offset n => toString n
  | endOfText => "EOF"

/-- **A place where no token matches.** The line counts the newlines before the position, except
that at the end of the text the last character is not counted. -/
structure LexError where
  position : Position
  line : Nat
  deriving DecidableEq, Repr

/-- The wording of a failed scan. -/
def LexError.message (e : LexError) : String :=
  s!"No viable alternative at character {e.position.text}, line {e.line}"

end LexerGen
