import LexerGen.Regex.Basic
import LexerGen.Text.Quoted

/-!
# What can be wrong with a written expression

Expressions are written in two notations: *patterns*, with operators between their operands, and
*prenex* text, with keywords before them. `PatternError` holds one constructor for each way in
which a text of either notation can fail to denote a tree, with the places (offsets in characters)
and the characters that the reader of a message needs; `PatternError.message` is the wording.
-/

namespace LexerGen

/-- The prenex keywords that take operands. -/
inductive Keyword
  /-- A keyword with two operands. -/
  | binary (op : Regex.BinaryOp)
  /-- A keyword with one operand. -/
  | quantifier (q : Regex.Quantifier)
  deriving DecidableEq, Repr

/-- A keyword as it is written. -/
def Keyword.text : Keyword → String
  | .binary .union => "UNION"
  | .binary .concat => "CONCAT"
  | .quantifier .star => "STAR"
  | .quantifier .plus => "PLUS"
  | .quantifier .maybe => "MAYBE"

/-- **Why a text denotes no expression.** Offsets count characters from the start of the text. -/
inductive PatternError
  /-- The text, or the group opened at this offset, holds no expression. -/
  | empty (offset : Nat)
  /-- An operator of a pattern lacks an operand. -/
  | missingOperand (op : Char) (offset : Nat)
  /-- A `)` closes no group. -/
  | unmatchedClose (offset : Nat)
  /-- A `(` is never closed. -/
  | unclosedGroup (offset : Nat)
  /-- A `[` does not start a class of the form `[x-y]`. -/
  | malformedClass (offset : Nat)
  /-- The bounds of a class are not an ascending range of digits or of letters of one case. -/
  | emptyClass (first last : Char) (offset : Nat)
  /-- A quote is not followed by one character and another quote. -/
  | unterminatedQuote (offset : Nat)
  /-- A `]` stands outside a class. -/
  | strayBracket (offset : Nat)
  /-- A prenex word is neither a keyword nor one character. -/
  | unknownWord (word : List Char) (offset : Nat)
  /-- A prenex keyword is followed by too few expressions. -/
  | missingPrenexOperand (keyword : Keyword) (offset : Nat)
  /-- A prenex text holds this many expressions after the first. -/
  | trailingOperands (count : Nat)
  deriving DecidableEq, Repr

namespace PatternError

open Text

/-- A character between single quotes, as a string. -/
def showChar (c : Char) : String := String.ofList (quotedChar c)

/-- **The wording of each error.** -/
def message : PatternError → String
  | empty offset => s!"Empty expression at {offset}"
  | missingOperand op offset => s!"Missing operand for {showChar op} at {offset}"
  | unmatchedClose offset => s!"Found extraneous right parenthesis at {offset}"
  | unclosedGroup offset => s!"Unclosed parenthesis at {offset}"
  | malformedClass offset => s!"Malformed character class at {offset}, expected [x-y]"
  | emptyClass first last offset =>
    s!"Character class {showChar first}-{showChar last} at {offset} " ++
      "does not describe a digit or letter range"
  | unterminatedQuote offset => s!"Unterminated quoted character at {offset}"
  | strayBracket offset => s!"Found stray right bracket at {offset}"
  | unknownWord word offset =>
    s!"Unknown prenex symbol {String.ofList (quoted word)} at {offset}"
  | missingPrenexOperand keyword offset => s!"Missing operand for {keyword.text} at {offset}"
  | trailingOperands count => s!"Found {count} trailing operands in prenex expression"

end PatternError

end LexerGen
