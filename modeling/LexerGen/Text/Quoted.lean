import LexerGen.Text.Printable

/-!
# Quoted text

Messages, token lists and graph descriptions show arbitrary text between quotes. What is written
between them is the same in all of them and differs only in which quote marks are escaped
(`QuoteStyle`): the backslash, NUL, tab, line feed and carriage return have two-character escapes,
any other character that would not be seen is written `\u` with its code point in braces, and the
rest stands for itself.
-/

namespace LexerGen.Text

/-- **Which quote marks are escaped** between the quotes. -/
structure QuoteStyle where
  /-- Whether `'` is escaped. -/
  single : Bool
  /-- Whether `"` is escaped. -/
  double : Bool
  deriving DecidableEq, Repr

namespace QuoteStyle

/-- Text between double quotes. -/
def text : QuoteStyle := ⟨false, true⟩

/-- A character between single quotes. -/
def char : QuoteStyle := ⟨true, false⟩

/-- Text that may end up between quotes of either kind. -/
def both : QuoteStyle := ⟨true, true⟩

end QuoteStyle

/-- The lower-case hexadecimal digits of a number, without leading zeros. -/
def hexDigits (n : Nat) : List Char := Nat.toDigits 16 n

/-- **The escaped form of one character.** -/
def escapeChar (style : QuoteStyle) (c : Char) : List Char :=
  if c = '\x00' then ['\\', '0']
  else if c = '\t' then ['\\', 't']
  else if c = '\n' then ['\\', 'n']
  else if c = '\r' then ['\\', 'r']
  else if c = '\\' then ['\\', '\\']
  else if (c = '\'' ∧ style.single) ∨ (c = '"' ∧ style.double) then ['\\', c]
  else if isPrintable c then [c]
  else ['\\', 'u', '\x7b'] ++ hexDigits c.toNat ++ ['\x7d']

/-- The escaped form of a text, character by character. -/
def escape (style : QuoteStyle) (s : List Char) : List Char := s.flatMap (escapeChar style)

/-- A text between double quotes. -/
def quoted (s : List Char) : List Char := '"' :: escape .text s ++ ['"']

/-- A character between single quotes. -/
def quotedChar (c : Char) : List Char := '\'' :: escapeChar .char c ++ ['\'']

/-- A string between double quotes. -/
def quotedString (s : String) : String := String.ofList (quoted s.toList)

end LexerGen.Text
