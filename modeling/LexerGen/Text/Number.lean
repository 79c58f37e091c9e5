/-!
# Numbers

A number is written in decimal: an optional sign, digits with an optional point before, among or
behind them, and an optional exponent, which may have a sign of its own. Infinity and what is not a
number have names, in letters of either case.
-/

namespace LexerGen.Text

/-- A text without the sign at its beginning, if it has one. -/
def unsigned : List Char → List Char
  | '+' :: cs => cs
  | '-' :: cs => cs
  | cs => cs

/-- Whether a text is an exponent or nothing. -/
def isExponent : List Char → Bool
  | [] => true
  | c :: cs =>
    let digits := unsigned cs
    (c == 'e' || c == 'E') && !digits.isEmpty && digits.all Char.isDigit

/-- Whether a text is a decimal number without a sign. -/
def isDecimal (cs : List Char) : Bool :=
  let whole := cs.takeWhile Char.isDigit
  match cs.dropWhile Char.isDigit with
  | '.' :: cs =>
    let fraction := cs.takeWhile Char.isDigit
    !(whole ++ fraction).isEmpty && isExponent (cs.dropWhile Char.isDigit)
  | cs => !whole.isEmpty && isExponent cs

/-- The names of the values that have no digits. -/
def numberNames : List String := ["inf", "infinity", "nan"]

/-- **Whether a text is a number.** -/
def isNumber (text : List Char) : Bool :=
  let cs := unsigned text
  isDecimal cs || numberNames.any fun name => name.toList == cs.map Char.toLower

end LexerGen.Text
