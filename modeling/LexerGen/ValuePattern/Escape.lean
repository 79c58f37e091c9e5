import LexerGen.Text.Blank
import LexerGen.Text.Reader

/-!
# Escapes in value patterns

What a backslash makes of the character after it: that character itself, if it is an ASCII character
other than a letter or a digit; a control character; a character by its number; a class of
characters; or an assertion. Where blanks are skipped, they are also skipped between the digits of a
number.
-/

namespace LexerGen.ValuePattern

open Text

/-- **What an escape stands for.** -/
inductive Escape
  /-- One character, which may be given as a byte. -/
  | char (c : Char) (asByte : Bool)
  /-- The digits, the blanks or the word characters, or all but those. -/
  | shorthand (complement : Bool)
  /-- The beginning or the end. -/
  | anchor
  /-- A place between words, or one that is none. -/
  | wordBoundary
  deriving DecidableEq, Repr

/-- A text without the blanks and comments at its beginning; a comment reaches from a number sign to
the end of its line. -/
def afterBlanks (inComment : Bool) : List Char → List Char
  | [] => []
  | c :: cs =>
    if inComment then afterBlanks (c != '\n') cs
    else if isBlank c then afterBlanks false cs
    else if c == '#' then afterBlanks true cs
    else c :: cs

theorem length_afterBlanks (inComment : Bool) (cs : List Char) :
    (afterBlanks inComment cs).length ≤ cs.length := by
  induction cs generalizing inComment with
  | nil => simp [afterBlanks]
  | cons c cs ih =>
    rw [afterBlanks]
    split
    · exact Nat.le_succ_of_le (ih _)
    · split
      · exact Nat.le_succ_of_le (ih _)
      · split
        · exact Nat.le_succ_of_le (ih _)
        · exact Nat.le_refl _

/-- Skips blanks and comments if that is switched on. -/
def skipBlanks : Bool → Reader Unit
  | true => fun cs => some ((), ⟨afterBlanks false cs, length_afterBlanks false cs⟩)
  | false => pure ()

/-- The value of a hexadecimal digit. -/
def hexDigit? (c : Char) : Option Nat :=
  if c.isDigit then some (c.toNat - '0'.toNat)
  else if 'a' ≤ c ∧ c ≤ 'f' then some (c.toNat - 'a'.toNat + 10)
  else if 'A' ≤ c ∧ c ≤ 'F' then some (c.toNat - 'A'.toNat + 10)
  else none

/-- Reads a number of hexadecimal digits, which continue the number `n`. -/
def readHex (verbose : Bool) (n : Nat) : Nat → Reader Nat
  | 0 => do
    skipBlanks verbose
    return n
  | digits + 1 => do
    skipBlanks verbose
    match hexDigit? (← Reader.next) with
    | some d => readHex verbose (16 * n + d) digits
    | none => Reader.fail

/-- Reads a character that is given by a number of so many digits; one of two digits is a byte. -/
def readNumbered (verbose : Bool) (digits : Nat) : Reader Escape := do
  let n ← readHex verbose 0 digits
  Reader.require (decide n.isValidChar)
  return .char (Char.ofNat n) (digits == 2)

/-- The control characters that have letters. -/
def controlLetters : List (Char × Char) :=
  [('a', '\x07'), ('f', '\x0c'), ('n', '\n'), ('r', '\r'), ('t', '\t'), ('v', '\x0b')]

/-- **Reads an escape**, of which the backslash has been taken. -/
def readEscape (verbose : Bool) : Reader Escape := do
  let c ← Reader.next
  match c with
  | 'x' => readNumbered verbose 2
  | 'u' => readNumbered verbose 4
  | 'U' => readNumbered verbose 8
  | 'd' | 's' | 'w' => return .shorthand false
  | 'D' | 'S' | 'W' => return .shorthand true
  | 'A' | 'z' => return .anchor
  | 'b' | 'B' | '<' | '>' => return .wordBoundary
  | c =>
    match controlLetters.find? fun letter => letter.1 == c with
    | some (_, control) => return .char control false
    | none => do
      Reader.require (c.toNat < 0x80 && !c.isAlphanum)
      return .char c false

end LexerGen.ValuePattern
