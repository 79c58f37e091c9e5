/-!
# Value patterns

A value pattern describes the texts that a field may have as its value. It is a regular expression
in the usual notation, with groups, switches, bracketed sets of characters, and assertions. It
stands between braces in a list with commas, so it holds no comma, no equals sign, and no brace that
closes one; a counted repetition, a character by its number in braces, and the like can thus be
begun but never completed.

No more is asked of a pattern here than whether it can be used. Patterns are matched on the bytes of
a text, but what they match must be made of whole characters; and the tables that tell the classes
and cases of all characters are not at hand. The `Switches` in force decide what this rules out.
-/

namespace LexerGen.ValuePattern

/-- **Why a pattern cannot be used.** -/
inductive Error
  /-- It is not well-formed, or asks for what is ruled out. -/
  | malformed
  /-- It has a word boundary by the classes of all characters. -/
  | unicodeWordBoundary
  deriving DecidableEq, Repr

/-- The wording of each error. -/
def Error.message : Error → String
  | malformed => "error building NFA"
  | unicodeWordBoundary =>
    "unsupported regex feature for DFAs: cannot build DFAs for regexes with Unicode word " ++
      "boundaries; switch to ASCII word boundaries, or heuristically enable Unicode word " ++
      "boundaries or use a different regex engine"

/-- **The switches in force** at a place in a pattern, as far as they matter for whether it can be
used. -/
structure Switches where
  /-- `i`: letters stand for both of their cases. -/
  ignoreCase : Bool := false
  /-- `u`: a pattern is about characters, not about bytes. -/
  unicode : Bool := true
  /-- `x`: blanks and comments are skipped. -/
  verbose : Bool := false
  deriving DecidableEq, Repr

namespace Switches

/-- The letters of all switches, and the hyphen in front of those that are turned off. -/
def letters : List Char := ['i', 'm', 's', 'U', 'u', 'R', 'x', '-']

/-- **The switches after some are turned** on and, behind a hyphen, off. -/
def turn (s : Switches) (items : List Char) : Switches :=
  let on := items.takeWhile (· != '-')
  let off := items.dropWhile (· != '-')
  let value (letter : Char) (old : Bool) : Bool :=
    on.contains letter || (old && !off.contains letter)
  ⟨value 'i' s.ignoreCase, value 'u' s.unicode, value 'x' s.verbose⟩

/-- Whether a character may stand for itself. The case of a character is not known, and a byte that
is only part of a character must not be matched. -/
def admitsLiteral (s : Switches) (c : Char) (asByte : Bool) : Bool :=
  if s.unicode then !s.ignoreCase else !asByte || c.toNat < 0x80

/-- Whether a character may be a member of a set, which is one of characters or of bytes. -/
def admitsMember (s : Switches) (c : Char) : Bool :=
  if s.unicode then !s.ignoreCase else c.toNat < 0x80

/-- Whether a class of ASCII characters may be named in a set; the complement of a set of bytes has
bytes that are only part of a character. -/
def admitsNamed (s : Switches) (complement : Bool) : Bool :=
  if s.unicode then !s.ignoreCase else !complement

/-- Whether a letter may stand for the digits, the blanks or the word characters, which are known
among the bytes alone. -/
def admitsShorthand (s : Switches) (complement : Bool) : Bool := !s.unicode && !complement

/-- Whether a set may be given by what is not in it. -/
def admitsComplement (s : Switches) : Bool := s.unicode

/-- Whether a dot may be used, which stands for any character or for any byte. -/
def admitsDot (s : Switches) : Bool := s.unicode

end Switches

/-- **The depth of constructs that stand together**; one that stands alone is not deeper for it. -/
def joined : List Nat → Nat
  | [] => 0
  | [depth] => depth
  | depths => depths.foldl Nat.max 0 + 1

/-- How deeply constructs may nest. -/
def depthLimit : Nat := 250

end LexerGen.ValuePattern
