import LexerGen.Text.Alphanumeric
import LexerGen.Text.Blank
import LexerGen.ValuePattern.Outline

/-!
# Log directives

A log directive says how much is logged of one part of a program. In full it is a target, then in
brackets the name of a span followed by a field in braces, and then a level after an equals sign.
The part is that of the messages whose target starts with the given one, that arise inside a span of
that name, and that have the field. All but one of the components can be left out, and a directive
without a level lets everything through. A word alone is a level if it can be read as one, and
otherwise a target.

Blanks around a directive are no part of its form. But places in it are counted, in bytes, from its
first character that is not a blank, and what stands between two places is then taken from the
directive as it is written; so a blank at the end belongs to the last component, and blanks at the
beginning shift every component. A component that would then begin or end inside a character cannot
be taken at all, and the program breaks off.
-/

namespace LexerGen.CommandLine

/-- **How much is logged**, from nothing to everything. -/
inductive LogLevel
  | off
  | error
  | warn
  | info
  | debug
  | trace
  deriving DecidableEq, Repr

namespace LogLevel

/-- The levels with their names; the place of a level in the list is its number. -/
def named : List (LogLevel × String) :=
  [(off, "off"), (error, "error"), (warn, "warn"), (info, "info"), (debug, "debug"),
    (trace, "trace")]

/-- The number that decimal digits stand for, of which there must be at least one. -/
def number? (cs : List Char) : Option Nat :=
  if cs.isEmpty || !cs.all Char.isDigit then none
  else some (cs.foldl (fun n c => 10 * n + (c.toNat - '0'.toNat)) 0)

/-- **A level by its number**, which may have a plus sign and leading zeros, or by its name in
letters of either case. -/
def ofText? (text : List Char) : Option LogLevel :=
  let digits := match text with
    | '+' :: digits => digits
    | digits => digits
  match number? digits with
  | some n => (named[n]?).map Prod.fst
  | none =>
    (named.find? fun level => level.2.toList == text.map Char.toLower).map Prod.fst

end LogLevel

/-- **A condition on a field** of a message, or of the span around it. -/
structure LogField where
  name : List Char
  /-- The pattern that the value must match, if there is one. -/
  value : Option (List Char)
  deriving DecidableEq, Repr

/-- **A log directive.** -/
structure LogDirective where
  /-- What the target of a message starts with. -/
  target : Option (List Char) := none
  /-- The name of a span around the message. -/
  span : Option (List Char) := none
  /-- A field that is asked for. -/
  field : Option LogField := none
  level : LogLevel := .trace
  deriving DecidableEq, Repr

/-- **Why a log directive cannot be read.** -/
inductive LogDirectiveError
  /-- It does not have the form of a directive. -/
  | malformed
  /-- It names a level that does not exist. -/
  | unknownLevel
  /-- It has a pattern for the value of a field that cannot be used. -/
  | badValue (cause : ValuePattern.Error)
  /-- A component would begin or end inside a character. -/
  | splitsCharacter
  deriving DecidableEq, Repr

/-- The wording of each error; that a character is split is not reported. -/
def LogDirectiveError.message? : LogDirectiveError → Option String
  | malformed => some "invalid filter directive"
  | unknownLevel =>
    some <| "error parsing level filter: expected one of \"off\", \"error\", \"warn\", " ++
      "\"info\", \"debug\", \"trace\", or a number 0-5"
  | badValue cause => some ("invalid field filter: " ++ cause.message)
  | splitsCharacter => none

/-- The number of bytes that a text is encoded in. -/
def byteLength : List Char → Nat
  | [] => 0
  | c :: cs => c.utf8Size + byteLength cs

/-- A text without its first bytes, of which there are a given number, if they are whole
characters. -/
def dropBytes? (count : Nat) : List Char → Option (List Char)
  | [] => if count = 0 then some [] else none
  | c :: cs =>
    if count = 0 then some (c :: cs)
    else if c.utf8Size ≤ count then dropBytes? (count - c.utf8Size) cs
    else none

/-- The first bytes of a text, of which there are a given number, if they are whole characters. -/
def takeBytes? (count : Nat) : List Char → Option (List Char)
  | [] => if count = 0 then some [] else none
  | c :: cs =>
    if count = 0 then some []
    else if c.utf8Size ≤ count then (takeBytes? (count - c.utf8Size) cs).map (c :: ·)
    else none

/-- **What stands in a text from one place to another**, both counted in bytes. -/
def component (text : List Char) (start stop : Nat) : Except LogDirectiveError (List Char) :=
  match (dropBytes? start text).bind (takeBytes? (stop - start)) with
  | some cs => .ok cs
  | none => .error .splitsCharacter

/-- A text without the blanks at its beginning and end. -/
def trimBlanks (cs : List Char) : List Char :=
  ((cs.dropWhile Text.isBlank).reverse.dropWhile Text.isBlank).reverse

namespace LogDirective

/-- Whether a level or a target can start with a character. -/
def isStart (c : Char) : Bool := c == '-' || c == ':' || c == '_' || Text.isAlphanumeric c

/-- A directive that is one word. -/
def ofWord (word : List Char) : LogDirective :=
  match LogLevel.ofText? word with
  | some level => { level }
  | none => { target := some word }

/-- Reads the level, which starts at `place` and may be left out. -/
def readLevel (text : List Char) (d : LogDirective) (place : Nat) :
    Except LogDirectiveError LogDirective := do
  match ← component text place (byteLength text) with
  | [] => return d
  | word =>
    match LogLevel.ofText? word with
    | some level => return { d with level }
    | none => throw .unknownLevel

/-- Reads what follows the closing bracket. -/
def readTail (text : List Char) (d : LogDirective) (place : Nat) :
    List Char → Except LogDirectiveError LogDirective
  | [] => .ok d
  | '=' :: _ => readLevel text d (place + 1)
  | _ => .error .malformed

/-- Reads a condition on a field: a name and, after an equals sign, the pattern for the value, which
ends before a second equals sign. -/
def fieldOf (cs : List Char) : Except LogDirectiveError LogField :=
  match cs.takeWhile (· != '='), cs.dropWhile (· != '=') with
  | [], [] => .error .malformed
  | name, [] => .ok ⟨name, none⟩
  | name, _ :: rest =>
    let value := rest.takeWhile (· != '=')
    match ValuePattern.check value with
    | .ok _ => .ok ⟨name, some value⟩
    | .error cause => .error (.badValue cause)

/-- Reads a field, which starts at `place`, up to the closing bracket. -/
def readField (text : List Char) (d : LogDirective) (place : Nat) (rest : List Char) :
    Except LogDirectiveError LogDirective := do
  let stop := place + byteLength (rest.takeWhile (· != '\x7d'))
  match rest.dropWhile (· != '\x7d') with
  | [] => throw .malformed
  | _ :: rest =>
    let field ← fieldOf (← component text place stop)
    match rest with
    | ']' :: rest => readTail text { d with field := some field } (stop + 2) rest
    | _ => throw .malformed

/-- Reads what stands between brackets, which starts at `place`. -/
def readSpan (text : List Char) (d : LogDirective) (place : Nat) (rest : List Char) :
    Except LogDirectiveError LogDirective := do
  let inName (c : Char) := c != ']' && c != '\x7b'
  let stop := place + byteLength (rest.takeWhile inName)
  match rest.dropWhile inName with
  | [] => throw .malformed
  | c :: rest =>
    let name ← component text place stop
    if c = ']' then readTail text { d with span := some name } (stop + 1) rest
    else
      -- in front of a field the name can be left out
      let span := if name.isEmpty then none else some name
      readField text { d with span } (stop + 1) rest

/-- **Reads a directive.** -/
def ofText (text : List Char) : Except LogDirectiveError LogDirective := do
  let form := trimBlanks text
  let inWord (c : Char) := c != '=' && c != '['
  match form with
  | [] => throw .malformed
  | '[' :: rest => readSpan text {} 1 rest
  | c :: _ =>
    if isStart c then
      let stop := byteLength (form.takeWhile inWord)
      match form.dropWhile inWord with
      | [] => return ofWord text
      | c :: rest =>
        let target ← component text 0 stop
        if c = '[' then readSpan text { target := some target } (stop + 1) rest
        else readLevel text { target := some target } (stop + 1)
    else throw .malformed

/-- **Whether the directive speaks of a message outside all spans** that has the given target and
fields. A condition on a span or on the value of a field is met inside spans only. -/
def appliesTo (d : LogDirective) (target : List Char) (fields : List (List Char)) : Bool :=
  d.span.isNone && (d.target.all fun t => t.isPrefixOf target) &&
    d.field.all fun f => f.value.isNone && fields.contains f.name

/-- **Whether a directive is at least as specific as another**: it has a target and the other does
not or has a shorter one, or their targets are equally long and it asks for as many fields. -/
def atLeastAsSpecific (d e : LogDirective) : Bool :=
  let weight (d : LogDirective) : Nat :=
    match d.target with
    | none => 0
    | some t => byteLength t + 1
  let fields (d : LogDirective) : Nat := if d.field.isSome then 1 else 0
  weight e < weight d || (weight e == weight d && fields e ≤ fields d)

end LogDirective

end LexerGen.CommandLine
