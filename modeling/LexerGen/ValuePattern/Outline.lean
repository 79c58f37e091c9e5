import LexerGen.Text.Alphanumeric
import LexerGen.Text.Number
import LexerGen.ValuePattern.Basic
import LexerGen.ValuePattern.Escape

/-!
# The outline of a value pattern

A pattern is read from left to right. All that is kept of it is its outline: how deeply its parts
nest, which groups and sets are still open, and the switches in force. A pattern can be used if the
reading comes to its end with nothing left open and if its parts do not nest too deeply (`check`).

A group ends the force of the switches that were turned in it. The switches turned in one branch of
a group stay in force in the branches after it.
-/

namespace LexerGen.ValuePattern

open Text

/-- **A part of a sequence.** -/
structure Piece where
  depth : Nat
  /-- Whether a repetition may follow; it may not after switches. -/
  repeatable : Bool := true
  deriving DecidableEq, Repr

/-- **A group that is open**, with what goes on after it. -/
structure OpenGroup where
  /-- The switches in force around it. -/
  switches : Switches
  /-- The parts before it, the last first. -/
  pieces : List Piece
  /-- The depths of the branches before the one that it is in. -/
  branches : List Nat
  deriving DecidableEq, Repr

/-- **A bracketed set that is open.** -/
structure OpenSet where
  /-- Whether nothing but hyphens has been read, which then stand for themselves. -/
  atStart : Bool := true
  /-- The depth of what stands before the last operator. -/
  left : Option Nat := none
  /-- The depths of the members since then. -/
  members : List Nat := []
  deriving DecidableEq, Repr

/-- The depth of the set without its brackets. -/
def OpenSet.depth (set : OpenSet) : Nat :=
  match set.left with
  | none => joined set.members
  | some left => joined [left, joined set.members]

/-- **What is known of a pattern that has been read in part.** -/
structure Outline where
  switches : Switches := {}
  /-- The parts of the branch at hand, the last first. -/
  pieces : List Piece := []
  /-- The depths of the branches before it. -/
  branches : List Nat := []
  /-- The groups that are open, the innermost first. -/
  groups : List OpenGroup := []
  /-- The sets that are open, the innermost first. -/
  sets : List OpenSet := []
  /-- The names that groups have been given. -/
  names : List (List Char) := []
  /-- Whether there is a word boundary that depends on the classes of all characters. -/
  unicodeWordBoundary : Bool := false
  deriving DecidableEq, Repr

namespace Outline

/-- Adds a part that has no parts of its own. -/
def addAtom (o : Outline) : Outline := { o with pieces := ⟨0, true⟩ :: o.pieces }

/-- The depth of the innermost open group, or of the whole if none is open. -/
def depth (o : Outline) : Nat := joined (joined (o.pieces.map Piece.depth) :: o.branches)

/-! ### Groups -/

/-- Opens a group with certain switches. -/
def enter (o : Outline) (switches : Switches) : Outline :=
  { o with
    switches
    pieces := []
    branches := []
    groups := ⟨o.switches, o.pieces, o.branches⟩ :: o.groups }

/-- Closes a group; fails if none is open. -/
def leave (o : Outline) : Reader Outline :=
  match o.groups with
  | [] => Reader.fail
  | group :: groups =>
    return { o with
      switches := group.switches
      pieces := ⟨o.depth + 1, true⟩ :: group.pieces
      branches := group.branches
      groups }

/-- Whether a group may have a name. -/
def isName : List Char → Bool
  | [] => false
  | c :: cs =>
    (c == '_' || isAlphabetic c) &&
      cs.all fun c => ['_', '.', '[', ']'].contains c || isAlphanumeric c

/-- Reads the name of a group, which has to be new. -/
def readName (o : Outline) : Reader Outline := do
  let name ← Reader.takeWhile (· != '>')
  Reader.require (isName name && !o.names.contains name)
  Reader.expect '>'
  return { o.enter o.switches with names := name :: o.names }

/-- Whether no character occurs twice. -/
def allDistinct : List Char → Bool
  | [] => true
  | c :: cs => !cs.contains c && allDistinct cs

/-- Reads switches, either for the rest of the group at hand or for a group of their own. -/
def readSwitches (o : Outline) : Reader Outline := do
  let items ← Reader.takeWhile fun c => c != ':' && c != ')'
  Reader.require (items.all Switches.letters.contains && allDistinct items &&
    items.getLast? != some '-')
  let switches := o.switches.turn items
  if (← Reader.next) == ':' then return o.enter switches
  else do
    Reader.require (!items.isEmpty)
    return { o with switches, pieces := ⟨0, false⟩ :: o.pieces }

/-- Reads the beginning of a group after its parenthesis. -/
def readGroup (o : Outline) : Reader Outline := do
  skipBlanks o.switches.verbose
  match ← Reader.look with
  | '?' :: 'P' :: '<' :: _ => do
    Reader.skip 3
    o.readName
  | '?' :: '<' :: _ => do
    Reader.skip 2
    o.readName
  | '?' :: _ => do
    Reader.skip 1
    o.readSwitches
  | _ => return o.enter o.switches

/-! ### Sets -/

/-- Opens a set after its bracket. -/
def readSet (o : Outline) : Reader Outline := do
  skipBlanks o.switches.verbose
  let complement ← Reader.accept '^'
  Reader.require (!complement || o.switches.admitsComplement)
  return { o with sets := {} :: o.sets }

/-- The names of classes of ASCII characters. -/
def classNames : List String :=
  ["alnum", "alpha", "ascii", "blank", "cntrl", "digit", "graph", "lower", "print", "punct",
    "space", "upper", "word", "xdigit"]

/-- Reads the name of a class of ASCII characters after its bracket, and says whether the
complement of the class is meant. -/
def readClassName : Reader Bool := do
  Reader.expect ':'
  let complement ← Reader.accept '^'
  let name ← Reader.takeWhile (· != ':')
  Reader.expect ':'
  Reader.expect ']'
  Reader.require (classNames.contains (String.ofList name))
  return complement

/-- The first character of a text, or the first after its blanks and one number sign if blanks are
skipped. -/
def firstAhead (verbose : Bool) (cs : List Char) : Option Char :=
  if !verbose then cs.head?
  else
    match cs.dropWhile isBlank with
    | '#' :: cs => (cs.dropWhile isBlank).head?
    | cs => cs.head?

/-- Reads what a character in a set begins: that character, or an escape. -/
def readMember (o : Outline) (c : Char) : Reader Escape :=
  if c == '\\' then readEscape o.switches.verbose else return .char c false

/-- Whether a set may have a certain member. -/
def admits (o : Outline) : Escape → Bool
  | .char c _ => o.switches.admitsMember c
  | .shorthand complement => o.switches.admitsShorthand complement
  | .anchor => false
  | .wordBoundary => false

/-- Reads a member of a set, or a range of members, which begins with a certain character. -/
def readRange (o : Outline) (c : Char) : Reader Unit := do
  let first ← o.readMember c
  skipBlanks o.switches.verbose
  match ← Reader.look with
  | '-' :: cs =>
    let ahead := firstAhead o.switches.verbose cs
    -- a hyphen is no range if the set ends behind it or if it is one of two
    if ahead == some ']' || ahead == some '-' then Reader.require (o.admits first)
    else do
      Reader.skip 1
      skipBlanks o.switches.verbose
      let last ← o.readMember (← Reader.next)
      match first, last with
      | .char a _, .char b _ =>
        Reader.require (a.toNat ≤ b.toNat && o.admits first && o.admits last)
      | _, _ => Reader.fail
  | _ => Reader.require (o.admits first)

/-- Closes the innermost set, which is a member of the set around it if there is one. -/
def closeSet (o : Outline) (set : OpenSet) (outer : List OpenSet) : Outline :=
  match outer with
  | [] => { o with sets := [], pieces := ⟨set.depth + 1, true⟩ :: o.pieces }
  | around :: sets =>
    { o with sets := { around with members := (set.depth + 1) :: around.members } :: sets }

/-- **Reads on in a set** with a certain character. -/
def feedSet (o : Outline) (set : OpenSet) (outer : List OpenSet) (c : Char) : Reader Outline := do
  if set.atStart && c == '-' then
    Reader.require (o.switches.admitsMember c)
    return { o with sets := { set with members := 0 :: set.members } :: outer }
  else if set.atStart && set.members.isEmpty && c == ']' then
    Reader.require (o.switches.admitsMember c)
    return { o with sets := { set with atStart := false, members := [0] } :: outer }
  else
    let grown : Outline :=
      { o with sets := { set with atStart := false, members := 0 :: set.members } :: outer }
    match c, ← Reader.look with
    | '[', _ =>
      match ← Reader.attempt readClassName with
      | some complement => do
        Reader.require (o.switches.admitsNamed complement)
        return grown
      | none => readSet { o with sets := { set with atStart := false } :: outer }
    | ']', _ => return o.closeSet set outer
    | '&', '&' :: _ | '-', '-' :: _ | '~', '~' :: _ => do
      Reader.skip 1
      return { o with sets := ⟨false, some set.depth, []⟩ :: outer }
    | _, _ => do
      o.readRange c
      return grown

/-! ### The whole -/

/-- Repeats the last part, as few or as many times as wanted. -/
def readRepetition (o : Outline) : Reader Outline :=
  match o.pieces with
  | ⟨depth, true⟩ :: pieces => do
    let _ ← Reader.accept '?'
    return { o with pieces := ⟨depth + 1, true⟩ :: pieces }
  | _ => Reader.fail

/-- Reads an escape outside of sets. -/
def readAtom (o : Outline) : Reader Outline := do
  match ← readEscape o.switches.verbose with
  | .char c asByte => do
    Reader.require (o.switches.admitsLiteral c asByte)
    return o.addAtom
  | .shorthand complement => do
    Reader.require (o.switches.admitsShorthand complement)
    return o.addAtom
  | .anchor => return o.addAtom
  | .wordBoundary =>
    return { o.addAtom with
      unicodeWordBoundary := o.unicodeWordBoundary || o.switches.unicode }

/-- **Reads on outside of sets** with a certain character. -/
def feedSequence (o : Outline) (c : Char) : Reader Outline :=
  match c with
  | '(' => o.readGroup
  | ')' => o.leave
  | '[' => o.readSet
  | '\\' => o.readAtom
  | '|' =>
    return { o with pieces := [], branches := joined (o.pieces.map Piece.depth) :: o.branches }
  | '?' | '*' | '+' => o.readRepetition
  -- a counted repetition cannot be completed
  | '\x7b' => Reader.fail
  | '.' => do
    Reader.require o.switches.admitsDot
    return o.addAtom
  | '^' | '$' => return o.addAtom
  | c => do
    Reader.require (o.switches.admitsLiteral c false)
    return o.addAtom

/-- **Reads on** with a certain character, and skips the blanks that follow. -/
def feed (o : Outline) (c : Char) : Reader Outline := do
  let o ← match o.sets with
    | [] => o.feedSequence c
    | set :: outer => o.feedSet set outer c
  skipBlanks o.switches.verbose
  return o

/-- **The outline of a text** that continues what has been read. -/
def ofText? (o : Outline) : List Char → Option Outline
  | [] => some o
  | c :: cs =>
    match o.feed c cs with
    | none => none
    | some (o, rest) => ofText? o rest.1
termination_by text => text.length
decreasing_by exact Nat.lt_succ_of_le rest.2

/-- Whether a pattern may end here. -/
def isComplete (o : Outline) : Bool :=
  o.groups.isEmpty && o.sets.isEmpty && o.depth ≤ depthLimit

end Outline

/-- **Whether a pattern can be used.** A number is used as it is, and so is always possible. -/
def check (text : List Char) : Except Error Unit :=
  if isNumber text then .ok ()
  else
    match Outline.ofText? {} text with
    | none => .error .malformed
    | some o =>
      if !o.isComplete then .error .malformed
      else if o.unicodeWordBoundary then .error .unicodeWordBoundary
      else .ok ()

end LexerGen.ValuePattern
