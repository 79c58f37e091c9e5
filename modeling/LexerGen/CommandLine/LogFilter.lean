import LexerGen.CommandLine.LogDirective
import LexerGen.Text.Quoted

/-!
# Log filters

A log filter is a list of directives separated by commas; empty ones are skipped. Of the directives
that speak of a message the most specific one decides whether it is logged, and the last of those
that are equally specific; if none speaks of it, it is not logged. The program also sends messages
that only inform or that help to trace it, but these are left out here. So all that is asked of a
filter is whether it lets errors through (`logsErrors`).
-/

namespace LexerGen.CommandLine

/-- **A filter with a directive that cannot be read.** -/
structure LogFilterError where
  filter : String
  cause : LogDirectiveError
  deriving DecidableEq, Repr

/-- The wording of the error, if it is one that is reported. -/
def LogFilterError.message? (e : LogFilterError) : Option String :=
  e.cause.message?.map fun cause =>
    "Invalid log filter " ++ Text.quotedString e.filter ++ ": " ++ cause

/-- The parts of a text between commas. -/
def splitAtCommas : List Char → List (List Char)
  | [] => [[]]
  | c :: cs =>
    if c = ',' then [] :: splitAtCommas cs
    else
      match splitAtCommas cs with
      | [] => [[c]]
      | part :: parts => (c :: part) :: parts

/-- Reads directives from left to right; the first that cannot be read decides the error. -/
def readDirectives : List (List Char) → Except LogDirectiveError (List LogDirective)
  | [] => .ok []
  | part :: parts => do
    let d ← LogDirective.ofText part
    let ds ← readDirectives parts
    return d :: ds

/-- **Reads a log filter.** -/
def logDirectives (filter : String) : Except LogFilterError (List LogDirective) :=
  match readDirectives ((splitAtCommas filter.toList).filter fun part => !part.isEmpty) with
  | .ok directives => .ok directives
  | .error cause => .error ⟨filter, cause⟩

/-- The last of the most specific directives of a list. -/
def deciding : List LogDirective → Option LogDirective
  | [] => none
  | d :: rest =>
    match deciding rest with
    | none => some d
    | some e => if e.atLeastAsSpecific d then some e else some d

/-- The fields of a logged error. -/
def errorFields : List (List Char) := ["message".toList]

/-- **Whether errors of a part of the program are logged**, given the target of its messages. -/
def logsErrors (target : String) (directives : List LogDirective) : Bool :=
  match deciding (directives.filter fun d => d.appliesTo target.toList errorFields) with
  | some d => d.level != .off
  | none => false

end LexerGen.CommandLine
