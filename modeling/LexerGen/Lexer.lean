import LexerGen.Dfa.Subset
import LexerGen.Nfa.Merge
import LexerGen.Nfa.Thompson
import LexerGen.Pattern.Yard
import LexerGen.Prenex.Reader
import LexerGen.Scanner

/-!
# Lexers

A lexer is compiled from a list of token definitions, each a name and a pattern. The automaton of
each pattern is tagged with the name and with the place of the definition in the list, so that of
two definitions that match the same text the earlier one wins; the tagged automata are joined, and
the result is made deterministic.

Patterns are compiled from their prenex text, the notation in which they are also shown; reading
that text gives back the tree that was parsed, so the detour changes nothing.
-/

namespace LexerGen

/-- **Why a list of definitions is no lexer.** -/
inductive LexerError
  /-- The pattern of this token cannot be read. -/
  | badPattern (name : String) (cause : PatternError)
  /-- There are no definitions. -/
  | noTokens
  deriving DecidableEq, Repr

namespace LexerError

/-- The wording of each error, without its cause. -/
def message : LexerError → String
  | badPattern name _ => s!"Invalid pattern for token {Text.quotedString name}"
  | noTokens => "No tokens were defined"

/-- The error that an error comes from. -/
def cause? : LexerError → Option PatternError
  | badPattern _ cause => some cause
  | noTokens => none

end LexerError

/-- **The prenex text of a pattern.** -/
def Pattern.toPrenex (pattern : List Char) : Except PatternError (List Char) :=
  (Pattern.parse pattern).map Prenex.render

/-- The automaton of a prenex text. -/
def Nfa.ofPrenex (text : List Char) : Except PatternError Nfa := (Prenex.read text).map Nfa.ofRegex

/-- The automaton of a pattern. -/
def Nfa.ofPattern (text : List Char) : Except PatternError Nfa :=
  (Pattern.parse text).map Nfa.ofRegex

/-- **A compiled lexer.** -/
structure Lexer where
  /-- The joined automata of all definitions. -/
  nfa : Nfa
  /-- The automaton that texts are scanned with. -/
  dfa : Dfa

namespace Lexer

/-- The automaton of one definition, tagged with its name and rank. -/
def compileToken (rank : Nat) (name : String) (pattern : String) : Except LexerError Nfa :=
  match Pattern.toPrenex pattern.toList >>= Nfa.ofPrenex with
  | .ok n => .ok (n.tagFinal ⟨name, rank⟩)
  | .error e => .error (.badPattern name e)

/-- The automata of a list of definitions, the first of which has the given rank. -/
def compileTokens (rank : Nat) : List (String × String) → Except LexerError (List Nfa)
  | [] => .ok []
  | (name, pattern) :: rest => do
    let n ← compileToken rank name pattern
    let ns ← compileTokens (rank + 1) rest
    return n :: ns

/-- **Compiles a list of definitions**, strongest first. The first faulty one is reported. -/
def compile (tokens : List (String × String)) : Except LexerError Lexer := do
  let ns ← compileTokens 0 tokens
  match Nfa.merge ns with
  | none => .error .noTokens
  | some n => .ok ⟨n, Dfa.ofNfa n⟩

/-- **Starts a scan of a text.** -/
def scan (lexer : Lexer) (text : List Char) : Scanner := Scanner.start lexer.dfa text

/-- **All tokens of a text**, or the place where none matches. -/
def lex (lexer : Lexer) (text : List Char) : Except LexError (List Token) :=
  Scanner.collect (lexer.scan text).items

end Lexer

end LexerGen
