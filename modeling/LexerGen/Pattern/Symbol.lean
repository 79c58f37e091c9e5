import LexerGen.Regex.Error

/-!
# The symbols of a pattern

A pattern is written as literal characters, quoted characters `'c'`, classes `[x-y]`, the word
`eps`, parentheses and the operators `|`, `*`, `+` and `?`; two expressions that stand side by side
are concatenated. This module turns the characters of a pattern into a list of symbols, each with
the offset at which it starts. It does so in two steps:

* `split` cuts the text from left to right. A class stands for the union of its characters, so it
  is one operand, as a literal is. Only this step can fail.
* `join` puts the unwritten concatenation operator between two symbols wherever the first ends an
  operand and the second starts one.
-/

namespace LexerGen.Pattern

open Regex

/-- **A symbol of a pattern.** -/
inductive Symbol
  /-- An expression that is complete in itself. -/
  | operand (r : Regex)
  /-- A repetition of the operand before it. -/
  | quantifier (q : Quantifier)
  /-- An operator between two operands. -/
  | binary (op : BinaryOp)
  | openGroup
  | closeGroup
  deriving DecidableEq, Repr

namespace Symbol

/-- Whether the text up to and including this symbol can end an operand. -/
def endsOperand : Symbol → Bool
  | operand _ | quantifier _ | closeGroup => true
  | binary _ | openGroup => false

/-- Whether an operand can start with this symbol. -/
def startsOperand : Symbol → Bool
  | operand _ | openGroup => true
  | quantifier _ | binary _ | closeGroup => false

end Symbol

/-- The ranges within which the bounds of a class must lie. -/
def classRuns : List (Char × Char) := [('0', '9'), ('a', 'z'), ('A', 'Z')]

/-- **Whether `[first-last]` is a class**: both bounds lie in one run, in ascending order. -/
def isClass (first last : Char) : Bool :=
  classRuns.any fun run => run.1 ≤ first && first ≤ last && last ≤ run.2

/-- The characters after `first` up to and including `last`. -/
def charsUpTo (first last : Char) : List Char :=
  (List.range' (first.toNat + 1) (last.toNat - first.toNat)).map Char.ofNat

/-- The union of the characters of a class, in ascending order. -/
def classUnion (first last : Char) : Regex := anyOf first (charsUpTo first last)

/-- **The symbol that starts with `c`**, where `rest` follows, and the number of characters of
`rest` that belong to it. -/
def readSymbol (offset : Nat) (c : Char) (rest : List Char) :
    Except PatternError (Symbol × Nat) :=
  -- the counts leave out `c` itself
  match c with
  | '[' =>
    match rest with
    | first :: '-' :: last :: ']' :: _ =>
      if isClass first last then .ok (.operand (classUnion first last), 4)
      else .error (.emptyClass first last offset)
    | _ => .error (.malformedClass offset)
  | '\'' =>
    match rest with
    | x :: '\'' :: _ => .ok (.operand (.quoted x), 2)
    | _ => .error (.unterminatedQuote offset)
  | 'e' =>
    match rest with
    | 'p' :: 's' :: _ => .ok (.operand .eps, 2)
    | _ => .ok (.operand (ofChar 'e'), 0)
  | '(' => .ok (.openGroup, 0)
  | ')' => .ok (.closeGroup, 0)
  | '|' => .ok (.binary .union, 0)
  | '*' => .ok (.quantifier .star, 0)
  | '+' => .ok (.quantifier .plus, 0)
  | '?' => .ok (.quantifier .maybe, 0)
  | ']' => .error (.strayBracket offset)
  | c => .ok (.operand (ofChar c), 0)

/-- **Cuts a text into its written symbols**, the first of which starts at `offset`. -/
def split (offset : Nat) : List Char → Except PatternError (List (Symbol × Nat))
  | [] => .ok []
  | c :: rest => do
    let (symbol, more) ← readSymbol offset c rest
    let symbols ← split (offset + 1 + more) (rest.drop more)
    return (symbol, offset) :: symbols
termination_by text => text.length
decreasing_by simp only [List.length_drop, List.length_cons]; omega

/-- **Inserts the unwritten concatenations.** The flag says whether the symbols before can end an
operand; an inserted operator gets the offset of the operand after it. -/
def join (afterOperand : Bool) : List (Symbol × Nat) → List (Symbol × Nat)
  | [] => []
  | (symbol, offset) :: rest =>
    if afterOperand && symbol.startsOperand then
      (.binary .concat, offset) :: (symbol, offset) :: join symbol.endsOperand rest
    else
      (symbol, offset) :: join symbol.endsOperand rest

/-- The symbols of a pattern, unwritten ones included. -/
def symbols (text : List Char) : Except PatternError (List (Symbol × Nat)) :=
  (split 0 text).map (join false)

end LexerGen.Pattern
