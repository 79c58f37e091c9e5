import LexerGen.Prenex.Word

/-!
# Reading prenex text

A prenex text is read in three steps, and the first that fails decides the error:

* `spell` cuts the text at spaces. A quoted character is a word of its own when a space or the end
  follows it, so a space between quotes does not cut.
* `identify` recognises each word, from left to right.
* `assemble` builds trees from the right: an expression is pushed on a stack, and a keyword takes
  its operands off it. What is left must be one tree.
-/

namespace LexerGen.Prenex

open Regex

/-- **A word as it is met in a text**, not yet recognised. -/
inductive Spelling
  /-- A character between single quotes. -/
  | quoted (c : Char)
  /-- Characters up to the next space. -/
  | run (cs : List Char)
  deriving DecidableEq, Repr

/-- The quoted character at the start of a text, with what follows it, if it ends there. -/
def quotedHead : List Char → Option (Char × List Char)
  | ['\'', c, '\''] => some (c, [])
  | '\'' :: c :: '\'' :: ' ' :: rest => some (c, ' ' :: rest)
  | _ => none

theorem length_quotedHead {text rest : List Char} {c : Char}
    (h : quotedHead text = some (c, rest)) : rest.length < text.length := by
  unfold quotedHead at h
  split at h
  · cases h; simp
  · cases h; simp
  · cases h

/-- **Cuts a text into words**, the first of which starts at `offset` or after the spaces
there. -/
def spell (offset : Nat) : List Char → List (Spelling × Nat)
  | [] => []
  | c :: rest =>
    if c = ' ' then spell (offset + 1) rest
    else
      match _h : quotedHead (c :: rest) with
      | some (x, after) => (.quoted x, offset) :: spell (offset + 3) after
      | none =>
        -- a run holds at least `c`, so the text gets shorter
        let run := c :: rest.takeWhile (· != ' ')
        (.run run, offset) :: spell (offset + run.length) (rest.dropWhile (· != ' '))
termination_by text => text.length
decreasing_by
  · simp
  · exact length_quotedHead _h
  · exact Nat.lt_succ_of_le (List.dropWhile_sublist _).length_le

/-- The keywords that take operands. -/
def keywords : List Keyword :=
  [.binary .union, .binary .concat, .quantifier .star, .quantifier .plus, .quantifier .maybe]

/-- **Recognises a run of characters**: a keyword, `eps`, `void`, or one character. -/
def identify (cs : List Char) : Option Word :=
  match keywords.find? fun k => k.text.toList == cs with
  | some k => some (.keyword k)
  | none =>
    if cs = ['e', 'p', 's'] then some .eps
    else if cs = ['v', 'o', 'i', 'd'] then some .void
    else
      match cs with
      | [c] => some (if needsQuotes c then .quoted c else .lit c)
      | _ => none

/-- Recognises every word, and reports the leftmost that is not one. -/
def identifyAll : List (Spelling × Nat) → Except PatternError (List (Word × Nat))
  | [] => .ok []
  | (.quoted c, offset) :: rest => (identifyAll rest).map ((.quoted c, offset) :: ·)
  | (.run cs, offset) :: rest =>
    match identify cs with
    | some word => (identifyAll rest).map ((word, offset) :: ·)
    | none => .error (.unknownWord cs offset)

/-- **Puts one word before the expressions that follow it.** -/
def push (word : Word) (offset : Nat) (stack : List Regex) : Except PatternError (List Regex) :=
  match word, stack with
  | .eps, stack => .ok (.eps :: stack)
  | .void, stack => .ok (.void :: stack)
  | .lit c, stack => .ok (.lit c :: stack)
  | .quoted c, stack => .ok (.quoted c :: stack)
  | .keyword (.binary op), l :: r :: rest => .ok (op.apply l r :: rest)
  | .keyword (.quantifier q), r :: rest => .ok (q.apply r :: rest)
  | .keyword k, _ => .error (.missingPrenexOperand k offset)

/-- **The complete expressions that a sequence of words spells**, from the last word to the
first. -/
def assemble : List (Word × Nat) → Except PatternError (List Regex)
  | [] => .ok []
  | (word, offset) :: rest => do
    let stack ← assemble rest
    push word offset stack

/-- **Reads a prenex text.** -/
def read (text : List Char) : Except PatternError Regex := do
  let found ← identifyAll (spell 0 text)
  match ← assemble found with
  | [] => .error (.empty 0)
  | [r] => .ok r
  | _ :: extra => .error (.trailingOperands extra.length)

end LexerGen.Prenex
