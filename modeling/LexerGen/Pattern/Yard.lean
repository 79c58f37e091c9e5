import LexerGen.Pattern.Symbol

/-!
# Reading a pattern

The symbols of a pattern are put together on a shunting yard: finished trees wait on one stack,
operators and open groups on another, and an operator is applied when a symbol shows that its right
operand is complete. Concatenation binds tighter than union, quantifiers apply at once to the
operand just read, and operators of one kind nest to the right.

The yard also remembers what diagnoses need: whether the last symbol ended an operand, and the
offset of the last symbol if it opened a group. `Yard.feed` takes one symbol, `Yard.finish` closes
the pattern, and `parse` runs both over the symbols of a text.
-/

namespace LexerGen.Pattern

open Regex

/-- **What can wait on the operator stack.** -/
inductive Pending
  /-- A group not yet closed. -/
  | group
  /-- An operator whose right operand is not yet complete. -/
  | binary (op : BinaryOp)
  deriving DecidableEq, Repr

namespace Pending

/-- The character that stands for an entry in a message. -/
def symbol : Pending → Char
  | group => '('
  | binary .union => '|'
  | binary .concat => '&'

/-- How tightly an entry binds. -/
def priority : Pending → Nat
  | group => 0
  | binary .union => 1
  | binary .concat => 2

end Pending

/-- The character that stands for a quantifier. -/
def quantifierSymbol : Quantifier → Char
  | .star => '*'
  | .plus => '+'
  | .maybe => '?'

/-- **A pattern read up to some symbol.** Both stacks list their top first. -/
structure Yard where
  /-- The trees read so far that no operator has taken yet. -/
  operands : List Regex
  /-- The operators and groups that are still open, with their offsets. -/
  pending : List (Pending × Nat)
  /-- Whether the last symbol ended an operand. -/
  afterOperand : Bool
  /-- The offset of the last symbol, if it opened a group. -/
  justOpened : Option Nat
  deriving DecidableEq, Repr

namespace Yard

/-- Nothing read yet. -/
def start : Yard := ⟨[], [], false, none⟩

/-- **Applies one entry of the operator stack** to the trees on top of the operand stack. A group
cannot be applied, since it still lacks its closing parenthesis. -/
def applyPending (entry : Pending) (offset : Nat) (operands : List Regex) :
    Except PatternError (List Regex) :=
  match entry, operands with
  | .group, _ => .error (.unclosedGroup offset)
  | .binary op, r :: l :: rest => .ok (op.apply l r :: rest)
  | .binary _, _ => .error (.missingOperand entry.symbol offset)

/-- Applies a quantifier to the tree on top of the operand stack. -/
def applyQuantifier (q : Quantifier) (offset : Nat) (operands : List Regex) :
    Except PatternError (List Regex) :=
  match operands with
  | r :: rest => .ok (q.apply r :: rest)
  | [] => .error (.missingOperand (quantifierSymbol q) offset)

/-- **Applies entries from the top of the operator stack** until one is met that `stop` holds
of. -/
def reduce (stop : Pending → Bool) (operands : List Regex) :
    List (Pending × Nat) → Except PatternError (List Regex × List (Pending × Nat))
  | [] => .ok (operands, [])
  | (entry, offset) :: pending =>
    if stop entry then .ok (operands, (entry, offset) :: pending)
    else do
      let operands ← applyPending entry offset operands
      reduce stop operands pending

/-- **Why a group cannot be closed** after a symbol that ends no operand: the group is empty, the
operator before lacks its right operand, or there is no group. -/
def closeError (y : Yard) (offset : Nat) : PatternError :=
  match y.justOpened, y.pending with
  | some opened, (.group, _) :: _ => .empty opened
  | _, (entry, opOffset) :: _ => .missingOperand entry.symbol opOffset
  | _, [] => .unmatchedClose offset

/-- Closes the innermost group: its operators are applied and its parenthesis is dropped. -/
def close (y : Yard) (offset : Nat) : Except PatternError Yard :=
  if y.afterOperand then do
    let (operands, pending) ← reduce (· == .group) y.operands y.pending
    -- what is left starts with the group to be closed, if there is one
    match pending with
    | [] => .error (.unmatchedClose offset)
    | _ :: pending => .ok ⟨operands, pending, true, none⟩
  else .error (y.closeError offset)

/-- **Takes one symbol.** -/
def feed (y : Yard) (symbol : Symbol) (offset : Nat) : Except PatternError Yard :=
  match symbol with
  | .operand r => .ok ⟨r :: y.operands, y.pending, true, none⟩
  | .openGroup => .ok ⟨y.operands, (.group, offset) :: y.pending, false, some offset⟩
  | .closeGroup => y.close offset
  | .quantifier q =>
    if y.afterOperand then do
      let operands ← applyQuantifier q offset y.operands
      return ⟨operands, y.pending, true, none⟩
    else .error (.missingOperand (quantifierSymbol q) offset)
  | .binary op =>
    if y.afterOperand then do
      -- an operator of the same kind stays, so that it nests to the right
      let (operands, pending) ←
        reduce (fun entry => entry.priority ≤ (Pending.binary op).priority) y.operands y.pending
      return ⟨operands, (.binary op, offset) :: pending, false, none⟩
    else .error (.missingOperand (Pending.binary op).symbol offset)

/-- Takes symbols one after the other. -/
def feedAll (y : Yard) : List (Symbol × Nat) → Except PatternError Yard
  | [] => .ok y
  | (symbol, offset) :: rest => do
    let y ← y.feed symbol offset
    y.feedAll rest

/-- **The tree of a pattern that ends here**: every open operator is applied. -/
def finish (y : Yard) : Except PatternError Regex :=
  if y.afterOperand then do
    let (operands, _) ← reduce (fun _ => false) y.operands y.pending
    match operands with
    | r :: _ => .ok r
    | [] => .error (.empty 0)
  else
    match y.pending with
    | [] => .error (.empty 0)
    | (.group, offset) :: _ => .error (.unclosedGroup offset)
    | (entry, offset) :: _ => .error (.missingOperand entry.symbol offset)

end Yard

/-- **Reads a pattern.** -/
def parse (text : List Char) : Except PatternError Regex := do
  let symbols ← symbols text
  let yard ← Yard.start.feedAll symbols
  yard.finish

end LexerGen.Pattern
