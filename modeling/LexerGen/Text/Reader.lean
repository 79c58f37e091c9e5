/-!
# Readers

A reader takes characters from the beginning of a text and makes something of them, or it fails.
What it leaves is never longer than what it was given, and its type says so; a loop that takes one
character before each use of a reader therefore comes to an end.
-/

namespace LexerGen.Text

/-- **What is left of a text**: one that is no longer. -/
abbrev Rest (cs : List Char) := { rest : List Char // rest.length ≤ cs.length }

/-- **A reader.** -/
def Reader (α : Type) : Type := (cs : List Char) → Option (α × Rest cs)

namespace Reader

instance : Monad Reader where
  pure a cs := some (a, ⟨cs, Nat.le_refl _⟩)
  bind read next cs :=
    match read cs with
    | none => none
    | some (a, rest) =>
      match next a rest.1 with
      | none => none
      | some (b, rest') => some (b, ⟨rest'.1, Nat.le_trans rest'.2 rest.2⟩)

/-- The reader that always fails. -/
def fail {α : Type} : Reader α := fun _ => none

/-- Fails if a condition is not met. -/
def require (condition : Bool) : Reader Unit := if condition then pure () else fail

/-- The text ahead, none of which is taken. -/
def look : Reader (List Char) := fun cs => some (cs, ⟨cs, Nat.le_refl _⟩)

/-- Takes one character; fails at the end. -/
def next : Reader Char
  | [] => none
  | c :: cs => some (c, ⟨cs, Nat.le_succ _⟩)

/-- Takes a given number of characters, or all there are. -/
def skip (n : Nat) : Reader Unit := fun cs =>
  some ((), ⟨cs.drop n, (List.drop_sublist n cs).length_le⟩)

/-- Takes a character if it is the one given, and says whether it was. -/
def accept (c : Char) : Reader Bool := do
  match ← look with
  | d :: _ => if d = c then do skip 1; return true else return false
  | [] => return false

/-- Takes a certain character; fails if there is another or none. -/
def expect (c : Char) : Reader Unit := do require (← accept c)

/-- Takes the characters that come before the first one that fails a test. -/
def takeWhile (p : Char → Bool) : Reader (List Char) := fun cs =>
  some (cs.takeWhile p, ⟨cs.dropWhile p, (List.dropWhile_sublist p).length_le⟩)

/-- Lets a reader try; if it fails, nothing is taken. -/
def attempt {α : Type} (read : Reader α) : Reader (Option α) := fun cs =>
  match read cs with
  | some (a, rest) => some (some a, rest)
  | none => some (none, ⟨cs, Nat.le_refl _⟩)

end Reader

end LexerGen.Text
