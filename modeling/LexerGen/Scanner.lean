import LexerGen.Dfa.Longest
import LexerGen.Token

/-!
# Cutting a text into tokens

A scanner reads a text with a tagged deterministic automaton and yields one token after the other.
Each token is the *longest* non-empty prefix of what is left that leads to a tagged state, and the
tag of that state names it. To find it the automaton is run until it reaches the sink or the text
ends, so the scanner may have to read past the token it yields; the next token starts right after
the lexeme all the same.

Where no prefix matches the scan fails, at the character that led to the sink or, if the text
ended before that, at the end of the text. Nothing follows a failure.

A scanner is the text left to read together with its place in the whole, so the rest of a scan is
determined by what is left, up to the offset and the line (`Scanner.next`).
-/

namespace LexerGen

/-- The number of newlines in a text. -/
def newlines (text : List Char) : Nat := text.count '\n'

/-- **A scan in progress.** -/
structure Scanner where
  dfa : Dfa
  /-- The number of characters scanned. -/
  offset : Nat
  /-- The number of newlines among them. -/
  line : Nat
  /-- The text that is left. -/
  rest : List Char

namespace Scanner

/-- Starts at the beginning of a text. -/
def start (dfa : Dfa) (text : List Char) : Scanner := ⟨dfa, 0, 0, text⟩

/-- The scanner after `n` more characters. -/
def advance (s : Scanner) (n : Nat) : Scanner :=
  { s with
    offset := s.offset + n
    line := s.line + newlines (s.rest.take n)
    rest := s.rest.drop n }

/-- The scanner with no text left. -/
def stop (s : Scanner) : Scanner := { s with rest := [] }

/-- **The next token or failure**, and the scanner after it; nothing at the end of the text. -/
def next (s : Scanner) : Option (Except LexError Token) × Scanner :=
  match s.dfa.longest s.dfa.start 0 none s.rest with
  | .found n tag => (some (.ok ⟨tag.name, s.rest.take n⟩), s.advance n)
  | .stuck n =>
    (some (.error ⟨.offset (s.offset + n), s.line + newlines (s.rest.take n)⟩), s.stop)
  | .ended =>
    if s.rest.isEmpty then (none, s)
    else (some (.error ⟨.endOfText, s.line + newlines s.rest.dropLast⟩), s.stop)

/-- **Every item shortens the text that is left.** -/
theorem length_rest_next {s t : Scanner} {item : Except LexError Token}
    (h : s.next = (some item, t)) : t.rest.length < s.rest.length := by
  unfold next at h
  split at h
  · rename_i n tag e
    cases h
    have positive := Dfa.length_longest e fun _ _ e => by cases e
    have := List.length_pos_iff.2 (Dfa.ne_nil_of_longest e)
    simp only [advance, List.length_drop]
    omega
  · rename_i n e
    cases h
    refine List.length_pos_iff.2 fun empty => ?_
    rw [empty] at e
    cases e
  · split at h
    · cases h
    · rename_i e
      cases h
      exact List.length_pos_iff.2 fun empty => e (by rw [empty]; rfl)

/-- **All items to come**, a failure being the last. -/
def items (s : Scanner) : List (Except LexError Token) :=
  match _h : s.next with
  | (none, _) => []
  | (some item, t) => item :: t.items
termination_by s.rest.length
decreasing_by exact length_rest_next _h

/-- The tokens of a list of items, or its first failure. -/
def collect : List (Except LexError Token) → Except LexError (List Token)
  | [] => .ok []
  | .ok token :: rest => (collect rest).map (token :: ·)
  | .error e :: _ => .error e

end Scanner

end LexerGen
