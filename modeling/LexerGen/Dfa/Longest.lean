import LexerGen.Dfa.Basic

/-!
# The longest match of an automaton

Reading a text with a tagged deterministic automaton shows which of its prefixes lead to a tagged
state. `Dfa.longest` finds the longest that is not empty. It reads until the sink is reached or the
text ends, since before that a longer match may still come, and if there is no match it says which
of the two it was.
-/

namespace LexerGen

/-- **What running an automaton over a text shows.** -/
inductive LongestMatch
  /-- The longest match has this length and this tag. -/
  | found (length : Nat) (tag : Tag)
  /-- Nothing matched, and the character after this many led to the sink. -/
  | stuck (length : Nat)
  /-- Nothing matched before the text ended. -/
  | ended
  deriving DecidableEq, Repr

/-- **The longest match.** The automaton is in state `q` after `length` characters, and `best` is
the longest match among their non-empty prefixes. -/
def Dfa.longest (d : Dfa) (q length : Nat) (best : Option (Nat × Tag)) : List Char → LongestMatch
  | [] =>
    match best with
    | some (n, tag) => .found n tag
    | none => .ended
  | c :: text =>
    match d.tag? (d.step q c) with
    | some tag => d.longest (d.step q c) (length + 1) (some (length + 1, tag)) text
    | none =>
      if d.isSink (d.step q c) then
        match best with
        | some (n, tag) => .found n tag
        | none => .stuck length
      else d.longest (d.step q c) (length + 1) best text

/-- A match is longer than the best one before, or it is that one. -/
theorem Dfa.length_longest {d : Dfa} {q length n : Nat} {best : Option (Nat × Tag)} {tag : Tag}
    {text : List Char} (h : d.longest q length best text = .found n tag)
    (positive : ∀ m t, best = some (m, t) → 0 < m) : 0 < n := by
  fun_induction d.longest q length best text with
  | case1 => cases h; exact positive _ _ rfl
  | case2 => cases h
  | case3 _ _ _ _ _ _ _ ih => exact ih h fun m t e => by cases e; omega
  | case4 => cases h; exact positive _ _ rfl
  | case5 => cases h
  | case6 _ _ _ _ _ _ _ ih => exact ih h positive

/-- A match that is found lies in a text that is not empty. -/
theorem Dfa.ne_nil_of_longest {d : Dfa} {q length n : Nat} {tag : Tag} {text : List Char}
    (h : d.longest q length none text = .found n tag) : text ≠ [] := by
  rintro rfl
  cases h

end LexerGen
