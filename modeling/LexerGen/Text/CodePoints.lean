/-!
# Sets of code points

Properties of characters that follow no rule are given by tables of code point ranges.
-/

namespace LexerGen.Text

/-- Whether a code point lies in one of the ranges, each given by its first and last member. -/
def inRanges (ranges : Array (Nat × Nat)) (n : Nat) : Bool :=
  ranges.any fun r => r.1 ≤ n && n ≤ r.2

end LexerGen.Text
