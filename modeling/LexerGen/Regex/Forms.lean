import LexerGen.Regex.Basic

/-!
# Forms of regular expressions

Some facts hold of expressions of a restricted form only, or after a change of form.

* Every expression that can be written without `void` is `VoidFree`, and every one that was read is
  `Writable`: each of its bare literals can be written bare. `normalize` quotes the others.
* `desugar` leaves only union, concatenation, star, the two constants and bare literals.
* `chars` lists the characters of the literals.
-/

namespace LexerGen.Regex

/-- The expression has no part that matches nothing. -/
def VoidFree : Regex → Prop
  | union l r | concat l r => VoidFree l ∧ VoidFree r
  | star r | plus r | maybe r => VoidFree r
  | void => False
  | eps | lit _ | quoted _ => True

/-- **Every bare literal can be written bare.** -/
def Writable : Regex → Prop
  | union l r | concat l r => Writable l ∧ Writable r
  | star r | plus r | maybe r => Writable r
  | lit c => needsQuotes c = false
  | eps | void | quoted _ => True

/-- **Quotes the literals that cannot be written bare**, and changes nothing else. -/
def normalize : Regex → Regex
  | union l r => union (normalize l) (normalize r)
  | concat l r => concat (normalize l) (normalize r)
  | star r => star (normalize r)
  | plus r => plus (normalize r)
  | maybe r => maybe (normalize r)
  | eps => eps
  | void => void
  | lit c => ofChar c
  | quoted c => quoted c

/-- **Expands derived forms**: `plus r` becomes `r` followed by `star r`, `maybe r` becomes the
union of `eps` and `r`, and quoted literals become bare. -/
def desugar : Regex → Regex
  | union l r => union (desugar l) (desugar r)
  | concat l r => concat (desugar l) (desugar r)
  | star r => star (desugar r)
  | plus r => concat (desugar r) (star (desugar r))
  | maybe r => union eps (desugar r)
  | eps => eps
  | void => void
  | lit c | quoted c => lit c

/-- The characters of the literals, from left to right. -/
def chars : Regex → List Char
  | union l r | concat l r => chars l ++ chars r
  | star r | plus r | maybe r => chars r
  | eps | void => []
  | lit c | quoted c => [c]

theorem writable_ofChar (c : Char) : Writable (ofChar c) := by
  unfold ofChar
  split
  · exact trivial
  · rename_i h
    exact Bool.eq_false_iff.2 h

/-- An expression in which nothing has to be quoted is left as it is. -/
theorem normalize_of_writable {r : Regex} (h : Writable r) : normalize r = r := by
  induction r with
  | union l r ihl ihr | concat l r ihl ihr => rw [normalize, ihl h.1, ihr h.2]
  | star r ih | plus r ih | maybe r ih => rw [normalize, ih h]
  | eps | void | quoted => rfl
  | lit c =>
    have bare : needsQuotes c = false := h
    rw [normalize, ofChar, bare]
    rfl

end LexerGen.Regex
