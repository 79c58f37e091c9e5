/-!
# Characters that leave no mark

White space and control characters cannot stand bare in a written pattern, where a reader could
not see them. Both classes are the Unicode properties of that name (White_Space and the general
category Cc), so they are wider than the ASCII classes.
-/

namespace LexerGen.Text

/-- **White space**: the 25 characters with the Unicode property White_Space. -/
def isBlank (c : Char) : Bool :=
  let n := c.toNat
  (0x09 ≤ n && n ≤ 0x0D) || n == 0x20 || n == 0x85 || n == 0xA0 || n == 0x1680 ||
    (0x2000 ≤ n && n ≤ 0x200A) || n == 0x2028 || n == 0x2029 || n == 0x202F || n == 0x205F ||
    n == 0x3000

/-- **Control characters**: U+0000 to U+001F and U+007F to U+009F. -/
def isControl (c : Char) : Bool :=
  let n := c.toNat
  n ≤ 0x1F || (0x7F ≤ n && n ≤ 0x9F)

end LexerGen.Text
