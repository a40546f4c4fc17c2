/-!
# Blanks around numerals

The white space that may surround a numeral: the ASCII blanks from tab to
carriage return and the space, and every other character with the property
`White_Space`.  The ASCII separators `0x1c … 0x1f` are not among them.
-/

namespace Flowgraph

namespace Text

/-- White space that is skipped before and after a numeral. -/
def isBlank (c : Char) : Bool :=
  let n := c.toNat
  (9 ≤ n && n ≤ 13) || n = 0x20 || n = 0x85 || n = 0xa0 || n = 0x1680 ||
    (0x2000 ≤ n && n ≤ 0x200a) || n = 0x2028 || n = 0x2029 || n = 0x202f ||
    n = 0x205f || n = 0x3000

def trim (cs : List Char) : List Char :=
  ((cs.dropWhile isBlank).reverse.dropWhile isBlank).reverse

end Text

end Flowgraph
