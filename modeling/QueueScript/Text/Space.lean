import QueueScript.Text.Basic

/-! # White space

The characters with the Unicode property of white space, together with the four information
separators. A program that consists of nothing else has no place worth pointing at.
-/

namespace QueueScript.Text

/-- A white space character. -/
def isSpace (c : Char) : Bool :=
  let n := c.toNat
  (0x09 ≤ n && n ≤ 0x0d) || (0x1c ≤ n && n ≤ 0x20) || n == 0x85 || n == 0xa0 || n == 0x1680 ||
    (0x2000 ≤ n && n ≤ 0x200a) || n == 0x2028 || n == 0x2029 || n == 0x202f || n == 0x205f ||
    n == 0x3000

def isAllSpace (t : Text) : Bool :=
  t.all isSpace

end QueueScript.Text
