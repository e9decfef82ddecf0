import IndentMarkup.Text.Basic

/-!
# Blank characters

The characters with the Unicode property White_Space, and trimming by them.
-/

namespace IndentMarkup

def isBlank (c : Char) : Bool :=
  let n := c.toNat
  (0x09 ≤ n && n ≤ 0x0D) || n == 0x20 || n == 0x85 || n == 0xA0 || n == 0x1680 ||
    (0x2000 ≤ n && n ≤ 0x200A) || n == 0x2028 || n == 0x2029 || n == 0x202F ||
    n == 0x205F || n == 0x3000

/-- Blank, but not the end of a line. -/
def isInlineBlank (c : Char) : Bool :=
  c != '\n' && isBlank c

namespace Text

def trimStart (text : Text) : Text :=
  text.dropWhile isBlank

def trimEnd (text : Text) : Text :=
  (text.reverse.dropWhile isBlank).reverse

def trim (text : Text) : Text :=
  (trimStart text).trimEnd

/-- Removes leading blanks, at most `width` of them. -/
def dedent : Nat → Text → Text
  | width + 1, c :: rest => if isBlank c then dedent width rest else c :: rest
  | _, text => text

end Text

end IndentMarkup
