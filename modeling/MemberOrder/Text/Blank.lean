import MemberOrder.Text.Basic

/-!
White space: the characters that separate words, trimming, and lines that hold nothing else.
-/

set_option autoImplicit false

namespace MemberOrder.Text

/-- White space: tab to carriage return, the four information separators, the space, next line, and
the space, line and paragraph separators beyond ASCII. -/
def isBlank (c : Char) : Bool :=
  let n := c.toNat
  if n < 128 then (decide (9 ≤ n) && decide (n ≤ 13)) || (decide (28 ≤ n) && decide (n ≤ 32))
  else n == 0x85 || n == 0xa0 || n == 0x1680 || (decide (0x2000 ≤ n) && decide (n ≤ 0x200a))
    || n == 0x2028 || n == 0x2029 || n == 0x202f || n == 0x205f || n == 0x3000

/-- The blanks that indent a line. -/
def isIndent (c : Char) : Bool := c == ' ' || c == '\t'

/-- The characters that may stand on a line without making it more than empty. -/
def isLineFill (c : Char) : Bool := isIndent c || c == '\r'

/-- Is the text empty but for white space? -/
def allBlank (t : Text) : Bool := t.all isBlank

def trimLeft (t : Text) : Text := t.dropWhile isBlank

def trimRight (t : Text) : Text := (t.reverse.dropWhile isBlank).reverse

def trim (t : Text) : Text := trimRight (trimLeft t)

/-- Reads on in a line that began as `line`, up to the first line that is more than empty. -/
def dropEmptyLinesFrom (line : Text) : Text → Text
  | [] => line
  | c :: rest =>
    if c = '\n' then dropEmptyLinesFrom rest rest
    else if isLineFill c then dropEmptyLinesFrom line rest
    else line

/-- Drops the complete lines at the start that hold only spaces, tabs and carriage returns. -/
def dropEmptyLines (t : Text) : Text := dropEmptyLinesFrom t t

end MemberOrder.Text
