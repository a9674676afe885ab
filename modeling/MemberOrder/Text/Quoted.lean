import MemberOrder.Text.Basic
import MemberOrder.Text.Printable

/-!
Quoted texts, as they stand in messages: between single quotes, or double quotes where the text has
a single quote and no double one, with a backslash form for the quote, the backslash, and every
character that does not print.
-/

set_option autoImplicit false

namespace MemberOrder.Text

/-- The hexadecimal digits of `n` in lower case, with zeros before them up to `width`. -/
def hexDigits (width n : Nat) : Text :=
  let digits := Nat.toDigits 16 n
  List.replicate (width - digits.length) '0' ++ digits

/-- The shortest numeric escape that holds the code point. -/
def numericEscape (n : Nat) : Text :=
  if n < 0x100 then '\\' :: 'x' :: hexDigits 2 n
  else if n < 0x10000 then '\\' :: 'u' :: hexDigits 4 n
  else '\\' :: 'U' :: hexDigits 8 n

def quotedChar (quote c : Char) : Text :=
  if c = quote || c = '\\' then ['\\', c]
  else if c = '\n' then ['\\', 'n']
  else if c = '\r' then ['\\', 'r']
  else if c = '\t' then ['\\', 't']
  else if isPrintable c then [c]
  else numericEscape c.toNat

def quoteFor (t : Text) : Char := if t.contains '\'' && !t.contains '"' then '"' else '\''

def quoted (t : Text) : Text :=
  quoteFor t :: t.flatMap (quotedChar (quoteFor t)) ++ [quoteFor t]

end MemberOrder.Text
