import MemberOrder.Text.Blank
import MemberOrder.Text.Quoted

/-!
Raw texts: texts that were never decoded, and may hold surrogates that stand alone. Scanning sees a
surrogate as a character that is no letter, no white space and no sign; messages show it escaped.
-/

set_option autoImplicit false

namespace MemberOrder

/-- A character of a raw text: a scalar value, or the surrogate with the code point U+D800 and `n`
more. -/
inductive RawChar
  | scalar (c : Char)
  | surrogate (n : Fin 0x800)
deriving DecidableEq

namespace RawChar

def codePoint : RawChar → Nat
  | .scalar c => c.toNat
  | .surrogate n => 0xd800 + n

def isSurrogate : RawChar → Bool
  | .scalar _ => false
  | .surrogate _ => true

def toChar? : RawChar → Option Char
  | .scalar c => some c
  | .surrogate _ => none

/-- The character that scanning sees. -/
def shadow : RawChar → Char
  | .scalar c => c
  | .surrogate _ => '\uffff'

end RawChar

abbrev RawText := List RawChar

namespace RawText

def ofText (t : Text) : RawText := t.map .scalar

def ofString (s : String) : RawText := ofText s.toList

/-- The text that a raw text is, if it holds no surrogate. -/
def toText? (t : RawText) : Option Text := t.mapM RawChar.toChar?

def shadow (t : RawText) : Text := t.map RawChar.shadow

/-- The raw text without white space around it. -/
def trim (t : RawText) : RawText :=
  let rest := t.dropWhile fun c => Text.isBlank c.shadow
  (rest.reverse.dropWhile fun c => Text.isBlank c.shadow).reverse

/-- The raw text with an escape for every surrogate. -/
def escaped (t : RawText) : Text :=
  t.flatMap fun
    | .scalar c => [c]
    | c => Text.numericEscape c.codePoint

/-- The raw text between quotes. -/
def quoted (t : RawText) : Text :=
  let quote := Text.quoteFor t.shadow
  quote :: t.flatMap (fun
    | .scalar c => Text.quotedChar quote c
    | c => Text.numericEscape c.codePoint) ++ [quote]

/-- Order by code point, a proper initial part first. -/
def compareCodePoints : RawText → RawText → Ordering
  | [], [] => .eq
  | [], _ :: _ => .lt
  | _ :: _, [] => .gt
  | c :: rest, d :: others =>
    (compare c.codePoint d.codePoint).then (compareCodePoints rest others)

end RawText

end MemberOrder
