import MemberOrder.Text.Blank

/-!
Whole numbers written in decimal digits of any script, with an optional sign, white space around
them and single underscores between digits. How many digits a number may have, to be read or to be
written out, is a setting of the runtime.
-/

set_option autoImplicit false

namespace MemberOrder

/-- How many digits a number may have; as many as it likes if none is given. -/
abbrev DigitLimit := Option Nat

namespace DigitLimit

/-- The limit where nothing else is set. -/
def standard : DigitLimit := some 4300

/-- May so many digits be read? -/
def admits (limit : DigitLimit) (digits : Nat) : Bool := limit.all fun most => digits ≤ most

/-- May the number be written out? -/
def shows (limit : DigitLimit) (n : Int) : Bool := limit.all fun most => n.natAbs < Nat.pow 10 most

/-- What is said of a number that may not be written out. -/
def message (limit : DigitLimit) : String :=
  "Exceeds the limit (" ++ toString (limit.getD 0)
    ++ " digits) for integer string conversion; use sys.set_int_max_str_digits() to increase the "
    ++ "limit"

end DigitLimit

namespace Text

/-- The code points of the digit zero, one for each set of decimal digits. -/
def zeroDigits : List Nat :=
  [0x30, 0x660, 0x6f0, 0x7c0, 0x966, 0x9e6, 0xa66, 0xae6, 0xb66, 0xbe6, 0xc66, 0xce6, 0xd66,
   0xde6, 0xe50, 0xed0, 0xf20, 0x1040, 0x1090, 0x17e0, 0x1810, 0x1946, 0x19d0, 0x1a80, 0x1a90,
   0x1b50, 0x1bb0, 0x1c40, 0x1c50, 0xa620, 0xa8d0, 0xa900, 0xa9d0, 0xa9f0, 0xaa50, 0xabf0,
   0xff10, 0x104a0, 0x10d30, 0x11066, 0x110f0, 0x11136, 0x111d0, 0x112f0, 0x11450, 0x114d0,
   0x11650, 0x116c0, 0x11730, 0x118e0, 0x11950, 0x11c50, 0x11d50, 0x11da0, 0x16a60, 0x16ac0,
   0x16b50, 0x1d7ce, 0x1d7d8, 0x1d7e2, 0x1d7ec, 0x1d7f6, 0x1e140, 0x1e2f0, 0x1e950, 0x1fbf0]

def digitValue? (c : Char) : Option Nat :=
  (zeroDigits.find? (fun origin => decide (origin ≤ c.toNat) && decide (c.toNat < origin + 10))).map
    (c.toNat - ·)

def isDigit (c : Char) : Bool := (digitValue? c).isSome

/-- White space that may stand around a number: of ASCII only tab to carriage return and space. -/
def isNumberPadding (c : Char) : Bool :=
  isBlank c && !(decide (28 ≤ c.toNat) && decide (c.toNat ≤ 31))

/-- Reads digits with single underscores between them, after digits that made `value`. -/
def digitsFrom (value : Nat) : Text → Option Nat
  | [] => some value
  | '_' :: c :: rest => (digitValue? c).bind fun digit => digitsFrom (value * 10 + digit) rest
  | c :: rest => (digitValue? c).bind fun digit => digitsFrom (value * 10 + digit) rest

def natural? : Text → Option Nat
  | [] => none
  | c :: rest => (digitValue? c).bind fun digit => digitsFrom digit rest

/-- The integer that the text spells. -/
def integer? (limit : DigitLimit) (t : Text) : Option Int :=
  let core := ((t.dropWhile isNumberPadding).reverse.dropWhile isNumberPadding).reverse
  if !limit.admits (core.filter isDigit).length then none
  else match core with
    | '-' :: rest => (natural? rest).map fun n => -(n : Int)
    | '+' :: rest => (natural? rest).map Int.ofNat
    | rest => (natural? rest).map Int.ofNat

/-- Is nothing left but a line feed? -/
def endsLine (t : Text) : Bool := t.isEmpty || t == ['\n']

/-- Does the text look like a negative number: a minus sign, then digits, or digits around one
point with at least one after it? -/
def isNegativeNumeral : Text → Bool
  | '-' :: rest =>
    let whole := rest.takeWhile isDigit
    match rest.dropWhile isDigit with
    | [] => !whole.isEmpty
    | '.' :: fraction => endsLine (fraction.dropWhile isDigit) && (fraction.head?.any isDigit)
    | others => !whole.isEmpty && endsLine others
  | _ => false

end Text

end MemberOrder
