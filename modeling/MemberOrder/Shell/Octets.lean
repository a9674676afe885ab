import MemberOrder.Text.Utf8

/-!
Octets: what a shell works on. A text of octets has one character for every byte, so that its
lengths, positions and patterns count bytes.
-/

set_option autoImplicit false

namespace MemberOrder.Octets

def ofBytes (bytes : List UInt8) : Text := bytes.map fun b => Char.ofNat b.toNat

def toBytes (t : Text) : List UInt8 := t.map fun c => UInt8.ofNat c.toNat

def ofText (t : Text) : Text := ofBytes (Utf8.encode t)

/-- The text that octets encode; octets that are no UTF-8 stand for themselves. -/
def toText (t : Text) : Text := (Utf8.decode (toBytes t)).toOption.getD t

/-- The decimal digits of a number. -/
def ofNat (n : Nat) : Text := Nat.toDigits 10 n

def ofInt (n : Int) : Text := if n < 0 then '-' :: ofNat n.natAbs else ofNat n.natAbs

end MemberOrder.Octets
