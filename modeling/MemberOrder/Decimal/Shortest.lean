/-!
The shortest decimal of a binary floating-point value: of the decimals that read back as the value,
those with the fewest digits, and of these the nearest. All arithmetic is exact.
-/

set_option autoImplicit false

namespace MemberOrder.Decimal

/-- A decimal, `digits * 10 ^ exponent`. -/
structure Scaled where
  digits : Nat
  exponent : Int

/-- A positive finite value `mantissa * 2 ^ exponent`. The gap to the value below it is half the
gap to the one above where `narrow` holds. -/
structure Binary where
  mantissa : Nat
  exponent : Int
  narrow : Bool

namespace Binary

/-- The absolute value of a finite float, by its bits. -/
def ofBits (bits : UInt64) : Binary :=
  let power := ((bits >>> 52) &&& 0x7ff).toNat
  let fraction := (bits &&& 0xfffffffffffff).toNat
  if power = 0 then ⟨fraction, -1074, false⟩
  else ⟨Nat.pow 2 52 + fraction, (power : Int) - 1075, fraction == 0 && decide (1 < power)⟩

/-- The number of digits before the point; below one tenth, minus the number of zeros after it. -/
def magnitude (x : Binary) : Int :=
  let whole := x.mantissa * Nat.pow 2 x.exponent.toNat / Nat.pow 2 (-x.exponent).toNat
  if whole = 0 then
    let zeros := ((List.range 400).find? fun j =>
      decide (Nat.pow 2 (-x.exponent).toNat ≤ x.mantissa * Nat.pow 10 (j + 1))).getD 0
    Int.neg zeros
  else (Nat.toDigits 10 whole).length

/-- The nearest decimal with the given last place that reads back as the value, if there is one.
Quarters of the last binary place are compared with the two decimals around the value. -/
def atPlace? (x : Binary) (place : Int) : Option Scaled :=
  let unit := Nat.pow 2 (x.exponent - 2).toNat * Nat.pow 10 (-place).toNat
  let step := Nat.pow 2 (2 - x.exponent).toNat * Nat.pow 10 place.toNat
  let value := 4 * x.mantissa * unit
  let low := (4 * x.mantissa - if x.narrow then 1 else 2) * unit
  let high := (4 * x.mantissa + 2) * unit
  let closed := x.mantissa % 2 == 0
  let readsBack (digits : Nat) : Bool :=
    let y := digits * step
    (decide (low < y) || (closed && low == y)) && (decide (y < high) || (closed && y == high))
  let below := value / step
  let above := below + 1
  match readsBack below, readsBack above with
  | true, true =>
    let down := value - below * step
    let up := above * step - value
    if down < up || (down == up && below % 2 == 0) then some ⟨below, place⟩
    else some ⟨above, place⟩
  | true, false => some ⟨below, place⟩
  | false, true => some ⟨above, place⟩
  | false, false => none

/-- Tries one digit, two digits and so on; seventeen always do. -/
def shortest (x : Binary) : Scaled :=
  ((List.range 17).findSome? fun (n : Nat) => x.atPlace? (x.magnitude - (n + 1))).getD
    ⟨x.mantissa, 0⟩

end Binary

/-- The digits without the zeros at their end, and where the point stands, counted from the first
digit. -/
def Scaled.normal (d : Scaled) : List Char × Int :=
  let digits := Nat.toDigits 10 d.digits
  ((digits.reverse.dropWhile (· == '0')).reverse, digits.length + d.exponent)

/-- Positional from a ten thousandth up to 10^16, with a digit on both sides of the point, and with
a signed exponent of at least two digits otherwise. -/
def layOut (digits : List Char) (point : Int) : List Char :=
  if -3 ≤ point ∧ point ≤ 16 then
    if point ≤ 0 then '0' :: '.' :: List.replicate (-point).toNat '0' ++ digits
    else
      let size := point.toNat
      let whole := digits.take size ++ List.replicate (size - digits.length) '0'
      let fraction := digits.drop size
      whole ++ '.' :: (if fraction.isEmpty then ['0'] else fraction)
  else
    let exponent := point - 1
    let places := Nat.toDigits 10 exponent.natAbs
    let mark := if exponent < 0 then '-' else '+'
    let fraction := digits.drop 1
    digits.take 1 ++ (if fraction.isEmpty then [] else '.' :: fraction)
      ++ 'e' :: mark :: List.replicate (2 - places.length) '0' ++ places

/-- The text of a float. -/
def render (x : Float) : List Char :=
  let bits := x.toBits
  let sign := if bits >>> 63 = 0 then [] else ['-']
  let magnitude := bits &&& 0x7fffffffffffffff
  if magnitude > 0x7ff0000000000000 then "nan".toList
  else if magnitude = 0x7ff0000000000000 then sign ++ "inf".toList
  else if magnitude = 0 then sign ++ "0.0".toList
  else
    let (digits, point) := (Binary.ofBits magnitude).shortest.normal
    sign ++ layOut digits point

end MemberOrder.Decimal
