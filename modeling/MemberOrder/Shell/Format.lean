import MemberOrder.Decimal.Shortest
import MemberOrder.Shell.Arithmetic

/-!
Formatted output: escapes that begin with a backslash, and formats that say how arguments are shown.
-/

set_option autoImplicit false

namespace MemberOrder.Shell

namespace Format

def isOctal (c : Char) : Bool := '0' ≤ c && c ≤ '7'

/-- The character of an octal number of up to `limit` digits at the front, and what follows. -/
def octal (limit : Nat) (t : Text) : Char × Text :=
  let digits := (t.take limit).takeWhile isOctal
  let n := digits.foldl (fun n c => n * 8 + (c.toNat - 48)) 0
  (Char.ofNat (n % 256), t.drop digits.length)

/-- The character that a letter stands for behind a backslash. -/
def letter? : Char → Option Char
  | '\\' => some '\\'
  | 'a' => some '\x07'
  | 'b' => some '\x08'
  | 'f' => some '\x0c'
  | 'n' => some '\n'
  | 'r' => some '\r'
  | 't' => some '\t'
  | 'v' => some '\x0b'
  | _ => none

/-- The character that what stands behind a backslash means, and what follows. A backslash that
means nothing stands for itself. -/
def escape (t : Text) : Char × Text :=
  match t with
  | [] => ('\\', t)
  | c :: rest =>
    if isOctal c then octal 3 t
    else
      match letter? c with
      | some d => (d, rest)
      | none => ('\\', t)

/-- A text with its escapes filled in, and whether it is the end of all output. Octal numbers have
a zero before them here. -/
def unescaped : Nat → Text → Text × Bool
  | 0, _ => ([], false)
  | _, [] => ([], false)
  | _ + 1, '\\' :: 'c' :: _ => ([], true)
  | fuel + 1, '\\' :: rest =>
    let (c, rest) := match rest with
      | '0' :: digits => octal 3 digits
      | _ => escape rest
    let (others, ended) := unescaped fuel rest
    (c :: others, ended)
  | fuel + 1, c :: rest =>
    let (others, ended) := unescaped fuel rest
    (c :: others, ended)

/-- The arguments with blanks between them and escapes filled in, up to what ends the output. -/
def echoed (ending : Text) : List Text → Text
  | [] => ending
  | argument :: rest =>
    let (t, ended) := unescaped argument.length argument
    if ended then t
    else
      match rest with
      | [] => t ++ ending
      | _ => t ++ ' ' :: echoed ending rest

/-- What the output of arguments is; a first argument `-n` leaves out the line end. -/
def echo (arguments : List Text) : Text :=
  match arguments with
  | ['-', 'n'] :: rest => echoed [] rest
  | _ => echoed ['\n'] arguments

/-- How an argument is shown. -/
structure Specification where
  flags : List Char
  width : Nat
  precision : Option Nat

namespace Specification

def has (s : Specification) (flag : Char) : Bool := s.flags.contains flag

/-- Fills up to the width, between a sign and digits with zeros where they are asked for. -/
def padded (s : Specification) (zeros : Bool) (sign body : Text) : Text :=
  let gap := s.width - (sign.length + body.length)
  if s.has '-' then sign ++ body ++ List.replicate gap ' '
  else if zeros && s.has '0' then sign ++ List.replicate gap '0' ++ body
  else List.replicate gap ' ' ++ sign ++ body

/-- The sign of a number that may be negative. -/
def sign (s : Specification) (negative : Bool) : Text :=
  if negative then ['-'] else if s.has '+' then ['+'] else if s.has ' ' then [' '] else []

/-- Digits of a number, as many as the precision asks for. -/
def digits (s : Specification) (base n : Nat) : Text :=
  let digits := if n = 0 && s.precision = some 0 then [] else Nat.toDigits base n
  List.replicate (s.precision.getD 0 - digits.length) '0' ++ digits

def signed (s : Specification) (n : Int) : Text :=
  s.padded s.precision.isNone (s.sign (n < 0)) (s.digits 10 n.natAbs)

def unsigned (s : Specification) (conversion : Char) (n : Nat) : Text :=
  let base := match conversion with
    | 'o' => 8
    | 'u' => 10
    | _ => 16
  let digits := s.digits base n
  let digits := if conversion = 'X' then digits.map Char.toUpper else digits
  let marked := s.has '#'
  if conversion = 'o' && marked && digits.head? ≠ some '0' then
    s.padded s.precision.isNone [] ('0' :: digits)
  else if base = 16 && marked && n ≠ 0 then
    s.padded s.precision.isNone ['0', conversion] digits
  else s.padded s.precision.isNone [] digits

def text (s : Specification) (t : Text) : Text :=
  s.padded false [] (match s.precision with
    | some n => t.take n
    | none => t)

end Specification

/-- A quotient, rounded to the nearest whole number, and to an even one where two are. -/
def rounded (numerator denominator : Nat) : Nat :=
  let q := numerator / denominator
  let twice := 2 * (numerator % denominator)
  if twice > denominator || (twice = denominator && q % 2 = 1) then q + 1 else q

/-- The digits of `numerator / denominator` with a number of places behind the point. -/
def fixedDigits (places numerator denominator : Nat) (keepsPoint : Bool) : Text :=
  let scale := Nat.pow 10 places
  let n := rounded (numerator * scale) denominator
  let whole := Nat.toDigits 10 (n / scale)
  let fraction := Nat.toDigits 10 (n % scale)
  if places = 0 then whole ++ if keepsPoint then ['.'] else []
  else whole ++ '.' :: List.replicate (places - fraction.length) '0' ++ fraction

/-- The power of ten of the first digit, and the digits, of which `places` are behind the first. -/
def scientificDigits (places numerator denominator : Nat) : Int × Nat :=
  if numerator = 0 then (0, 0)
  else
    let binary := Int.ofNat (Nat.toDigits 10 numerator).length
      - Int.ofNat (Nat.toDigits 10 denominator).length
    let power :=
      if numerator * Nat.pow 10 (-binary).toNat < denominator * Nat.pow 10 binary.toNat then
        binary - 1
      else binary
    let shift := Int.ofNat places - power
    let n :=
      rounded (numerator * Nat.pow 10 shift.toNat) (denominator * Nat.pow 10 (-shift).toNat)
    if n = Nat.pow 10 (places + 1) then (power + 1, Nat.pow 10 places) else (power, n)

def withoutZeros (t : Text) : Text :=
  if t.contains '.' then
    let cut := (t.reverse.dropWhile (· = '0')).reverse
    if cut.getLast? = some '.' then cut.dropLast else cut
  else t

/-- The text of a number with a power of ten. -/
def scientific (places : Nat) (power : Int) (n : Nat) (keepsPoint trimmed : Bool) (mark : Char) :
    Text :=
  let digits := Nat.toDigits 10 n
  let digits := digits ++ List.replicate (places + 1 - digits.length) '0'
  let mantissa := digits.take 1
    ++ if places = 0 then (if keepsPoint then ['.'] else []) else '.' :: digits.drop 1
  let mantissa := if trimmed then withoutZeros mantissa else mantissa
  let exponent := Nat.toDigits 10 power.natAbs
  mantissa ++ mark :: (if power < 0 then '-' else '+')
    :: List.replicate (2 - exponent.length) '0' ++ exponent

/-- The text of a float. -/
def Specification.float (s : Specification) (conversion : Char) (x : Float) : Text :=
  let bits := x.toBits
  let sign := s.sign (bits >>> 63 != 0)
  let magnitude := bits &&& 0x7fffffffffffffff
  let isUpper := conversion.isUpper
  let mark := if isUpper then 'E' else 'e'
  let special (t : String) : Text :=
    s.padded false sign (if isUpper then t.toList.map Char.toUpper else t.toList)
  if magnitude > 0x7ff0000000000000 then special "nan"
  else if magnitude = 0x7ff0000000000000 then special "inf"
  else
    let binary := Decimal.Binary.ofBits magnitude
    let numerator := binary.mantissa * Nat.pow 2 binary.exponent.toNat
    let denominator := Nat.pow 2 (-binary.exponent).toNat
    let places := s.precision.getD 6
    let body := match conversion.toLower with
      | 'f' => fixedDigits places numerator denominator (s.has '#')
      | 'e' =>
        let (power, n) := scientificDigits places numerator denominator
        scientific places power n (s.has '#') false mark
      | _ =>
        let places := if places = 0 then 1 else places
        let (power, n) := scientificDigits (places - 1) numerator denominator
        if -4 ≤ power && power < places then
          let t := fixedDigits (places - 1 - power).toNat numerator denominator (s.has '#')
          if s.has '#' then t else withoutZeros t
        else scientific (places - 1) power n (s.has '#') (!s.has '#') mark
    s.padded true sign body

/-- What formatted output has come to: the text, the last first, complaints, the arguments that are
left, and whether it has ended, with a complaint or without. -/
structure Progress where
  reversed : Text
  warnings : List Text
  arguments : List Text
  ended : Bool
  failure : Option Text

namespace Progress

def put (p : Progress) (t : Text) : Progress := { p with reversed := t.reverse ++ p.reversed }

def warn (p : Progress) (t : Text) (message : String) : Progress :=
  { p with warnings := (t ++ ": ".toList ++ message.toList) :: p.warnings }

def fail (p : Progress) (message : Text) : Progress :=
  { p with ended := true, failure := some message }

/-- The next argument, if there is one. -/
def next (p : Progress) : Option Text × Progress :=
  (p.arguments.head?, { p with arguments := p.arguments.drop 1 })

end Progress

def isSpace (c : Char) : Bool := c = ' ' || (9 ≤ c.toNat && c.toNat ≤ 13)

/-- Complains of an argument of which not all was a number. -/
def checked (p : Progress) (argument rest : Text) : Progress :=
  if rest.isEmpty then p
  else if rest.length = argument.length then p.warn argument "expected numeric value"
  else p.warn argument "not completely converted"

/-- The number that an argument is, or that of its second character behind a quote. -/
def number (p : Progress) (low high : Int) : Int × Progress :=
  match p.next with
  | (none, p) => (0, p)
  | (some argument, p) =>
    match argument with
    | '"' :: rest => ((rest.head?.map Char.toNat).getD 0, p)
    | '\'' :: rest => ((rest.head?.map Char.toNat).getD 0, p)
    | _ =>
      let t := argument.dropWhile isSpace
      let (negative, t) := match t with
        | '-' :: rest => (true, rest)
        | '+' :: rest => (false, rest)
        | _ => (false, t)
      if (t.head?.map Char.isDigit).getD false then
        let (n, rest) := Arithmetic.readNumber t
        let value : Int := if negative then -n else n
        if value < low || high < value then
          (if value < low then low else high,
            if rest.isEmpty then p.warn argument "Numerical result out of range"
            else checked p argument rest)
        else (value, checked p argument rest)
      else (0, checked p argument argument)

/-- The float that a text begins with, and what follows. -/
def readFloat (t : Text) : Option (Float × Text) :=
  let (negative, body) := match t with
    | '-' :: rest => (true, rest)
    | '+' :: rest => (false, rest)
    | _ => (false, t)
  let whole := body.takeWhile Char.isDigit
  let rest := body.drop whole.length
  let fraction := match rest with
    | '.' :: rest => rest.takeWhile Char.isDigit
    | _ => []
  let rest := match rest with
    | '.' :: rest => rest.drop fraction.length
    | _ => rest
  if whole.isEmpty && fraction.isEmpty then none
  else
    let mantissa := (Arithmetic.readDigits 10 (whole ++ fraction)).1
    let (exponent, rest) : Int × Text := match rest with
      | e :: more =>
        let (down, digits) := match more with
          | '-' :: digits => (true, digits)
          | '+' :: digits => (false, digits)
          | _ => (false, more)
        if (e = 'e' || e = 'E') && (digits.head?.map Char.isDigit).getD false then
          let (n, rest) := Arithmetic.readDigits 10 digits
          (if down then -n else n, rest)
        else (0, rest)
      | [] => (0, rest)
    let scale := exponent - fraction.length
    let size := if scale < 0 then Float.ofScientific mantissa true (-scale).toNat
      else Float.ofScientific mantissa false scale.toNat
    some (if negative then -size else size, rest)

def floatArgument (p : Progress) : Float × Progress :=
  match p.next with
  | (none, p) => (0, p)
  | (some argument, p) =>
    match argument with
    | '"' :: rest => (Float.ofNat ((rest.head?.map Char.toNat).getD 0), p)
    | '\'' :: rest => (Float.ofNat ((rest.head?.map Char.toNat).getD 0), p)
    | _ =>
      match readFloat (argument.dropWhile isSpace) with
      | some (x, rest) => (x, checked p argument rest)
      | none => (0, checked p argument argument)

/-- Shows the next argument by a conversion. -/
def convert (p : Progress) (s : Specification) (conversion : Char) (spelled : Text) : Progress :=
  match conversion with
  | 's' =>
    let (argument, p) := p.next
    p.put (s.text (argument.getD []))
  | 'b' =>
    let (argument, p) := p.next
    let argument := argument.getD []
    let (t, ended) := unescaped argument.length argument
    { p.put (s.text t) with ended }
  | 'c' =>
    let (argument, p) := p.next
    p.put ({ s with precision := none }.text [(argument.bind List.head?).getD '\x00'])
  | _ =>
    if conversion = 'd' || conversion = 'i' then
      let (n, p) := number p Arithmetic.smallest Arithmetic.largest
      p.put (s.signed n)
    else if ['o', 'u', 'x', 'X'].contains conversion then
      let limit : Int := Arithmetic.modulus - 1
      let (n, p) := number p (-limit) limit
      p.put (s.unsigned conversion (n.emod Arithmetic.modulus).toNat)
    else if ['e', 'E', 'f', 'F', 'g', 'G'].contains conversion then
      let (x, p) := floatArgument p
      p.put (s.float conversion x)
    else p.fail (spelled ++ ": invalid directive".toList)

/-- The size at the front of a specification: digits, or a star for an argument. -/
def size (p : Progress) (t : Text) : Int × Text × Progress :=
  match t with
  | '*' :: rest =>
    let (n, p) := number p Arithmetic.smallest Arithmetic.largest
    (n, rest, p)
  | _ =>
    let digits := t.takeWhile Char.isDigit
    ((Arithmetic.readDigits 10 digits).1, t.drop digits.length, p)

/-- Shows arguments by a format, once. -/
def pass : Nat → Progress → Text → Progress
  | 0, p, _ => p
  | _, p, [] => p
  | fuel + 1, p, '\\' :: rest =>
    let (c, rest) := escape rest
    pass fuel (p.put [c]) rest
  | fuel + 1, p, '%' :: '%' :: rest => pass fuel (p.put ['%']) rest
  | fuel + 1, p, '%' :: format =>
    let flags := format.takeWhile fun c => ['#', '-', '+', ' ', '0'].contains c
    let (width, rest, p) := size p (format.drop flags.length)
    let (precision, rest, p) := match rest with
      | '.' :: rest =>
        let (n, rest, p) := size p rest
        (if n < 0 then none else some n.toNat, rest, p)
      | _ => (none, rest, p)
    match rest with
    | [] => p.fail "missing format character".toList
    | conversion :: rest =>
      let s : Specification :=
        ⟨if width < 0 then '-' :: flags else flags, width.natAbs, precision⟩
      let p := convert p s conversion ('%' :: format.take (format.length - rest.length))
      if p.ended then p else pass fuel p rest
  | fuel + 1, p, c :: rest => pass fuel (p.put [c]) rest

/-- Shows all arguments, by as many passes as it takes. -/
def passes (format : Text) : Nat → Progress → Progress
  | 0, p => p
  | fuel + 1, p =>
    let next := pass format.length p format
    if next.ended || next.arguments.isEmpty || next.arguments.length = p.arguments.length then next
    else passes format fuel next

/-- Shows arguments by a format. -/
def formatted (format : Text) (arguments : List Text) : Progress :=
  passes format (arguments.length + 1) ⟨[], [], arguments, false, none⟩

end Format

end MemberOrder.Shell
