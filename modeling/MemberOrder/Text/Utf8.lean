import MemberOrder.Text.Quoted

/-!
UTF-8: texts as bytes and back. Decoding says of bytes that are no UTF-8 where they stand and what
is wrong with them.
-/

set_option autoImplicit false

namespace MemberOrder.Utf8

/-- The bytes of one code point. -/
def encodeNat (n : Nat) : List Nat :=
  if n < 0x80 then [n]
  else if n < 0x800 then [0xc0 + n / 0x40, 0x80 + n % 0x40]
  else if n < 0x10000 then [0xe0 + n / 0x1000, 0x80 + n / 0x40 % 0x40, 0x80 + n % 0x40]
  else
    [0xf0 + n / 0x40000, 0x80 + n / 0x1000 % 0x40, 0x80 + n / 0x40 % 0x40, 0x80 + n % 0x40]

def encode (t : Text) : List UInt8 := t.flatMap fun c => (encodeNat c.toNat).map UInt8.ofNat

inductive DecodeReason
  | invalidStart
  | invalidContinuation
  | unexpectedEnd
deriving DecidableEq

def DecodeReason.message : DecodeReason → String
  | .invalidStart => "invalid start byte"
  | .invalidContinuation => "invalid continuation byte"
  | .unexpectedEnd => "unexpected end of data"

/-- The bytes that cannot be decoded: the first of them, where it stands, how many they are, and
why. -/
structure DecodeError where
  byte : UInt8
  position : Nat
  count : Nat
  reason : DecodeReason
deriving DecidableEq

def DecodeError.message (e : DecodeError) : String :=
  "'utf-8' codec can't decode "
    ++ (if e.count = 1 then
        "byte 0x" ++ String.ofList (Text.hexDigits 2 e.byte.toNat) ++ " in position "
          ++ toString e.position
      else
        "bytes in position " ++ toString e.position ++ "-" ++ toString (e.position + e.count - 1))
    ++ ": " ++ e.reason.message

/-- A byte that continues a sequence holds six bits. -/
def isContinuation (b : UInt8) : Bool := b &&& 0xc0 == 0x80

def sixBits (b : UInt8) : Nat := b.toNat % 0x40

/-- May `second` follow `first` in a sequence of three or four bytes? It must not make the sequence
longer than needed, nor its code point a surrogate or too large. -/
def fits (first second : UInt8) : Bool :=
  isContinuation second
    && !(first == 0xe0 && decide (second < 0xa0)) && !(first == 0xed && decide (0xa0 ≤ second))
    && !(first == 0xf0 && decide (second < 0x90)) && !(first == 0xf4 && decide (0x90 ≤ second))

/-- Decodes the bytes from `position` on. -/
def decodeFrom (position : Nat) : List UInt8 → Except DecodeError Text
  | [] => .ok []
  | a :: rest =>
    let fail (count : Nat) (reason : DecodeReason) : Except DecodeError Text :=
      .error ⟨a, position, count, reason⟩
    if a < 0x80 then (decodeFrom (position + 1) rest).map (Char.ofNat a.toNat :: ·)
    else if a < 0xc2 then fail 1 .invalidStart
    else if a < 0xe0 then
      match rest with
      | [] => fail 1 .unexpectedEnd
      | b :: rest =>
        if isContinuation b then
          (decodeFrom (position + 2) rest).map
            (Char.ofNat (a.toNat % 0x20 * 0x40 + sixBits b) :: ·)
        else fail 1 .invalidContinuation
    else if a < 0xf0 then
      match rest with
      | [] => fail 1 .unexpectedEnd
      | [b] => if fits a b then fail 2 .unexpectedEnd else fail 1 .invalidContinuation
      | b :: c :: rest =>
        if !fits a b then fail 1 .invalidContinuation
        else if !isContinuation c then fail 2 .invalidContinuation
        else
          (decodeFrom (position + 3) rest).map
            (Char.ofNat (a.toNat % 0x10 * 0x1000 + sixBits b * 0x40 + sixBits c) :: ·)
    else if a < 0xf5 then
      match rest with
      | [] => fail 1 .unexpectedEnd
      | [b] => if fits a b then fail 2 .unexpectedEnd else fail 1 .invalidContinuation
      | [b, c] =>
        if !fits a b then fail 1 .invalidContinuation
        else if !isContinuation c then fail 2 .invalidContinuation
        else fail 3 .unexpectedEnd
      | b :: c :: d :: rest =>
        if !fits a b then fail 1 .invalidContinuation
        else if !isContinuation c then fail 2 .invalidContinuation
        else if !isContinuation d then fail 3 .invalidContinuation
        else
          (decodeFrom (position + 4) rest).map
            (Char.ofNat (a.toNat % 0x8 * 0x40000 + sixBits b * 0x1000 + sixBits c * 0x40
              + sixBits d) :: ·)
    else fail 1 .invalidStart

def decode (bytes : List UInt8) : Except DecodeError Text := decodeFrom 0 bytes

end MemberOrder.Utf8
