import MemberOrder.Text.Raw
import MemberOrder.Text.Utf8

/-!
Paths: the extension of a path, which stands from the last point of its last component on where
something other than points stands before it, and the bytes by which the system knows a path.
-/

set_option autoImplicit false

namespace MemberOrder

namespace Path

def slash : RawChar := .scalar '/'

def point : RawChar := .scalar '.'

def extension (path : RawText) : RawText :=
  let name := Text.lastPiece slash path
  let ending := (name.reverse.takeWhile (· != point)).reverse
  let stem := name.take (name.length - ending.length - 1)
  if name.contains point && stem.any (· != point) then point :: ending else []

def javaExtension : String := ".java"

/-- Does the path name a file that may be rearranged? -/
def isJava (path : RawText) : Bool := extension path == .ofString javaExtension

end Path

/-- The bytes of a character in a path. Of the surrogates, those from U+DC80 to U+DCFF stand for the
bytes that are no UTF-8, and the others for none. -/
def RawChar.bytes? : RawChar → Option (List UInt8)
  | .scalar c => some (Utf8.encode [c])
  | .surrogate n =>
    if 0x480 ≤ n.val ∧ n.val < 0x500 then some [UInt8.ofNat (n - 0x400)] else none

/-- The surrogates that have no bytes: the first of them, where it stands, and how many stand
together. -/
structure EncodeError where
  codePoint : Nat
  position : Nat
  count : Nat
deriving DecidableEq

def EncodeError.message (e : EncodeError) : String :=
  "'utf-8' codec can't encode "
    ++ (if e.count = 1 then
        "character '" ++ String.ofList (Text.numericEscape e.codePoint) ++ "' in position "
          ++ toString e.position
      else
        "characters in position " ++ toString e.position ++ "-"
          ++ toString (e.position + e.count - 1))
    ++ ": surrogates not allowed"

namespace Path

/-- The bytes of what stands from `position` on. -/
def encodeFrom (position : Nat) : RawText → Except EncodeError (List UInt8)
  | [] => .ok []
  | c :: rest =>
    match c.bytes? with
    | some bytes => (encodeFrom (position + 1) rest).map (bytes ++ ·)
    | none =>
      .error ⟨c.codePoint, position, ((c :: rest).takeWhile RawChar.isSurrogate).length⟩

/-- The bytes of a path. -/
def encode (path : RawText) : Except EncodeError (List UInt8) := encodeFrom 0 path

end Path

end MemberOrder
