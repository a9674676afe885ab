import MemberOrder.Text.Blank

/-!
Sources and their lexical reading. Every character of a source is code or not: comments, text
blocks, string and character literals are not. A reading goes from left to right through the
lexical modes; an unterminated string or character literal ends before the line does, and a text
block or block comment that is never closed reaches to the end.
-/

set_option autoImplicit false

namespace MemberOrder

/-- What the reader is inside of. -/
inductive Mode
  | code
  | lineComment
  | blockComment
  | textBlock
  | literal (quote : Char)
deriving DecidableEq

/-- A character of a source, with whether it is code. -/
structure Glyph where
  char : Char
  isCode : Bool
deriving DecidableEq

namespace Glyph

def code (c : Char) : Glyph := ⟨c, true⟩

def mute (c : Char) : Glyph := ⟨c, false⟩

/-- Is it white space, code or not? -/
def isBlank (g : Glyph) : Bool := Text.isBlank g.char

/-- Is it the code character `c`? -/
def isCodeChar (g : Glyph) (c : Char) : Bool := g.isCode && g.char == c

/-- Does it say something to the compiler: code that is not white space? -/
def isSolid (g : Glyph) : Bool := g.isCode && !g.isBlank

end Glyph

namespace Source

open Glyph (code mute)

/-- Reads a text from the given mode on. -/
def scan : Mode → Text → List Glyph
  | _, [] => []
  | .code, '/' :: '/' :: rest => mute '/' :: mute '/' :: scan .lineComment rest
  | .code, '/' :: '*' :: rest => mute '/' :: mute '*' :: scan .blockComment rest
  | .code, '"' :: '"' :: '"' :: rest =>
    mute '"' :: mute '"' :: mute '"' :: scan .textBlock rest
  | .code, '"' :: rest => mute '"' :: scan (.literal '"') rest
  | .code, '\'' :: rest => mute '\'' :: scan (.literal '\'') rest
  | .code, c :: rest => code c :: scan .code rest
  | .lineComment, '\n' :: rest => code '\n' :: scan .code rest
  | .lineComment, c :: rest => mute c :: scan .lineComment rest
  | .blockComment, '*' :: '/' :: rest => mute '*' :: mute '/' :: scan .code rest
  | .blockComment, c :: rest => mute c :: scan .blockComment rest
  | .textBlock, '\\' :: c :: rest => mute '\\' :: mute c :: scan .textBlock rest
  | .textBlock, '"' :: '"' :: '"' :: rest =>
    mute '"' :: mute '"' :: mute '"' :: scan .code rest
  | .textBlock, c :: rest => mute c :: scan .textBlock rest
  | .literal _, '\n' :: rest => code '\n' :: scan .code rest
  | .literal quote, '\\' :: c :: rest => mute '\\' :: mute c :: scan (.literal quote) rest
  | .literal quote, c :: rest =>
    mute c :: scan (if c = quote then .code else .literal quote) rest

end Source

/-- A text together with its reading. -/
structure Source where
  text : Text
  glyphs : List Glyph
  glyphs_eq : glyphs = Source.scan .code text

namespace Source

def ofText (text : Text) : Source := ⟨text, scan .code text, rfl⟩

def length (src : Source) : Nat := src.glyphs.length

/-- Is there a code character at this position? -/
def isCodeAt (src : Source) (i : Nat) : Bool := (src.glyphs[i]?.map (·.isCode)).getD false

/-- Are all characters from `start` up to `stop` code? -/
def isCodeBetween (src : Source) (start stop : Nat) : Bool :=
  (src.glyphs.extract start stop).all (·.isCode)

/-- The last solid character from `start` up to `stop`. -/
def lastSolid? (src : Source) (start stop : Nat) : Option Char :=
  ((src.glyphs.extract start stop).reverse.find? (·.isSolid)).map (·.char)

/-- The first position from `start` up to `stop` that holds one of the characters as code. -/
def firstCode? (src : Source) (characters : Text) (start stop : Nat) : Option Nat :=
  ((src.glyphs.extract start stop).findIdx? fun g => g.isCode && characters.contains g.char).map
    (start + ·)

end Source

end MemberOrder
