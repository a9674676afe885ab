import MemberOrder.Text.Basic
import MemberOrder.Text.CaseTable

/-!
Case: lower case, upper case, case folding and case swapping of texts. All mappings may lengthen a
text. A capital sigma becomes a final sigma at the end of a word.
-/

set_option autoImplicit false

namespace MemberOrder.Text

/-- Does a case context pass over `c`? -/
def isCaseIgnorable (c : Char) : Bool := inRanges c.toNat caseIgnorableRanges

def isCased (c : Char) : Bool :=
  if c.toNat < 128 then c.isAlpha else inRanges c.toNat casedRanges

def isTitleCase (c : Char) : Bool := inRanges c.toNat titleRanges

/-- Is the nearest character that a case context does not pass over a cased one? -/
def meetsCased (t : Text) : Bool := ((t.dropWhile isCaseIgnorable).head?.map isCased).getD false

/-- The lower case form of `c` between the texts `before`, nearest character first, and `after`. -/
def lowerBetween (before : Text) (c : Char) (after : Text) : Text :=
  if c.toNat < 128 then [c.toLower]
  else if c = 'Σ' then [if meetsCased before && !meetsCased after then 'ς' else 'σ']
  else mapCodePoint lowerRuns lowerSequences c

def upperChar (c : Char) : Text :=
  if c.toNat < 128 then [c.toUpper] else mapCodePoint upperRuns upperSequences c

def foldChar (c : Char) : Text :=
  if c.toNat < 128 then [c.toLower] else mapCodePoint foldRuns foldSequences c

/-- Lower case to upper case and back; title case letters stay. -/
def swapBetween (before : Text) (c : Char) (after : Text) : Text :=
  if isTitleCase c then [c]
  else
    let lowered := lowerBetween before c after
    if lowered = [c] then upperChar c else lowered

/-- Maps every character in view of what stands before it, nearest first, and after it. -/
def mapInContext (f : Text → Char → Text → Text) (before : Text) : Text → Text
  | [] => []
  | c :: rest => f before c rest ++ mapInContext f (c :: before) rest

def toLower (t : Text) : Text := mapInContext lowerBetween [] t

def toUpper (t : Text) : Text := t.flatMap upperChar

/-- The form in which texts that differ only in case are equal. -/
def foldCase (t : Text) : Text := t.flatMap foldChar

def swapCase (t : Text) : Text := mapInContext swapBetween [] t

end MemberOrder.Text
