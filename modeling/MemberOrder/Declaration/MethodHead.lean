import MemberOrder.Declaration.LineStart
import MemberOrder.Text.Blank
import MemberOrder.Text.Word

/-!
Method heads: what a line must start with to declare a method. After the indentation come
annotations, then words such as modifiers and types, then a name directly followed, but for blanks,
by an opening parenthesis. The first name so followed is the method's.
-/

set_option autoImplicit false

namespace MemberOrder

structure MethodHead where
  /-- Where the line starts. -/
  start : Nat
  /-- Annotations, modifiers and types, up to the name. -/
  modifiers : Text
  name : Text
  nameStart : Nat
  /-- The position of the opening parenthesis. -/
  parenthesis : Nat
deriving DecidableEq

namespace MethodHead

/-- A character of an annotation's qualified name. -/
def isPathPart (c : Char) : Bool := Text.isNamePart c || c == '.'

/-- A character of a modifier or type. -/
def isTypePart (c : Char) : Bool :=
  Text.isNamePart c || ['[', ']', '<', '>', '?', ',', '.', '&'].contains c

def isArgumentPart (c : Char) : Bool := !(c == '(' || c == ')' || c == '\n')

/-- What follows the blanks that the text starts with; there must be one. -/
def afterBlanks? : Text → Option Text
  | [] => none
  | c :: rest => if Text.isIndent c then some (rest.dropWhile Text.isIndent) else none

/-- What follows annotation arguments without inner parentheses, if the text starts with them. -/
def afterArguments (t : Text) : Text :=
  match t with
  | '(' :: rest =>
    match rest.dropWhile isArgumentPart with
    | ')' :: others => others
    | _ => t
  | _ => t

/-- What follows an annotation and its blanks, if the text starts with one. -/
def afterMark? : Text → Option Text
  | '@' :: c :: rest =>
    if isPathPart c then afterBlanks? (afterArguments (rest.dropWhile isPathPart)) else none
  | _ => none

/-- What follows a modifier or type and its blanks, if the text starts with one. -/
def afterWord? : Text → Option Text
  | [] => none
  | c :: rest => if isTypePart c then afterBlanks? (rest.dropWhile isTypePart) else none

theorem length_dropWhile_le {α : Type} (p : α → Bool) (l : List α) :
    (l.dropWhile p).length ≤ l.length :=
  (List.dropWhile_sublist p).length_le

theorem length_afterBlanks?_lt {t rest : Text} (h : afterBlanks? t = some rest) :
    rest.length < t.length := by
  cases t with
  | nil => simp [afterBlanks?] at h
  | cons c others =>
    simp only [afterBlanks?] at h
    split at h
    · cases h
      exact Nat.lt_succ_of_le (length_dropWhile_le _ _)
    · cases h

theorem length_afterArguments_le (t : Text) : (afterArguments t).length ≤ t.length := by
  unfold afterArguments
  split
  · rename_i rest
    split
    · rename_i others heq
      have h := length_dropWhile_le isArgumentPart rest
      rw [heq] at h
      simp only [List.length_cons] at h ⊢
      omega
    · exact Nat.le_refl _
  · exact Nat.le_refl _

theorem length_afterMark?_lt {t rest : Text} (h : afterMark? t = some rest) :
    rest.length < t.length := by
  unfold afterMark? at h
  split at h
  · rename_i c others
    split at h
    · have h₁ := length_afterBlanks?_lt h
      have h₂ := length_afterArguments_le (others.dropWhile isPathPart)
      have h₃ := length_dropWhile_le isPathPart others
      simp only [List.length_cons]
      omega
    · cases h
  · cases h

theorem length_afterWord?_lt {t rest : Text} (h : afterWord? t = some rest) :
    rest.length < t.length := by
  unfold afterWord? at h
  split at h
  · cases h
  · rename_i c others
    split at h
    · have h₁ := length_afterBlanks?_lt h
      have h₂ := length_dropWhile_le isTypePart others
      simp only [List.length_cons]
      omega
    · cases h

/-- What follows all annotations that the text starts with. -/
def skipMarks (t : Text) : Text :=
  match _h : afterMark? t with
  | some rest => skipMarks rest
  | none => t
termination_by t.length
decreasing_by exact length_afterMark?_lt _h

/-- The identifier at the start of the text if, but for blanks, a parenthesis opens after it, with
what stands from that parenthesis on. -/
def nameBeforeParenthesis? (t : Text) : Option (Text × Text) :=
  (Text.identifier? t).bind fun name =>
    match (t.drop name.length).dropWhile Text.isIndent with
    | '(' :: rest => some (name, '(' :: rest)
    | _ => none

/-- Passes over words up to the first name with a parenthesis after it. Gives what stands from the
name on, the name, and what stands from the parenthesis on. -/
def findName? (t : Text) : Option (Text × Text × Text) :=
  match nameBeforeParenthesis? t with
  | some (name, rest) => some (t, name, rest)
  | none =>
    match _h : afterWord? t with
    | some rest => findName? rest
    | none => none
termination_by t.length
decreasing_by exact length_afterWord?_lt _h

/-- The head on the line that starts at `start`. -/
def onLine? (start : Nat) (line : Text) : Option MethodHead :=
  let body := line.dropWhile Text.isIndent
  (findName? (skipMarks body)).map fun (fromName, name, fromParenthesis) =>
    { start
      modifiers := body.take (body.length - fromName.length)
      name
      nameStart := start + (line.length - fromName.length)
      parenthesis := start + (line.length - fromParenthesis.length) }

def at? (start : Nat) (t : Text) : Option MethodHead := onLine? start (t.takeWhile (· != '\n'))

/-- The heads on the lines that start from `start` up to `stop`. -/
def allBetween (t : Text) (start stop : Nat) : List MethodHead :=
  t.findBetween Text.beginsLine at? start stop

end MethodHead

end MemberOrder
