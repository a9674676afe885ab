import MemberOrder.Text.Basic

/-!
Patterns: `*` stands for any text, `?` for one character, and brackets for one of a set. A backslash
takes the meaning from the character behind it.
-/

set_option autoImplicit false

namespace MemberOrder.Shell

/-- What a bracket holds: characters from one to another, or a class of characters. -/
inductive Member
  | range (low high : Char)
  | kind (name : String)
deriving DecidableEq

/-- The classes of characters, which hold none but the characters of ASCII. -/
def isOfKind (name : String) (c : Char) : Bool :=
  let printable := decide (0x20 ≤ c.toNat ∧ c.toNat < 0x7f)
  match name with
  | "alnum" => c.isAlphanum
  | "alpha" => c.isAlpha
  | "blank" => c = ' ' || c = '\t'
  | "cntrl" => c.toNat < 0x20 || c.toNat = 0x7f
  | "digit" => c.isDigit
  | "graph" => printable && c ≠ ' '
  | "lower" => c.isLower
  | "print" => printable
  | "punct" => printable && c ≠ ' ' && !c.isAlphanum
  | "space" => c = ' ' || (9 ≤ c.toNat && c.toNat ≤ 13)
  | "upper" => c.isUpper
  | "xdigit" => c.isDigit || ('a' ≤ c && c ≤ 'f') || ('A' ≤ c && c ≤ 'F')
  | _ => false

def kindNames : List String :=
  ["alnum", "alpha", "blank", "cntrl", "digit", "graph", "lower", "print", "punct", "space",
    "upper", "xdigit"]

def Member.holds (c : Char) : Member → Bool
  | .range low high => low ≤ c && c ≤ high
  | .kind name => isOfKind name c

inductive Item
  | char (c : Char)
  | one
  | any
  | set (inverted : Bool) (members : List Member)
deriving DecidableEq

def Item.holds (c : Char) : Item → Bool
  | .char d => c = d
  | .one => true
  | .any => true
  | .set inverted members => members.any (Member.holds c) != inverted

abbrev Pattern := List Item

/-- Is the whole text what the pattern stands for? -/
def Pattern.accepts : Pattern → Text → Bool
  | [], t => t.isEmpty
  | .any :: items, [] => accepts items []
  | .any :: items, c :: t => accepts items (c :: t) || accepts (.any :: items) t
  | item :: items, c :: t => item.holds c && accepts items t
  | _ :: _, [] => false
termination_by items t => items.length + t.length

/-- The class that is named at the front of a text, behind its first bracket, and what follows. -/
def kind? : Text → Option (String × Text)
  | ':' :: rest =>
    kindNames.findSome? fun name =>
      let ending := name.toList ++ ":]".toList
      if ending.isPrefixOf rest then some (name, rest.drop ending.length) else none
  | _ => none

/-- The members of a bracket, from the one that begins with `c` on, and what follows its end. -/
def members? : Nat → Char → Text → Option (List Member × Text)
  | 0, _, _ => none
  | fuel + 1, c, rest =>
    let proceed (found : Member) : Text → Option (List Member × Text)
      | [] => none
      | ']' :: rest => some ([found], rest)
      | c :: rest => (members? fuel c rest).map fun (members, rest) => (found :: members, rest)
    match c, kind? rest with
    | '[', some (name, rest) => proceed (.kind name) rest
    | _, _ =>
      let (low, rest) := match c, rest with
        | '\\', d :: rest => (d, rest)
        | _, _ => (c, rest)
      match rest with
      | '-' :: '\\' :: high :: rest => proceed (.range low high) rest
      | '-' :: high :: others =>
        if high = ']' then proceed (.range low low) rest else proceed (.range low high) others
      | _ => proceed (.range low low) rest

/-- The set that a bracket stands for, read behind its beginning, and what follows. -/
def bracket? : Text → Option (Item × Text)
  | '!' :: c :: rest => (members? (rest.length + 1) c rest).map fun (m, rest) => (.set true m, rest)
  | c :: rest => (members? (rest.length + 1) c rest).map fun (m, rest) => (.set false m, rest)
  | [] => none

/-- Reads a pattern. -/
def Pattern.readFrom : Nat → Text → Pattern
  | 0, _ => []
  | _, [] => []
  | fuel + 1, '\\' :: c :: rest => .char c :: readFrom fuel rest
  | fuel + 1, '?' :: rest => .one :: readFrom fuel rest
  | fuel + 1, '*' :: rest => .any :: readFrom fuel rest
  | fuel + 1, '[' :: rest =>
    match bracket? rest with
    | some (item, rest) => item :: readFrom fuel rest
    | none => .char '[' :: readFrom fuel rest
  | fuel + 1, c :: rest => .char c :: readFrom fuel rest

def Pattern.ofText (t : Text) : Pattern := readFrom t.length t

/-- Has the pattern anything but characters? -/
def Pattern.isOpen (p : Pattern) : Bool :=
  p.any fun
    | .char _ => false
    | _ => true

/-- What is left of a text when the shortest or longest beginning that the pattern stands for is
cut off. -/
def Pattern.trimStart (p : Pattern) (longest : Bool) (t : Text) : Text :=
  let lengths := List.range (t.length + 1)
  let lengths := if longest then lengths.reverse else lengths
  match lengths.find? fun n => p.accepts (t.take n) with
  | some n => t.drop n
  | none => t

/-- The same for the end of a text. -/
def Pattern.trimEnd (p : Pattern) (longest : Bool) (t : Text) : Text :=
  let lengths := List.range (t.length + 1)
  let lengths := if longest then lengths else lengths.reverse
  match lengths.find? fun n => p.accepts (t.drop n) with
  | some n => t.take n
  | none => t

end MemberOrder.Shell
