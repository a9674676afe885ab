import MemberOrder.Method.Access

/-!
Methods as they are found in a class, and the names of accessors. A getter of a field reads it
without parameters and a setter writes it; each is known by its name and its declaration.
-/

set_option autoImplicit false

namespace MemberOrder

structure Method where
  name : Text
  /-- The name and the parenthesised parameters. -/
  signature : Text
  access : Access
  isConstructor : Bool
  isStatic : Bool
  isGetter : Bool
  isSetter : Bool
  /-- The lines before the declaration that belong to it. -/
  leading : Text
  /-- From the start of the declaration's line to the end of the method. -/
  text : Text
  /-- The body with its braces, or nothing. -/
  body : Text
  /-- The names it calls, in order of first occurrence. -/
  calls : List Text
  start : Nat
  stop : Nat
  /-- Its place among the methods of its class. -/
  position : Nat
deriving DecidableEq

namespace Method

def isAbstract (m : Method) : Bool := m.body.isEmpty

def leadingStart (m : Method) : Nat := m.start - m.leading.length

/-- The method with the lines before it that belong to it. -/
def block (m : Method) : Text := m.leading ++ m.text

/-- The one-line description of a method. -/
def description (m : Method) : String :=
  "<JavaMethod " ++ String.ofList m.signature ++ " at " ++ toString m.position ++ ">"

def getterWord : Text := "get".toList

def queryWord : Text := "is".toList

def setterWord : Text := "set".toList

def declaresGetter (name declaration : Text) : Bool :=
  (getterWord.isPrefixOf name || queryWord.isPrefixOf name)
    && Text.hasPart "()".toList declaration && !Text.hasPart "void".toList declaration

def declaresSetter (name declaration : Text) : Bool :=
  setterWord.isPrefixOf name && Text.hasPart "void".toList declaration

def declaresStatic (declaration : Text) : Bool := Text.hasPart "static ".toList declaration

/-- The field that a getter of this name reads. -/
def getterField (name : Text) : Text :=
  if getterWord.isPrefixOf name then name.drop getterWord.length
  else if queryWord.isPrefixOf name then name.drop queryWord.length
  else name

/-- The field that a setter of this name writes. -/
def setterField (name : Text) : Text :=
  if setterWord.isPrefixOf name then name.drop setterWord.length else name

/-- The names of the accessors that go with this one. -/
def partnerNames (m : Method) : List Text :=
  if m.isGetter then [setterWord ++ getterField m.name]
  else if m.isSetter then [getterWord ++ setterField m.name, queryWord ++ setterField m.name]
  else []

end Method

end MemberOrder
