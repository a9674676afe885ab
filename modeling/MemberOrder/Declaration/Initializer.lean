import MemberOrder.Declaration.LineStart
import MemberOrder.Text.Blank

/-!
Initializer heads: the line starts of static and instance initializer blocks. A static one has
comments closed on the line at most before `static` and its brace; an instance one is a line that
holds a brace alone.
-/

set_option autoImplicit false

namespace MemberOrder

structure InitializerHead where
  start : Nat
  /-- The position of the opening brace. -/
  brace : Nat
  stop : Nat
deriving DecidableEq

namespace InitializerHead

/-- What follows each end of a comment on the line, nearest first. -/
def commentEnds : Text → List Text
  | [] => []
  | '\n' :: _ => []
  | '*' :: '/' :: rest => rest :: commentEnds ('/' :: rest)
  | _ :: rest => commentEnds rest

theorem length_lt_of_mem_commentEnds {t rest : Text} (h : rest ∈ commentEnds t) :
    rest.length < t.length := by
  fun_induction commentEnds t with
  | case1 => simp at h
  | case2 => simp at h
  | case3 others ih =>
    rcases List.mem_cons.mp h with rfl | h
    · simp only [List.length_cons]
      omega
    · have := ih h
      simp only [List.length_cons] at this ⊢
      omega
  | case4 c others _ _ ih =>
    have := ih h
    simp only [List.length_cons]
    omega

/-- What follows `static`, white space and a brace, if the text starts with them. -/
def afterStatic? (t : Text) : Option Text :=
  if "static".toList.isPrefixOf t then
    match (t.drop 6).dropWhile Text.isBlank with
    | '\x7b' :: rest => some rest
    | _ => none
  else none

/-- What follows the brace of a static initializer. A comment before it ends at the first end
after which the rest is such a head again. -/
def afterStaticBrace? (t : Text) : Option Text :=
  match t with
  | '/' :: '*' :: rest =>
    (commentEnds rest).attach.findSome? fun ⟨others, _⟩ =>
      afterStaticBrace? (others.dropWhile Text.isIndent)
  | _ => afterStatic? t
termination_by t.length
decreasing_by
  rename_i h
  have h₁ := length_lt_of_mem_commentEnds h
  have h₂ := (List.dropWhile_sublist (l := others) Text.isIndent).length_le
  simp only [List.length_cons]
  omega

def static? (start : Nat) (t : Text) : Option InitializerHead :=
  (afterStaticBrace? (t.dropWhile Text.isIndent)).map fun rest =>
    let stop := start + (t.length - rest.length)
    ⟨start, stop - 1, stop⟩

def instance? (start : Nat) (t : Text) : Option InitializerHead :=
  let indent := (t.takeWhile Text.isIndent).length
  match t.drop indent with
  | '\x7b' :: rest =>
    let fill := (rest.takeWhile Text.isLineFill).length
    match rest.drop fill with
    | [] => some ⟨start, start + indent, start + indent + 1 + fill⟩
    | '\n' :: _ => some ⟨start, start + indent, start + indent + 1 + fill⟩
    | _ => none
  | _ => none

def staticBetween (t : Text) (start stop : Nat) : List InitializerHead :=
  t.findBetween Text.beginsLine static? start stop

def instanceBetween (t : Text) (start stop : Nat) : List InitializerHead :=
  t.findBetween Text.beginsLine instance? start stop

end InitializerHead

end MemberOrder
