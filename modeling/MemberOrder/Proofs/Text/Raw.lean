import Mathlib.Data.List.Basic
import Mathlib.Data.List.Induction
import Mathlib.Tactic.SplitIfs
import MemberOrder.Text.Raw

/-!
Raw texts and the texts among them, and the pieces of a list between separators. A text is read,
shown and shadowed as itself. The last piece of a list starts it or stands behind a separator.
-/

set_option autoImplicit false

namespace MemberOrder

namespace Text

variable {α : Type} [DecidableEq α] {separator : α}

theorem pieces_ne_nil (separator : α) (t : List α) : pieces separator t ≠ [] := by
  cases t with
  | nil => simp [pieces]
  | cons c rest =>
    simp only [pieces]
    split_ifs
    · simp
    · split <;> simp

theorem pieces_of_not_mem {t : List α} (h : separator ∉ t) : pieces separator t = [t] := by
  induction t with
  | nil => rfl
  | cons c rest ih =>
    rw [List.mem_cons, not_or] at h
    simp only [pieces]
    rw [if_neg (Ne.symm h.1), ih h.2]

theorem pieces_append_cons (t u : List α) :
    pieces separator (t ++ separator :: u) = pieces separator t ++ pieces separator u := by
  induction t with
  | nil => simp [pieces]
  | cons c rest ih =>
    simp only [List.cons_append, pieces, ih]
    split_ifs with hc
    · rfl
    · cases hpieces : pieces separator rest with
      | nil => exact absurd hpieces (pieces_ne_nil separator rest)
      | cons first others => rfl

/-- Every list ends with a piece that starts it or stands behind a separator. -/
theorem exists_eq_append_piece (separator : α) (t : List α) :
    ∃ front piece, t = front ++ piece ∧ separator ∉ piece ∧
      (front = [] ∨ front.getLast? = some separator) := by
  induction t using List.reverseRecOn with
  | nil => exact ⟨[], [], rfl, List.not_mem_nil, Or.inl rfl⟩
  | append_singleton t c ih =>
    by_cases hc : c = separator
    · subst hc
      exact ⟨t ++ [c], [], (List.append_nil _).symm, List.not_mem_nil,
        Or.inr List.getLast?_concat⟩
    · obtain ⟨front, piece, rfl, hpiece, hfront⟩ := ih
      refine ⟨front, piece ++ [c], List.append_assoc .., ?_, hfront⟩
      simp [hpiece, Ne.symm hc]

/-- The pieces of a list that ends with a piece are those of what stands before it, and that one. -/
theorem exists_pieces_append {front piece : List α} (hpiece : separator ∉ piece)
    (hfront : front = [] ∨ front.getLast? = some separator) :
    ∃ others, pieces separator (front ++ piece) = others ++ [piece] := by
  rcases hfront with rfl | hlast
  · exact ⟨[], pieces_of_not_mem hpiece⟩
  · obtain ⟨before, rfl⟩ := List.getLast?_eq_some_iff.mp hlast
    refine ⟨pieces separator before, ?_⟩
    rw [List.append_assoc, List.singleton_append, pieces_append_cons, pieces_of_not_mem hpiece]

theorem lastPiece_append {front piece : List α} (hpiece : separator ∉ piece)
    (hfront : front = [] ∨ front.getLast? = some separator) :
    lastPiece separator (front ++ piece) = piece := by
  obtain ⟨others, hothers⟩ := exists_pieces_append hpiece hfront
  rw [lastPiece, hothers, List.getLast?_concat]
  rfl

end Text

namespace RawText

@[simp] theorem ofText_nil : ofText [] = [] := rfl

@[simp] theorem ofText_cons (c : Char) (t : Text) : ofText (c :: t) = .scalar c :: ofText t := rfl

theorem ofText_injective : Function.Injective ofText :=
  List.map_injective_iff.mpr fun _ _ ↦ RawChar.scalar.inj

@[simp] theorem ofText_inj {t u : Text} : ofText t = ofText u ↔ t = u := ofText_injective.eq_iff

@[simp] theorem ofString_inj {s t : String} : ofString s = ofString t ↔ s = t :=
  ofText_inj.trans String.toList_inj

@[simp] theorem escaped_ofText (t : Text) : (ofText t).escaped = t := by
  induction t with
  | nil => rfl
  | cons c rest ih =>
    rw [ofText_cons, escaped, List.flatMap_cons]
    exact congrArg (c :: ·) ih

@[simp] theorem shadow_ofText (t : Text) : (ofText t).shadow = t := by
  simp [shadow, ofText, RawChar.shadow, Function.comp_def]

@[simp] theorem length_shadow (t : RawText) : t.shadow.length = t.length := List.length_map _

@[simp] theorem shadow_append (t u : RawText) : shadow (t ++ u) = t.shadow ++ u.shadow :=
  List.map_append

end RawText

end MemberOrder
