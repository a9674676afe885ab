import Mathlib.Tactic.SplitIfs
import MemberOrder.Settings.Basic

/-!
Showing values in messages. A value can be shown exactly where every number in it has no more digits
than the runtime writes out, and only what is wrong with a strategy shows the value.
-/

set_option autoImplicit false

namespace MemberOrder

namespace Value

/-- The value is the number, or holds it somewhere inside. -/
inductive Holds : Value → Int → Prop
  | int (n : Int) : Holds (.int n) n
  | item {items : List Value} {v : Value} {n : Int} (hmem : v ∈ items) (h : Holds v n) :
    Holds (.list items) n
  | key {items : List (Value × Value)} {key v : Value} {n : Int} (hmem : (key, v) ∈ items)
    (h : Holds key n) : Holds (.mapping items) n
  | value {items : List (Value × Value)} {key v : Value} {n : Int} (hmem : (key, v) ∈ items)
    (h : Holds v n) : Holds (.mapping items) n

mutual

/-- A value can be shown exactly where all the numbers in it can. -/
theorem isSome_literal?_iff (limit : DigitLimit) : (value : Value) →
    ((value.literal? limit).isSome ↔ ∀ n, value.Holds n → limit.shows n = true)
  | .null => by simp [literal?, show ∀ n, ¬ Holds .null n from fun n h ↦ nomatch h]
  | .bool b => by
    cases b <;> simp [literal?, show ∀ n b, ¬ Holds (.bool b) n from fun n b h ↦ nomatch h]
  | .int n => by
    rw [literal?]
    constructor
    · intro h m hm
      cases hm
      split_ifs at h with hshows
      · exact hshows
      · cases h
    · intro h
      rw [if_pos (h n (.int n))]
      rfl
  | .float x => by simp [literal?, show ∀ n, ¬ Holds (.float x) n from fun n h ↦ nomatch h]
  | .text t => by simp [literal?, show ∀ n, ¬ Holds (.text t) n from fun n h ↦ nomatch h]
  | .list items => by
    rw [literal?, Option.isSome_map, isSome_literals?_iff limit items]
    exact ⟨fun h n hn ↦ by cases hn with | item hmem hv => exact h _ hmem n hv,
      fun h v hmem n hv ↦ h n (.item hmem hv)⟩
  | .mapping items => by
    rw [literal?, Option.isSome_map, isSome_pairLiterals?_iff limit items]
    constructor
    · intro h n hn
      cases hn with
      | key hmem hkey => exact (h _ hmem).1 n hkey
      | value hmem hv => exact (h _ hmem).2 n hv
    · exact fun h pair hmem ↦ ⟨fun n hkey ↦ h n (.key hmem hkey), fun n hv ↦ h n (.value hmem hv)⟩

theorem isSome_literals?_iff (limit : DigitLimit) : (items : List Value) →
    ((literals? limit items).isSome ↔
      ∀ v ∈ items, ∀ n, v.Holds n → limit.shows n = true)
  | [] => by simp [literals?]
  | [item] => by simpa [literals?] using isSome_literal?_iff limit item
  | item :: next :: rest => by
    rw [literals?, List.forall_mem_cons, ← isSome_literals?_iff limit (next :: rest),
      ← isSome_literal?_iff limit item]
    cases item.literal? limit <;> cases literals? limit (next :: rest) <;> simp

theorem isSome_pairLiterals?_iff (limit : DigitLimit) : (items : List (Value × Value)) →
    ((pairLiterals? limit items).isSome ↔ ∀ pair ∈ items,
      (∀ n, pair.1.Holds n → limit.shows n = true) ∧
        ∀ n, pair.2.Holds n → limit.shows n = true)
  | [] => by simp [pairLiterals?]
  | [(key, item)] => by
    rw [pairLiterals?, List.forall_mem_singleton, ← isSome_literal?_iff limit key,
      ← isSome_literal?_iff limit item]
    cases key.literal? limit <;> cases item.literal? limit <;> simp
  | (key, item) :: next :: rest => by
    rw [pairLiterals?, List.forall_mem_cons, ← isSome_pairLiterals?_iff limit (next :: rest),
      ← isSome_literal?_iff limit key, ← isSome_literal?_iff limit item]
    cases key.literal? limit <;> cases item.literal? limit <;>
      cases pairLiterals? limit (next :: rest) <;> simp

end

theorem isSome_shown?_iff (limit : DigitLimit) (value : Value) :
    (value.shown? limit).isSome ↔ ∀ n, value.Holds n → limit.shows n = true := by
  rw [← isSome_literal?_iff]
  cases value with
  | text t => simp [shown?, literal?]
  | _ => simp only [shown?, Option.isSome_map]

end Value

namespace SettingsError

/-- What is wrong concerns a strategy that holds a number too long to be written out. -/
def Overlong (limit : DigitLimit) (e : SettingsError) : Prop :=
  ∃ value n, e = .invalidStrategy value ∧ value.Holds n ∧ limit.shows n = false

theorem isReported_iff {limit : DigitLimit} {e : SettingsError} :
    e.isReported limit = true ↔ ¬ e.Overlong limit := by
  cases e with
  | invalidStrategy value =>
    rw [isReported, message?, Option.isSome_map, Value.isSome_shown?_iff]
    simp [Overlong]
  | _ => simp [isReported, message?, Overlong]

example : isReported .standard (.invalidStrategy (.list [.int (Nat.pow 10 4300)])) = false ∧
    isReported .standard (.invalidStrategy (.list [.int (Nat.pow 10 4300 - 1)])) = true := by
  decide +kernel

end SettingsError

end MemberOrder
