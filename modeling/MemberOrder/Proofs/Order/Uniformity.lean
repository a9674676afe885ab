import Mathlib.Data.Set.Card
import Mathlib.Probability.Distributions.Uniform
import MemberOrder.Proofs.Order.Permutation

/-!
A shuffle is fair. For items without repetition every order of them comes from exactly one sequence
of answers in range, so answers that are uniform and independent make all orders equally likely. The
place that a step settles is not touched by the later ones: what stands there at the end tells which
answer was drawn for it.
-/

set_option autoImplicit false

namespace MemberOrder

namespace Shuffle

open scoped Nat

variable {α : Type}

/-! ### Steps -/

theorem getElem?_swap {items : List α} {i j : Nat} (hi : i < items.length) (hj : j < items.length)
    (k : Nat) : (swap items i j)[k]? =
      if k = j then items[i]? else if k = i then items[j]? else items[k]? := by
  simp only [swap, List.getElem?_eq_getElem hi, List.getElem?_eq_getElem hj]
  by_cases hkj : k = j
  · rw [if_pos hkj, hkj, List.getElem?_set_self (by simpa using hj)]
  · rw [if_neg hkj, List.getElem?_set_ne (Ne.symm hkj)]
    by_cases hki : k = i
    · rw [if_pos hki, hki, List.getElem?_set_self hi]
    · rw [if_neg hki, List.getElem?_set_ne (Ne.symm hki)]

/-- Trading two places leaves all behind them as it is. -/
theorem drop_swap {items : List α} {i j n : Nat} (hi : i < n) (hj : j < n)
    (hn : n ≤ items.length) : (swap items i j).drop n = items.drop n := by
  refine List.ext_getElem? fun k ↦ ?_
  rw [List.getElem?_drop, List.getElem?_drop, getElem?_swap (by omega) (by omega),
    if_neg (by omega), if_neg (by omega)]

/-- The sequences of answers for the places from `place` down to the second: one for each of them,
and in range. -/
def answersFor (place : Nat) : Set (List Int) :=
  {answers | answers.length = place ∧ (IndexSource.listed answers).InRange place}

theorem mem_answersFor_zero {answers : List Int} : answers ∈ answersFor 0 ↔ answers = [] := by
  simp [answersFor, IndexSource.InRange]

theorem mem_answersFor_succ {place : Nat} {answers : List Int} :
    answers ∈ answersFor (place + 1) ↔ ∃ index : Nat, index < place + 2 ∧
      ∃ rest ∈ answersFor place, answers = (index : Int) :: rest := by
  cases answers with
  | nil => simp [answersFor]
  | cons index rest =>
    simp only [answersFor, Set.mem_ofPred_eq, List.length_cons, IndexSource.InRange,
      IndexSource.draw, List.cons.injEq]
    constructor
    · rintro ⟨hlength, hnonneg, hlt, hrest⟩
      exact ⟨index.toNat, by omega, rest, ⟨by omega, hrest⟩, by omega, rfl⟩
    · rintro ⟨n, hn, others, ⟨hlength, hothers⟩, rfl, rfl⟩
      exact ⟨by omega, by omega, by omega, hothers⟩

theorem from?_listed_cons {place index : Nat} {items : List α} (rest : List Int)
    (h : index < items.length) :
    from? (place + 1) (.listed ((index : Int) :: rest)) items =
      from? place (.listed rest) (swap items (place + 1) index) := by
  simp only [from?, IndexSource.draw]
  rw [position?_of_nonneg (by omega) (by omega), Option.bind_some, Int.toNat_natCast]

/-- What stands behind a place stays there in the steps from it on. -/
theorem drop_of_from? {place : Nat} {answers : List Int} (hanswers : answers ∈ answersFor place)
    {items order : List α} (hplace : place < items.length ∨ place = 0)
    (h : (from? place (.listed answers) items).map Prod.fst = some order) :
    order.drop (place + 1) = items.drop (place + 1) := by
  induction place generalizing answers items with
  | zero =>
    cases h
    rfl
  | succ place ih =>
    obtain ⟨index, hindex, rest, hrest, rfl⟩ := mem_answersFor_succ.mp hanswers
    have hlength : place + 1 < items.length := hplace.resolve_right (Nat.succ_ne_zero place)
    rw [from?_listed_cons rest (by omega)] at h
    have hswap := (swap_perm items (place + 1) index).length_eq
    have hbehind := congrArg (List.drop 1) (ih hrest (by omega) h)
    rw [List.drop_drop, List.drop_drop] at hbehind
    rw [hbehind]
    exact drop_swap (by omega) (by omega) (by omega)

/-! ### Orders and answers -/

theorem eq_of_perm_of_drop_one {items order : List α} (hperm : order.Perm items)
    (hdrop : order.drop 1 = items.drop 1) : order = items := by
  cases items with
  | nil => exact hperm.eq_nil
  | cons x items =>
    cases order with
    | nil => exact absurd hperm.length_eq (by simp)
    | cons y order =>
      obtain rfl : order = items := hdrop
      have hhead : [y].Perm [x] := (List.perm_append_right_iff order).mp hperm
      rw [List.singleton_perm_singleton.mp hhead]

/-- The element that an order has at a place stands not behind it in items that agree with the order
from there on. -/
theorem exists_index_of_perm {items order : List α} {place : Nat} (hperm : order.Perm items)
    (hdrop : order.drop (place + 1) = items.drop (place + 1)) (hplace : place < items.length) :
    ∃ index < place + 1, items[index]? = order[place]? := by
  have htake : (order.take (place + 1)).Perm (items.take (place + 1)) := by
    have hwhole := hperm
    rw [← List.take_append_drop (place + 1) order, ← List.take_append_drop (place + 1) items,
      hdrop] at hwhole
    exact (List.perm_append_right_iff _).mp hwhole
  have hlength := hperm.length_eq
  have hx : order[place]? = some (order[place]) := List.getElem?_eq_getElem (by omega)
  have hmem : order[place] ∈ order.take (place + 1) :=
    List.mem_take_iff_getElem.mpr ⟨place, by omega, rfl⟩
  obtain ⟨index, hindex, heq⟩ := List.mem_take_iff_getElem.mp (htake.mem_iff.mp hmem)
  exact ⟨index, by omega, by rw [hx, ← heq, List.getElem?_eq_getElem]⟩

/-- Every order that leaves what stands behind a place comes from one sequence of answers. -/
theorem existsUnique_answers {place : Nat} {items order : List α} (hitems : items.Nodup)
    (hplace : place < items.length ∨ place = 0) (hperm : order.Perm items)
    (hdrop : order.drop (place + 1) = items.drop (place + 1)) :
    ∃! answers, answers ∈ answersFor place ∧
      (from? place (.listed answers) items).map Prod.fst = some order := by
  induction place generalizing items with
  | zero =>
    rw [eq_of_perm_of_drop_one hperm hdrop]
    exact ⟨[], ⟨mem_answersFor_zero.mpr rfl, rfl⟩, fun other h ↦ mem_answersFor_zero.mp h.1⟩
  | succ place ih =>
    have hlength : place + 1 < items.length := hplace.resolve_right (Nat.succ_ne_zero place)
    obtain ⟨index, hindex, hget⟩ := exists_index_of_perm hperm hdrop hlength
    have hswap := swap_perm items (place + 1) index
    -- The traded items agree with the order one place earlier.
    have hdrop' : order.drop (place + 1) = (swap items (place + 1) index).drop (place + 1) := by
      rw [List.drop_eq_getElem?_toList_append, hdrop,
        List.drop_eq_getElem?_toList_append (l := swap _ _ _),
        drop_swap (by omega) (by omega) (by omega), getElem?_swap (by omega) (by omega)]
      by_cases hsame : place + 1 = index
      · rw [if_pos hsame, ← hget, hsame]
      · rw [if_neg hsame, if_pos rfl, hget]
    obtain ⟨rest, ⟨hrest, hfrom⟩, hunique⟩ := ih (hswap.nodup_iff.mpr hitems)
      (Or.inl (by rw [hswap.length_eq]; omega)) (hperm.trans hswap.symm) hdrop'
    refine ⟨(index : Int) :: rest, ⟨mem_answersFor_succ.mpr ⟨index, hindex, rest, hrest, rfl⟩,
      ?_⟩, fun answers hanswers ↦ ?_⟩
    · rw [from?_listed_cons rest (by omega), hfrom]
    · obtain ⟨hanswers, hresult⟩ := hanswers
      obtain ⟨other, hother, others, hothers, rfl⟩ := mem_answersFor_succ.mp hanswers
      rw [from?_listed_cons others (by omega)] at hresult
      -- What the order has at the place is what the answer named.
      have hkept := drop_of_from? hothers
        (Or.inl (by rw [(swap_perm items (place + 1) other).length_eq]; omega)) hresult
      have hfirst := congrArg (fun l : List α ↦ l[0]?) hkept
      simp only [List.getElem?_drop, Nat.add_zero] at hfirst
      rw [getElem?_swap (by omega) (by omega), if_pos rfl, ← hget] at hfirst
      have hsame : index = other := by
        refine (List.getElem?_inj (by omega) hitems).mp (hfirst.trans ?_)
        split_ifs with heq
        · rw [heq]
        · rfl
      subst hsame
      rw [hunique others ⟨hothers, hresult⟩]

/-! ### Laws -/

/-- The law of the answers for the places from `place` down to the second, each uniform among those
in range and independent of the others. -/
noncomputable def answerLaw : Nat → PMF (List Int)
  | 0 => PMF.pure []
  | place + 1 =>
    (PMF.uniformOfFintype (Fin (place + 2))).bind fun index ↦
      (answerLaw place).map fun rest ↦ (index : Int) :: rest

theorem mem_answersFor_of_mem_support {place : Nat} {answers : List Int}
    (h : answers ∈ (answerLaw place).support) : answers ∈ answersFor place := by
  induction place generalizing answers with
  | zero =>
    rw [answerLaw, PMF.mem_support_pure_iff] at h
    exact mem_answersFor_zero.mpr h
  | succ place ih =>
    rw [answerLaw, PMF.mem_support_bind_iff] at h
    obtain ⟨index, -, h⟩ := h
    obtain ⟨rest, hrest, rfl⟩ := (PMF.mem_support_map_iff _ _ _).mp h
    exact mem_answersFor_succ.mpr ⟨index, index.isLt, rest, ih hrest, rfl⟩

theorem answerLaw_apply {place : Nat} {answers : List Int} (h : answers ∈ answersFor place) :
    answerLaw place answers = ((place + 1)! : ENNReal)⁻¹ := by
  induction place generalizing answers with
  | zero =>
    rw [mem_answersFor_zero.mp h]
    simp [answerLaw]
  | succ place ih =>
    obtain ⟨index, hindex, rest, hrest, rfl⟩ := mem_answersFor_succ.mp h
    have hmap (other : Fin (place + 2)) :
        ((answerLaw place).map fun rest ↦ (other : Int) :: rest) ((index : Int) :: rest) =
          if other = ⟨index, hindex⟩ then answerLaw place rest else 0 := by
      rw [PMF.map_apply]
      by_cases hother : other = ⟨index, hindex⟩
      · simp [hother]
      · have hne : (index : Int) ≠ other := fun heq ↦ hother (Fin.ext (by simpa using heq.symm))
        simp [hother, hne]
    rw [answerLaw, PMF.bind_apply, tsum_eq_single ⟨index, hindex⟩ fun other hother ↦ by
      rw [hmap, if_neg hother, mul_zero], hmap, if_pos rfl, ih hrest, PMF.uniformOfFintype_apply,
      Fintype.card_fin, Nat.factorial_succ (place + 1), Nat.cast_mul,
      ENNReal.mul_inv (Or.inl (by simp)) (Or.inl (by simp))]

end Shuffle

open Shuffle
open scoped Nat

variable {α : Type} {items order : List α}

/-- Every order of items without repetition comes from one sequence of answers. -/
theorem existsUnique_shuffle?_eq (hitems : items.Nodup) (horder : order.Perm items) :
    ∃! answers, answers ∈ answersFor (items.length - 1) ∧
      (shuffle? (.listed answers) items).map Prod.fst = some order := by
  refine existsUnique_answers hitems (by omega) horder ?_
  rw [List.drop_of_length_le (by rw [horder.length_eq]; omega), List.drop_of_length_le (by omega)]

theorem ncard_setOf_perm (hitems : items.Nodup) :
    {order : List α | order.Perm items}.ncard = items.length ! := by
  classical
  have horders : {order : List α | order.Perm items} = items.permutations.toFinset := by
    ext order
    simp
  rw [horders, Set.ncard_coe_finset,
    List.toFinset_card_of_nodup (List.nodup_permutations items hitems), List.length_permutations]

theorem map_answerLaw_apply (hitems : items.Nodup) (horder : order.Perm items) :
    ((answerLaw (items.length - 1)).map fun answers ↦
      (shuffle? (.listed answers) items).map Prod.fst) (some order) =
        (items.length ! : ENNReal)⁻¹ := by
  obtain ⟨answers, ⟨hanswers, hresult⟩, hothers⟩ := existsUnique_shuffle?_eq hitems horder
  have hfactorial : (items.length - 1 + 1)! = items.length ! := by
    cases items with
    | nil => rfl
    | cons x items => rfl
  rw [PMF.map_apply, tsum_eq_single answers, if_pos hresult.symm, answerLaw_apply hanswers,
    hfactorial]
  intro other hother
  by_cases hmem : other ∈ answersFor (items.length - 1)
  · exact if_neg fun heq ↦ hother (hothers other ⟨hmem, heq.symm⟩)
  · have hnever : answerLaw (items.length - 1) other = 0 :=
      (PMF.apply_eq_zero_iff _ _).mpr fun hsupport ↦ hmem (mem_answersFor_of_mem_support hsupport)
    rw [hnever, ite_self]

/-- A shuffle of items without repetition is fair. Sequences of answers, one in range for each place
but the first, give the orders of the items, every order for one sequence; and when the answers are
uniform and independent each of these orders is as likely as any other. -/
theorem shuffle?_uniform (hitems : items.Nodup) :
    Set.BijOn (fun answers ↦ (shuffle? (.listed answers) items).map Prod.fst)
        (answersFor (items.length - 1)) (some '' {order | order.Perm items}) ∧
      {order : List α | order.Perm items}.ncard = items.length ! ∧
      ∀ order : List α, order.Perm items →
        ((answerLaw (items.length - 1)).map fun answers ↦
          (shuffle? (.listed answers) items).map Prod.fst) (some order) =
            (items.length ! : ENNReal)⁻¹ := by
  refine ⟨⟨fun answers hanswers ↦ ?_, fun answers hanswers others hothers hsame ↦ ?_, ?_⟩,
    ncard_setOf_perm hitems, fun order horder ↦ map_answerLaw_apply hitems horder⟩
  · obtain ⟨order, rest, heq, hperm⟩ := exists_shuffle?_eq hanswers.2
    exact ⟨order, hperm, by simp [heq]⟩
  · obtain ⟨order, rest, heq, hperm⟩ := exists_shuffle?_eq hanswers.2
    have hresult : (shuffle? (.listed answers) items).map Prod.fst = some order := by simp [heq]
    exact (existsUnique_shuffle?_eq hitems hperm).unique ⟨hanswers, hresult⟩
      ⟨hothers, hsame.symm.trans hresult⟩
  · rintro _ ⟨order, horder, rfl⟩
    exact (existsUnique_shuffle?_eq hitems horder).exists

/-- Of three items each of the six orders has one chance in six. -/
theorem threeItems_uniform :
    [0, 1, 2].Nodup ∧ {order : List Nat | order.Perm [0, 1, 2]}.ncard = 6 ∧
      ((answerLaw 2).map fun answers ↦
        (shuffle? (.listed answers) [0, 1, 2]).map Prod.fst) (some [2, 0, 1]) = (6 : ENNReal)⁻¹ := by
  have hitems : [0, 1, 2].Nodup := by decide
  obtain ⟨-, hcount, hlaw⟩ := shuffle?_uniform hitems
  exact ⟨hitems, hcount, hlaw [2, 0, 1] (by decide)⟩

end MemberOrder
