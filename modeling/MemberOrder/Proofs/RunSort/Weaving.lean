import Mathlib.Data.List.Chain
import MemberOrder.RunSort.Basic

/-!
A merge weaves its two runs into one. Whatever the comparison answers, both runs keep their order,
and wherever the result changes from one run to the other it was asked about the two elements that
meet there. Searches, by bisection or galloping, end between two neighbours they were asked about,
which is all that the weaving needs of them.
-/

set_option autoImplicit false

namespace MemberOrder.RunSort

/-! ### Searches -/

theorem bisect_spec (p : Nat → Bool) {lo hi : Nat} (h : lo ≤ hi) :
    lo ≤ bisect p lo hi ∧ bisect p lo hi ≤ hi ∧
      (lo < bisect p lo hi → p (bisect p lo hi - 1) = true) ∧
      (bisect p lo hi < hi → p (bisect p lo hi) = false) := by
  fun_induction bisect p lo hi with
  | case1 lo hi hlt mid hmid ih =>
    obtain ⟨hle, hle', hbelow, habove⟩ := ih (by omega)
    refine ⟨by omega, hle', fun _ ↦ ?_, habove⟩
    rcases Nat.lt_or_eq_of_le hle with hless | heq
    · exact hbelow hless
    · rw [← heq, Nat.add_sub_cancel]
      exact hmid
  | case2 lo hi hlt mid hmid ih =>
    obtain ⟨hle, hle', hbelow, habove⟩ := ih (by omega)
    refine ⟨hle, by omega, hbelow, fun _ ↦ ?_⟩
    rcases Nat.lt_or_eq_of_le hle' with hless | heq
    · exact habove hless
    · rw [heq]
      simpa using hmid
  | case3 lo hi hge => exact ⟨Nat.le_refl _, h, fun hlt ↦ absurd hlt (Nat.lt_irrefl _), by omega⟩

theorem stride_spec (goesOn : Nat → Bool) {limit last current : Nat} (hlast : last < current)
    (hlimit : last < limit) :
    last ≤ (stride goesOn limit last current).1 ∧
      (stride goesOn limit last current).1 < (stride goesOn limit last current).2 ∧
      (stride goesOn limit last current).2 ≤ limit ∧
      ((stride goesOn limit last current).1 = last ∨
        goesOn (stride goesOn limit last current).1 = true) ∧
      ((stride goesOn limit last current).2 < limit →
        goesOn (stride goesOn limit last current).2 = false) := by
  fun_induction stride goesOn limit last current with
  | case1 last current hcurrent hgoes ih =>
    obtain ⟨hle, hlt, hle', hreached, hended⟩ := ih (by omega) hcurrent
    refine ⟨by omega, hlt, hle', ?_, hended⟩
    rcases hreached with heq | hgoes'
    · right
      rw [heq]
      exact hgoes
    · exact Or.inr hgoes'
  | case2 last current hcurrent hstops =>
    exact ⟨Nat.le_refl _, hlast, hcurrent.le, Or.inl rfl, fun _ ↦ by simpa using hstops⟩
  | case3 last current hcurrent =>
    exact ⟨Nat.le_refl _, hlimit, Nat.le_refl _, Or.inl rfl, fun h ↦ absurd h (Nat.lt_irrefl _)⟩

/-- Galloping ends behind a position where the predicate holds and at one where it does not. -/
theorem gallop_spec (p : Nat → Bool) {size hint : Nat} (h : hint < size) :
    gallop p size hint ≤ size ∧
      (0 < gallop p size hint → p (gallop p size hint - 1) = true) ∧
      (gallop p size hint < size → p (gallop p size hint) = false) := by
  unfold gallop
  by_cases hhint : p hint = true
  · rw [if_pos hhint]
    obtain ⟨-, hlt, hle, hreached, hended⟩ := stride_spec (fun k ↦ p (hint + k))
      (Nat.lt_succ_self 0) (show 0 < size - hint by omega)
    set last := (stride (fun k ↦ p (hint + k)) (size - hint) 0 1).1
    set current := (stride (fun k ↦ p (hint + k)) (size - hint) 0 1).2
    obtain ⟨hlo, hhi, hbelow, habove⟩ :=
      bisect_spec p (show hint + last + 1 ≤ hint + current by omega)
    have hlast : p (hint + last) = true := by
      rcases hreached with hzero | hgoes
      · rw [hzero, Nat.add_zero]
        exact hhint
      · exact hgoes
    change bisect p (hint + last + 1) (hint + current) ≤ size ∧
      (0 < bisect p (hint + last + 1) (hint + current) →
        p (bisect p (hint + last + 1) (hint + current) - 1) = true) ∧
      (bisect p (hint + last + 1) (hint + current) < size →
        p (bisect p (hint + last + 1) (hint + current)) = false)
    refine ⟨by omega, fun _ ↦ ?_, fun hsize ↦ ?_⟩
    · rcases Nat.lt_or_eq_of_le hlo with hless | heq
      · exact hbelow hless
      · rw [← heq, Nat.add_sub_cancel]
        exact hlast
    · rcases Nat.lt_or_eq_of_le hhi with hless | heq
      · exact habove hless
      · rw [heq]
        exact hended (by omega)
  · rw [if_neg hhint]
    obtain ⟨-, hlt, hle, hreached, hended⟩ := stride_spec (fun k ↦ !p (hint - k))
      (Nat.lt_succ_self 0) (Nat.succ_pos hint)
    set last := (stride (fun k ↦ !p (hint - k)) (hint + 1) 0 1).1
    set current := (stride (fun k ↦ !p (hint - k)) (hint + 1) 0 1).2
    obtain ⟨hlo, hhi, hbelow, habove⟩ :=
      bisect_spec p (show hint + 1 - current ≤ hint - last by omega)
    have hlast : p (hint - last) = false := by
      rcases hreached with hzero | hgoes
      · rw [hzero, Nat.sub_zero]
        simpa using hhint
      · simpa using hgoes
    change bisect p (hint + 1 - current) (hint - last) ≤ size ∧
      (0 < bisect p (hint + 1 - current) (hint - last) →
        p (bisect p (hint + 1 - current) (hint - last) - 1) = true) ∧
      (bisect p (hint + 1 - current) (hint - last) < size →
        p (bisect p (hint + 1 - current) (hint - last)) = false)
    refine ⟨by omega, fun hpos ↦ ?_, fun _ ↦ ?_⟩
    · rcases Nat.lt_or_eq_of_le hlo with hless | heq
      · exact hbelow hless
      · have hindex : hint + 1 - current - 1 = hint - current := by omega
        rw [← heq, hindex]
        simpa using hended (by omega)
    · rcases Nat.lt_or_eq_of_le hhi with hless | heq
      · exact habove hless
      · rw [heq]
        exact hlast

theorem getLast?_take {α : Type} {l : List α} {n : Nat} (hn : n ≤ l.length) {x : α}
    (hx : x ∈ (l.take n).getLast?) : 0 < n ∧ l[n - 1]? = some x := by
  rcases Nat.eq_zero_or_pos n with rfl | hpos
  · simp at hx
  · refine ⟨hpos, ?_⟩
    rw [List.getLast?_eq_getElem?, List.length_take, Nat.min_eq_left hn,
      List.getElem?_take_of_lt (by omega)] at hx
    exact hx

/-- A list is parted at a position by a test: of the element before it the test gives the value, and
of the element at it the other one. -/
structure PartedAt {α : Type} (test : α → Bool) (value : Bool) (l : List α) (n : Nat) : Prop where
  below : ∀ x ∈ (l.take n).getLast?, test x = value
  above : ∀ x ∈ (l.drop n).head?, test x = !value

namespace PartedAt

variable {α : Type} {test : α → Bool} {value : Bool} {asked : Nat → Bool} {l : List α} {hint : Nat}

/-- Two neighbouring positions that were asked for part the list between them. -/
theorem of_asked {n : Nat} (hn : n ≤ l.length)
    (hasked : ∀ i x, l[i]? = some x → asked i = (test x == value))
    (hbelow : 0 < n → asked (n - 1) = true) (habove : n < l.length → asked n = false) :
    PartedAt test value l n := by
  refine ⟨fun x hx ↦ ?_, fun x hx ↦ ?_⟩
  · obtain ⟨hpos, hget⟩ := getLast?_take hn hx
    have hyes := hbelow hpos
    rw [hasked _ x hget] at hyes
    exact eq_of_beq hyes
  · rw [List.head?_drop, Option.mem_def] at hx
    have hno := habove (List.getElem?_eq_some_iff.mp hx).1
    rw [hasked _ x hx] at hno
    exact Bool.eq_not.mpr (ne_of_beq_false hno)

/-- Galloping through a list parts it. -/
theorem gallop (hasked : ∀ i x, l[i]? = some x → asked i = (test x == value))
    (hhint : hint < l.length) : PartedAt test value l (RunSort.gallop asked l.length hint) := by
  obtain ⟨hle, hbelow, habove⟩ := gallop_spec asked hhint
  exact of_asked hle hasked hbelow habove

/-- Galloping through a list that is read from its end parts it. -/
theorem sub_gallop
    (hasked : ∀ i x, l[i]? = some x → asked (l.length - 1 - i) = (test x == !value))
    (hhint : hint < l.length) :
    PartedAt test value l (l.length - RunSort.gallop asked l.length hint) := by
  obtain ⟨hle, hbelow, habove⟩ := gallop_spec asked hhint
  set k := RunSort.gallop asked l.length hint
  have hopposite (i : Nat) (x : α) (hx : l[i]? = some x) :
      (!asked (l.length - 1 - i)) = (test x == value) := by
    rw [hasked i x hx]
    cases test x <;> cases value <;> rfl
  refine of_asked (Nat.sub_le _ _) hopposite ?_ ?_
  · intro hpos
    rw [show l.length - 1 - (l.length - k - 1) = k by omega, habove (by omega)]
    rfl
  · intro hlt
    rw [show l.length - 1 - (l.length - k) = k - 1 by omega, hbelow (by omega)]
    rfl

end PartedAt

/-! ### Weaving two runs -/

section Woven

variable {α : Type} {takes : α → α → Bool}

/-- Two neighbours of a woven list. Where they come from different runs, `takes x y` says that the
element `y` of the second run precedes the element `x` of the first. -/
def Linked (takes : α → α → Bool) : α ⊕ α → α ⊕ α → Prop
  | .inl x, .inr y => takes x y = false
  | .inr y, .inl x => takes x y = true
  | .inl _, .inl _ => True
  | .inr _, .inr _ => True

/-- The list is woven of the two runs: they keep their order, and neighbours from different runs are
in the order that `takes` gives them. -/
def Woven (takes : α → α → Bool) (a b out : List α) : Prop :=
  ∃ strand : List (α ⊕ α), strand.IsChain (Linked takes) ∧ strand.filterMap Sum.getLeft? = a ∧
    strand.filterMap Sum.getRight? = b ∧ strand.map (Sum.elim id id) = out

theorem head?_of_inl {strand : List (α ⊕ α)} {x : α} (h : strand.head? = some (.inl x)) :
    (strand.filterMap Sum.getLeft?).head? = some x := by
  cases strand with
  | nil => simp at h
  | cons first rest =>
    cases h
    rfl

theorem head?_of_inr {strand : List (α ⊕ α)} {y : α} (h : strand.head? = some (.inr y)) :
    (strand.filterMap Sum.getRight?).head? = some y := by
  cases strand with
  | nil => simp at h
  | cons first rest =>
    cases h
    rfl

theorem isChain_map_inl (a : List α) : (a.map Sum.inl).IsChain (Linked takes) := by
  induction a with
  | nil => exact List.IsChain.nil
  | cons x rest ih =>
    cases rest with
    | nil => exact List.IsChain.singleton _
    | cons next rest => exact List.IsChain.cons_cons trivial ih

theorem isChain_map_inr (b : List α) : (b.map Sum.inr).IsChain (Linked takes) := by
  induction b with
  | nil => exact List.IsChain.nil
  | cons y rest ih =>
    cases rest with
    | nil => exact List.IsChain.singleton _
    | cons next rest => exact List.IsChain.cons_cons trivial ih

/-- A start of the first run comes before a woven list, if its last element may precede what the
second run has left. -/
theorem Woven.append_first {a b out : List α} (h : Woven takes a b out) (won : List α)
    (hlink : ∀ x ∈ won.getLast?, ∀ y ∈ b.head?, takes x y = false) :
    Woven takes (won ++ a) b (won ++ out) := by
  obtain ⟨strand, hchain, rfl, rfl, rfl⟩ := h
  refine ⟨won.map Sum.inl ++ strand, ?_, ?_, ?_, ?_⟩
  · refine List.isChain_append.mpr ⟨isChain_map_inl won, hchain, fun last hlast next hnext ↦ ?_⟩
    rw [List.getLast?_map] at hlast
    obtain ⟨x, hx, rfl⟩ := Option.map_eq_some_iff.mp hlast
    cases next with
    | inl x' => trivial
    | inr y => exact hlink x hx y (head?_of_inr hnext)
  · simp [List.filterMap_append, List.filterMap_map, Function.comp_def]
  · simp [List.filterMap_append, List.filterMap_map, Function.comp_def]
  · simp [Function.comp_def]

/-- A start of the second run comes before a woven list, if its last element may precede what the
first run has left. -/
theorem Woven.append_second {a b out : List α} (h : Woven takes a b out) (won : List α)
    (hlink : ∀ y ∈ won.getLast?, ∀ x ∈ a.head?, takes x y = true) :
    Woven takes a (won ++ b) (won ++ out) := by
  obtain ⟨strand, hchain, rfl, rfl, rfl⟩ := h
  refine ⟨won.map Sum.inr ++ strand, ?_, ?_, ?_, ?_⟩
  · refine List.isChain_append.mpr ⟨isChain_map_inr won, hchain, fun last hlast next hnext ↦ ?_⟩
    rw [List.getLast?_map] at hlast
    obtain ⟨y, hy, rfl⟩ := Option.map_eq_some_iff.mp hlast
    cases next with
    | inl x => exact hlink y hy x (head?_of_inl hnext)
    | inr y' => trivial
  · simp [List.filterMap_append, List.filterMap_map, Function.comp_def]
  · simp [List.filterMap_append, List.filterMap_map, Function.comp_def]
  · simp [Function.comp_def]

theorem Woven.nil : Woven takes [] [] [] :=
  ⟨[], List.IsChain.nil, rfl, rfl, rfl⟩

theorem Woven.first (a : List α) : Woven takes a [] a := by
  have h : Woven takes (a ++ []) [] (a ++ []) := Woven.nil.append_first a (by simp)
  rwa [List.append_nil] at h

theorem Woven.second (b : List α) : Woven takes [] b b := by
  have h : Woven takes [] (b ++ []) (b ++ []) := Woven.nil.append_second b (by simp)
  rwa [List.append_nil] at h

theorem Woven.cons_first {a b out : List α} {x : α} (h : Woven takes a b out)
    (hlink : ∀ y ∈ b.head?, takes x y = false) : Woven takes (x :: a) b (x :: out) :=
  h.append_first [x] (by simpa using hlink)

theorem Woven.cons_second {a b out : List α} {y : α} (h : Woven takes a b out)
    (hlink : ∀ x ∈ a.head?, takes x y = true) : Woven takes a (y :: b) (y :: out) :=
  h.append_second [y] (by simpa using hlink)

/-- Read backwards, a woven list is woven of the runs read backwards, with the opposite order. -/
theorem Woven.reverse {a b out : List α} (h : Woven takes a b out) :
    Woven (fun x y ↦ !takes x y) a.reverse b.reverse out.reverse := by
  obtain ⟨strand, hchain, rfl, rfl, rfl⟩ := h
  refine ⟨strand.reverse, ?_, ?_, ?_, ?_⟩
  · refine List.isChain_reverse.mpr (hchain.imp fun first next hlinked ↦ ?_)
    cases first <;> cases next <;> simp_all [Linked]
  · rw [List.filterMap_reverse]
  · rw [List.filterMap_reverse]
  · rw [List.map_reverse]

/-- A start of the second run comes behind a woven list, if its first element may follow what the
first run has at its end. -/
theorem Woven.concat_second {a b out : List α} (h : Woven takes a b out) (rest : List α)
    (hlink : ∀ x ∈ a.getLast?, ∀ y ∈ rest.head?, takes x y = false) :
    Woven takes a (b ++ rest) (out ++ rest) := by
  have hreverse := h.reverse.append_second rest.reverse fun y hy x hx ↦ by
    rw [List.getLast?_reverse] at hy
    rw [List.head?_reverse] at hx
    rw [hlink x hx y hy, Bool.not_false]
  simpa using hreverse.reverse

/-- A woven list has the elements of both runs. -/
theorem Woven.perm {a b out : List α} (h : Woven takes a b out) : out.Perm (a ++ b) := by
  obtain ⟨strand, -, rfl, rfl, rfl⟩ := h
  induction strand with
  | nil => exact List.Perm.refl _
  | cons first rest ih =>
    cases first with
    | inl x => exact ih.cons x
    | inr y => exact (ih.cons y).trans List.perm_middle.symm

/-- What holds along both runs holds along the woven list, if it holds where `takes` changes the
run. -/
theorem Woven.isChain {a b out : List α} (h : Woven takes a b out) {Q : α → α → Prop}
    (ha : a.IsChain Q) (hb : b.IsChain Q)
    (hfirst : ∀ x ∈ a, ∀ y ∈ b, takes x y = false → Q x y)
    (hsecond : ∀ x ∈ a, ∀ y ∈ b, takes x y = true → Q y x) : out.IsChain Q := by
  obtain ⟨strand, hchain, rfl, rfl, rfl⟩ := h
  induction strand with
  | nil => exact List.IsChain.nil
  | cons first rest ih =>
    obtain ⟨hlinks, hrest⟩ := List.isChain_cons.mp hchain
    cases first with
    | inl x =>
      obtain ⟨hnext, ha'⟩ := List.isChain_cons.mp ha
      refine List.isChain_cons.mpr ⟨fun z hz ↦ ?_, ih hrest ha' hb
        (fun x' hx' ↦ hfirst x' (List.mem_cons_of_mem _ hx'))
        (fun x' hx' ↦ hsecond x' (List.mem_cons_of_mem _ hx'))⟩
      rw [List.head?_map] at hz
      obtain ⟨next, hmem, rfl⟩ := Option.map_eq_some_iff.mp hz
      cases next with
      | inl x' => exact hnext x' (head?_of_inl hmem)
      | inr y =>
        have hy : y ∈ rest.filterMap Sum.getRight? := List.mem_of_head? (head?_of_inr hmem)
        exact hfirst x List.mem_cons_self y hy (hlinks _ hmem)
    | inr y =>
      obtain ⟨hnext, hb'⟩ := List.isChain_cons.mp hb
      refine List.isChain_cons.mpr ⟨fun z hz ↦ ?_, ih hrest ha hb'
        (fun x' hx' y' hy' ↦ hfirst x' hx' y' (List.mem_cons_of_mem _ hy'))
        (fun x' hx' y' hy' ↦ hsecond x' hx' y' (List.mem_cons_of_mem _ hy'))⟩
      rw [List.head?_map] at hz
      obtain ⟨next, hmem, rfl⟩ := Option.map_eq_some_iff.mp hz
      cases next with
      | inl x =>
        have hx : x ∈ rest.filterMap Sum.getLeft? := List.mem_of_head? (head?_of_inl hmem)
        exact hsecond x hx y List.mem_cons_self (hlinks _ hmem)
      | inr y' => exact hnext y' (head?_of_inr hmem)

end Woven

/-! ### Merges -/

section Merges

variable {α : Type} (before : α → α → Bool)

namespace Side

/-- The two ends that a merge meets last are known to be in order: at the back the first run has the
last element, at the front the second run has the first. -/
def EndsInOrder (side : Side) (a b : List α) : Prop :=
  ∀ x ∈ a.getLast?, ∀ y ∈ b.getLast?,
    side.takesSecond before x y = match side with
      | .front => true
      | .back => false

variable {before}

theorem getLast?_of_suffix {a a' : List α} (h : a' <:+ a) {x : α} (hx : x ∈ a'.getLast?) :
    x ∈ a.getLast? := by
  obtain ⟨lead, rfl⟩ := h
  rw [List.getLast?_append, Option.mem_def.mp hx]
  rfl

theorem EndsInOrder.of_suffix {side : Side} {a b a' b' : List α}
    (h : side.EndsInOrder before a b) (ha : a' <:+ a) (hb : b' <:+ b) :
    side.EndsInOrder before a' b' :=
  fun x hx y hy ↦ h x (getLast?_of_suffix ha hx) y (getLast?_of_suffix hb hy)

theorem woven_of_settled? {side : Side} {a b out : List α} (h : side.settled? a b = some out)
    (hends : side.EndsInOrder before a b) : Woven (side.takesSecond before) a b out := by
  unfold settled? at h
  split at h
  · cases h
    exact Woven.first _
  · cases h
    exact Woven.second _
  · rename_i x _
    cases h
    have hwoven := (Woven.first [x]).append_second b fun y hy x' hx' ↦ by
      cases hx'
      exact hends x rfl y hy
    rwa [List.append_nil] at hwoven
  · rename_i y _
    cases h
    have hwoven := (Woven.second [y]).append_first a fun x hx y' hy' ↦ by
      cases hy'
      exact hends x hx y rfl
    rwa [List.append_nil] at hwoven
  · cases h

/-- The first run gives elements up to one that the second run's element precedes. -/
theorem partedAt_gainOfFirst (before : α → α → Bool) (side : Side) (y : α) {a : List α}
    (ha : a ≠ []) :
    PartedAt (side.takesSecond before · y) false a (side.gainOfFirst before y a) := by
  have hpos := List.length_pos_iff.mpr ha
  cases side with
  | front =>
    rw [gainOfFirst]
    refine .gallop (fun i x hx ↦ ?_) hpos
    simp [takesSecond, hx]
  | back =>
    rw [gainOfFirst]
    refine .sub_gallop (fun i x hx ↦ ?_) (Nat.sub_lt hpos Nat.one_pos)
    have hi := (List.getElem?_eq_some_iff.mp hx).1
    rw [show a.length - 1 - (a.length - 1 - i) = i by omega, hx]
    simp [takesSecond]

/-- The second run gives elements up to one that the first run's element precedes. -/
theorem partedAt_gainOfSecond (before : α → α → Bool) (side : Side) (x : α) (b : List α) :
    PartedAt (side.takesSecond before x) true b (side.gainOfSecond before x b) := by
  rcases List.eq_nil_or_concat b with rfl | ⟨lead, last, hb⟩
  · exact ⟨by simp, by simp⟩
  have hpos : 0 < b.length := by simp [hb]
  cases side with
  | front =>
    rw [gainOfSecond]
    refine .gallop (fun i y hy ↦ ?_) hpos
    simp [takesSecond, hy]
  | back =>
    rw [gainOfSecond]
    refine .sub_gallop (fun i y hy ↦ ?_) (Nat.sub_lt hpos Nat.one_pos)
    have hi := (List.getElem?_eq_some_iff.mp hy).1
    rw [show b.length - 1 - (b.length - 1 - i) = i by omega, hy]
    simp [takesSecond]

/-- Galloping through the first run weaves what the second run's next element follows. -/
theorem woven_gainOfFirst {side : Side} {y : α} {a bs out : List α} (ha : a ≠ [])
    (h : Woven (side.takesSecond before) (a.drop (side.gainOfFirst before y a)) (y :: bs) out) :
    Woven (side.takesSecond before) a (y :: bs)
      (a.take (side.gainOfFirst before y a) ++ out) := by
  have hwoven := h.append_first (a.take (side.gainOfFirst before y a)) fun x hx y' hy' ↦ by
    cases hy'
    exact (partedAt_gainOfFirst before side y ha).below x hx
  rwa [List.take_append_drop] at hwoven

/-- A round of galloping through both runs. -/
theorem woven_gallopRound {side : Side} {x y x' : α} {as bs as' out : List α}
    (hdrop : (x :: as).drop (side.gainOfFirst before y (x :: as)) = x' :: as')
    (h : Woven (side.takesSecond before) (x' :: as')
      (bs.drop (side.gainOfSecond before x' bs)) out) :
    Woven (side.takesSecond before) (x :: as) (y :: bs)
      ((x :: as).take (side.gainOfFirst before y (x :: as)) ++
        y :: bs.take (side.gainOfSecond before x' bs) ++ out) := by
  have hlink := (partedAt_gainOfFirst before side y (List.cons_ne_nil x as)).above
  have hsecond := h.append_second (bs.take (side.gainOfSecond before x' bs))
    fun z hz x'' hx'' ↦ by
      cases hx''
      exact (partedAt_gainOfSecond before side x' bs).below z hz
  rw [List.take_append_drop, ← hdrop] at hsecond
  rw [List.append_assoc, List.cons_append]
  exact woven_gainOfFirst (List.cons_ne_nil x as) (hsecond.cons_second hlink)

/-- A merge weaves its runs, at either end and whatever its pace. -/
theorem woven_mergeAt (side : Side) (pace : Pace) (threshold : Nat) (a b : List α)
    (hends : side.EndsInOrder before a b) :
    Woven (side.takesSecond before) a b (side.mergeAt before pace threshold a b).1 := by
  fun_induction mergeAt before side pace threshold a b with
  | case1 => exact Woven.second _
  | case2 => exact Woven.first _
  | case3 threshold x as y bs first second htakes rest hsettled =>
    refine (woven_of_settled? hsettled ?_).cons_second ?_
    · exact hends.of_suffix (List.suffix_refl _) (List.suffix_cons _ _)
    · rintro x' ⟨⟩
      exact htakes
  | case4 threshold x as y bs first second htakes hsettled next rest threshold' hmerge ih =>
    rw [hmerge] at ih
    refine (ih ?_).cons_second ?_
    · exact hends.of_suffix (List.suffix_refl _) (List.suffix_cons _ _)
    · rintro x' ⟨⟩
      exact htakes
  | case5 threshold x as y bs first second htakes rest hsettled =>
    refine (woven_of_settled? hsettled ?_).cons_first ?_
    · exact hends.of_suffix (List.suffix_cons _ _) (List.suffix_refl _)
    · rintro y' ⟨⟩
      simpa using htakes
  | case6 threshold x as y bs first second htakes hsettled next rest threshold' hmerge ih =>
    rw [hmerge] at ih
    refine (ih ?_).cons_first ?_
    · exact hends.of_suffix (List.suffix_cons _ _) (List.suffix_refl _)
    · rintro y' ⟨⟩
      simpa using htakes
  | case7 threshold x as y bs fresh threshold' gain won rest hsettled =>
    refine woven_gainOfFirst (List.cons_ne_nil x as) (woven_of_settled? hsettled ?_)
    exact hends.of_suffix (List.drop_suffix _ _) (List.suffix_refl _)
  | case8 threshold x as y bs fresh threshold' gain won hopen rest hsettled =>
    refine woven_gainOfFirst (List.cons_ne_nil x as)
      ((woven_of_settled? hsettled ?_).cons_second ?_)
    · exact hends.of_suffix (List.drop_suffix _ _) (List.suffix_cons _ _)
    · exact (partedAt_gainOfFirst before side y (List.cons_ne_nil x as)).above
  | case9 threshold x as y bs fresh threshold' gain won hopen hopen' hnone =>
    refine woven_gainOfFirst (List.cons_ne_nil x as) ?_
    rw [hnone]
    exact Woven.second _
  | case10 threshold x as y bs fresh threshold' gain won hopen hopen' x' as' hdrop gain' won' rest
      hsettled =>
    refine woven_gallopRound hdrop (woven_of_settled? hsettled ?_)
    exact hends.of_suffix (hdrop ▸ List.drop_suffix _ _)
      ((List.drop_suffix _ _).trans (List.suffix_cons _ _))
  | case11 threshold x as y bs fresh threshold' gain won hopen hopen' x' as' hdrop gain' won' _ rest
      hsettled =>
    refine woven_gallopRound hdrop ((woven_of_settled? hsettled ?_).cons_first ?_)
    · exact hends.of_suffix ((List.suffix_cons x' as').trans (hdrop ▸ List.drop_suffix _ _))
        ((List.drop_suffix _ _).trans (List.suffix_cons _ _))
    · exact (partedAt_gainOfSecond before side x' bs).above
  | case12 threshold x as y bs fresh threshold' gain won hopen hopen' x' as' hdrop gain' won' _ _ _
      rest next hmerge ih =>
    rw [hmerge] at ih
    refine woven_gallopRound hdrop ((ih ?_).cons_first ?_)
    · exact hends.of_suffix ((List.suffix_cons x' as').trans (hdrop ▸ List.drop_suffix _ _))
        ((List.drop_suffix _ _).trans (List.suffix_cons _ _))
    · exact (partedAt_gainOfSecond before side x' bs).above
  | case13 threshold x as y bs fresh threshold' gain won hopen hopen' x' as' hdrop gain' won' _ _ _
      rest next hmerge ih =>
    rw [hmerge] at ih
    refine woven_gallopRound hdrop ((ih ?_).cons_first ?_)
    · exact hends.of_suffix ((List.suffix_cons x' as').trans (hdrop ▸ List.drop_suffix _ _))
        ((List.drop_suffix _ _).trans (List.suffix_cons _ _))
    · exact (partedAt_gainOfSecond before side x' bs).above

end Side

variable {before}

theorem woven_mergeFront {threshold : Nat} {a b : List α}
    (hhead : ∀ x ∈ a.head?, ∀ y ∈ b.head?, before y x = true)
    (hlast : ∀ x ∈ a.getLast?, ∀ y ∈ b.getLast?, before y x = true) :
    Woven (fun x y ↦ before y x) a b (mergeFront before threshold a b).1 := by
  cases b with
  | nil => exact Woven.first a
  | cons y bs =>
    have hends : Side.front.EndsInOrder before a bs :=
      fun x hx z hz ↦ hlast x hx z (Side.getLast?_of_suffix (List.suffix_cons y bs) hz)
    have hlink : ∀ x ∈ a.head?, before y x = true := fun x hx ↦ hhead x hx y rfl
    simp only [mergeFront]
    split
    · rename_i rest hsettled
      exact (Side.woven_of_settled? hsettled hends).cons_second hlink
    · exact (Side.woven_mergeAt _ _ _ _ _ hends).cons_second hlink

theorem woven_mergeBack {threshold : Nat} {a b : List α}
    (hhead : ∀ x ∈ a.head?, ∀ y ∈ b.head?, before y x = true)
    (hlast : ∀ x ∈ a.getLast?, ∀ y ∈ b.getLast?, before y x = true) :
    Woven (fun x y ↦ before y x) a b (mergeBack before threshold a b).1 := by
  -- The back merge reads both runs from their ends, where the opposite order weaves them.
  have hreverse : ∀ {out}, Woven (Side.back.takesSecond before) a.reverse b.reverse out →
      Woven (fun x y ↦ before y x) a b out.reverse := by
    intro out h
    simpa [Side.takesSecond] using h.reverse
  unfold mergeBack
  split
  · rename_i hnil
    rw [List.reverse_eq_nil_iff.mp hnil]
    exact Woven.second b
  · rename_i x as hcons
    have hends : Side.back.EndsInOrder before as b.reverse := by
      intro z hz y hy
      have hz' := Side.getLast?_of_suffix (hcons ▸ List.suffix_cons x as) hz
      rw [List.getLast?_reverse] at hz' hy
      simpa [Side.takesSecond] using hhead z hz' y hy
    have hlink : ∀ y ∈ b.reverse.head?, Side.back.takesSecond before x y = false := by
      intro y hy
      have hx : x ∈ a.getLast? := by
        rw [← List.head?_reverse, hcons]
        rfl
      rw [List.head?_reverse] at hy
      simpa [Side.takesSecond] using hlast x hx y hy
    rw [hcons] at hreverse
    split
    · rename_i rest hsettled
      exact hreverse ((Side.woven_of_settled? hsettled hends).cons_first hlink)
    · exact hreverse ((Side.woven_mergeAt _ _ _ _ _ hends).cons_first hlink)

/-- Runs of which the first stands before the second as a whole are woven. -/
theorem woven_append {a b : List α}
    (h : ∀ x ∈ a.getLast?, ∀ y ∈ b.head?, before y x = false) :
    Woven (fun x y ↦ before y x) a b (a ++ b) :=
  (Woven.first a).concat_second b h

/-- What the first run has before the start of the second, and the second behind the end of the
first, stays where it is, and what is between them is merged. -/
theorem woven_mergeBetween {threshold lead count : Nat} {a b : List α} {x y : α}
    (hx : a.getLast? = some x) (hy : b.head? = some y) (hlead : PartedAt (before y) false a lead)
    (hcount : PartedAt (before · x) true b count) (hleft : lead < a.length) (hpos : count ≠ 0) :
    Woven (fun x y ↦ before y x) a b
      (a.take lead ++ (if (a.drop lead).length ≤ (b.take count).length then
        mergeFront before threshold (a.drop lead) (b.take count)
      else mergeBack before threshold (a.drop lead) (b.take count)).1 ++ b.drop count) := by
  have hxlast : (a.drop lead).getLast? = some x := by
    rw [List.getLast?_drop, if_neg (Nat.not_le.mpr hleft), hx]
  have hyhead : (b.take count).head? = some y := by
    rw [List.head?_take, if_neg hpos, hy]
  have hhead : ∀ x' ∈ (a.drop lead).head?, ∀ y' ∈ (b.take count).head?, before y' x' = true := by
    intro x' hx' y' hy'
    rw [Option.mem_def, hyhead] at hy'
    cases hy'
    exact hlead.above x' hx'
  have hlast : ∀ x' ∈ (a.drop lead).getLast?, ∀ y' ∈ (b.take count).getLast?,
      before y' x' = true := by
    intro x' hx' y' hy'
    rw [Option.mem_def, hxlast] at hx'
    cases hx'
    exact hcount.below y' hy'
  have hmerged : Woven (fun x y ↦ before y x) (a.drop lead) (b.take count)
      (if (a.drop lead).length ≤ (b.take count).length then
        mergeFront before threshold (a.drop lead) (b.take count)
      else mergeBack before threshold (a.drop lead) (b.take count)).1 := by
    split_ifs
    · exact woven_mergeFront hhead hlast
    · exact woven_mergeBack hhead hlast
  have hfront := hmerged.append_first (a.take lead) fun x' hx' y' hy' ↦ by
    rw [Option.mem_def, hyhead] at hy'
    cases hy'
    exact hlead.below x' hx'
  rw [List.take_append_drop] at hfront
  have hwhole := hfront.concat_second (b.drop count) fun x' hx' y' hy' ↦ by
    rw [Option.mem_def, hx] at hx'
    cases hx'
    exact hcount.above y' hy'
  rwa [List.take_append_drop] at hwhole

/-- A merge weaves its two runs. -/
theorem woven_merge (before : α → α → Bool) (threshold : Nat) (a b : List α) :
    Woven (fun x y ↦ before y x) a b (merge before threshold a b).1 := by
  unfold merge
  split
  · rename_i y x hy hx
    have ha : 0 < a.length := List.length_pos_iff.mpr fun hnil ↦ by simp [hnil] at hx
    have hb : 0 < b.length := List.length_pos_iff.mpr fun hnil ↦ by simp [hnil] at hy
    have hlead : PartedAt (before y) false a _ :=
      .gallop (fun i x hx ↦ by simp [hx] : ∀ i x, a[i]? = some x →
        (!a[i]?.any (before y)) = (before y x == false)) ha
    have hcount : PartedAt (before · x) true b _ :=
      .gallop (fun i y hy ↦ by simp [hy] : ∀ i y, b[i]? = some y →
        b[i]?.any (before · x) = (before y x == true)) (Nat.sub_lt hb Nat.one_pos)
    -- Wherever one run stands before the other as a whole, one comparison has put it there.
    have happend (h : before y x = false) : Woven (fun x y ↦ before y x) a b (a ++ b) := by
      refine woven_append fun x' hx' y' hy' ↦ ?_
      rw [Option.mem_def, hx] at hx'
      rw [Option.mem_def, hy] at hy'
      cases hx'
      cases hy'
      exact h
    dsimp only
    split
    · rename_i hdrop
      rw [List.isEmpty_iff, List.drop_eq_nil_iff] at hdrop
      refine happend (hlead.below x ?_)
      rw [List.take_of_length_le hdrop]
      exact hx
    · rename_i hdrop
      rw [List.isEmpty_iff, List.drop_eq_nil_iff, not_le] at hdrop
      split
      · rename_i htake
        rw [List.isEmpty_iff, List.take_eq_nil_iff] at htake
        refine happend (hcount.above y ?_)
        rw [htake.resolve_right (List.ne_nil_of_length_pos hb), List.drop_zero]
        exact hy
      · rename_i htake
        rw [List.isEmpty_iff, List.take_eq_nil_iff, not_or] at htake
        exact woven_mergeBetween hx hy hlead hcount hdrop htake.1
  · rename_i hnone
    cases b with
    | nil =>
      rw [List.append_nil]
      exact Woven.first a
    | cons y bs =>
      have ha : a = [] := by
        rw [← List.getLast?_eq_none_iff, Option.eq_none_iff_forall_ne_some]
        exact fun x hx ↦ hnone y x rfl hx
      rw [ha]
      exact Woven.second _

end Merges

end MemberOrder.RunSort
