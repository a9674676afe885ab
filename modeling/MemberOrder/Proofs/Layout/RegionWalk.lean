import MemberOrder.Proofs.Layout.Walk

/-!
The walks for the regions of a class body in which no method is declared. A walk for nested types
looks up the brace of each type, and one for initializer blocks the last brace of each head and what
stands before it. No walk fails, and they find the regions that the searches find.
-/

set_option autoImplicit false

namespace MemberOrder

namespace TypeHeader

/-- The brace that opens the body of the type, looked up before `limit`. -/
def lookBrace? (src : Source) (limit : Nat) (header : TypeHeader) :
    Except WalkFault (Option Nat) :=
  if src.rangeIsCode header.start header.stop then do
    match ← Source.look (src.nextCode? ['\x7b', ';'] header.stop limit) with
    | none => return none
    | some i =>
      let c ← Source.look (src.characterAt i)
      return if c = '\x7b' then some i.toNat else none
  else return none

theorem lookBrace?_eq {src : Source} {limit : Nat} {header : TypeHeader}
    (hstop : header.stop ≤ limit) (hlimit : limit ≤ src.length) :
    header.lookBrace? src limit = .ok (header.openBrace? src limit) := by
  unfold lookBrace? openBrace?
  rw [Source.rangeIsCode_eq (hstop.trans hlimit)]
  split_ifs
  · rw [Source.nextCode?_eq _ hlimit]
    cases hfirst : src.firstCode? ['\x7b', ';'] header.stop limit with
    | none => rfl
    | some i =>
      have hlt : i < src.text.length := by
        obtain ⟨offset, hoffset, rfl⟩ := Option.map_eq_some_iff.mp hfirst
        have hinside := (List.findIdx?_eq_some_iff_getElem.mp hoffset).1
        rw [List.extract_eq_take_drop, List.length_take, List.length_drop, src.length_glyphs]
          at hinside
        omega
      obtain ⟨c, hc⟩ : ∃ c, src.text[i]? = some c := ⟨_, List.getElem?_eq_getElem hlt⟩
      have hlook : src.characterAt (Int.ofNat i) = .ok c := Source.characterAt_eq hc
      simp only [Option.map_some, Source.look, Except.mapError, bind, Except.bind, hlook,
        Option.filter_some, hc]
      by_cases hbrace : c = '\x7b' <;> simp [hbrace, pure, Except.pure]
  · rfl

/-- A header found in a stretch starts and ends there. -/
theorem bounds_of_mem_allBetween {t : Text} {start stop : Nat} {header : TypeHeader}
    (h : header ∈ allBetween t start stop) :
    start ≤ header.start ∧ header.start < header.stop ∧ header.stop ≤ stop := by
  obtain ⟨position, hstart, hstop, -, hat⟩ := Text.exists_of_mem_findBetween h
  obtain ⟨rfl, hlt, hle⟩ := at?_bounds hat
  rw [List.extract_eq_take_drop, List.length_take] at hle
  exact ⟨hstart, hlt, by omega⟩

end TypeHeader

namespace InitializerHead

/-- A head stands in a text that begins at `start`: it begins there too, and its brace is the last
one that it has. -/
structure StandsIn (start : Nat) (t : Text) (head : InitializerHead) : Prop where
  start_eq : head.start = start
  start_le : start ≤ head.brace
  brace_lt : head.brace < head.stop
  stop_le : head.stop ≤ start + t.length
  brace_eq : t[head.brace - start]? = some '\x7b'
  ne_brace : ∀ i, head.brace < i → i < head.stop → t[i - start]? ≠ some '\x7b'

theorem standsIn_of_static? {start : Nat} {t : Text} {head : InitializerHead}
    (h : static? start t = some head) : head.StandsIn start t := by
  obtain ⟨hstart, hbrace, hlt, hstop⟩ := static?_bounds h
  obtain ⟨rest, hrest, rfl⟩ := Option.map_eq_some_iff.mp h
  obtain ⟨front, rfl⟩ := (brace_suffix_of_afterStaticBrace? hrest).trans
    (List.dropWhile_suffix Text.isIndent)
  refine ⟨hstart, hbrace, hlt, hstop, ?_, fun i hi hlast ↦ ?_⟩
  · simp only [List.length_append, List.length_cons]
    rw [show start + (front.length + (rest.length + 1) - rest.length) - 1 - start = front.length by
      omega, List.getElem?_append_right (Nat.le_refl _), Nat.sub_self, List.getElem?_cons_zero]
  · simp only at hi hlast
    omega

theorem standsIn_of_instance? {start : Nat} {t : Text} {head : InitializerHead}
    (h : instance? start t = some head) : head.StandsIn start t := by
  obtain ⟨hstart, hbrace, hlt, hstop⟩ := instance?_bounds h
  unfold instance? at h
  simp only at h
  split at h
  · rename_i rest hrest
    have hhead : head = ⟨start, start + (t.takeWhile Text.isIndent).length,
        start + (t.takeWhile Text.isIndent).length + 1 +
          (rest.takeWhile Text.isLineFill).length⟩ := by
      split at h <;> cases h <;> rfl
    have hbehind (i : Nat) : t[(t.takeWhile Text.isIndent).length + i]? = ('\x7b' :: rest)[i]? := by
      rw [← hrest, List.getElem?_drop]
    rw [hhead] at hstart hbrace hlt hstop ⊢
    refine ⟨hstart, hbrace, hlt, hstop, ?_, fun i hi hlast ↦ ?_⟩
    · simp only [Nat.add_sub_cancel_left]
      exact hbehind 0
    · simp only at hi hlast
      obtain ⟨k, rfl⟩ := Nat.exists_eq_add_of_lt hi
      rw [show start + (t.takeWhile Text.isIndent).length + k + 1 - start =
        (t.takeWhile Text.isIndent).length + (k + 1) by omega, hbehind, List.getElem?_cons_succ]
      intro hchar
      have hk : k < (rest.takeWhile Text.isLineFill).length := by omega
      have hfill := List.prefix_iff_getElem?.mp (List.takeWhile_prefix Text.isLineFill) k hk
      rw [hchar, Option.some.injEq] at hfill
      exact absurd (List.mem_takeWhile_imp (hfill ▸ List.getElem_mem hk)) (by decide)
  · cases h

/-- A head that stands in a stretch of a source ends in the stretch. -/
theorem StandsIn.stop_le_of_extract {t : Text} {position stop : Nat} {head : InitializerHead}
    (h : head.StandsIn position (t.extract position stop)) (hlt : position < stop) :
    head.stop ≤ stop := by
  have hle := h.stop_le
  rw [List.extract_eq_take_drop, List.length_take] at hle
  omega

/-- The last brace of a head is its own. -/
theorem StandsIn.lastBrace_eq {src : Source} {position stop : Nat} {head : InitializerHead}
    (h : head.StandsIn position (src.text.extract position stop)) (hlt : position < stop) :
    src.lastBrace head.start head.stop = .ok head.brace := by
  have hstop := h.stop_le_of_extract hlt
  have hchar (i : Nat) (hfirst : head.brace ≤ i) (hlast : i < head.stop) :
      (src.text.extract position stop)[i - position]? = src.text[i]? := by
    have hle := h.start_le
    rw [List.extract_eq_take_drop, List.getElem?_take, if_pos (by omega), List.getElem?_drop]
    congr 1
    omega
  refine Source.lastBrace_eq (h.start_eq ▸ h.start_le) h.brace_lt ?_ fun i hi hlast ↦ ?_
  · rw [← hchar head.brace (Nat.le_refl _) h.brace_lt]
    exact h.brace_eq
  · rw [← hchar i hi.le hlast]
    exact h.ne_brace i hi hlast

end InitializerHead

namespace ClassBody

variable (src : Source) (body : ClassBody)

/-- The move at a type header. -/
def moveType (_ : Unit) (header : TypeHeader) : Except WalkFault (List Region × Nat × Unit) := do
  let brace? ← header.lookBrace? src body.closeBrace
  match brace?.bind (body.innerClose? src) with
  | some close => return ([⟨body.lineStart src header.start, close + 1⟩], close + 1, ())
  | none => return ([], header.stop, ())

/-- The walk for nested types. -/
def walkTypes : Except WalkFault (List Region) :=
  walk body.closeBrace
    (fun position ↦ (TypeHeader.allBetween src.text position body.closeBrace).head?)
    (body.moveType src) (body.openBrace + 1) ()

variable {src body}

theorem walkTypes_eq (hclose : body.closeBrace ≤ src.length) :
    body.walkTypes src = .ok (body.typeRegions src (body.openBrace + 1)
      (TypeHeader.allBetween src.text (body.openBrace + 1) body.closeBrace)) := by
  have hstart : ∀ p t header, TypeHeader.at? p t = some header → header.start = p :=
    fun p t header h ↦ (TypeHeader.at?_bounds h).1
  rw [typeRegions_eq_sweep]
  refine walk_eq_sweep (R := fun _ _ _ _ ↦ True) (fun p hp ↦ Text.head?_findBetween hstart _ _ hp)
    (fun header hheader ↦ ?_) (fun p _ r _ _ header rest hsuffix hr ↦ ?_) trivial fun _ _ ↦ Iff.rfl
  · obtain ⟨-, hlt, hle⟩ := TypeHeader.bounds_of_mem_allBetween hheader
    omega
  · obtain ⟨-, hlt, hle⟩ := TypeHeader.bounds_of_mem_allBetween (hsuffix.subset List.mem_cons_self)
    unfold moveType decideType typeEnd?
    rw [TypeHeader.lookBrace?_eq hle hclose]
    cases hend : (header.openBrace? src body.closeBrace).bind (body.innerClose? src) with
    | none =>
      refine ⟨header.stop, (), ?_, hlt, trivial, fun y _ ↦ Iff.rfl⟩
      simp only [bind, Except.bind, hend]
      rfl
    | some close =>
      refine ⟨close + 1, (), ?_, ?_, trivial, fun y _ ↦ Iff.rfl⟩
      · simp only [bind, Except.bind, hend]
        rfl
      · have hbehind := (lt_of_typeEnd? hend).1
        omega

/-- Regions that end before a position do not hold it. -/
theorem holding?_append_of_stop_le (taken : List Region) {found : List Region} {i : Nat}
    (h : ∀ region ∈ found, region.stop ≤ i) :
    Region.holding? (taken ++ found) i = Region.holding? taken i := by
  have hnone : found.find? (·.contains i) = none := by
    rw [List.find?_eq_none]
    intro region hregion
    have hstop := h region hregion
    simp only [Region.contains, Bool.and_eq_true, decide_eq_true_eq]
    omega
  unfold Region.holding?
  rw [List.find?_append, hnone, Option.or_none]

variable (src body)

/-- May the brace open an initializer block? -/
def lookAdmits (taken : List Region) (atBoundary : Bool) (brace : Nat) : Except WalkFault Bool :=
  if src.isCodeQuery brace && (Region.holding? taken brace).isNone then
    if atBoundary then do
      let before? ← Source.look (src.previousSolid? body.openBrace brace)
      return before?.any isBoundary
    else return true
  else return false

/-- The move at an initializer head, outside the regions `taken` and those already found. -/
def moveInitializer (taken : List Region) (atBoundary : Bool) (found : List Region)
    (head : InitializerHead) : Except WalkFault (List Region × Nat × List Region) := do
  let brace ← src.lastBrace head.start head.stop
  let admitted ← body.lookAdmits src (taken ++ found) atBoundary brace
  match if admitted then body.innerClose? src brace else none with
  | some close =>
    let region : Region := ⟨head.start, close + 1⟩
    return ([region], close + 1, found ++ [region])
  | none => return ([], head.stop, found)

/-- The walk for initializer blocks with heads of one kind. -/
def walkInitializers (recognise : Nat → Text → Option InitializerHead) (taken : List Region)
    (atBoundary : Bool) : Except WalkFault (List Region) :=
  walk body.closeBrace
    (fun position ↦
      (src.text.findBetween Text.beginsLine recognise position body.closeBrace).head?)
    (body.moveInitializer src taken atBoundary) (body.openBrace + 1) []

variable {src body}

theorem lookAdmits_eq (taken : List Region) (atBoundary : Bool) {brace : Nat}
    (hbrace : brace ≤ src.length) :
    body.lookAdmits src taken atBoundary brace =
      .ok (src.isCodeAt brace && (Region.holding? taken brace).isNone
        && (!atBoundary || (src.lastSolid? body.openBrace brace).any isBoundary)) := by
  unfold lookAdmits
  rw [Source.isCodeQuery_eq, Source.previousSolid?_eq hbrace]
  cases src.isCodeAt brace && (Region.holding? taken brace).isNone with
  | false => rfl
  | true =>
    cases atBoundary with
    | false => rfl
    | true => rfl

/-- A move finds the block that the head opens, if it opens one. -/
theorem moveInitializer_eq (hclose : body.closeBrace ≤ src.length) {taken found : List Region}
    (atBoundary : Bool) {position : Nat} {head : InitializerHead} (hlt : position < body.closeBrace)
    (hhead : head.StandsIn position (src.text.extract position body.closeBrace))
    (hfound : ∀ region ∈ found, region.stop ≤ head.start) :
    body.moveInitializer src taken atBoundary found head =
      .ok (match body.initializerEnd? src taken atBoundary head with
        | some close => ([⟨head.start, close + 1⟩], close + 1, found ++ [⟨head.start, close + 1⟩])
        | none => ([], head.stop, found)) := by
  have hstop := hhead.stop_le_of_extract hlt
  have hbrace : head.start ≤ head.brace := hhead.start_eq ▸ hhead.start_le
  have hinside : head.brace ≤ src.length := by
    have hbefore := hhead.brace_lt
    omega
  unfold moveInitializer initializerEnd?
  rw [hhead.lastBrace_eq hlt]
  simp only [bind, Except.bind, lookAdmits_eq _ atBoundary hinside,
    holding?_append_of_stop_le taken fun region hregion ↦ (hfound region hregion).trans hbrace]
  split <;> rfl

theorem walkInitializers_eq (hclose : body.closeBrace ≤ src.length)
    {recognise : Nat → Text → Option InitializerHead}
    (hstands : ∀ p t head, recognise p t = some head → head.StandsIn p t)
    (taken : List Region) (atBoundary : Bool) :
    body.walkInitializers src recognise taken atBoundary =
      .ok (body.initializerRegions src taken atBoundary (body.openBrace + 1)
        (src.text.findBetween Text.beginsLine recognise (body.openBrace + 1) body.closeBrace)) := by
  have hstart : ∀ p t head, recognise p t = some head → head.start = p :=
    fun p t head h ↦ (hstands p t head h).start_eq
  rw [initializerRegions_eq_sweep]
  refine walk_eq_sweep (R := fun _ found r _ ↦ ∀ region ∈ found, region.stop ≤ r)
    (fun p hp ↦ Text.head?_findBetween hstart _ _ hp) (fun head hhead ↦ ?_)
    (fun p found r _ hfound head rest hsuffix hr ↦ ?_) (by simp) fun _ _ ↦ Iff.rfl
  · obtain ⟨position, -, hlt, -, hat⟩ := Text.exists_of_mem_findBetween hhead
    rw [hstart _ _ _ hat]
    exact hlt
  · obtain ⟨position, -, hlt, -, hat⟩ :=
      Text.exists_of_mem_findBetween (hsuffix.subset List.mem_cons_self)
    have hhead := hstands _ _ _ hat
    have hbrace : head.start ≤ head.brace := hhead.start_eq ▸ hhead.start_le
    have hstop := hhead.brace_lt
    have hearlier : ∀ region ∈ found, region.stop ≤ head.start :=
      fun region hregion ↦ (hfound region hregion).trans hr
    rw [moveInitializer_eq hclose atBoundary hlt hhead hearlier]
    unfold decideInitializer
    cases hend : body.initializerEnd? src taken atBoundary head with
    | none =>
      refine ⟨head.stop, found, rfl, by omega, fun region hregion ↦ ?_, fun y _ ↦ Iff.rfl⟩
      exact (hearlier region hregion).trans (show head.start ≤ head.stop by omega)
    | some close =>
      have hbehind := (Source.closeOf?_bounds
        (innerClose?_eq_some (initializerEnd?_eq_some hend)).1).1
      refine ⟨close + 1, _, rfl, by omega, fun region hregion ↦ ?_, fun y _ ↦ Iff.rfl⟩
      rcases List.mem_append.mp hregion with hold | hnew
      · exact (hearlier region hold).trans (show head.start ≤ close + 1 by omega)
      · rw [List.mem_singleton.mp hnew]

variable (src body)

/-- The walks for all regions in which no method is looked for, one kind after the other. -/
def walkRegions : Except WalkFault (List Region) := do
  let types ← body.walkTypes src
  let statics ← body.walkInitializers src InitializerHead.static? types false
  let instances ← body.walkInitializers src InitializerHead.instance? (types ++ statics) true
  return (types ++ statics ++ instances).mergeSort Region.comesBefore

variable {src body}

/-- The walks for regions do not fail, and find them all. -/
theorem walkRegions_eq (hclose : body.closeBrace ≤ src.length) :
    body.walkRegions src = .ok (body.skippedRegions src) := by
  have hstatic := fun taken ↦ walkInitializers_eq hclose
    (fun _ _ _ ↦ InitializerHead.standsIn_of_static?) taken false
  have hinstance := fun taken ↦ walkInitializers_eq hclose
    (fun _ _ _ ↦ InitializerHead.standsIn_of_instance?) taken true
  simp only [walkRegions, walkTypes_eq hclose, bind, Except.bind, hstatic, hinstance]
  rfl

end ClassBody

end MemberOrder
