import MemberOrder.Proofs.Layout.Climb
import MemberOrder.Proofs.Layout.RegionWalk

/-!
The walk for the methods of a class body, and with it the walk through a whole source. At each head
it looks up how deep the head is nested, whether a comment trails the method, how far up its leading
lines reach and what stands before them. No walk fails, whatever the source is, and the whole one
reads what the reading of the source is.
-/

set_option autoImplicit false

namespace MemberOrder

namespace MethodHead

theorem parenthesis_lt_of_mem_allBetween {t : Text} {first stop : Nat} {head : MethodHead}
    (h : head ∈ allBetween t first stop) : head.parenthesis < t.length := by
  obtain ⟨position, -, -, -, hat⟩ := Text.exists_of_mem_findBetween h
  obtain ⟨-, hname, hparenthesis, hlt⟩ := at?_bounds hat
  rw [List.extract_eq_take_drop, List.length_take, List.length_drop] at hlt
  omega

/-- Of two heads the second starts behind the parenthesis of the first. -/
theorem pairwise_parenthesis_lt (t : Text) (first stop : Nat) :
    (allBetween t first stop).Pairwise fun head later ↦ head.parenthesis < later.start := by
  have hstart : ∀ p t head, at? p t = some head → head.start = p :=
    fun p t head h ↦ (at?_bounds h).1
  refine (Text.pairwise_findBetween hstart t first stop).imp_of_mem ?_
  intro head later hhead hlater hlt
  by_contra hle
  -- Before the second stands a line feed, and the first has none.
  have hinside := parenthesis_lt_of_mem_allBetween hhead
  have hfeed := feed_before_of_mem_allBetween hlater (Nat.zero_lt_of_lt hlt) (by omega)
  have hat : (t.extract head.start head.parenthesis)[later.start - 1 - head.start]? =
      some '\n' := by
    rw [getElem?_extract _ (by omega), Nat.add_sub_cancel' (by omega), hfeed]
  exact ne_feed_of_mem_allBetween hhead '\n' (List.mem_of_getElem? hat) rfl

end MethodHead

namespace ClassBody

variable (src : Source) (body : ClassBody) (skipped : List Region)

/-- Looks for a comment that follows on the line, and takes it in. -/
def lookTrailingComment (stop : Nat) : Except WalkFault Nat :=
  match (src.text.extract stop body.closeBrace).findIdx? (· == '\n') with
  | none => return stop
  | some offset =>
    let lineEnd := stop + offset
    if Text.allBlank (src.text.extract stop lineEnd) then return stop
    else do
      let mute ← Source.look (src.rangeIsMute stop lineEnd)
      return if mute && src.isCodeQuery lineEnd then lineEnd else stop

/-- The method that a head declares, as far as it must be looked up. -/
def lookMethod? (previous place : Nat) (head : MethodHead) : Except WalkFault (Option Method) :=
  match body.extent? src skipped head with
  | none => return none
  | some (ending, inner) => do
    let stop ← body.lookTrailingComment src inner
    let leadingStart ← src.climb (leadingFloor skipped previous head.start) head.start
    let m := body.declared src skipped previous place head ending inner
    return some
      { m with
        leading := src.text.extract leadingStart head.start
        text := src.text.extract head.start stop
        calls := if m.body.isEmpty then [] else src.calledNames head.start stop
        stop }

/-- The move at a method head. -/
def moveHead (state : Nat × Nat) (head : MethodHead) :
    Except WalkFault (List Finding × Nat × (Nat × Nat)) :=
  match Region.holding? skipped head.start with
  | some region => return ([], region.stop, state)
  | none => do
    let depth ← Source.look (src.depthBetween body.openBrace head.start)
    if depth ≠ 1 then return ([], head.parenthesis + 1, state)
    else
      match ← body.lookMethod? src skipped state.1 state.2 head with
      | none => return ([], head.parenthesis + 1, state)
      | some m =>
        let before? ← Source.look (src.previousSolid? body.openBrace m.leadingStart)
        if before?.all isBoundary then return ([.method m], m.stop, (m.stop, state.2 + 1))
        else return ([.inPlace m.signature], m.stop, state)

/-- The walk for methods. -/
def walkMembers : Except WalkFault (List Finding) :=
  walk body.closeBrace
    (fun position ↦ (MethodHead.allBetween src.text position body.closeBrace).head?)
    (body.moveHead src skipped) (body.openBrace + 1) (body.openBrace + 1, 0)

variable {src body skipped}

theorem lookTrailingComment_eq {stop : Nat} (hclose : body.closeBrace ≤ src.length)
    (hstop : stop ≤ body.closeBrace) :
    body.lookTrailingComment src stop = .ok (body.afterTrailingComment src stop) := by
  have hsearch : (src.text.extract stop body.closeBrace).findIdx? (· == '\n') =
      (src.glyphs.extract stop body.closeBrace).findIdx? (·.char == '\n') := by
    rw [← src.map_char_extract, List.findIdx?_map]
    rfl
  have hlength := length_extract src.glyphs hstop hclose
  have hline : (src.glyphs.extract stop body.closeBrace).takeWhile (·.char != '\n') =
      (src.glyphs.extract stop body.closeBrace).take
        ((src.glyphs.extract stop body.closeBrace).findIdx (·.char == '\n')) := by
    rw [List.takeWhile_eq_take_findIdx_not]
    simp [bne]
  unfold lookTrailingComment afterTrailingComment
  rw [hsearch, hline]
  cases hfound : (src.glyphs.extract stop body.closeBrace).findIdx? (·.char == '\n') with
  | none =>
    have hend := List.findIdx?_eq_none_iff_findIdx_eq.mp hfound
    simp only
    rw [hend, List.take_length, hlength, Nat.add_sub_cancel' hstop, if_neg (by simp)]
    rfl
  | some offset =>
    obtain ⟨hlt, hend⟩ := List.findIdx?_eq_some_iff_findIdx_eq.mp hfound
    have hinside : stop + offset < body.closeBrace := by omega
    have htake : (src.glyphs.extract stop body.closeBrace).take offset =
        src.glyphs.extract stop (stop + offset) := by
      rw [List.extract_eq_take_drop, List.extract_eq_take_drop, List.take_take,
        Nat.add_sub_cancel_left, Nat.min_eq_left (by omega)]
    have hwidth : (src.glyphs.extract stop (stop + offset)).length = offset := by
      rw [length_extract _ (Nat.le_add_right _ _) (hinside.le.trans hclose),
        Nat.add_sub_cancel_left]
    have hblanks : Text.allBlank (src.text.extract stop (stop + offset)) =
        (src.glyphs.extract stop (stop + offset)).all (·.isBlank) := by
      rw [← src.map_char_extract, Text.allBlank, List.all_map]
      rfl
    simp only [hend, htake, hwidth, hblanks, decide_eq_true hinside, Bool.true_and,
      Source.rangeIsMute_eq (hinside.le.trans hclose), Source.isCodeQuery_eq]
    cases (src.glyphs.extract stop (stop + offset)).all (·.isBlank) with
    | true => rfl
    | false => rfl

theorem lookMethod?_eq {previous place : Nat} {head : MethodHead}
    (hclose : body.closeBrace ≤ src.length)
    (hhead : head ∈ MethodHead.allBetween src.text (body.openBrace + 1) body.closeBrace)
    (hprevious : previous ≤ head.start) :
    body.lookMethod? src skipped previous place head =
      .ok (body.methodAt? src skipped previous place head) := by
  obtain ⟨hopen, hstop, -, -⟩ := MethodHead.mem_allBetween hhead
  have hinside : head.start ≤ src.text.length := by
    rw [← src.length_glyphs]
    exact hstop.le.trans hclose
  have hfeed := MethodHead.feed_before_of_mem_allBetween hhead (Nat.zero_lt_of_lt hopen) hinside
  unfold lookMethod?
  rw [methodAt?_eq]
  cases hextent : body.extent? src skipped head with
  | none => rfl
  | some extent =>
    obtain ⟨ending, inner⟩ := extent
    have hfloor : leadingFloor skipped previous head.start ≤ head.start := leadingFloor_le hprevious
    have hclimb := Source.climb_eq hfloor hinside fun _ ↦ hfeed
    simp only [lookTrailingComment_eq hclose (extent?_bounds hextent).2.2.2, hclimb, bind,
      Except.bind, src.text_extract_leadingLines hfloor hinside]
    rfl

/-- A move at a head decides it, and goes on behind its parenthesis where it is let go. -/
theorem moveHead_eq {state : Nat × Nat} {head : MethodHead} (hclose : body.closeBrace ≤ src.length)
    (hhead : head ∈ MethodHead.allBetween src.text (body.openBrace + 1) body.closeBrace)
    (hprevious : state.1 ≤ head.start) :
    body.moveHead src skipped state head =
      .ok (body.decideHead src skipped (head.parenthesis + 1) state head) := by
  have hinside : head.start ≤ src.length :=
    (MethodHead.mem_allBetween hhead).2.1.le.trans hclose
  unfold moveHead decideHead
  cases Region.holding? skipped head.start with
  | some region => rfl
  | none =>
    simp only [Source.depthBetween_eq hinside, lookMethod?_eq hclose hhead hprevious, Source.look,
      Except.mapError, bind, Except.bind]
    split_ifs with hdepth
    · rfl
    · cases hmethod : body.methodAt? src skipped state.1 state.2 head with
      | none => rfl
      | some m =>
        have hleading : m.leadingStart ≤ src.length := by
          rw [methodAt?_eq] at hmethod
          obtain ⟨extent, -, rfl⟩ := Option.map_eq_some_iff.mp hmethod
          exact (Nat.sub_le _ _).trans hinside
        simp only [Source.previousSolid?_eq hleading]
        by_cases hmember : body.startsMember src m = true
        · rw [if_pos hmember]
          exact if_pos hmember
        · rw [if_neg hmember]
          exact if_neg hmember

/-- A method ends behind the start of its head. -/
theorem start_lt_of_methodAt? {previous place : Nat} {head : MethodHead} {m : Method}
    (hstart : head.start ≤ head.parenthesis)
    (h : body.methodAt? src skipped previous place head = some m) : head.start < m.stop := by
  rw [methodAt?_eq] at h
  obtain ⟨⟨ending, inner⟩, hextent, rfl⟩ := Option.map_eq_some_iff.mp h
  obtain ⟨hparenthesis, hposition, hinner, hclose⟩ := extent?_bounds hextent
  have hstop := (afterTrailingComment_bounds src hclose).1
  change head.start < body.afterTrailingComment src inner
  omega

/-- What is decided about a head does not depend on where the search stands, but for where it goes
on after a head that it lets go. -/
theorem decideHead_cases (src : Source) (body : ClassBody) (skipped : List Region)
    (state : Nat × Nat) {head : MethodHead} (hstart : head.start ≤ head.parenthesis)
    (resume other : Nat) :
    ∃ found : List Finding, ∃ state' : Nat × Nat,
      (body.decideHead src skipped resume state head = (found, resume, state') ∧
        body.decideHead src skipped other state head = (found, other, state') ∧ state' = state) ∨
      ∃ stop, head.start < stop ∧ (state' = state ∨ state'.1 = stop) ∧
        body.decideHead src skipped resume state head = (found, stop, state') ∧
        body.decideHead src skipped other state head = (found, stop, state') := by
  unfold decideHead
  cases hregion : Region.holding? skipped head.start with
  | some region =>
    have hholds := List.find?_some hregion
    simp only [Region.contains, Bool.and_eq_true, decide_eq_true_eq] at hholds
    exact ⟨[], state, Or.inr ⟨region.stop, hholds.2, Or.inl rfl, rfl, rfl⟩⟩
  | none =>
    by_cases hdepth : src.braceDepth body.openBrace head.start ≠ 1
    · simp only [if_pos hdepth]
      exact ⟨[], state, Or.inl ⟨rfl, rfl, rfl⟩⟩
    · simp only [if_neg hdepth]
      cases hmethod : body.methodAt? src skipped state.1 state.2 head with
      | none => exact ⟨[], state, Or.inl ⟨rfl, rfl, rfl⟩⟩
      | some m =>
        have hstop := start_lt_of_methodAt? hstart hmethod
        by_cases hmember : body.startsMember src m = true
        · simp only [if_pos hmember]
          exact ⟨[.method m], (m.stop, state.2 + 1), Or.inr ⟨m.stop, hstop, Or.inr rfl, rfl, rfl⟩⟩
        · simp only [if_neg hmember]
          exact ⟨[.inPlace m.signature], state, Or.inr ⟨m.stop, hstop, Or.inl rfl, rfl, rfl⟩⟩

/-- The walk for methods does not fail, and finds what the search for them finds. -/
theorem walkMembers_eq (hclose : body.closeBrace ≤ src.length) :
    body.walkMembers src skipped = .ok (body.members src skipped) := by
  have hstart : ∀ p t head, MethodHead.at? p t = some head → head.start = p :=
    fun p t head h ↦ (MethodHead.at?_bounds h).1
  have hapart := MethodHead.pairwise_parenthesis_lt src.text (body.openBrace + 1) body.closeBrace
  unfold members
  rw [findMembers_eq_sweep]
  refine walk_eq_sweep (R := fun _ t r s ↦ t = s ∧ s.1 ≤ r)
    (fun p hp ↦ Text.head?_findBetween hstart _ _ hp)
    (fun head hhead ↦ (MethodHead.mem_allBetween hhead).2.1)
    (fun p t r s hrelated head rest hsuffix hr ↦ ?_) ⟨rfl, Nat.le_refl _⟩ fun _ _ ↦ Iff.rfl
  obtain ⟨rfl, hprevious⟩ := hrelated
  have hhead := hsuffix.subset List.mem_cons_self
  have hparenthesis := (MethodHead.mem_allBetween hhead).2.2.2
  rw [moveHead_eq hclose hhead (hprevious.trans hr)]
  obtain ⟨found, state', hgo | ⟨stop, hstop, hstate, hdecide, hmove⟩⟩ :=
    decideHead_cases src body skipped t hparenthesis r (head.parenthesis + 1)
  · obtain ⟨hdecide, hmove, rfl⟩ := hgo
    rw [hdecide, hmove]
    refine ⟨_, _, rfl, Nat.lt_succ_of_le hparenthesis, ⟨rfl, hprevious⟩, fun later hlater ↦ ?_⟩
    have hbehind := List.rel_of_pairwise_cons (hapart.sublist hsuffix.sublist) hlater
    simp only
    omega
  · rw [hdecide, hmove]
    refine ⟨_, _, rfl, hstop, ⟨rfl, ?_⟩, fun _ _ ↦ Iff.rfl⟩
    rcases hstate with rfl | hsame
    · exact (hprevious.trans hr).trans hstop.le
    · exact hsame.le

end ClassBody

namespace Source

/-- Looks for the first of the headers that is one of a class with a body. -/
def lookClass? (src : Source) : List TypeHeader → Except WalkFault (Option (Text × Nat))
  | [] => return none
  | header :: rest =>
    if header.kind == .classType then do
      match ← header.lookBrace? src src.length with
      | some brace => return some (header.name, brace)
      | none => src.lookClass? rest
    else src.lookClass? rest

theorem lookClass?_eq {src : Source} {headers : List TypeHeader}
    (h : ∀ header ∈ headers, header.stop ≤ src.length) :
    src.lookClass? headers = .ok ((headers.filter (·.kind == .classType)).findSome? fun header ↦
      (header.openBrace? src src.length).map fun brace ↦ (header.name, brace)) := by
  induction headers with
  | nil => rfl
  | cons header rest ih =>
    have hrest := ih fun other hother ↦ h other (List.mem_cons_of_mem _ hother)
    rw [lookClass?, TypeHeader.lookBrace?_eq (h header List.mem_cons_self) (Nat.le_refl _),
      List.filter_cons]
    by_cases hkind : (header.kind == .classType) = true
    · rw [if_pos hkind, if_pos hkind, List.findSome?_cons]
      cases header.openBrace? src src.length with
      | none => exact hrest
      | some brace => rfl
    · rw [if_neg hkind, if_neg hkind]
      exact hrest

end Source

namespace Reading

/-- The reading of a source that is walked through. -/
def walked (src : Source) : Except WalkFault Reading := do
  match ← src.lookClass? (TypeHeader.apart 0 (TypeHeader.allBetween src.text 0 src.length)) with
  | none => return .noClass
  | some (name, openBrace) =>
    match src.matchingClose? ['\x7b'] ['\x7d'] openBrace with
    | none => return .unclosed name openBrace
    | some closeBrace =>
      let body : ClassBody := ⟨name, openBrace, closeBrace⟩
      let skipped ← body.walkRegions src
      let members ← body.walkMembers src skipped
      return .complete (Layout.ofMembers src body skipped members)

/-- The walk through a source does not fail, and reads what the source is read as. -/
theorem walked_eq (src : Source) : walked src = .ok (ofSource src) := by
  have hstop : ∀ header ∈ TypeHeader.apart 0 (TypeHeader.allBetween src.text 0 src.length),
      header.stop ≤ src.length := by
    intro header hheader
    exact (TypeHeader.bounds_of_mem_allBetween ((TypeHeader.apart_sublist _ _).subset hheader)).2.2
  have hclass : src.lookClass? (TypeHeader.apart 0 (TypeHeader.allBetween src.text 0 src.length)) =
      .ok src.firstClass? := Source.lookClass?_eq hstop
  unfold walked ofSource
  rw [hclass]
  cases src.firstClass? with
  | none => rfl
  | some found =>
    obtain ⟨name, openBrace⟩ := found
    have hclosing : src.matchingClose? ['\x7b'] ['\x7d'] openBrace = src.closingBrace? openBrace :=
      src.matchingClose?_eq _ _ openBrace
    simp only [bind, Except.bind, hclosing]
    cases hclose : src.closingBrace? openBrace with
    | none => rfl
    | some closeBrace =>
      have hinside : closeBrace ≤ src.length := by
        have hlt := (Source.closeOf?_bounds hclose).2
        rw [← src.length_glyphs] at hlt
        exact hlt.le
      have hbody : (⟨name, openBrace, closeBrace⟩ : ClassBody).closeBrace ≤ src.length := hinside
      simp only [ClassBody.walkRegions_eq hbody, ClassBody.walkMembers_eq hbody]
      rfl

end Reading

end MemberOrder
