import MemberOrder.Proofs.Layout.Leading

/-!
What it takes for a head to declare a method. A head is read off a line by passing over annotations
and words, which leaves what stands behind them as it is. Whether it declares a method and how far
the method reaches is decided by the source from the head on; only its leading lines and its place
depend on the methods found before it.
-/

set_option autoImplicit false

namespace MemberOrder

namespace MethodHead

theorem afterBlanks?_suffix {t rest : Text} (h : afterBlanks? t = some rest) : rest <:+ t := by
  cases t with
  | nil => simp [afterBlanks?] at h
  | cons c others =>
    rw [afterBlanks?] at h
    split_ifs at h
    cases h
    exact (List.dropWhile_suffix _).trans (List.suffix_cons c others)

theorem afterArguments_suffix (t : Text) : afterArguments t <:+ t := by
  unfold afterArguments
  split
  · rename_i rest
    split
    · rename_i others hclose
      have hrest : ')' :: others <:+ rest := hclose ▸ List.dropWhile_suffix isArgumentPart
      exact (List.suffix_cons _ _).trans (hrest.trans (List.suffix_cons _ _))
    · exact List.suffix_refl _
  · exact List.suffix_refl _

theorem afterMark?_suffix {t rest : Text} (h : afterMark? t = some rest) : rest <:+ t := by
  unfold afterMark? at h
  split at h
  · rename_i c others
    split_ifs at h
    have hothers : rest <:+ others := (afterBlanks?_suffix h).trans
      ((afterArguments_suffix _).trans (List.dropWhile_suffix _))
    exact hothers.trans ((List.suffix_cons c others).trans (List.suffix_cons '@' _))
  · cases h

theorem afterWord?_suffix {t rest : Text} (h : afterWord? t = some rest) : rest <:+ t := by
  cases t with
  | nil => simp [afterWord?] at h
  | cons c others =>
    rw [afterWord?] at h
    split_ifs at h
    exact (afterBlanks?_suffix h).trans ((List.dropWhile_suffix _).trans (List.suffix_cons c others))

theorem skipMarks_suffix (t : Text) : skipMarks t <:+ t := by
  fun_induction skipMarks t with
  | case1 t rest hmark ih => exact ih.trans (afterMark?_suffix hmark)
  | case2 t hmark => exact List.suffix_refl t

/-- The name that is found is one that the text goes on with at some place. -/
theorem findName?_eq_some {t fromName name fromParenthesis : Text}
    (h : findName? t = some (fromName, name, fromParenthesis)) :
    fromName <:+ t ∧ nameBeforeParenthesis? fromName = some (name, fromParenthesis) := by
  fun_induction findName? t with
  | case1 t found rest hname =>
    cases h
    exact ⟨List.suffix_refl _, hname⟩
  | case2 t hname rest hword ih =>
    obtain ⟨hsuffix, hfound⟩ := ih h
    exact ⟨hsuffix.trans (afterWord?_suffix hword), hfound⟩
  | case3 => cases h

theorem length_findName?_le {t fromName name fromParenthesis : Text}
    (h : findName? t = some (fromName, name, fromParenthesis)) :
    fromParenthesis.length ≤ fromName.length ∧ fromName.length ≤ t.length ∧
      0 < fromParenthesis.length := by
  obtain ⟨hsuffix, hname⟩ := findName?_eq_some h
  obtain ⟨word, -, hrest⟩ := Option.bind_eq_some_iff.mp hname
  split at hrest
  · rename_i others hdrop
    cases hrest
    have hlength := length_dropWhile_le Text.isIndent (fromName.drop name.length)
    rw [hdrop, List.length_drop] at hlength
    exact ⟨by omega, hsuffix.length_le, Nat.succ_pos _⟩
  · cases hrest

theorem start_of_onLine? {start : Nat} {line : Text} {head : MethodHead}
    (h : onLine? start line = some head) :
    head.start = start ∧ start ≤ head.nameStart ∧ head.nameStart ≤ head.parenthesis := by
  unfold onLine? at h
  obtain ⟨⟨fromName, name, fromParenthesis⟩, hname, rfl⟩ := Option.map_eq_some_iff.mp h
  obtain ⟨hle, -, -⟩ := length_findName?_le hname
  exact ⟨rfl, Nat.le_add_right _ _, by simp only; omega⟩

/-- A head found in a stretch starts a line there, and its name and parenthesis come after. -/
theorem mem_allBetween {t : Text} {start stop : Nat} {head : MethodHead}
    (h : head ∈ allBetween t start stop) :
    start ≤ head.start ∧ head.start < stop ∧ Text.beginsLine (t.charBefore? head.start) ∧
      head.start ≤ head.parenthesis := by
  obtain ⟨position, hstart, hstop, hbegins, hhead⟩ := Text.exists_of_mem_findBetween h
  obtain ⟨rfl, hname, hparenthesis⟩ := start_of_onLine? hhead
  exact ⟨hstart, hstop, hbegins, by omega⟩

/-- Before a head stands a line feed, if anything does. -/
theorem feed_before_of_mem_allBetween {t : Text} {start stop : Nat} {head : MethodHead}
    (h : head ∈ allBetween t start stop) (hpos : 0 < head.start) (hinside : head.start ≤ t.length) :
    t[head.start - 1]? = some '\n' := by
  obtain ⟨-, -, hbegins, -⟩ := mem_allBetween h
  exact Text.feed_of_beginsLine hbegins hpos hinside

/-- A head is read off a line that the text goes on with where the head starts. -/
theorem exists_line_of_mem_allBetween {t : Text} {start stop : Nat} {head : MethodHead}
    (h : head ∈ allBetween t start stop) :
    ∃ line fromName fromParenthesis, line <+: t.drop head.start ∧ (∀ c ∈ line, c ≠ '\n') ∧
      findName? (skipMarks (line.dropWhile Text.isIndent)) =
        some (fromName, head.name, fromParenthesis) ∧
      head.nameStart = head.start + (line.length - fromName.length) ∧
      head.parenthesis = head.start + (line.length - fromParenthesis.length) := by
  obtain ⟨position, -, -, -, hhead⟩ := Text.exists_of_mem_findBetween h
  unfold at? onLine? at hhead
  obtain ⟨⟨fromName, name, fromParenthesis⟩, hfound, rfl⟩ := Option.map_eq_some_iff.mp hhead
  refine ⟨_, fromName, fromParenthesis, ?_, ?_, hfound, rfl, rfl⟩
  · refine (List.takeWhile_prefix _).trans ?_
    rw [List.extract_eq_take_drop]
    exact List.take_prefix _ _
  · intro c hc
    simpa using List.mem_takeWhile_imp hc

/-- A head stands on one line. -/
theorem ne_feed_of_mem_allBetween {t : Text} {start stop : Nat} {head : MethodHead}
    (h : head ∈ allBetween t start stop) :
    ∀ c ∈ t.extract head.start head.parenthesis, c ≠ '\n' := by
  obtain ⟨line, _, _, hbegins, hline, -, -, hparenthesis⟩ := exists_line_of_mem_allBetween h
  intro c hc
  rw [hparenthesis, List.extract_eq_take_drop, Nat.add_sub_cancel_left] at hc
  refine hline c ?_
  rw [List.prefix_iff_eq_take.mp hbegins]
  exact (List.take_subset_take_left _ (Nat.sub_le _ _)) hc

end MethodHead

namespace ClassBody

variable {src : Source} {body : ClassBody} {skipped : List Region}

/-- Where the declaration that a head starts ends, and where its method does, trailing comments left
out, if it declares a method at all. -/
def extent? (src : Source) (body : ClassBody) (skipped : List Region) (head : MethodHead) :
    Option (DeclarationEnd × Nat) :=
  if admitsHead src head then
    (body.declarationEnd? src head).bind fun ending ↦
      if Text.allBlank head.modifiers
          && (ending.terminator == .semicolon || !(head.name == body.name)) then none
      else (body.methodEnd? src skipped ending).map fun inner ↦ (ending, inner)
  else none

/-- The method that a head declares, with the given extent. -/
def declared (src : Source) (body : ClassBody) (skipped : List Region) (previous place : Nat)
    (head : MethodHead) (ending : DeclarationEnd) (inner : Nat) : Method :=
  let stop := body.afterTrailingComment src inner
  let declaration := src.text.extract head.start (ending.position + 1)
  let methodBody := match ending.terminator with
    | .body => src.text.extract ending.position inner
    | .semicolon => []
  { name := head.name
    signature := src.text.extract head.nameStart (ending.parenthesis + 1)
    access := Access.ofDeclaration declaration
    isConstructor := head.name == body.name
    isStatic := Method.declaresStatic declaration
    isGetter := Method.declaresGetter head.name declaration
    isSetter := Method.declaresSetter head.name declaration
    leading := src.leadingLines (leadingFloor skipped previous head.start) head.start
    text := src.text.extract head.start stop
    body := methodBody
    calls := if methodBody.isEmpty then [] else src.calledNames head.start stop
    start := head.start
    stop
    position := place }

theorem methodAt?_eq (previous place : Nat) (head : MethodHead) :
    body.methodAt? src skipped previous place head =
      (body.extent? src skipped head).map fun extent ↦
        body.declared src skipped previous place head extent.1 extent.2 := by
  unfold methodAt? extent?
  cases admitsHead src head with
  | false => rfl
  | true =>
    cases body.declarationEnd? src head with
    | none => rfl
    | some ending =>
      by_cases hwords : (Text.allBlank head.modifiers
          && (ending.terminator == .semicolon || !(head.name == body.name))) = true
      · simp only [Option.bind_eq_bind, Bool.not_true, Bool.false_eq_true, ↓reduceIte,
          Option.bind_some, hwords]
        rfl
      · simp only [Option.bind_eq_bind, Bool.not_true, Bool.false_eq_true, ↓reduceIte,
          Option.bind_some, hwords]
        cases body.methodEnd? src skipped ending <;> rfl

theorem extent?_eq_some {head : MethodHead} {ending : DeclarationEnd} {inner : Nat}
    (h : body.extent? src skipped head = some (ending, inner)) :
    admitsHead src head ∧ body.declarationEnd? src head = some ending ∧
      (Text.allBlank head.modifiers
        && (ending.terminator == .semicolon || !(head.name == body.name))) = false ∧
      body.methodEnd? src skipped ending = some inner := by
  unfold extent? at h
  split_ifs at h with hadmits
  obtain ⟨found, hfound, h⟩ := Option.bind_eq_some_iff.mp h
  split_ifs at h with hwords
  obtain ⟨close, hclose, hpair⟩ := Option.map_eq_some_iff.mp h
  cases hpair
  exact ⟨hadmits, hfound, by simpa using hwords, hclose⟩

theorem innerClose?_eq_some {brace close : Nat} (h : body.innerClose? src brace = some close) :
    src.closingBrace? brace = some close ∧ close < body.closeBrace := by
  obtain ⟨hclose, hlt⟩ := Option.filter_eq_some_iff.mp h
  exact ⟨hclose, by simpa using hlt⟩

theorem declarationEnd?_eq_some {head : MethodHead} {ending : DeclarationEnd}
    (h : body.declarationEnd? src head = some ending) :
    src.closingParenthesis? head.parenthesis = some ending.parenthesis ∧
      ending.parenthesis < body.closeBrace ∧
      ∃ offset, Terminator.find? (src.text.extract (ending.parenthesis + 1) body.closeBrace) =
          some (offset, ending.terminator) ∧
        ending.position = ending.parenthesis + 1 + offset ∧ src.isCodeAt ending.position := by
  unfold declarationEnd? at h
  simp only [Option.bind_eq_bind] at h
  obtain ⟨close, hclose, h⟩ := Option.bind_eq_some_iff.mp h
  obtain ⟨⟨offset, terminator⟩, hfind, h⟩ := Option.bind_eq_some_iff.mp h
  obtain ⟨hclose, hlt⟩ := Option.filter_eq_some_iff.mp hclose
  simp only at h
  split_ifs at h with hcode
  cases h
  exact ⟨hclose, by simpa using hlt, offset, hfind, rfl, hcode⟩

end ClassBody

namespace Terminator

theorem first?_eq_some {t : Text} {terminator : Terminator} (h : first? t = some terminator) :
    0 < t.length := by
  cases t with
  | nil => simp [first?] at h
  | cons c rest => exact Nat.succ_pos _

/-- A declaration ends with the character that is found to end it. -/
theorem first?_of_find? {t : Text} {offset : Nat} {terminator : Terminator}
    (h : find? t = some (offset, terminator)) : first? (t.drop offset) = some terminator := by
  unfold find? at h
  simp only at h
  split at h
  · rename_i found hfound
    cases h
    exact hfound
  · split_ifs at h with hthrows hclause
    obtain ⟨found, hfound, hpair⟩ := Option.map_eq_some_iff.mp h
    cases hpair
    rwa [List.drop_drop, ← Nat.add_assoc] at hfound

/-- A declaration ends inside the text it is looked for in. -/
theorem offset_lt_of_find? {t : Text} {offset : Nat} {terminator : Terminator}
    (h : find? t = some (offset, terminator)) : offset < t.length := by
  have hpos := first?_eq_some (first?_of_find? h)
  rw [List.length_drop] at hpos
  omega

end Terminator

namespace ClassBody

variable {src : Source} {body : ClassBody} {skipped : List Region}

/-- A method ends behind the start of its head and not behind the body of its class. -/
theorem extent?_bounds {head : MethodHead} {ending : DeclarationEnd} {inner : Nat}
    (h : body.extent? src skipped head = some (ending, inner)) :
    head.parenthesis < ending.parenthesis ∧ ending.parenthesis < ending.position ∧
      ending.position < inner ∧ inner ≤ body.closeBrace := by
  obtain ⟨-, hending, -, hinner⟩ := extent?_eq_some h
  obtain ⟨hclose, hlt, offset, hfind, hposition, -⟩ := declarationEnd?_eq_some hending
  have hbehind := (Source.closeOf?_bounds hclose).1
  have hoffset := Terminator.offset_lt_of_find? hfind
  rw [List.extract_eq_take_drop, List.length_take, List.length_drop] at hoffset
  refine ⟨hbehind, by omega, ?_⟩
  unfold methodEnd? at hinner
  split at hinner
  · cases hinner
    omega
  · obtain ⟨close, hbrace, rfl⟩ := Option.map_eq_some_iff.mp hinner
    obtain ⟨hbrace, -⟩ := Option.filter_eq_some_iff.mp hbrace
    obtain ⟨hbrace, hbefore⟩ := innerClose?_eq_some hbrace
    have hinside := (Source.closeOf?_bounds hbrace).1
    omega

theorem afterTrailingComment_bounds (src : Source) {stop : Nat} (h : stop ≤ body.closeBrace) :
    stop ≤ body.afterTrailingComment src stop ∧
      body.afterTrailingComment src stop ≤ body.closeBrace := by
  unfold afterTrailingComment
  simp only
  split_ifs with hline
  · simp only [Bool.and_eq_true, decide_eq_true_eq] at hline
    exact ⟨Nat.le_add_right _ _, by omega⟩
  · exact ⟨Nat.le_refl _, h⟩

theorem le_leadingFloor (previous start : Nat) : previous ≤ leadingFloor skipped previous start := by
  unfold leadingFloor
  induction skipped generalizing previous with
  | nil => exact Nat.le_refl _
  | cons region rest ih =>
    rw [List.foldl_cons]
    refine le_trans ?_ (ih _)
    split_ifs with hbefore
    · exact Nat.le_max_left _ _
    · exact Nat.le_refl _

/-- What holds where the methods before a declaration end, and where the regions before it do, holds
where what cannot lead the declaration ends. -/
theorem leadingFloor_induction {P : Nat → Prop} {previous start : Nat} (hprevious : P previous)
    (hskipped : ∀ region ∈ skipped, region.stop ≤ start → P region.stop) :
    P (leadingFloor skipped previous start) := by
  unfold leadingFloor
  induction skipped generalizing previous with
  | nil => exact hprevious
  | cons region rest ih =>
    rw [List.foldl_cons]
    refine ih ?_ fun other hother ↦ hskipped other (List.mem_cons_of_mem _ hother)
    split_ifs with hbefore
    · rcases Nat.le_total previous region.stop with hle | hle
      · rw [Nat.max_eq_right hle]
        exact hskipped region List.mem_cons_self hbefore
      · rwa [Nat.max_eq_left hle]
    · exact hprevious

theorem leadingFloor_le {previous start : Nat} (h : previous ≤ start) :
    leadingFloor skipped previous start ≤ start :=
  leadingFloor_induction (P := (· ≤ start)) h fun _ _ hbefore ↦ hbefore

/-- A head declares a method of the class, with the given extent: it stands at depth one, outside of
the regions that are passed over. -/
structure Declares (src : Source) (body : ClassBody) (skipped : List Region) (head : MethodHead)
    (ending : DeclarationEnd) (inner : Nat) : Prop where
  outside : Region.holding? skipped head.start = none
  depth_eq : src.braceDepth body.openBrace head.start = 1
  extent_eq : body.extent? src skipped head = some (ending, inner)

/-- A head outside of the regions is let go where it is nested deeper or has no extent. -/
structure Refuses (src : Source) (body : ClassBody) (skipped : List Region) (head : MethodHead) :
    Prop where
  outside : Region.holding? skipped head.start = none
  reason : src.braceDepth body.openBrace head.start ≠ 1 ∨ body.extent? src skipped head = none

theorem holds_or_refuses_or_declares (src : Source) (body : ClassBody) (skipped : List Region)
    (head : MethodHead) :
    (∃ region, Region.holding? skipped head.start = some region) ∨
      Refuses src body skipped head ∨ ∃ ending inner, Declares src body skipped head ending inner := by
  cases hregion : Region.holding? skipped head.start with
  | some region => exact Or.inl ⟨region, rfl⟩
  | none =>
    right
    by_cases hdepth : src.braceDepth body.openBrace head.start = 1
    · cases hextent : body.extent? src skipped head with
      | none => exact Or.inl ⟨hregion, Or.inr hextent⟩
      | some extent => exact Or.inr ⟨extent.1, extent.2, hregion, hdepth, hextent⟩
    · exact Or.inl ⟨hregion, Or.inl hdepth⟩

section Steps

variable {resume previous place : Nat} {head : MethodHead} {rest : List MethodHead}

theorem findMembers_cons_of_lt (h : head.start < resume) :
    body.findMembers src skipped resume previous place (head :: rest) =
      body.findMembers src skipped resume previous place rest := by
  rw [findMembers, if_pos h]

theorem findMembers_cons_of_holding {region : Region} (h : resume ≤ head.start)
    (hregion : Region.holding? skipped head.start = some region) :
    body.findMembers src skipped resume previous place (head :: rest) =
      body.findMembers src skipped region.stop previous place rest := by
  rw [findMembers, if_neg (Nat.not_lt.mpr h), hregion]

theorem findMembers_cons_of_refuses (h : resume ≤ head.start)
    (hrefuses : Refuses src body skipped head) :
    body.findMembers src skipped resume previous place (head :: rest) =
      body.findMembers src skipped resume previous place rest := by
  rw [findMembers, if_neg (Nat.not_lt.mpr h), hrefuses.outside]
  simp only
  rcases hrefuses.reason with hdepth | hextent
  · rw [if_pos hdepth]
  · rw [methodAt?_eq, hextent]
    exact ite_self _

theorem findMembers_cons_of_declares {ending : DeclarationEnd} {inner : Nat}
    (h : resume ≤ head.start) (hdeclares : Declares src body skipped head ending inner) :
    body.findMembers src skipped resume previous place (head :: rest) =
      if body.startsMember src (body.declared src skipped previous place head ending inner) then
        .method (body.declared src skipped previous place head ending inner) ::
          body.findMembers src skipped (body.afterTrailingComment src inner)
            (body.afterTrailingComment src inner) (place + 1) rest
      else
        .inPlace (body.declared src skipped previous place head ending inner).signature ::
          body.findMembers src skipped (body.afterTrailingComment src inner) previous place rest := by
  rw [findMembers, if_neg (Nat.not_lt.mpr h), hdeclares.outside]
  simp only
  rw [if_neg (not_not.mpr hdeclares.depth_eq), methodAt?_eq, hdeclares.extent_eq]
  rfl

end Steps

end ClassBody

end MemberOrder
