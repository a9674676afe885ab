import Mathlib.Data.List.Nodup
import MemberOrder.Proofs.Layout.Member

/-!
A layout tiles its source. The methods found in a class body stand in it one behind the other, each
with its leading lines from a line start on, and what lies before, between and behind them is the
rest of the source. Put together again, the parts are the source.
-/

set_option autoImplicit false

namespace MemberOrder

namespace Source

variable {src : Source}

/-- The leading lines of a declaration that starts a line are the text before it from a line start
on, and end a line themselves. -/
theorem leadingLines_spec {floor start : Nat} (hfloor : floor ≤ start)
    (hstart : start ≤ src.text.length) (hpos : 0 < floor)
    (hline : src.text[start - 1]? = some '\n') :
    (src.leadingLines floor start).length ≤ start - floor ∧
      src.text.extract (start - (src.leadingLines floor start).length) start =
        src.leadingLines floor start ∧
      src.text[start - (src.leadingLines floor start).length - 1]? = some '\n' ∧
      (src.leadingLines floor start = [] ∨
        (src.leadingLines floor start).getLast? = some '\n') := by
  obtain ⟨floor, rfl⟩ := Nat.exists_eq_add_of_le' hpos
  set whole := src.text[floor]? == some '\n' with hwhole
  set leading := leadingIn whole (src.glyphs.extract (floor + 1) start) with hleading
  have htext : src.leadingLines (floor + 1) start = leading.map Glyph.char := rfl
  obtain ⟨before, hsplit, hends⟩ :=
    exists_append_leadingIn whole (src.glyphs.extract (floor + 1) start)
  rw [← hleading] at hsplit hends
  have hchars := src.map_char_extract (floor + 1) start
  rw [hsplit, List.map_append] at hchars
  have hlength := congrArg List.length hchars
  rw [length_extract _ hfloor hstart, List.length_append, List.length_map,
    List.length_map] at hlength
  have hposition : start - leading.length = floor + 1 + before.length := by omega
  have hat (i : Nat) (hi : i < start - (floor + 1)) :
      src.text[floor + 1 + i]? = (before.map Glyph.char ++ leading.map Glyph.char)[i]? := by
    rw [hchars, getElem?_extract _ hi]
  rw [htext, List.length_map]
  refine ⟨by omega, ?_, ?_, ?_⟩
  · have hdrop : (src.text.extract (floor + 1) start).drop before.length =
        src.text.extract (start - leading.length) start := by
      rw [hposition, List.extract_eq_take_drop, List.extract_eq_take_drop, List.drop_take,
        List.drop_drop]
      congr 1
      omega
    rw [← hdrop, ← hchars, ← List.length_map Glyph.char, List.drop_left]
  · by_cases hnone : leading = []
    · rw [hnone, List.length_nil, Nat.sub_zero]
      exact hline
    · obtain ⟨hbefore, hall⟩ := hends hnone
      rw [hposition]
      rcases hbefore with hempty | hfeed
      · have hstarts : whole = true := hall hempty
        rw [hempty, List.length_nil]
        rw [hwhole] at hstarts
        exact beq_iff_eq.mp hstarts
      · have hne : before ≠ [] := by
          rintro rfl
          simp at hfeed
        have hpositive := List.length_pos_iff.mpr hne
        have hindex : floor + 1 + before.length - 1 = floor + 1 + (before.length - 1) := by omega
        rw [hindex, hat _ (by omega), List.getElem?_append_left (by rw [List.length_map]; omega),
          List.getElem?_map, ← List.getLast?_eq_getElem?]
        exact hfeed
  · by_cases hnone : leading = []
    · exact Or.inl (by rw [hnone]; rfl)
    · right
      have hpositive := List.length_pos_iff.mpr hnone
      rw [List.getLast?_eq_getElem?, List.length_map]
      have hlast := hat (before.length + (leading.length - 1)) (by omega)
      rw [List.getElem?_append_right (by rw [List.length_map]; omega), List.length_map,
        Nat.add_sub_cancel_left] at hlast
      rw [← hlast, ← hline]
      congr 1
      omega

end Source

/-- The method stands in the class body of a source with its leading lines: they and its text are
what the source holds there, from behind a line feed on. -/
structure Method.Placed (src : Source) (body : ClassBody) (m : Method) : Prop where
  leading_eq : src.text.extract m.leadingStart m.start = m.leading
  text_eq : src.text.extract m.start m.stop = m.text
  openBrace_lt : body.openBrace < m.leadingStart
  leadingStart_le : m.leadingStart ≤ m.start
  start_lt : m.start < m.stop
  stop_le : m.stop ≤ body.closeBrace
  lineFeed_before : src.text[m.leadingStart - 1]? = some '\n'
  leading_ends : m.leading = [] ∨ m.leading.getLast? = some '\n'

theorem Method.Placed.exists_leadingStart_eq {src : Source} {body : ClassBody} {m : Method}
    (h : m.Placed src body) : ∃ i, m.leadingStart = i + 1 ∧ src.text[i]? = some '\n' := by
  obtain ⟨i, hi⟩ := Nat.exists_eq_add_of_lt h.openBrace_lt
  have hfeed := h.lineFeed_before
  rw [hi, Nat.add_sub_cancel] at hfeed
  exact ⟨_, hi, hfeed⟩

namespace ClassBody

variable {src : Source} {body : ClassBody} {skipped : List Region}

theorem placed_declared {previous : Nat} (place : Nat) {head : MethodHead} {ending : DeclarationEnd}
    {inner : Nat} (hextent : body.extent? src skipped head = some (ending, inner))
    (hclose : body.closeBrace ≤ src.text.length) (hopen : body.openBrace < previous)
    (hprevious : previous ≤ head.start) (hline : src.text[head.start - 1]? = some '\n')
    (hparenthesis : head.start ≤ head.parenthesis) :
    (body.declared src skipped previous place head ending inner).Placed src body ∧
      previous ≤ (body.declared src skipped previous place head ending inner).leadingStart := by
  obtain ⟨hbehind, hposition, hinner, hle⟩ := extent?_bounds hextent
  obtain ⟨hafter, hstop⟩ := afterTrailingComment_bounds src hle
  set floor := leadingFloor skipped previous head.start
  have hfloor : previous ≤ floor := le_leadingFloor previous head.start
  have hfloor' : floor ≤ head.start := leadingFloor_le hprevious
  obtain ⟨hlength, htext, hfeed, hends⟩ :=
    Source.leadingLines_spec hfloor' (by omega) (by omega) hline
  have hstart : (body.declared src skipped previous place head ending inner).leadingStart =
      head.start - (src.leadingLines floor head.start).length := rfl
  refine ⟨⟨?_, rfl, ?_, ?_, ?_, hstop, ?_, hends⟩, ?_⟩
  · rw [hstart]
    exact htext
  · omega
  · rw [hstart]
    exact Nat.sub_le _ _
  · change head.start < body.afterTrailingComment src inner
    omega
  · rw [hstart]
    exact hfeed
  · omega

/-- The methods stand in the body one behind the other, from `previous` on, and are numbered from
`place` on. -/
def Tiles (src : Source) (body : ClassBody) : Nat → Nat → List Method → Prop
  | _, _, [] => True
  | previous, place, m :: rest =>
    m.Placed src body ∧ previous ≤ m.leadingStart ∧ m.position = place ∧
      Tiles src body m.stop (place + 1) rest

end ClassBody

/-- Where the last of the methods ends, or the position given if there are none. -/
def Method.lastStop (previous : Nat) : List Method → Nat
  | [] => previous
  | m :: rest => lastStop m.stop rest

@[simp]
theorem Method.lastStop_concat (previous : Nat) (front : List Method) (m : Method) :
    lastStop previous (front ++ [m]) = m.stop := by
  induction front generalizing previous with
  | nil => rfl
  | cons first rest ih => exact ih first.stop

def Finding.method? : Finding → Option Method
  | .method m => some m
  | .inPlace _ => none

namespace ClassBody

variable {src : Source} {body : ClassBody} {skipped : List Region}

/-- Every method found is declared by one of the heads that the search goes through, behind the
methods found before it, or behind the position that it started from. -/
theorem exists_declared_of_findMembers_eq {heads : List MethodHead}
    (hheads : ∀ head ∈ heads, head.start ≤ head.parenthesis) {resume previous place : Nat}
    (hresume : previous ≤ resume) {front back : List Method} {m : Method}
    (h : (body.findMembers src skipped resume previous place heads).filterMap Finding.method? =
      front ++ m :: back) :
    ∃ head ∈ heads, ∃ place ending inner, Method.lastStop previous front ≤ head.start ∧
      body.Declares src skipped head ending inner ∧
      m = body.declared src skipped (Method.lastStop previous front) place head ending inner := by
  induction heads generalizing resume previous place front with
  | nil => simp [findMembers] at h
  | cons head rest ih =>
    have hrest : ∀ head ∈ rest, head.start ≤ head.parenthesis :=
      fun other hother ↦ hheads other (List.mem_cons_of_mem _ hother)
    have hlater {resume previous place : Nat} {front : List Method} (hresume : previous ≤ resume)
        (h : (body.findMembers src skipped resume previous place rest).filterMap Finding.method? =
          front ++ m :: back) :
        ∃ other ∈ head :: rest, ∃ place ending inner,
          Method.lastStop previous front ≤ other.start ∧
          body.Declares src skipped other ending inner ∧
          m = body.declared src skipped (Method.lastStop previous front) place other ending
            inner := by
      obtain ⟨other, hother, hdeclared⟩ := ih hrest hresume h
      exact ⟨other, List.mem_cons_of_mem _ hother, hdeclared⟩
    by_cases hearly : head.start < resume
    · rw [findMembers_cons_of_lt hearly] at h
      exact hlater hresume h
    · have hreached : resume ≤ head.start := Nat.not_lt.mp hearly
      rcases holds_or_refuses_or_declares src body skipped head with
        ⟨region, hregion⟩ | hrefuses | ⟨ending, inner, hdeclares⟩
      · rw [findMembers_cons_of_holding hreached hregion] at h
        have hin := List.find?_some hregion
        simp only [Region.contains, Bool.and_eq_true, decide_eq_true_eq] at hin
        exact hlater (by omega) h
      · rw [findMembers_cons_of_refuses hreached hrefuses] at h
        exact hlater hresume h
      · rw [findMembers_cons_of_declares hreached hdeclares] at h
        split_ifs at h
        · obtain ⟨rfl, hm⟩ | ⟨front, rfl, hbehind⟩ := List.cons_eq_append_iff.mp h
          · exact ⟨head, List.mem_cons_self, place, ending, inner, hresume.trans hreached, hdeclares,
              (List.cons_eq_cons.mp hm).1⟩
          · have hdeclared := hlater (Nat.le_refl (body.afterTrailingComment src inner)) hbehind
            exact hdeclared
        · have hparenthesis := hheads head List.mem_cons_self
          obtain ⟨hopen, hposition, hinner, hle⟩ := extent?_bounds hdeclares.extent_eq
          obtain ⟨hbehind, -⟩ := afterTrailingComment_bounds src hle
          exact hlater (by omega) h

/-- The search keeps the methods apart: what resumes behind a method or a region never goes back
behind the last method found. -/
theorem tiles_findMembers (hclose : body.closeBrace ≤ src.text.length) {heads : List MethodHead}
    (hheads : ∀ head ∈ heads, body.openBrace < head.start ∧
      src.text[head.start - 1]? = some '\n' ∧ head.start ≤ head.parenthesis)
    {resume previous place : Nat} (hopen : body.openBrace < previous)
    (hresume : previous ≤ resume) :
    Tiles src body previous place
      ((body.findMembers src skipped resume previous place heads).filterMap Finding.method?) := by
  induction heads generalizing resume previous place with
  | nil => exact trivial
  | cons head rest ih =>
    have hrest : ∀ head ∈ rest, body.openBrace < head.start ∧
        src.text[head.start - 1]? = some '\n' ∧ head.start ≤ head.parenthesis :=
      fun other hother ↦ hheads other (List.mem_cons_of_mem _ hother)
    obtain ⟨-, hline, hparenthesis⟩ := hheads head List.mem_cons_self
    by_cases hearly : head.start < resume
    · rw [findMembers_cons_of_lt hearly]
      exact ih hrest hopen hresume
    · have hreached : resume ≤ head.start := Nat.not_lt.mp hearly
      rcases holds_or_refuses_or_declares src body skipped head with
        ⟨region, hregion⟩ | hrefuses | ⟨ending, inner, hdeclares⟩
      · rw [findMembers_cons_of_holding hreached hregion]
        have hin := List.find?_some hregion
        simp only [Region.contains, Bool.and_eq_true, decide_eq_true_eq] at hin
        exact ih hrest hopen (by omega)
      · rw [findMembers_cons_of_refuses hreached hrefuses]
        exact ih hrest hopen hresume
      · obtain ⟨hplaced, hbehind⟩ := placed_declared place hdeclares.extent_eq hclose
          hopen (hresume.trans hreached) hline hparenthesis
        have hstart : head.start < body.afterTrailingComment src inner := hplaced.start_lt
        rw [findMembers_cons_of_declares hreached hdeclares]
        split_ifs with hstarts
        · have hopen' : body.openBrace < body.afterTrailingComment src inner := by omega
          exact ⟨hplaced, hbehind, rfl, ih hrest hopen' (Nat.le_refl _)⟩
        · exact ih hrest hopen (by omega)

theorem tiles_members (hclose : body.closeBrace ≤ src.text.length) :
    Tiles src body (body.openBrace + 1) 0
      ((body.members src skipped).filterMap Finding.method?) := by
  refine tiles_findMembers hclose (fun head hhead ↦ ?_) (Nat.lt_succ_self _) (Nat.le_refl _)
  obtain ⟨hstart, hstop, -, hparenthesis⟩ := MethodHead.mem_allBetween hhead
  refine ⟨hstart, ?_, hparenthesis⟩
  exact MethodHead.feed_before_of_mem_allBetween hhead (by omega) (by omega)

end ClassBody

namespace Layout

theorem methods_segmentsFrom (text : Text) (m : Method) (rest : List Method) :
    (segmentsFrom text m rest).filterMap Segment.method? = m :: rest := by
  induction rest generalizing m with
  | nil => rfl
  | cons next rest ih =>
    rw [segmentsFrom, List.filterMap_cons, List.filterMap_cons, ih]
    rfl

/-- Slots and gaps alternate, and every gap is what the source holds between two methods. -/
theorem getElem?_segmentsFrom (text : Text) (m : Method) (rest : List Method) :
    (segmentsFrom text m rest).length = 2 * rest.length + 1 ∧
      (∀ i method, (m :: rest)[i]? = some method →
        (segmentsFrom text m rest)[2 * i]? = some (.slot method)) ∧
      ∀ i method next, (m :: rest)[i]? = some method → (m :: rest)[i + 1]? = some next →
        (segmentsFrom text m rest)[2 * i + 1]? =
          some (.gap (text.extract method.stop next.leadingStart)) := by
  induction rest generalizing m with
  | nil =>
    refine ⟨rfl, fun i method h ↦ ?_, fun i method next _ hnext ↦ by simp at hnext⟩
    rcases i with _ | i
    · simpa [segmentsFrom] using h
    · simp at h
  | cons other rest ih =>
    obtain ⟨hlength, hslots, hgaps⟩ := ih other
    rw [segmentsFrom]
    refine ⟨?_, fun i method h ↦ ?_, fun i method next h hnext ↦ ?_⟩
    · simp only [List.length_cons, hlength]
      omega
    · rcases i with _ | i
      · simpa using h
      · exact hslots i method (by simpa using h)
    · rcases i with _ | i
      · simp only [List.getElem?_cons_zero, Option.some.injEq, List.getElem?_cons_succ,
          Nat.zero_add] at h hnext
        rw [← h, ← hnext]
        rfl
      · exact hgaps i method next (by simpa using h) (by simpa using hnext)

theorem block_eq {src : Source} {body : ClassBody} {m : Method} (h : m.Placed src body) :
    m.block = src.text.extract m.leadingStart m.stop := by
  rw [Method.block, ← h.leading_eq, ← h.text_eq]
  exact extract_append_extract _ h.leadingStart_le h.start_lt.le

/-- The segments from a method on make up the source from its leading lines to the end of the last
method. -/
theorem flatten_segmentsFrom {src : Source} {body : ClassBody} {previous place : Nat} {m : Method}
    {rest : List Method} (h : body.Tiles src previous place (m :: rest)) :
    ((segmentsFrom src.text m rest).map Segment.text).flatten =
        src.text.extract m.leadingStart (rest.getLast?.getD m).stop ∧
      m.leadingStart ≤ (rest.getLast?.getD m).stop := by
  induction rest generalizing previous place m with
  | nil =>
    have hplaced := h.1
    refine ⟨?_, hplaced.leadingStart_le.trans hplaced.start_lt.le⟩
    simp only [segmentsFrom, List.map_cons, List.map_nil, List.flatten_cons, List.flatten_nil,
      List.append_nil, List.getLast?_nil, Option.getD_none]
    exact block_eq hplaced
  | cons next rest ih =>
    obtain ⟨hplaced, -, -, htiles⟩ := h
    obtain ⟨hflat, hle⟩ := ih htiles
    have hlast : (next :: rest).getLast?.getD m = rest.getLast?.getD next := by
      rw [List.getLast?_cons, Option.getD_some]
    have hgap : m.stop ≤ next.leadingStart := htiles.2.1
    have hblock : m.leadingStart ≤ m.stop := hplaced.leadingStart_le.trans hplaced.start_lt.le
    rw [hlast]
    refine ⟨?_, hblock.trans (hgap.trans hle)⟩
    rw [segmentsFrom, List.map_cons, List.map_cons, List.flatten_cons, List.flatten_cons, hflat]
    simp only [Segment.text]
    rw [block_eq hplaced, extract_append_extract _ hgap hle,
      extract_append_extract _ hblock (hgap.trans hle)]

section OfMembers

variable (src : Source) (body : ClassBody) (skipped : List Region) {members : List Finding}

theorem body_ofMembers (members : List Finding) : (ofMembers src body skipped members).body = body := by
  unfold ofMembers
  simp only
  split <;> rfl

theorem ofMembers_of_nil (h : members.filterMap Finding.method? = []) :
    (ofMembers src body skipped members).head = src.text ∧
      (ofMembers src body skipped members).segments = [] ∧
      (ofMembers src body skipped members).tail = [] := by
  unfold ofMembers
  simp only
  split
  · exact ⟨rfl, rfl, rfl⟩
  · rename_i hmethods
    exact absurd (hmethods.symm.trans h) (List.cons_ne_nil _ _)

theorem ofMembers_of_cons {first : Method} {rest : List Method}
    (h : members.filterMap Finding.method? = first :: rest) :
    (ofMembers src body skipped members).head = src.text.take first.leadingStart ∧
      (ofMembers src body skipped members).segments = segmentsFrom src.text first rest ∧
      (ofMembers src body skipped members).tail =
        src.text.drop (rest.getLast?.getD first).stop := by
  unfold ofMembers
  simp only
  split
  · rename_i hmethods
    exact absurd (h.symm.trans hmethods) (List.cons_ne_nil _ _)
  · rename_i hmethods
    obtain ⟨rfl, rfl⟩ := List.cons_eq_cons.mp (hmethods.symm.trans h)
    exact ⟨rfl, rfl, rfl⟩

theorem skipped_ofMembers (members : List Finding) :
    (ofMembers src body skipped members).skipped = skipped := by
  unfold ofMembers
  simp only
  split <;> rfl

theorem methods_ofMembers (members : List Finding) :
    (ofMembers src body skipped members).methods = members.filterMap Finding.method? := by
  unfold methods
  cases h : members.filterMap Finding.method? with
  | nil => rw [(ofMembers_of_nil src body skipped h).2.1, List.filterMap_nil]
  | cons first rest => rw [(ofMembers_of_cons src body skipped h).2.1, methods_segmentsFrom]

/-- The parts of a layout, put together, are the source. -/
theorem source_ofMembers
    (h : body.Tiles src (body.openBrace + 1) 0 (members.filterMap Finding.method?)) :
    (ofMembers src body skipped members).source = src.text := by
  unfold source
  cases hmethods : members.filterMap Finding.method? with
  | nil =>
    obtain ⟨hhead, hsegments, htail⟩ := ofMembers_of_nil src body skipped hmethods
    rw [hhead, hsegments, htail, List.map_nil, List.flatten_nil, List.append_nil, List.append_nil]
  | cons first rest =>
    obtain ⟨hhead, hsegments, htail⟩ := ofMembers_of_cons src body skipped hmethods
    rw [hmethods] at h
    obtain ⟨hflat, hle⟩ := flatten_segmentsFrom h
    rw [hhead, hsegments, htail, hflat, take_append_extract _ hle, List.take_append_drop]

end OfMembers

end Layout

namespace ClassBody

variable {src : Source} {body : ClassBody}

theorem Tiles.placed {previous place : Nat} {methods : List Method}
    (h : body.Tiles src previous place methods) {i : Nat} {m : Method}
    (hm : methods[i]? = some m) : m.Placed src body ∧ m.position = place + i := by
  induction methods generalizing previous place i with
  | nil => simp at hm
  | cons first rest ih =>
    obtain ⟨hplaced, -, hposition, hrest⟩ := h
    rcases i with _ | i
    · cases hm
      exact ⟨hplaced, hposition⟩
    · obtain ⟨hplaced', hposition'⟩ := ih hrest (by simpa using hm)
      exact ⟨hplaced', by omega⟩

theorem Tiles.placed_of_mem {previous place : Nat} {methods : List Method}
    (h : body.Tiles src previous place methods) {m : Method} (hm : m ∈ methods) :
    m.Placed src body := by
  obtain ⟨i, hi⟩ := List.getElem?_of_mem hm
  exact (h.placed hi).1

theorem Tiles.map_position {previous place : Nat} {methods : List Method}
    (h : body.Tiles src previous place methods) :
    methods.map Method.position = List.range' place methods.length := by
  induction methods generalizing previous place with
  | nil => rfl
  | cons first rest ih =>
    obtain ⟨-, -, hposition, hrest⟩ := h
    rw [List.map_cons, ih hrest, hposition, List.length_cons, List.range'_succ]

/-- No two methods of a body are the same, for they have different places. -/
theorem Tiles.nodup {previous place : Nat} {methods : List Method}
    (h : body.Tiles src previous place methods) : methods.Nodup := by
  refine List.Nodup.of_map Method.position ?_
  rw [h.map_position]
  exact List.nodup_range'

theorem Tiles.stop_le {previous place : Nat} {methods : List Method}
    (h : body.Tiles src previous place methods) {i : Nat} {m next : Method}
    (hm : methods[i]? = some m) (hnext : methods[i + 1]? = some next) :
    m.stop ≤ next.leadingStart := by
  induction methods generalizing previous place i with
  | nil => simp at hm
  | cons first rest ih =>
    rcases i with _ | i
    · cases hm
      rcases rest with _ | ⟨second, rest⟩
      · simp at hnext
      · cases hnext
        exact h.2.2.2.2.1
    · exact ih h.2.2.2 (by simpa using hm) (by simpa using hnext)

end ClassBody

/-- The end of what cannot lead a declaration at `start`: of the methods before it, or of what opens
the body, and of the regions before it that are passed over. -/
def Layout.floorBefore (layout : Layout) (front : List Method) (start : Nat) : Nat :=
  ClassBody.leadingFloor layout.skipped (Method.lastStop (layout.body.openBrace + 1) front) start

namespace Reading

/-- A complete reading is the layout of the methods found in the body of the first class. -/
theorem ofSource_eq_complete {src : Source} {layout : Layout}
    (h : ofSource src = .complete layout) :
    src.firstClass? = some (layout.body.name, layout.body.openBrace) ∧
      src.closingBrace? layout.body.openBrace = some layout.body.closeBrace ∧
      layout = Layout.ofMembers src layout.body (layout.body.skippedRegions src)
        (layout.body.members src (layout.body.skippedRegions src)) := by
  unfold ofSource at h
  split at h
  · cases h
  · rename_i name openBrace hclass
    split at h
    · cases h
    · rename_i closeBrace hclose
      simp only [complete.injEq] at h
      subst h
      rw [Layout.body_ofMembers]
      exact ⟨hclass, hclose, rfl⟩

theorem tiles_of_complete {src : Source} {layout : Layout} (h : ofSource src = .complete layout) :
    layout.body.Tiles src (layout.body.openBrace + 1) 0 layout.methods := by
  obtain ⟨-, hclose, hlayout⟩ := ofSource_eq_complete h
  rw [hlayout, Layout.methods_ofMembers, Layout.body_ofMembers]
  exact ClassBody.tiles_members (Source.closeOf?_bounds hclose).2.le

theorem skipped_of_complete {src : Source} {layout : Layout} (h : ofSource src = .complete layout) :
    layout.skipped = layout.body.skippedRegions src := by
  obtain ⟨-, -, hlayout⟩ := ofSource_eq_complete h
  rw [hlayout, Layout.skipped_ofMembers, Layout.body_ofMembers]

/-- A method of a complete reading is declared by a head in the class body, behind the methods
before it. -/
theorem exists_declared {src : Source} {layout : Layout} (h : ofSource src = .complete layout)
    {front back : List Method} {m : Method} (hsplit : layout.methods = front ++ m :: back) :
    ∃ head ∈ MethodHead.allBetween src.text (layout.body.openBrace + 1) layout.body.closeBrace,
      ∃ place ending inner,
        Method.lastStop (layout.body.openBrace + 1) front ≤ head.start ∧
        layout.body.Declares src (layout.body.skippedRegions src) head ending inner ∧
        m = layout.body.declared src (layout.body.skippedRegions src)
          (Method.lastStop (layout.body.openBrace + 1) front) place head ending inner := by
  obtain ⟨-, -, hlayout⟩ := ofSource_eq_complete h
  rw [hlayout, Layout.methods_ofMembers] at hsplit
  exact ClassBody.exists_declared_of_findMembers_eq
    (fun _ hhead ↦ (MethodHead.mem_allBetween hhead).2.2.2) (Nat.le_refl _) hsplit

theorem exists_head_of_mem_methods {src : Source} {layout : Layout}
    (h : ofSource src = .complete layout) {m : Method} (hm : m ∈ layout.methods) :
    ∃ head ∈ MethodHead.allBetween src.text (layout.body.openBrace + 1) layout.body.closeBrace,
      ∃ previous place ending inner, previous ≤ head.start ∧
        layout.body.Declares src (layout.body.skippedRegions src) head ending inner ∧
        m = layout.body.declared src (layout.body.skippedRegions src) previous place head ending
          inner := by
  obtain ⟨front, back, hsplit⟩ := List.append_of_mem hm
  obtain ⟨head, hhead, place, ending, inner, hdeclared⟩ := exists_declared h hsplit
  exact ⟨head, hhead, _, place, ending, inner, hdeclared⟩

/-- A method begins behind a line feed. -/
theorem feed_before_start {src : Source} {layout : Layout} (h : ofSource src = .complete layout)
    {m : Method} (hm : m ∈ layout.methods) : src.text[m.start - 1]? = some '\n' := by
  obtain ⟨head, hhead, _, _, _, _, -, -, rfl⟩ := exists_head_of_mem_methods h hm
  obtain ⟨hopen, hstop, -, -⟩ := MethodHead.mem_allBetween hhead
  have hclose := (Source.closeOf?_bounds (ofSource_eq_complete h).2.1).2
  exact MethodHead.feed_before_of_mem_allBetween hhead (Nat.zero_lt_of_lt hopen)
    (hstop.le.trans hclose.le)

/-- A method has a parameter list, whose parenthesis opens on the line where the method starts. -/
theorem exists_parameters {src : Source} {layout : Layout} (h : ofSource src = .complete layout)
    {m : Method} (hm : m ∈ layout.methods) :
    ∃ opening closing, m.start ≤ opening ∧ closing < m.stop ∧
      src.closingParenthesis? opening = some closing ∧
      ∀ c ∈ src.text.extract m.start opening, c ≠ '\n' := by
  obtain ⟨head, hhead, previous, place, ending, inner, -, hdeclares, rfl⟩ :=
    exists_head_of_mem_methods h hm
  obtain ⟨-, hposition, hinner, hle⟩ := ClassBody.extent?_bounds hdeclares.extent_eq
  obtain ⟨hstop, -⟩ := ClassBody.afterTrailingComment_bounds src hle
  obtain ⟨-, hending, -, -⟩ := ClassBody.extent?_eq_some hdeclares.extent_eq
  refine ⟨head.parenthesis, ending.parenthesis, (MethodHead.mem_allBetween hhead).2.2.2, ?_,
    (ClassBody.declarationEnd?_eq_some hending).1, MethodHead.ne_feed_of_mem_allBetween hhead⟩
  change ending.parenthesis < layout.body.afterTrailingComment src inner
  omega

/-- The leading lines of a method are the lines before it from the floor on. -/
theorem leading_eq_leadingLines {src : Source} {layout : Layout}
    (h : ofSource src = .complete layout) {front back : List Method} {m : Method}
    (hsplit : layout.methods = front ++ m :: back) :
    layout.floorBefore front m.start ≤ m.start ∧
      m.leading = src.leadingLines (layout.floorBefore front m.start) m.start := by
  obtain ⟨head, -, place, ending, inner, hprevious, -, rfl⟩ := exists_declared h hsplit
  rw [Layout.floorBefore, skipped_of_complete h]
  exact ⟨ClassBody.leadingFloor_le hprevious, rfl⟩

/-- A complete reading is of the source that its layout puts together. -/
theorem source_of_complete {src : Source} {layout : Layout} (h : ofSource src = .complete layout) :
    layout.source = src.text := by
  have htiles := tiles_of_complete h
  obtain ⟨-, -, hlayout⟩ := ofSource_eq_complete h
  rw [hlayout, Layout.methods_ofMembers, Layout.body_ofMembers] at htiles
  rw [hlayout]
  exact Layout.source_ofMembers _ _ _ htiles

/-- Reading a source loses nothing of it: the layout put together is the source. The methods are
numbered in order and stand in the class body one behind the other, each with its leading lines
from behind a line feed on; slots and gaps alternate, and every gap is what lies between two
methods. -/
theorem complete_tiles_source {text : Text} {layout : Layout}
    (h : ofText text = .complete layout) :
    layout.source = text ∧
      (∀ (i : Nat) (m : Method), layout.methods[i]? = some m →
        m.position = i ∧ layout.body.openBrace < m.leadingStart ∧ m.leadingStart ≤ m.start ∧
          m.start < m.stop ∧ m.stop ≤ layout.body.closeBrace ∧
          m.leading = text.extract m.leadingStart m.start ∧ m.text = text.extract m.start m.stop ∧
          text[m.leadingStart - 1]? = some '\n' ∧
          (m.leading = [] ∨ m.leading.getLast? = some '\n')) ∧
      (∀ (i : Nat) (m next : Method), layout.methods[i]? = some m →
        layout.methods[i + 1]? = some next → m.stop ≤ next.leadingStart) ∧
      layout.segments.length = 2 * layout.methods.length - 1 ∧
      (∀ (i : Nat) (m : Method), layout.methods[i]? = some m →
        layout.segments[2 * i]? = some (.slot m)) ∧
      ∀ (i : Nat) (m next : Method), layout.methods[i]? = some m →
        layout.methods[i + 1]? = some next →
          layout.segments[2 * i + 1]? = some (.gap (text.extract m.stop next.leadingStart)) := by
  have htiles := tiles_of_complete h
  obtain ⟨-, -, hlayout⟩ := ofSource_eq_complete h
  have hmethods : (layout.body.members (Source.ofText text)
      (layout.body.skippedRegions (Source.ofText text))).filterMap Finding.method? =
        layout.methods := by
    rw [← Layout.methods_ofMembers, ← hlayout]
  refine ⟨?_, fun i m hm ↦ ?_, fun i m next ↦ htiles.stop_le, ?_⟩
  · exact source_of_complete h
  · obtain ⟨hplaced, hposition⟩ := htiles.placed hm
    exact ⟨by omega, hplaced.openBrace_lt, hplaced.leadingStart_le, hplaced.start_lt,
      hplaced.stop_le, hplaced.leading_eq.symm, hplaced.text_eq.symm, hplaced.lineFeed_before,
      hplaced.leading_ends⟩
  · cases hlist : layout.methods with
    | nil =>
      rw [hlayout, (Layout.ofMembers_of_nil _ _ _ (hmethods.trans hlist)).2.1]
      simp
    | cons first rest =>
      have hsegments := (Layout.ofMembers_of_cons (Source.ofText text) layout.body
        (layout.body.skippedRegions (Source.ofText text)) (hmethods.trans hlist)).2.1
      rw [← hlayout] at hsegments
      rw [hsegments]
      obtain ⟨hlength, hslots, hgaps⟩ := Layout.getElem?_segmentsFrom text first rest
      refine ⟨?_, hslots, hgaps⟩
      change (Layout.segmentsFrom text first rest).length = 2 * (first :: rest).length - 1
      rw [hlength, List.length_cons]
      omega

/-- A reading whose layout passes a check is complete. -/
theorem exists_complete_of_any {reading : Reading} {check : Layout → Bool}
    (h : reading.layout?.any check = true) :
    ∃ layout, reading = .complete layout ∧ check layout = true := by
  cases reading with
  | noClass => simp [layout?] at h
  | unclosed name openBrace => simp [layout?] at h
  | complete layout => exact ⟨layout, rfl, by simpa [layout?] using h⟩

theorem exists_complete_of_mem_methods {reading : Reading} {m : Method} (h : m ∈ reading.methods) :
    ∃ layout, reading = .complete layout ∧ m ∈ layout.methods := by
  cases reading with
  | noClass => simp [methods, layout?] at h
  | unclosed name openBrace => simp [methods, layout?] at h
  | complete layout => exact ⟨layout, rfl, h⟩

/-- A class with a documented method, a field that stays between two methods, and a method without
a body. -/
def twoMethodSource : Text :=
  ("class A \x7b\n  /** Counts. */\n  int count() \x7b return n; \x7d\n" ++
    "  int n;\n  void reset();\n\x7d\n").toList

theorem twoMethodSource_tiles :
    ∃ layout, ofText twoMethodSource = .complete layout ∧ layout.methods.length = 2 ∧
      layout.source = twoMethodSource ∧ layout.segments.length = 3 := by
  have hsome : (ofText twoMethodSource).layout?.any (·.methods.length == 2) := by decide +kernel
  cases h : ofText twoMethodSource with
  | noClass => simp [h, layout?] at hsome
  | unclosed name openBrace => simp [h, layout?] at hsome
  | complete layout =>
    have hlength : layout.methods.length = 2 := by simpa [h, layout?] using hsome
    obtain ⟨hsource, -, -, hsegments, -⟩ := complete_tiles_source h
    exact ⟨layout, rfl, hlength, hsource, by rw [hsegments, hlength]⟩

end Reading

end MemberOrder
