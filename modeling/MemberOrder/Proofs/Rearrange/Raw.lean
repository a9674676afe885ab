import MemberOrder.Proofs.Rearrange.Safety
import MemberOrder.Proofs.Text.Raw
import MemberOrder.Rearrange.Raw

/-!
Rearranging raw texts against rearranging texts. The shadow of a rearranged raw text is its shadow
rearranged, and no surrogate is made up; so raw texts can be rearranged wherever texts can, and a
text is rearranged as itself.
-/

set_option autoImplicit false

namespace MemberOrder

namespace Text

theorem trimRight_prefix (t : Text) : trimRight t <+: t := by
  obtain ⟨blanks, hsplit, -⟩ := exists_eq_trimRight_append t
  exact ⟨blanks, hsplit.symm⟩

end Text

namespace RawText

/-! ### Shadows of pieces -/

@[simp] theorem shadow_take (n : Nat) (t : RawText) : shadow (t.take n) = t.shadow.take n :=
  List.map_take

@[simp] theorem shadow_drop (n : Nat) (t : RawText) : shadow (t.drop n) = t.shadow.drop n :=
  List.map_drop

@[simp] theorem shadow_extract (start stop : Nat) (t : RawText) :
    shadow (t.extract start stop) = t.shadow.extract start stop := by
  simp [List.extract_eq_take_drop]

@[simp] theorem shadow_dropEmptyLines (t : RawText) :
    (dropEmptyLines t).shadow = Text.dropEmptyLines t.shadow := by
  rw [dropEmptyLines, shadow_drop, ← length_shadow t]
  exact (List.suffix_iff_eq_drop.mp (Text.dropEmptyLines_suffix t.shadow)).symm

@[simp] theorem shadow_trimRight (t : RawText) :
    (trimRight t).shadow = Text.trimRight t.shadow := by
  rw [trimRight, shadow_take]
  exact (List.prefix_iff_eq_take.mp (Text.trimRight_prefix t.shadow)).symm

theorem shadow_joined (separator : RawText) (pieces : List RawText) :
    shadow (Text.joined separator pieces) = Text.joined separator.shadow (pieces.map shadow) := by
  fun_induction Text.joined separator pieces with
  | case1 => rfl
  | case2 piece => rfl
  | case3 piece next others ih =>
    rw [shadow_append, shadow_append, ih]
    rfl

theorem shadow_eq_nil_iff {t : RawText} : t.shadow = [] ↔ t = [] := List.map_eq_nil_iff

/-- A raw text without surrogates is the text that its shadow is. -/
theorem eq_ofText_shadow {t : RawText} (h : ∀ c ∈ t, c.isSurrogate = false) :
    t = ofText t.shadow := by
  induction t with
  | nil => rfl
  | cons c rest ih =>
    obtain ⟨hc, hrest⟩ := List.forall_mem_cons.mp h
    cases c with
    | scalar d => exact congrArg (RawChar.scalar d :: ·) (ih hrest)
    | surrogate n => cases hc

theorem isSurrogate_of_mem_ofText {t : Text} {c : RawChar} (h : c ∈ ofText t) :
    c.isSurrogate = false := by
  obtain ⟨d, -, rfl⟩ := List.mem_map.mp h
  rfl

theorem mem_of_mem_joined {separator : RawText} {pieces : List RawText} {c : RawChar}
    (h : c ∈ Text.joined separator pieces) : c ∈ separator ∨ ∃ piece ∈ pieces, c ∈ piece := by
  fun_induction Text.joined separator pieces with
  | case1 => cases h
  | case2 piece => exact Or.inr ⟨piece, List.mem_singleton.mpr rfl, h⟩
  | case3 piece next others ih =>
    rcases List.mem_append.mp h with h | h
    · rcases List.mem_append.mp h with h | h
      · exact Or.inr ⟨piece, List.mem_cons_self, h⟩
      · exact Or.inl h
    · rcases ih h with h | ⟨other, hother, h⟩
      · exact Or.inl h
      · exact Or.inr ⟨other, List.mem_cons_of_mem _ hother, h⟩

end RawText

/-! ### Blocks -/

namespace Method

theorem Placed.shadow_renderedRaw {source : RawText} {body : ClassBody} {m : Method}
    (h : m.Placed (.ofText source.shadow) body) :
    (m.renderedRaw source).shadow = m.rendered := by
  have hleading : source.shadow.extract m.leadingStart m.start = m.leading := h.leading_eq
  have htext : source.shadow.extract m.start m.stop = m.text := h.text_eq
  simp only [renderedRaw, rendered, apply_ite RawText.shadow, RawText.shadow_append,
    RawText.shadow_dropEmptyLines, RawText.shadow_extract, hleading, htext]

theorem renderedRaw_subset (source : RawText) (m : Method) : m.renderedRaw source ⊆ source := by
  have hpiece (start stop : Nat) :
      RawText.dropEmptyLines (source.extract start stop) ⊆ source := by
    rw [RawText.dropEmptyLines, List.extract_eq_take_drop]
    exact List.Subset.trans (List.drop_subset _ _)
      (List.Subset.trans (List.take_subset _ _) (List.drop_subset _ _))
  unfold renderedRaw
  simp only
  split_ifs
  · exact hpiece _ _
  · exact List.append_subset.mpr ⟨hpiece _ _, hpiece _ _⟩

end Method

namespace Layout

variable {source : RawText}

/-- The shadows of the raw blocks are the blocks, where what is left of the raw source has the
segments for its shadow. -/
theorem map_shadow_rawBlocks? {segments : List Segment} {methods : List Method}
    (hmethods : ∀ m ∈ methods, (m.renderedRaw source).shadow = m.rendered) {rest : RawText}
    (hrest : (segments.map Segment.text).flatten <+: rest.shadow) :
    (rawBlocks? source rest segments methods).map (List.map RawText.shadow) =
      blocks? segments methods := by
  induction segments generalizing rest methods with
  | nil => rfl
  | cons segment segments ih =>
    obtain ⟨behind, hbehind⟩ := hrest
    rw [List.map_cons, List.flatten_cons, List.append_assoc] at hbehind
    have hdrop : (segments.map Segment.text).flatten <+:
        RawText.shadow (rest.drop segment.text.length) := by
      rw [RawText.shadow_drop, ← hbehind, List.drop_left]
      exact List.prefix_append _ _
    cases segment with
    | slot old =>
      cases methods with
      | nil => rfl
      | cons m methods =>
        obtain ⟨hm, hmethods⟩ := List.forall_mem_cons.mp hmethods
        rw [rawBlocks?, blocks?, ← ih hmethods hdrop, Option.map_map, Option.map_map, ← hm]
        rfl
    | gap text =>
      have hblock : (RawText.trimRight
          (RawText.dropEmptyLines (rest.take text.length))).shadow = Segment.renderedGap text := by
        rw [RawText.shadow_trimRight, RawText.shadow_dropEmptyLines, RawText.shadow_take, ← hbehind]
        exact congrArg Segment.renderedGap List.take_left
      rw [rawBlocks?, blocks?, ← ih hmethods hdrop, ← hblock]
      simp only [List.isEmpty_iff, RawText.shadow_eq_nil_iff, apply_ite (Option.map _),
        Option.map_map]
      rfl

theorem rawBlocks?_subset {segments : List Segment} {methods : List Method} {rest : RawText}
    (hrest : rest ⊆ source) {blocks : List RawText}
    (h : rawBlocks? source rest segments methods = some blocks) :
    ∀ block ∈ blocks, block ⊆ source := by
  induction segments generalizing rest methods blocks with
  | nil =>
    cases h
    exact fun _ hblock ↦ absurd hblock List.not_mem_nil
  | cons segment segments ih =>
    have hdrop (n : Nat) : rest.drop n ⊆ source :=
      List.Subset.trans (List.drop_subset _ _) hrest
    cases segment with
    | slot old =>
      cases methods with
      | nil => cases h
      | cons m methods =>
        obtain ⟨others, hothers, rfl⟩ := Option.map_eq_some_iff.mp h
        exact List.forall_mem_cons.mpr ⟨m.renderedRaw_subset source, ih (hdrop _) hothers⟩
    | gap text =>
      simp only [rawBlocks?] at h
      split_ifs at h
      · exact ih (hdrop _) h
      · obtain ⟨others, hothers, rfl⟩ := Option.map_eq_some_iff.mp h
        refine List.forall_mem_cons.mpr ⟨?_, ih (hdrop _) hothers⟩
        refine List.Subset.trans ?_ hrest
        exact List.Subset.trans (List.take_subset _ _)
          (List.Subset.trans (List.drop_subset _ _) (List.take_subset _ _))

theorem map_shadow_assembleRaw? {layout : Layout} (hsource : layout.source = source.shadow)
    {methods : List Method}
    (hmethods : ∀ m ∈ methods, (m.renderedRaw source).shadow = m.rendered) :
    (layout.assembleRaw? source methods).map RawText.shadow = layout.assemble? methods := by
  have hhead : source.shadow.take layout.head.length = layout.head := by
    rw [← hsource, Layout.source, List.append_assoc, List.take_left]
  have htail : source.shadow.drop (source.length - layout.tail.length) = layout.tail := by
    rw [← RawText.length_shadow, ← hsource, Layout.source, List.length_append,
      Nat.add_sub_cancel, List.drop_left]
  have hrest : (layout.segments.map Segment.text).flatten <+:
      RawText.shadow (source.drop layout.head.length) := by
    rw [RawText.shadow_drop, ← hsource, Layout.source, List.append_assoc, List.drop_left]
    exact List.prefix_append _ _
  rw [assembleRaw?, assemble?, ← map_shadow_rawBlocks? hmethods hrest, Option.map_map,
    Option.map_map]
  congr 1
  funext blocks
  simp only [Function.comp_apply, RawText.shadow_append, RawText.shadow_trimRight,
    RawText.shadow_take, RawText.shadow_drop, RawText.shadow_joined, RawText.shadow_ofText, hhead,
    htail]

/-- Every character of the result is one of the source, or stands between blocks. -/
theorem mem_of_mem_assembleRaw? {layout : Layout} {methods : List Method} {result : RawText}
    (h : layout.assembleRaw? source methods = some result) {c : RawChar} (hc : c ∈ result) :
    c ∈ source ∨ c ∈ RawText.ofText separator := by
  obtain ⟨blocks, hblocks, rfl⟩ := Option.map_eq_some_iff.mp h
  have hsubset := rawBlocks?_subset (List.drop_subset _ _) hblocks
  simp only [List.mem_append] at hc
  rcases hc with ((hc | hc) | hc) | hc
  · exact Or.inl (List.mem_of_mem_take (List.mem_of_mem_take hc))
  · exact Or.inr hc
  · rcases RawText.mem_of_mem_joined hc with hc | ⟨block, hblock, hc⟩
    · exact Or.inr hc
    · exact Or.inl (hsubset block hblock hc)
  · exact Or.inl (List.mem_of_mem_drop hc)

end Layout

/-! ### Sources -/

namespace Rearrange

variable {source : RawText}

theorem map_shadow_placeRaw {layout : Layout} (h : movable? source.shadow = some layout)
    {order : List Method} (horder : order.Perm layout.methods) :
    (placeRaw layout source order).map RawText.shadow = place layout order := by
  have hcomplete := (movable?_eq_some h).1
  have hmethods : ∀ m ∈ order, (m.renderedRaw source).shadow = m.rendered := fun m hm ↦
    ((Reading.tiles_of_complete hcomplete).placed_of_mem (horder.mem_iff.mp hm)).shadow_renderedRaw
  have hassemble :=
    Layout.map_shadow_assembleRaw? (Reading.source_of_complete hcomplete) hmethods
  rw [placeRaw, place, ← hassemble]
  cases layout.assembleRaw? source order <;> rfl

theorem mem_of_mem_placeRaw {layout : Layout} {order : List Method} {result : RawText}
    (h : placeRaw layout source order = .ok result) {c : RawChar} (hc : c ∈ result) :
    c ∈ source ∨ c ∈ RawText.ofText Layout.separator := by
  unfold placeRaw at h
  split at h
  · rename_i assembled hassembled
    cases h
    exact Layout.mem_of_mem_assembleRaw? hassembled hc
  · cases h

/-- Sorting a raw text sorts its shadow. -/
theorem map_shadow_sortRaw (options : Options) (source : RawText) :
    (sortRaw options source).map RawText.shadow = sort options source.shadow := by
  unfold sortRaw sort
  cases hmovable : movable? source.shadow with
  | none => rfl
  | some layout =>
    simp only
    cases horder : options.ordered? layout.methods with
    | none => rfl
    | some order => exact map_shadow_placeRaw hmovable (Options.perm_of_ordered? horder)

/-- Shuffling a raw text shuffles its shadow. -/
theorem map_shadow_shuffleRaw (indexes : IndexSource) (source : RawText) :
    (shuffleRaw indexes source).map RawText.shadow =
      (shuffle indexes source.shadow).map Prod.fst := by
  unfold shuffleRaw shuffle
  cases hmovable : movable? source.shadow with
  | none => rfl
  | some layout =>
    simp only
    cases horder : shuffle? indexes layout.methods with
    | none => rfl
    | some found =>
      obtain ⟨order, rest⟩ := found
      simp only
      rw [map_shadow_placeRaw hmovable (Shuffle.from?_perm horder)]
      cases place layout order <;> rfl

/-- What is placed from a text has no surrogates. -/
theorem isSurrogate_of_placeRaw_ofText {layout : Layout} {t : Text} {order : List Method}
    {result : RawText} (h : placeRaw layout (.ofText t) order = .ok result) :
    ∀ c ∈ result, c.isSurrogate = false := by
  intro c hc
  rcases mem_of_mem_placeRaw h hc with hc | hc <;> exact RawText.isSurrogate_of_mem_ofText hc

theorem eq_map_ofText_of_shadow {raw : Except Fault RawText} {result : Except Fault Text}
    (hshadow : raw.map RawText.shadow = result)
    (hplain : ∀ t, raw = .ok t → ∀ c ∈ t, c.isSurrogate = false) :
    raw = result.map RawText.ofText := by
  subst hshadow
  cases raw with
  | error f => rfl
  | ok t => exact congrArg Except.ok (RawText.eq_ofText_shadow (hplain t rfl))

/-- A text is sorted as itself. -/
theorem sortRaw_ofText (options : Options) (t : Text) :
    sortRaw options (.ofText t) = (sort options t).map RawText.ofText := by
  have hshadow := map_shadow_sortRaw options (.ofText t)
  rw [RawText.shadow_ofText] at hshadow
  refine eq_map_ofText_of_shadow hshadow fun result hresult ↦ ?_
  unfold sortRaw at hresult
  split at hresult
  · cases hresult
    exact fun c hc ↦ RawText.isSurrogate_of_mem_ofText hc
  · split at hresult
    · cases hresult
    · exact isSurrogate_of_placeRaw_ofText hresult

/-- A text is shuffled as itself. -/
theorem shuffleRaw_ofText (indexes : IndexSource) (t : Text) :
    shuffleRaw indexes (.ofText t) =
      ((shuffle indexes t).map Prod.fst).map RawText.ofText := by
  have hshadow := map_shadow_shuffleRaw indexes (.ofText t)
  rw [RawText.shadow_ofText] at hshadow
  refine eq_map_ofText_of_shadow hshadow fun result hresult ↦ ?_
  unfold shuffleRaw at hresult
  split at hresult
  · cases hresult
    exact fun c hc ↦ RawText.isSurrogate_of_mem_ofText hc
  · split at hresult
    · cases hresult
    · exact isSurrogate_of_placeRaw_ofText hresult

theorem exists_sortRaw_eq (options : Options) (source : RawText) :
    ∃ result, sortRaw options source = .ok result := by
  obtain ⟨result, hresult⟩ := exists_sort_eq options source.shadow
  rw [← map_shadow_sortRaw] at hresult
  cases hraw : sortRaw options source with
  | error f => simp [hraw, Except.map] at hresult
  | ok raw => exact ⟨raw, rfl⟩

theorem exists_shuffleRaw_eq {indexes : IndexSource} {source : RawText}
    (h : indexes.InRange ((Reading.ofText source.shadow).methods.length - 1)) :
    ∃ result, shuffleRaw indexes source = .ok result := by
  obtain ⟨result, rest, hresult⟩ := exists_shuffle_eq h
  have hshadow := map_shadow_shuffleRaw indexes source
  cases hraw : shuffleRaw indexes source with
  | error f => simp [hraw, hresult, Except.map] at hshadow
  | ok raw => exact ⟨raw, rfl⟩

end Rearrange

end MemberOrder
