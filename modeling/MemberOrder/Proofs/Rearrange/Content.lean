import MemberOrder.Proofs.Layout.Content
import MemberOrder.Proofs.Order.Permutation
import MemberOrder.Rearrange

/-!
Sorting and shuffling a source succeed and change only white space and the order of its methods.
The names of methods found in a source can always be collated, so that no order fails; every order
has each method once; and what assembly makes of it differs from the source in white space and in
which method fills which slot.
-/

set_option autoImplicit false

namespace MemberOrder

/-! ### Names -/

theorem Text.collates_of_identifier? {t name : Text} (h : identifier? t = some name) :
    Name.collates name = true := by
  cases t with
  | nil => simp [identifier?] at h
  | cons c rest =>
    simp only [identifier?] at h
    split_ifs at h with hstart
    cases h
    have hfirst : '\x00' ≠ c := by
      rintro rfl
      exact absurd hstart (by decide)
    have hrest : '\x00' ∉ rest.takeWhile isNamePart := fun hmem ↦
      absurd (List.mem_takeWhile_imp hmem) (by decide)
    simp [Name.collates, hfirst, hrest]

namespace MethodHead

theorem collates_of_mem_allBetween {t : Text} {start stop : Nat} {head : MethodHead}
    (h : head ∈ allBetween t start stop) : Name.collates head.name = true := by
  obtain ⟨_, _, _, -, -, hfound, -, -⟩ := exists_line_of_mem_allBetween h
  obtain ⟨word, hword, hrest⟩ := Option.bind_eq_some_iff.mp (findName?_eq_some hfound).2
  split at hrest
  · obtain ⟨rfl, -⟩ := Prod.mk.inj (Option.some.inj hrest)
    exact Text.collates_of_identifier? hword
  · cases hrest

end MethodHead

namespace Reading

/-- The names of the methods of a complete reading can be collated. -/
theorem collates_of_mem_methods {src : Source} {layout : Layout}
    (h : ofSource src = .complete layout) {m : Method} (hm : m ∈ layout.methods) :
    Name.collates m.name = true := by
  obtain ⟨head, hhead, -, -, -, -, -, -, rfl⟩ :=
    exists_head_of_mem_methods h hm
  exact MethodHead.collates_of_mem_allBetween hhead

end Reading

namespace Rearrange

theorem movable?_eq_some {text : Text} {layout : Layout} (h : movable? text = some layout) :
    Reading.ofText text = .complete layout ∧ layout.methods ≠ [] := by
  obtain ⟨hlayout, hmethods⟩ := Option.filter_eq_some_iff.mp h
  refine ⟨?_, by simpa using hmethods⟩
  cases hreading : Reading.ofText text with
  | noClass => simp [hreading, Reading.layout?] at hlayout
  | unclosed name openBrace => simp [hreading, Reading.layout?] at hlayout
  | complete found =>
    rw [hreading, Reading.layout?, Option.some.injEq] at hlayout
    rw [hlayout]

/-- The options find an order for the methods of every source. -/
theorem exists_ordered?_eq {text : Text} {layout : Layout} (h : movable? text = some layout)
    (options : Options) :
    options.ordered? layout.methods = some (options.clustered (options.sorted layout.methods)) :=
  options.ordered?_of_collates fun _ hm ↦
    Reading.collates_of_mem_methods (movable?_eq_some h).1 hm

/-- Placing the methods of a source in any order refills its layout. -/
theorem exists_place_eq {text : Text} {layout : Layout} (h : movable? text = some layout)
    {order : List Method} (horder : order.Perm layout.methods) :
    ∃ result, place layout order = .ok result ∧ layout.Refills order result ∧
      (Text.withoutBlanks result).Perm (Text.withoutBlanks text) := by
  obtain ⟨result, hresult, hrefills⟩ := Layout.exists_assemble?_eq horder.length_eq.ge
  refine ⟨result, by rw [place, hresult], hrefills, ?_⟩
  have hsource : layout.source = text := Reading.source_of_complete (movable?_eq_some h).1
  rw [← hsource]
  exact hrefills.perm_source horder

theorem sort_of_movable? {text : Text} {layout : Layout} (h : movable? text = some layout)
    {options : Options} {order : List Method}
    (horder : options.ordered? layout.methods = some order) :
    sort options text = place layout order := by
  unfold sort
  rw [h]
  simp only
  rw [horder]

theorem shuffle_of_movable? {text : Text} {layout : Layout} (h : movable? text = some layout)
    {source rest : IndexSource} {order : List Method}
    (horder : shuffle? source layout.methods = some (order, rest)) :
    shuffle source text = (place layout order).map fun result ↦ (result, rest) := by
  unfold shuffle
  rw [h]
  simp only
  rw [horder]

/-- Sorting and shuffling a source that has methods change its white space and the order of the
methods, and nothing else. The order has each method once; but for white space the result is what
stands before the methods, then slots filled in that order with the gaps in their places, then what
stands behind the methods, with which the result ends as it is. -/
theorem sort_and_shuffle_refill {text : Text} {layout : Layout} (h : movable? text = some layout) :
    (∀ options : Options, ∃ order result, options.ordered? layout.methods = some order ∧
      order.Perm layout.methods ∧ order.Nodup ∧ sort options text = .ok result ∧
      layout.Refills order result ∧
      (Text.withoutBlanks result).Perm (Text.withoutBlanks text)) ∧
    ∀ source : IndexSource, source.InRange (layout.methods.length - 1) →
      ∃ order rest result, shuffle? source layout.methods = some (order, rest) ∧
        order.Perm layout.methods ∧ order.Nodup ∧ shuffle source text = .ok (result, rest) ∧
        layout.Refills order result ∧
        (Text.withoutBlanks result).Perm (Text.withoutBlanks text) := by
  have hnodup : layout.methods.Nodup :=
    (Reading.tiles_of_complete (movable?_eq_some h).1).nodup
  refine ⟨fun options ↦ ?_, fun source hsource ↦ ?_⟩
  · have hordered := exists_ordered?_eq h options
    have hperm := Options.perm_of_ordered? hordered
    obtain ⟨result, hresult, hrefills, hcharacters⟩ := exists_place_eq h hperm
    refine ⟨_, result, hordered, hperm, hperm.nodup_iff.mpr hnodup, ?_, hrefills, hcharacters⟩
    rw [sort_of_movable? h hordered, hresult]
  · obtain ⟨order, rest, horder, hperm⟩ := exists_shuffle?_eq hsource
    obtain ⟨result, hresult, hrefills, hcharacters⟩ := exists_place_eq h hperm
    refine ⟨order, rest, result, horder, hperm, hperm.nodup_iff.mpr hnodup, ?_, hrefills,
      hcharacters⟩
    rw [shuffle_of_movable? h horder, hresult]
    rfl

theorem twoMethodSource_refilled :
    ∃ layout, movable? Reading.twoMethodSource = some layout ∧ layout.methods.length = 2 ∧
      (IndexSource.listed [0]).InRange (layout.methods.length - 1) ∧
      (∃ order result, sort Options.default Reading.twoMethodSource = .ok result ∧
        order.Perm layout.methods ∧ layout.Refills order result) ∧
      ∃ order rest result, shuffle (.listed [0]) Reading.twoMethodSource = .ok (result, rest) ∧
        order.Perm layout.methods ∧ layout.Refills order result := by
  have hsome : (movable? Reading.twoMethodSource).any (·.methods.length == 2) := by decide +kernel
  cases h : movable? Reading.twoMethodSource with
  | none => simp [h] at hsome
  | some layout =>
    have hlength : layout.methods.length = 2 := by simpa [h] using hsome
    have hrange : (IndexSource.listed [0]).InRange (layout.methods.length - 1) := by
      rw [hlength]
      exact ⟨by decide, by decide, trivial⟩
    obtain ⟨hsort, hshuffle⟩ := sort_and_shuffle_refill h
    obtain ⟨order, result, -, hperm, -, hresult, hrefills, -⟩ := hsort Options.default
    obtain ⟨order', rest, result', -, hperm', -, hresult', hrefills', -⟩ :=
      hshuffle (.listed [0]) hrange
    exact ⟨layout, rfl, hlength, hrange, ⟨order, result, hresult, hperm, hrefills⟩,
      order', rest, result', hresult', hperm', hrefills'⟩

end Rearrange

end MemberOrder
