import MemberOrder.Proofs.Layout.Blocks
import MemberOrder.Proofs.Rearrange.Content

/-!
Reading again what sorting or shuffling made of a source. A layout is detachable if its preface, its
methods and its gaps, each alone in the body of the class, leave nothing open and declare what they
are for. Then every order of the methods is read again as it was placed, up to the last method: what
stands behind the methods may start on the line that the last one ends on, and a comment that ends
this line takes it in. So the result reads as the class with the methods in their new order exactly
if its end does, the last method in front of what stands behind all methods.
-/

set_option autoImplicit false

namespace MemberOrder

/-- What a method is known by: its name, its signature and its text. -/
def Method.key (m : Method) : Text × Text × Text := (m.name, m.signature, m.text)

namespace Layout

/-- A piece, alone in the body of the class, leaves nothing open and declares these methods. -/
structure Declares (layout : Layout) (piece : Text) (methods : List Method) : Prop where
  isSealed : (bodyOfPiece layout.name layout.body.openBrace piece).Sealed
    (pieceAlone layout.opening piece)
  methods_eq : (Reading.ofText (layout.opening ++ (piece ++ ['\n', '\x7d']))).methods.map
    Method.essence = methods.map Method.essence

instance (layout : Layout) (piece : Text) (methods : List Method) :
    Decidable (layout.Declares piece methods) :=
  decidable_of_iff (_ ∧ _) ⟨fun ⟨h₁, h₂⟩ ↦ ⟨h₁, h₂⟩, fun ⟨h₁, h₂⟩ ↦ ⟨h₁, h₂⟩⟩

/-- Every part of the layout, as a result shows it, declares alone what it is for. -/
structure Detachable (layout : Layout) : Prop where
  preface : layout.Declares layout.preface []
  methods : ∀ m ∈ layout.methods, layout.Declares (separator ++ m.rendered) [m]
  gaps : ∀ text ∈ gaps layout.segments, Segment.renderedGap text ≠ [] →
    layout.Declares (separator ++ Segment.renderedGap text) []

instance (layout : Layout) : Decidable layout.Detachable :=
  decidable_of_iff (_ ∧ _ ∧ _) ⟨fun ⟨h₁, h₂, h₃⟩ ↦ ⟨h₁, h₂, h₃⟩, fun ⟨h₁, h₂, h₃⟩ ↦ ⟨h₁, h₂, h₃⟩⟩

/-- The text is a complete class of the layout's name, and its methods are these. -/
def ReadsAs (layout : Layout) (text : Text) (order : List Method) : Prop :=
  ∃ again, Reading.ofText text = .complete again ∧ again.name = layout.name ∧
    again.methods.map Method.key = order.map Method.key

instance (layout : Layout) (text : Text) (order : List Method) :
    Decidable (layout.ReadsAs text order) :=
  decidable_of_iff ((Reading.ofText text).layout?.any fun again ↦
      decide (again.name = layout.name ∧ again.methods.map Method.key = order.map Method.key)) <| by
    unfold ReadsAs
    cases Reading.ofText text <;> simp [Reading.layout?]

variable {layout : Layout} {text : Text}

theorem readsAs_append_iff (h : Opening layout.opening layout.name layout.body.openBrace)
    (u : Text) (order : List Method) :
    layout.ReadsAs (layout.opening ++ u) order ↔
      (Source.ofText (layout.opening ++ u)).closingBrace? layout.body.openBrace ≠ none ∧
        (Reading.ofText (layout.opening ++ u)).methods.map Method.key = order.map Method.key := by
  rw [← h.exists_complete_iff]
  constructor
  · rintro ⟨again, hread, hname, hmethods⟩
    rw [hread]
    exact ⟨⟨again, rfl, hname, rfl⟩, hmethods⟩
  · rintro ⟨⟨again, hread, hname, hmethods⟩, hkeys⟩
    exact ⟨again, hread, hname, hmethods ▸ hkeys⟩

/-- A source assembled in an order is read as the pieces are alone, and as its end is. -/
theorem read_assembled (h : Reading.ofText text = .complete layout)
    (hmethods : layout.methods ≠ []) (hdetachable : layout.Detachable) {order : List Method}
    {result : Text} (horder : order.Perm layout.methods)
    (hresult : layout.assemble? order = some result) :
    ∃ init last, order = init ++ [last] ∧ ∃ u, result = layout.opening ++ u ∧
      ((Source.ofText result).closingBrace? layout.body.openBrace ≠ none ↔
        (Source.ofText (layout.endingWith last)).closingBrace? layout.body.openBrace ≠ none) ∧
      ((Source.ofText (layout.endingWith last)).closingBrace? layout.body.openBrace ≠ none →
        (Reading.ofText result).methods.map Method.essence =
          init.map Method.essence ++
            (Reading.ofText (layout.endingWith last)).methods.map Method.essence) := by
  have hopening := opening_of_complete h hmethods
  obtain ⟨blocks, init, last, rfl, hblocks, hpieces⟩ :=
    exists_pieces h hmethods horder.length_eq hresult
  have hdeclares (block : Text × List Method) (hblock : block ∈ blocks) :
      layout.Declares (separator ++ block.1) block.2 := by
    have hmem : block ∈ blocksFor layout.segments (init ++ [last]) := by
      rw [hblocks]
      exact List.mem_append_left _ hblock
    rcases mem_blocksFor hmem with ⟨m, hm, rfl⟩ | ⟨gap, hgap, hne, rfl⟩
    · exact hdetachable.methods m (horder.mem_iff.mp hm)
    · exact hdetachable.gaps gap hgap hne
  have hinit : blocks.flatMap Prod.snd = init := by
    have hall : (blocksFor layout.segments (init ++ [last])).flatMap Prod.snd = init ++ [last] :=
      flatMap_blocksFor horder.length_eq
    rw [hblocks, List.flatMap_append] at hall
    exact List.append_cancel_right hall
  have hsealed : ∀ piece ∈ layout.preface :: blocks.map (separator ++ ·.1),
      (bodyOfPiece layout.name layout.body.openBrace piece).Sealed
        (pieceAlone layout.opening piece) := by
    intro piece hpiece
    rcases List.mem_cons.mp hpiece with rfl | hpiece
    · exact hdetachable.preface.isSealed
    · obtain ⟨block, hblock, rfl⟩ := List.mem_map.mp hpiece
      exact (hdeclares block hblock).isSealed
  have hfeed : ∀ piece ∈ (layout.preface :: blocks.map (separator ++ ·.1)).tail,
      piece.head? = some '\n' := by
    intro piece hpiece
    obtain ⟨block, -, rfl⟩ := List.mem_map.mp hpiece
    rfl
  obtain ⟨hclose, hread⟩ :=
    hopening.read_pieces hsealed hfeed ('\n' :: (last.rendered ++ layout.tail))
  refine ⟨init, last, rfl, _, hpieces, ?_, fun hne ↦ ?_⟩
  · have hsame : (Source.ofText result).closingBrace? layout.body.openBrace =
        ((Source.ofText (layout.endingWith last)).closingBrace? layout.body.openBrace).map _ :=
      hpieces ▸ hclose
    rw [hsame]
    exact not_congr Option.map_eq_none_iff
  · rw [hpieces]
    refine (hread hne).trans ?_
    rw [List.flatMap_cons, hdetachable.preface.methods_eq, List.map_nil, List.nil_append,
      List.flatMap_map, ← hinit, List.map_flatMap]
    congr 1
    exact List.flatMap_congr fun block hblock ↦ (hdeclares block hblock).methods_eq

/-- An assembled source reads as the class with the methods in order exactly if its end does. -/
theorem readsAs_assembled_iff (h : Reading.ofText text = .complete layout)
    (hmethods : layout.methods ≠ []) (hdetachable : layout.Detachable) {order : List Method}
    {result : Text} (horder : order.Perm layout.methods)
    (hresult : layout.assemble? order = some result) :
    layout.ReadsAs result order ↔
      ∀ last ∈ order.getLast?, layout.ReadsAs (layout.endingWith last) [last] := by
  have hopening := opening_of_complete h hmethods
  obtain ⟨init, last, rfl, u, rfl, hclose, hread⟩ :=
    read_assembled h hmethods hdetachable horder hresult
  have hlast : (∀ m ∈ (init ++ [last]).getLast?, layout.ReadsAs (layout.endingWith m) [m]) ↔
      layout.ReadsAs (layout.endingWith last) [last] := by
    simp
  rw [hlast, endingWith, readsAs_append_iff hopening, readsAs_append_iff hopening, hclose]
  refine and_congr_right fun hne ↦ ?_
  have hkeys := congrArg (List.map Method.key) (hread hne)
  rw [List.map_append, List.map_map, List.map_map, List.map_map] at hkeys
  change (Reading.ofText (layout.opening ++ u)).methods.map Method.key =
    init.map Method.key ++ (Reading.ofText (layout.endingWith last)).methods.map Method.key at hkeys
  rw [hkeys, List.map_append]
  exact List.append_right_inj _

/-- What stands behind the methods on lines of its own ends the class with every last method, or
with none. -/
theorem readsAs_endingWith_iff (h : Reading.ofText text = .complete layout)
    (hdetachable : layout.Detachable) (htail : layout.tail.head? = some '\n') {m : Method}
    (hm : m ∈ layout.methods) :
    layout.ReadsAs (layout.endingWith m) [m] ↔
      layout.ReadsAs (layout.opening ++ layout.tail) [] := by
  have hopening := opening_of_complete h (List.ne_nil_of_mem hm)
  obtain ⟨z, hz⟩ : ∃ z, layout.tail = '\n' :: z := by
    cases hcons : layout.tail with
    | nil => simp [hcons] at htail
    | cons c z =>
      rw [hcons] at htail
      cases htail
      exact ⟨z, rfl⟩
  have hdeclares := hdetachable.methods m hm
  obtain ⟨hclose, hread⟩ := hopening.read_piece hdeclares.isSealed z
  have hending : layout.endingWith m = layout.opening ++ (separator ++ m.rendered ++ '\n' :: z) := by
    rw [endingWith, hz]
  rw [hending, hz, readsAs_append_iff hopening, readsAs_append_iff hopening, hclose, Ne,
    Option.map_eq_none_iff]
  refine and_congr_right fun hne ↦ ?_
  have hkeys := congrArg (List.map Method.key) (hread hne)
  rw [hdeclares.methods_eq, List.map_append, List.map_map, List.map_map, List.map_map] at hkeys
  change (Reading.ofText (layout.opening ++ (separator ++ m.rendered ++ '\n' :: z))).methods.map
    Method.key = [m].map Method.key ++
      (Reading.ofText (layout.opening ++ '\n' :: z)).methods.map Method.key at hkeys
  rw [hkeys, List.map_nil, List.append_right_eq_self]

end Layout

namespace Rearrange

theorem exists_readsAs_iff {text : Text} {layout : Layout} (h : movable? text = some layout)
    (hdetachable : layout.Detachable) {order : List Method} (horder : order.Perm layout.methods) :
    ∃ result, place layout order = .ok result ∧ (layout.ReadsAs result order ↔
      ∀ last ∈ order.getLast?, layout.ReadsAs (layout.endingWith last) [last]) := by
  obtain ⟨hcomplete, hmethods⟩ := movable?_eq_some h
  obtain ⟨result, hresult, -⟩ := Layout.exists_assemble?_eq horder.length_eq.ge
  exact ⟨result, by rw [place, hresult],
    Layout.readsAs_assembled_iff hcomplete hmethods hdetachable horder hresult⟩

/-- Sorting and shuffling a source whose layout is detachable keep its class intact exactly if the
end of the result does: the result is a class of the same name with the methods in the order they
were placed in, each with its name, signature and text, if and only if the last of them, in front of
what stands behind the methods, is read as itself. Where that starts on a line of its own, the last
method is of no matter. -/
theorem sort_and_shuffle_readsAs_iff {text : Text} {layout : Layout}
    (h : movable? text = some layout) (hdetachable : layout.Detachable) :
    (∀ options : Options, ∃ order result, options.ordered? layout.methods = some order ∧
      sort options text = .ok result ∧ (layout.ReadsAs result order ↔
        ∀ last ∈ order.getLast?, layout.ReadsAs (layout.endingWith last) [last])) ∧
    (∀ source : IndexSource, source.InRange (layout.methods.length - 1) →
      ∃ order rest result, shuffle? source layout.methods = some (order, rest) ∧
        shuffle source text = .ok (result, rest) ∧ (layout.ReadsAs result order ↔
          ∀ last ∈ order.getLast?, layout.ReadsAs (layout.endingWith last) [last])) ∧
    (layout.tail.head? = some '\n' → ∀ m ∈ layout.methods,
      (layout.ReadsAs (layout.endingWith m) [m] ↔
        layout.ReadsAs (layout.opening ++ layout.tail) [])) := by
  obtain ⟨hcomplete, hmethods⟩ := movable?_eq_some h
  refine ⟨fun options ↦ ?_, fun source hsource ↦ ?_, fun htail m hm ↦ ?_⟩
  · have hordered := exists_ordered?_eq h options
    obtain ⟨result, hresult, hiff⟩ :=
      exists_readsAs_iff h hdetachable (Options.perm_of_ordered? hordered)
    refine ⟨_, result, hordered, ?_, hiff⟩
    rw [sort_of_movable? h hordered, hresult]
  · obtain ⟨order, rest, horder, hperm⟩ := exists_shuffle?_eq hsource
    obtain ⟨result, hresult, hiff⟩ := exists_readsAs_iff h hdetachable hperm
    refine ⟨order, rest, result, horder, ?_, hiff⟩
    rw [shuffle_of_movable? h horder, hresult]
    rfl
  · exact Layout.readsAs_endingWith_iff hcomplete hdetachable htail hm

/-- A class that closes on the line of its last method, and a method with a comment at the end of its
line. -/
def trailingCommentSource : Text :=
  "class C \x7b\n  void b() \x7b\x7d // foo\n  void a() \x7b\x7d \x7d\n".toList

/-- By name the method with the comment comes last, and the comment takes in the brace that closes
the class; in the order of the source it does not. -/
theorem trailingCommentSource_readsAs :
    ∃ layout, movable? trailingCommentSource = some layout ∧ layout.Detachable ∧
      (∃ order result, breadthFirst.ordered? layout.methods = some order ∧
        sort breadthFirst trailingCommentSource = .ok result ∧ ¬ layout.ReadsAs result order) ∧
      ∃ order rest result, shuffle? (.listed [1]) layout.methods = some (order, rest) ∧
        shuffle (.listed [1]) trailingCommentSource = .ok (result, rest) ∧
        layout.ReadsAs result order := by
  have hsome : (movable? trailingCommentSource).any fun layout ↦
      decide (layout.methods.length = 2 ∧ layout.Detachable) &&
        (breadthFirst.ordered? layout.methods).any (fun order ↦ order.getLast?.any fun last ↦
          decide (¬ layout.ReadsAs (layout.endingWith last) [last])) &&
        (shuffle? (.listed [1]) layout.methods).any (fun found ↦ found.1.getLast?.any fun last ↦
          decide (layout.ReadsAs (layout.endingWith last) [last])) := by
    decide +kernel
  cases h : movable? trailingCommentSource with
  | none => simp [h] at hsome
  | some layout =>
    simp only [h, Option.any_some, Bool.and_eq_true, decide_eq_true_eq] at hsome
    obtain ⟨⟨⟨hlength, hdetachable⟩, hsorted⟩, hshuffled⟩ := hsome
    obtain ⟨hsort, hshuffle, -⟩ := sort_and_shuffle_readsAs_iff h hdetachable
    refine ⟨layout, rfl, hdetachable, ?_, ?_⟩
    · obtain ⟨order, result, horder, hresult, hiff⟩ := hsort breadthFirst
      refine ⟨order, result, horder, hresult, fun hreads ↦ ?_⟩
      rw [horder, Option.any_some, Option.any_eq_true] at hsorted
      obtain ⟨last, hlast, hlost⟩ := hsorted
      exact of_decide_eq_true hlost (hiff.mp hreads last hlast)
    · have hrange : (IndexSource.listed [1]).InRange (layout.methods.length - 1) := by
        rw [hlength]
        exact ⟨by decide, by decide, trivial⟩
      obtain ⟨order, rest, result, horder, hresult, hiff⟩ := hshuffle (.listed [1]) hrange
      refine ⟨order, rest, result, horder, hresult, hiff.mpr fun last hlast ↦ ?_⟩
      rw [horder, Option.any_some, hlast, Option.any_some] at hshuffled
      exact of_decide_eq_true hshuffled

end Rearrange

end MemberOrder
