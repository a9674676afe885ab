import MemberOrder.Proofs.Layout.Rendering
import MemberOrder.Proofs.Rearrange.Reread

/-!
The layout of a result. Read again, a result whose parts are detachable and whose last method ends
it as it should has the methods in the order they were placed in, and around them what the source
had, up to empty lines. It resembles the layout it came from: both put methods of the same kind in
the same order together to the same text.
-/

set_option autoImplicit false

namespace MemberOrder

namespace Layout

/-- The method, in front of what stands behind the methods, is read as itself with the same behind
it. -/
def EndsWith (layout : Layout) (last : Method) : Prop :=
  ∃ again, Reading.ofText (layout.endingWith last) = .complete again ∧
    again.methods.map Method.essence = [last.essence] ∧ again.tail = layout.tail

instance (layout : Layout) (last : Method) : Decidable (layout.EndsWith last) :=
  decidable_of_iff ((Reading.ofText (layout.endingWith last)).layout?.any fun again ↦
      decide (again.methods.map Method.essence = [last.essence] ∧ again.tail = layout.tail)) <| by
    unfold EndsWith
    cases Reading.ofText (layout.endingWith last) <;> simp [Reading.layout?]

variable {layout : Layout}

/-- A rendered method that declares itself stands alone in the body of the class, with nothing but
line feeds around it. -/
theorem Declares.exists_alone (h : Opening layout.opening layout.name layout.body.openBrace)
    {m : Method} (hdeclares : layout.Declares (separator ++ m.rendered) [m]) :
    ∃ alone found n,
      Reading.ofText (layout.opening ++ (separator ++ m.rendered ++ ['\n', '\x7d'])) =
        .complete alone ∧
      alone.methods = [found] ∧ alone.front = List.replicate n '\n' ∧
      alone.tail = ['\n', '\x7d'] := by
  have hclose : (Source.ofText (layout.opening ++
      (separator ++ m.rendered ++ ['\n', '\x7d']))).closingBrace? layout.body.openBrace ≠ none :=
    ne_of_eq_of_ne (h.closingBrace?_piece hdeclares.isSealed) (Option.some_ne_none _)
  obtain ⟨alone, hread, -, hown⟩ := (h.exists_complete_iff _).mpr hclose
  have hmethods := hdeclares.methods_eq
  rw [hown] at hmethods
  obtain ⟨found, hone, -⟩ := List.map_eq_singleton_iff.mp hmethods
  have htail := h.tail_of_rendered hdeclares.isSealed hread hmethods
  obtain ⟨n, hfront⟩ := h.front_of_rendered hread hmethods htail
  exact ⟨alone, found, n, hread, hone, hfront, htail⟩

/-- The blocks of a result as they stand in the body of the class, each behind a separator. -/
def spread (blocks : List (Text × List Method)) (tail : Text) : Text :=
  (blocks.map (separator ++ ·.1)).flatten ++ tail

theorem spread_cons (block : Text × List Method) (blocks : List (Text × List Method))
    (tail : Text) : spread (block :: blocks) tail = separator ++ block.1 ++ spread blocks tail := by
  rw [spread, List.map_cons, List.flatten_cons, List.append_assoc]
  rfl

/-- A gap in front of a body comes in front of its first method as it was rendered. -/
theorem surroundings_spread_gap (h : Opening layout.opening layout.name layout.body.openBrace)
    (hdetachable : layout.Detachable) {gap : Text} (hgap : gap ∈ gaps layout.segments)
    {segments : List Segment} {order : List Method} {z : Text} {rest : Layout} {n : Nat}
    (hz : spread (blocksFor segments order) layout.tail = '\n' :: z)
    (hrest : Reading.ofText (layout.opening ++ '\n' :: z) = .complete rest)
    (hmethods : rest.methods ≠ []) (hfront : rest.front = List.replicate n '\n') :
    ∃ z' whole, spread (blocksFor (.gap gap :: segments) order) layout.tail = '\n' :: z' ∧
      Reading.ofText (layout.opening ++ '\n' :: z') = .complete whole ∧ whole.methods ≠ [] ∧
      Segment.renderedGap whole.front = Segment.renderedGap gap ∧
      gaps whole.segments = gaps rest.segments ∧ whole.tail = rest.tail := by
  rw [blocksFor]
  split_ifs with hempty
  · refine ⟨z, rest, hz, hrest, hmethods, ?_, rfl, rfl⟩
    have hblank := Segment.renderedGap_feeds gap n 0
    rw [List.isEmpty_iff.mp hempty] at hblank ⊢
    rw [hfront]
    simpa using hblank
  · have hdeclares := hdetachable.gaps gap hgap (by simpa using hempty)
    obtain ⟨whole, hread, hne, hparts⟩ := h.surroundings_of_piece_nil hdeclares.isSealed
      (List.map_eq_nil_iff.mp hdeclares.methods_eq) hrest hmethods
    obtain ⟨hfront', hgaps', htail'⟩ : whole.front = _ ∧ gaps whole.segments = _ ∧ whole.tail = _ := by
      simpa only [surroundings, Prod.mk.injEq] using hparts
    refine ⟨_, whole, ?_, hread, hne, ?_, hgaps', htail'⟩
    · rw [spread_cons, hz]
      rfl
    · rw [hfront', hfront]
      exact Segment.renderedGap_feeds gap 2 n

/-- A method in front of a body has line feeds in front of it, and behind it what stood in front of
the first method. -/
theorem surroundings_spread_slot (h : Opening layout.opening layout.name layout.body.openBrace)
    (hdetachable : layout.Detachable) {m : Method} (hm : m ∈ layout.methods) (slot : Method)
    {segments : List Segment} {order : List Method} {z : Text} {rest : Layout}
    (hz : spread (blocksFor segments order) layout.tail = '\n' :: z)
    (hrest : Reading.ofText (layout.opening ++ '\n' :: z) = .complete rest)
    (hmethods : rest.methods ≠ []) :
    ∃ z' whole n, spread (blocksFor (.slot slot :: segments) (m :: order)) layout.tail = '\n' :: z' ∧
      Reading.ofText (layout.opening ++ '\n' :: z') = .complete whole ∧ whole.methods ≠ [] ∧
      whole.front = List.replicate n '\n' ∧
      gaps whole.segments = rest.front :: gaps rest.segments ∧ whole.tail = rest.tail := by
  have hdeclares := hdetachable.methods m hm
  obtain ⟨alone, found, n, halone, hone, hfront, hend⟩ := hdeclares.exists_alone h
  obtain ⟨whole, hread, hne, hparts⟩ := h.surroundings_of_piece_singleton hdeclares.isSealed halone
    hone hend hrest hmethods
  obtain ⟨hfront', hgaps', htail'⟩ : whole.front = _ ∧ gaps whole.segments = _ ∧ whole.tail = _ := by
    simpa only [surroundings, Prod.mk.injEq] using hparts
  refine ⟨_, whole, n, ?_, hread, hne, hfront'.trans hfront, hgaps', htail'⟩
  rw [blocksFor, spread_cons, hz]
  rfl

/-- From a method on, the blocks of a result are read with line feeds in front of the first method,
with what stands between two as it was rendered, and with what is behind them. -/
theorem surroundings_spread (h : Opening layout.opening layout.name layout.body.openBrace)
    (hdetachable : layout.Detachable) {last : Method} (hlast : layout.EndsWith last) (text : Text)
    (m : Method) {rest init : List Method} (hlength : init.length = rest.length)
    (hinit : ∀ x ∈ init, x ∈ layout.methods)
    (hgaps : ∀ gap ∈ gaps (segmentsFrom text m rest), gap ∈ gaps layout.segments) :
    ∃ z again n,
      spread (blocksFor (segmentsFrom text m rest) (init ++ [last])) layout.tail = '\n' :: z ∧
      Reading.ofText (layout.opening ++ '\n' :: z) = .complete again ∧ again.methods ≠ [] ∧
      again.front = List.replicate n '\n' ∧
      (gaps again.segments).map Segment.renderedGap =
        (gaps (segmentsFrom text m rest)).map Segment.renderedGap ∧
      again.tail = layout.tail := by
  induction rest generalizing m init with
  | nil =>
    rw [List.length_eq_zero_iff.mp hlength]
    obtain ⟨again, hread, hmethods, htail⟩ := hlast
    obtain ⟨found, hone, -⟩ := List.map_eq_singleton_iff.mp hmethods
    obtain ⟨n, hfront⟩ := h.front_of_rendered hread hmethods htail
    have hgaps' : gaps again.segments = [] := (h.cut_of_complete hread hone).2.2.1
    have hspread : spread (blocksFor (segmentsFrom text m []) ([] ++ [last])) layout.tail =
        separator ++ last.rendered ++ layout.tail := spread_cons _ [] _
    refine ⟨_, again, n, hspread, hread, hone ▸ List.cons_ne_nil _ _, hfront, ?_, htail⟩
    rw [hgaps']
    rfl
  | cons next rest ih =>
    obtain ⟨first, init, rfl⟩ := List.exists_cons_of_length_eq_add_one hlength
    obtain ⟨hgap, hgaps⟩ := List.forall_mem_cons.mp hgaps
    obtain ⟨hfirst, hinit⟩ := List.forall_mem_cons.mp hinit
    obtain ⟨z, again, n, hz, hread, hmethods, hfront, hbetween, htail⟩ :=
      ih next (by simpa using hlength) hinit hgaps
    obtain ⟨z, again₁, hz, hread, hmethods, hfront, hbetween₁, htail₁⟩ :=
      surroundings_spread_gap h hdetachable hgap hz hread hmethods hfront
    obtain ⟨z, whole, n, hz, hread, hmethods, hfront₂, hbetween₂, htail₂⟩ :=
      surroundings_spread_slot h hdetachable hfirst m hz hread hmethods
    refine ⟨z, whole, n, hz, hread, hmethods, hfront₂, ?_, htail₂.trans (htail₁.trans htail)⟩
    rw [hbetween₂, hbetween₁, List.map_cons, hfront, hbetween]
    rfl

/-- The layouts differ in empty lines, in white space at the end of a part and in the order of the
methods. -/
structure Resembles (again layout : Layout) : Prop where
  name_eq : again.name = layout.name
  openBrace_eq : again.body.openBrace = layout.body.openBrace
  opening_eq : again.opening = layout.opening
  head_eq : Text.trimRight again.head = Text.trimRight layout.head
  gaps_eq : (gaps again.segments).map Segment.renderedGap =
    (gaps layout.segments).map Segment.renderedGap
  tail_eq : again.tail = layout.tail
  methods_perm : (again.methods.map Method.essence).Perm (layout.methods.map Method.essence)

/-- A result is read with the methods in the order they were placed in, and resembles the layout it
came from. -/
theorem exists_resembles {text : Text} (h : Reading.ofText text = .complete layout)
    (hmethods : layout.methods ≠ []) (hdetachable : layout.Detachable) {order : List Method}
    (horder : order.Perm layout.methods)
    (hlast : ∀ last ∈ order.getLast?, layout.EndsWith last) {result : Text}
    (hresult : layout.assemble? order = some result) :
    ∃ again, Reading.ofText result = .complete again ∧ again.methods ≠ [] ∧
      again.methods.map Method.essence = order.map Method.essence ∧ again.Resembles layout := by
  have hopening := opening_of_complete h hmethods
  obtain ⟨first, rest, hcons, -, hsegments, -⟩ := exists_cut_of_complete h hmethods
  obtain ⟨blocks, init, last, rfl, hblocks, hpieces⟩ :=
    exists_pieces h hmethods horder.length_eq hresult
  have hends : layout.EndsWith last := hlast last (by simp)
  have hlength : init.length = rest.length := by
    have := horder.length_eq
    rw [hcons] at this
    simpa using this
  obtain ⟨z, rest', n, hz, hrest, hne, hfront, hgaps, htail⟩ := surroundings_spread hopening
    hdetachable hends text first hlength
    (fun m hm ↦ horder.mem_iff.mp (List.mem_append_left _ hm)) (fun gap hgap ↦ hsegments ▸ hgap)
  obtain ⟨again, hread, hne', hparts⟩ := hopening.surroundings_of_piece_nil
    hdetachable.preface.isSealed (List.map_eq_nil_iff.mp hdetachable.preface.methods_eq) hrest hne
  obtain ⟨hfront', hgaps', htail'⟩ : again.front = _ ∧ gaps again.segments = _ ∧ again.tail = _ := by
    simpa only [surroundings, Prod.mk.injEq] using hparts
  have hresult' : result = layout.opening ++ (layout.preface ++ '\n' :: z) := by
    rw [hpieces, ← hz, ← hsegments, hblocks, spread, List.map_append, List.flatten_append,
      List.flatten_cons]
    simp only [List.map_cons, List.map_nil, List.flatten_cons, List.flatten_nil, List.append_nil,
      List.append_assoc]
  obtain ⟨hname, hopen⟩ := hopening.name_and_openBrace_of_complete hread
  have hsame : again.methods.map Method.essence = (init ++ [last]).map Method.essence := by
    obtain ⟨_, _, hsplit, -, -, -, hown⟩ :=
      read_assembled h hmethods hdetachable horder hresult
    obtain ⟨rfl, hlasts⟩ := List.append_inj' hsplit rfl
    cases hlasts
    obtain ⟨ending, hending, hessence, -⟩ := hends
    have hread' := hown (ne_of_eq_of_ne (hopening.closingBrace?_of_complete hending)
      (Option.some_ne_none _))
    rw [hresult', hread, hending] at hread'
    exact hread'.trans (by rw [List.map_append]; exact congrArg _ hessence)
  refine ⟨again, hresult' ▸ hread, hne', hsame, hname, hopen, hopening.opening_eq hread hne', ?_,
    ?_, htail'.trans htail, ?_⟩
  · rw [hopening.head_eq hread hne', hfront', hfront, ← List.append_assoc,
      ← trimRight_head hopening, Text.trimRight_append, Text.trimRight_trimRight]
    intro c hc
    rw [List.eq_of_mem_replicate hc]
    decide
  · rw [hgaps', hgaps, hsegments]
  · rw [hsame]
    exact horder.map _

namespace Resembles

variable {again : Layout} (h : again.Resembles layout)

include h

theorem preface_eq : again.preface = layout.preface := by
  rw [preface, preface, h.head_eq, h.openBrace_eq]

/-- Where the parts of the one are detachable, those of the other are. -/
theorem detachable (hdetachable : layout.Detachable) : again.Detachable := by
  have hdeclares {piece : Text} {methods methods' : List Method}
      (hsame : methods'.map Method.essence = methods.map Method.essence)
      (hpiece : layout.Declares piece methods) : again.Declares piece methods' := by
    refine ⟨?_, ?_⟩
    · rw [h.name_eq, h.openBrace_eq, h.opening_eq]
      exact hpiece.isSealed
    · rw [h.opening_eq, hsame]
      exact hpiece.methods_eq
  refine ⟨?_, fun m hm ↦ ?_, fun gap hgap hne ↦ ?_⟩
  · rw [h.preface_eq]
    exact hdeclares rfl hdetachable.preface
  · obtain ⟨m', hm', hessence⟩ := List.mem_map.mp
      (h.methods_perm.mem_iff.mp (List.mem_map_of_mem hm))
    rw [← Method.rendered_eq_of_essence_eq hessence]
    refine hdeclares ?_ (hdetachable.methods m' hm')
    exact congrArg (fun essence ↦ [essence]) hessence.symm
  · obtain ⟨gap', hgap', hrendered⟩ := List.mem_map.mp
      (h.gaps_eq ▸ List.mem_map_of_mem hgap :
        Segment.renderedGap gap ∈ (gaps layout.segments).map Segment.renderedGap)
    rw [← hrendered] at hne ⊢
    exact hdeclares rfl (hdetachable.gaps gap' hgap' hne)

end Resembles

/-- The blocks of a result show nothing of the methods but what they are. -/
theorem blocks?_slot_congr {segments segments' : List Segment}
    (h : ∀ order order' : List Method, order.map Method.essence = order'.map Method.essence →
      blocks? segments order = blocks? segments' order')
    (m m' : Method) {order order' : List Method}
    (horder : order.map Method.essence = order'.map Method.essence) :
    blocks? (.slot m :: segments) order = blocks? (.slot m' :: segments') order' := by
  cases order with
  | nil =>
    rw [List.map_eq_nil_iff.mp horder.symm]
    rfl
  | cons first order =>
    cases order' with
    | nil => cases horder
    | cons first' order' =>
      obtain ⟨hfirst, hrest⟩ := List.cons_eq_cons.mp horder
      rw [blocks?, blocks?, Method.rendered_eq_of_essence_eq hfirst, h order order' hrest]

/-- The blocks of a result show nothing of the gaps but how they are rendered. -/
theorem blocks?_segmentsFrom_congr (text text' : Text) (m m' : Method) {rest rest' : List Method}
    (hgaps : (gaps (segmentsFrom text m rest)).map Segment.renderedGap =
      (gaps (segmentsFrom text' m' rest')).map Segment.renderedGap) (order order' : List Method)
    (horder : order.map Method.essence = order'.map Method.essence) :
    blocks? (segmentsFrom text m rest) order = blocks? (segmentsFrom text' m' rest') order' := by
  induction rest generalizing m m' rest' order order' with
  | nil =>
    cases rest' with
    | cons next' rest' => cases hgaps
    | nil => exact blocks?_slot_congr (fun _ _ _ ↦ rfl) m m' horder
  | cons next rest ih =>
    cases rest' with
    | nil => cases hgaps
    | cons next' rest' =>
      obtain ⟨hgap, hgaps⟩ := List.cons_eq_cons.mp hgaps
      refine blocks?_slot_congr (fun order order' horder ↦ ?_) m m' horder
      rw [blocks?, blocks?, hgap, ih next next' hgaps order order' horder]

/-- Layouts that resemble each other put the same methods together to the same text. -/
theorem Resembles.assemble?_eq {text text' : Text} {again : Layout} (h : again.Resembles layout)
    (hread : Reading.ofText text = .complete layout) (hmethods : layout.methods ≠ [])
    (hread' : Reading.ofText text' = .complete again) (hmethods' : again.methods ≠ [])
    {order order' : List Method} (horder : order'.map Method.essence = order.map Method.essence) :
    again.assemble? order' = layout.assemble? order := by
  obtain ⟨first, rest, -, -, hsegments, -⟩ := exists_cut_of_complete hread hmethods
  obtain ⟨first', rest', -, -, hsegments', -⟩ := exists_cut_of_complete hread' hmethods'
  have hgaps := h.gaps_eq
  rw [hsegments, hsegments'] at hgaps
  rw [assemble?, assemble?, hsegments, hsegments', h.head_eq, h.tail_eq,
    blocks?_segmentsFrom_congr text' text first' first hgaps order' order horder]

/-- A text that a layout puts together, and that is read as a layout which resembles it, shows the
order of the methods. -/
theorem map_essence_of_assemble? {text : Text} (h : Reading.ofText text = .complete layout)
    (hmethods : layout.methods ≠ []) (hdetachable : layout.Detachable) {order : List Method}
    (horder : order.Perm layout.methods) (hresult : layout.assemble? order = some text) :
    order.map Method.essence = layout.methods.map Method.essence := by
  have hopening := opening_of_complete h hmethods
  obtain ⟨init, last, rfl, u, rfl, hclose, hread⟩ :=
    read_assembled h hmethods hdetachable horder hresult
  have hown := hread (hclose.mp (ne_of_eq_of_ne (hopening.closingBrace?_of_complete h)
    (Option.some_ne_none _)))
  rw [h] at hown
  change layout.methods.map Method.essence = _ at hown
  have hperm := horder.map Method.essence
  rw [hown, List.map_append, List.perm_append_left_iff] at hperm
  rw [hown, List.map_append, List.perm_singleton.mp hperm.symm]
  rfl

end Layout

end MemberOrder
