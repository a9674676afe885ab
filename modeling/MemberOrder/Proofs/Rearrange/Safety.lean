import MemberOrder.Proofs.Layout.MemberWalk
import MemberOrder.Proofs.Rearrange.Content
import MemberOrder.Proofs.Text.Case

/-!
Reading, sorting and shuffling never fail. Whatever the source is, the walk through it looks up
nothing that is not there, misses no brace and always gets on; the names of its methods can be
collated in every form that a comparison gives them; and every order of the methods that options or
indexes in range ask for fills the slots of its layout.
-/

set_option autoImplicit false

namespace MemberOrder

namespace Reading

/-- The forms of a name by which methods are compared can be collated. -/
theorem collates_forms_of_mem_methods {text : Text} {m : Method} (h : m ∈ (ofText text).methods) :
    Name.collates (Text.foldCase m.name) = true ∧ Name.collates (Text.swapCase m.name) = true := by
  obtain ⟨layout, hlayout, hm⟩ := exists_complete_of_mem_methods h
  exact Name.collates_forms (collates_of_mem_methods hlayout hm)

end Reading

namespace Rearrange

theorem exists_sort_eq (options : Options) (text : Text) :
    ∃ result, sort options text = .ok result := by
  cases h : movable? text with
  | none => exact ⟨text, by rw [sort, h]⟩
  | some layout =>
    have hordered := exists_ordered?_eq h options
    obtain ⟨result, hresult, -⟩ := exists_place_eq h (Options.perm_of_ordered? hordered)
    exact ⟨result, by rw [sort_of_movable? h hordered, hresult]⟩

theorem exists_shuffle_eq {source : IndexSource} {text : Text}
    (hsource : source.InRange ((Reading.ofText text).methods.length - 1)) :
    ∃ result rest, shuffle source text = .ok (result, rest) := by
  cases h : movable? text with
  | none => exact ⟨text, source, by rw [shuffle, h]⟩
  | some layout =>
    rw [(movable?_eq_some h).1] at hsource
    obtain ⟨order, rest, horder, hperm⟩ := exists_shuffle?_eq hsource
    obtain ⟨result, hresult, -⟩ := exists_place_eq h hperm
    exact ⟨result, rest, by rw [shuffle_of_movable? h horder, hresult]; rfl⟩

/-- Every source can be read, sorted with any options, and shuffled with any indexes in range. The
walk that reads it does not fail and gives its reading, and what comparisons collate can be
collated. -/
theorem never_fails (text : Text) :
    Reading.walked (Source.ofText text) = .ok (Reading.ofText text) ∧
      (∀ m ∈ (Reading.ofText text).methods,
        Name.collates (Text.foldCase m.name) = true ∧
          Name.collates (Text.swapCase m.name) = true) ∧
      (∀ options : Options, ∃ result, sort options text = .ok result) ∧
      ∀ source : IndexSource, source.InRange ((Reading.ofText text).methods.length - 1) →
        ∃ result rest, shuffle source text = .ok (result, rest) := by
  refine ⟨Reading.walked_eq _, fun m hm ↦ ?_, fun options ↦ ?_, fun source hsource ↦ ?_⟩
  · exact Reading.collates_forms_of_mem_methods hm
  · exact exists_sort_eq options text
  · exact exists_shuffle_eq hsource

/-- A class with a literal that does not end, a field with U+0000 in it, and behind the class a
comment that does not end. -/
def unfinishedSource : Text :=
  ("class A \x7b\n  void b() \x7b f(\"x);\n  \x7d\n  int \x00;\n  void a();\n" ++
    "\x7d\n/* A").toList

theorem unfinishedSource_rearranged :
    (Reading.ofText unfinishedSource).methods.length = 2 ∧
      Reading.walked (Source.ofText unfinishedSource) = .ok (Reading.ofText unfinishedSource) ∧
      (∃ result, sort Options.default unfinishedSource = .ok result) ∧
      (IndexSource.listed [0]).InRange 1 ∧
      ∃ result rest, shuffle (.listed [0]) unfinishedSource = .ok (result, rest) := by
  have hlength : (Reading.ofText unfinishedSource).methods.length = 2 := by decide +kernel
  have hrange : (IndexSource.listed [0]).InRange 1 := ⟨by decide, by decide, trivial⟩
  obtain ⟨hwalked, -, hsort, hshuffle⟩ := never_fails unfinishedSource
  rw [hlength] at hshuffle
  exact ⟨hlength, hwalked, hsort _, hrange, hshuffle _ hrange⟩

end Rearrange

end MemberOrder
