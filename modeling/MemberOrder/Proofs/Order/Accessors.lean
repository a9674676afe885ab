import MemberOrder.Proofs.Layout.Tiling
import MemberOrder.Proofs.Order.Permutation

/-!
Accessors brought together. The pass takes the first method there is, with the first accessor behind
that goes with it, and goes on with the others. It takes no method past another of its name, and
done again it changes nothing. Methods that were read from a source are accessors of the field that
their name tells, and go with accessors of that field only; so a getter and a setter that are the
only ones of their field end up next to each other.
-/

set_option autoImplicit false

namespace MemberOrder.Method

/-! ### The pass step by step -/

namespace Pairs

variable {methods order : List Method}

theorem eq_clusterAccessors (h : Pairs methods order) : order = clusterAccessors methods := by
  induction h with
  | nil => simp [clusterAccessors]
  | @pair m partner front back order hgoes hfront _ ih =>
    have hfound : (front ++ partner :: back).find? (fun other ↦
        m.partnerNames.contains other.name) = some partner :=
      List.find?_eq_some_iff_append.mpr
        ⟨by simpa using hgoes, front, back, rfl, by simpa using hfront⟩
    rw [clusterAccessors, hfound]
    simp only
    rw [List.eraseP_append_right _ (by simpa using hfront),
      List.eraseP_cons_of_pos (by simpa using hgoes), ih]
  | @alone m rest order hnone _ ih =>
    have hmissing : rest.find? (fun other ↦ m.partnerNames.contains other.name) = none := by
      simpa using hnone
    rw [clusterAccessors, hmissing]
    simp only
    rw [ih]

/-- What the pass has put in order it leaves as it is. -/
theorem again (h : Pairs methods order) : Pairs order order := by
  induction h with
  | nil => exact .nil
  | @pair m partner _ _ order hgoes _ _ ih =>
    show Pairs (m :: ([] ++ partner :: order)) (m :: partner :: order)
    exact .pair hgoes (by simp) ih
  | alone hnone hrest ih =>
    exact .alone (fun other hother ↦ hnone other (hrest.perm.mem_iff.mp hother)) ih

/-- Methods keep their order if each of them that goes with a method is the first of them that
does: their names all go with it, or none. -/
theorem filter_eq (h : Pairs methods order) (kept : Text → Bool)
    (hkept : ∀ m ∈ methods, ∀ name ∈ m.partnerNames, kept name = true →
      ∀ other, kept other = true → other ∈ m.partnerNames) :
    order.filter (fun m ↦ kept m.name) = methods.filter fun m ↦ kept m.name := by
  induction h with
  | nil => rfl
  | @pair m partner front back order hgoes hfront _ ih =>
    have hrest := ih fun other hother ↦ hkept other (by
      rcases List.mem_append.mp hother with hother | hother <;> simp [hother])
    rw [List.filter_append] at hrest
    rw [List.filter_cons, List.filter_cons, List.filter_cons, List.filter_append,
      List.filter_cons, hrest]
    by_cases hpartner : kept partner.name = true
    · have hnone : front.filter (fun other ↦ kept other.name) = [] :=
        List.filter_eq_nil_iff.mpr fun other hother hkeeps ↦
          hfront other hother (hkept m List.mem_cons_self _ hgoes hpartner _ hkeeps)
      simp [hpartner, hnone]
    · simp [hpartner]
  | @alone m rest order _ _ ih =>
    rw [List.filter_cons, List.filter_cons,
      ih fun other hother ↦ hkept other (List.mem_cons_of_mem _ hother)]

end Pairs

/-! ### Accessors of a field -/

/-- The names that accessors of a field can have. -/
def accessorNames (field : Text) : List Text :=
  [getterWord ++ field, queryWord ++ field, setterWord ++ field]

/-- The name of an accessor tells its field: none of the words that it can start with starts another
of them. -/
theorem append_mem_accessorNames_iff {word : Text}
    (hword : word ∈ [getterWord, queryWord, setterWord]) (field other : Text) :
    word ++ other ∈ accessorNames field ↔ other = field := by
  rw [List.mem_cons, List.mem_pair] at hword
  rcases hword with rfl | rfl | rfl <;>
    simp [accessorNames, getterWord, queryWord, setterWord]

theorem getterField_getter (field : Text) : getterField (getterWord ++ field) = field := by
  simp [getterField]

theorem getterField_query (field : Text) : getterField (queryWord ++ field) = field := by
  simp [getterField, getterWord, queryWord]

theorem setterField_setter (field : Text) : setterField (setterWord ++ field) = field := by
  simp [setterField]

/-- The method is flagged as a getter or setter only if its name says so. -/
structure FlagsFit (m : Method) : Prop where
  getter : m.isGetter = true →
    ∃ field, m.name = getterWord ++ field ∨ m.name = queryWord ++ field
  setter : m.isSetter = true → ∃ field, m.name = setterWord ++ field

/-- The flags of methods that are read from a source fit their names. -/
theorem flagsFit_of_mem_methods {text : Text} {m : Method} (h : m ∈ (Reading.ofText text).methods) :
    m.FlagsFit := by
  obtain ⟨layout, hlayout, hm⟩ := Reading.exists_complete_of_mem_methods h
  obtain ⟨head, -, previous, place, ending, inner, -, -, rfl⟩ :=
    Reading.exists_head_of_mem_methods hlayout hm
  constructor
  · intro hgetter
    simp only [ClassBody.declared, declaresGetter, Bool.and_eq_true, Bool.or_eq_true,
      List.isPrefixOf_iff_prefix] at hgetter
    rcases hgetter.1.1 with ⟨field, hfield⟩ | ⟨field, hfield⟩
    · exact ⟨field, Or.inl hfield.symm⟩
    · exact ⟨field, Or.inr hfield.symm⟩
  · intro hsetter
    simp only [ClassBody.declared, declaresSetter, Bool.and_eq_true,
      List.isPrefixOf_iff_prefix] at hsetter
    obtain ⟨field, hfield⟩ := hsetter.1
    exact ⟨field, hfield.symm⟩

theorem partnerNames_of_getter {m : Method} {field : Text} (hgetter : m.isGetter = true)
    (hname : m.name = getterWord ++ field ∨ m.name = queryWord ++ field) :
    m.partnerNames = [setterWord ++ field] := by
  rw [partnerNames, if_pos hgetter]
  rcases hname with hname | hname
  · rw [hname, getterField_getter]
  · rw [hname, getterField_query]

namespace FlagsFit

variable {m : Method} (h : m.FlagsFit)

include h

theorem partnerNames_of_setter {field : Text} (hsetter : m.isSetter = true)
    (hname : m.name = setterWord ++ field) :
    m.partnerNames = [getterWord ++ field, queryWord ++ field] := by
  have hgetter : ¬ m.isGetter = true := by
    intro hgetter
    obtain ⟨other, hother | hother⟩ := h.getter hgetter
    · simp [hname, setterWord, getterWord] at hother
    · simp [hname, setterWord, queryWord] at hother
  rw [partnerNames, if_neg hgetter, if_pos hsetter, hname, setterField_setter]

/-- What goes with an accessor of a field is an accessor of that field. -/
theorem mem_accessorNames_iff {name : Text} (hname : name ∈ m.partnerNames) (field : Text) :
    name ∈ accessorNames field ↔ m.name ∈ accessorNames field := by
  by_cases hgetter : m.isGetter = true
  · obtain ⟨own, hown⟩ := h.getter hgetter
    rw [partnerNames_of_getter hgetter hown, List.mem_singleton] at hname
    rw [hname, append_mem_accessorNames_iff (by simp)]
    rcases hown with hown | hown
    · rw [hown, append_mem_accessorNames_iff (by simp)]
    · rw [hown, append_mem_accessorNames_iff (by simp)]
  · by_cases hsetter : m.isSetter = true
    · obtain ⟨own, hown⟩ := h.setter hsetter
      rw [h.partnerNames_of_setter hsetter hown] at hname
      rw [hown, append_mem_accessorNames_iff (by simp)]
      rcases List.mem_pair.mp hname with rfl | rfl
      · exact append_mem_accessorNames_iff (by simp) field own
      · exact append_mem_accessorNames_iff (by simp) field own
    · simp [partnerNames, hgetter, hsetter] at hname

end FlagsFit

/-- Two methods that are the only accessors of a field, the second of which goes with the first, are
put next to each other: no other method takes one of them away. -/
theorem Pairs.infix_of_filter {methods order : List Method} {first second : Method} {field : Text}
    (h : Pairs methods order) (hfits : ∀ m ∈ methods, m.FlagsFit)
    (honly : methods.filter (·.name ∈ accessorNames field) = [first, second])
    (hsecond : second.name ∈ first.partnerNames) : [first, second] <:+: order := by
  induction h with
  | nil => cases honly
  | @pair m partner front back order hgoes _ _ ih =>
    have hpartner := (hfits m List.mem_cons_self).mem_accessorNames_iff hgoes field
    by_cases hm : m.name ∈ accessorNames field
    · rw [List.filter_cons_of_pos (by simpa using hm)] at honly
      obtain ⟨rfl, hrest⟩ := List.cons.inj honly
      have hmem : partner ∈ (front ++ partner :: back).filter (·.name ∈ accessorNames field) :=
        List.mem_filter.mpr ⟨by simp, by simpa using hpartner.mpr hm⟩
      rw [hrest, List.mem_singleton] at hmem
      subst hmem
      exact ⟨[], order, rfl⟩
    · rw [List.filter_cons_of_neg (by simpa using hm), List.filter_append,
        List.filter_cons_of_neg (by simpa using mt hpartner.mp hm), ← List.filter_append] at honly
      have hrest := ih (fun other hother ↦ hfits other (by
        rcases List.mem_append.mp hother with hother | hother <;> simp [hother])) honly
      exact List.infix_cons (List.infix_cons hrest)
  | @alone m rest order hnone _ ih =>
    by_cases hm : m.name ∈ accessorNames field
    · rw [List.filter_cons_of_pos (by simpa using hm)] at honly
      obtain ⟨rfl, hrest⟩ := List.cons.inj honly
      have hmem : second ∈ rest.filter (·.name ∈ accessorNames field) := by
        rw [hrest]
        exact List.mem_singleton_self second
      exact absurd hsecond (hnone second (List.mem_filter.mp hmem).1)
    · rw [List.filter_cons_of_neg (by simpa using hm)] at honly
      exact List.infix_cons
        (ih (fun other hother ↦ hfits other (List.mem_cons_of_mem _ hother)) honly)

section OneOfEach

variable {methods : List Method} {getter setter : Method} {field : Text}
  (hgetter : methods.filter (fun m ↦ m.name = getterWord ++ field ∨ m.name = queryWord ++ field) =
    [getter])
  (hsetter : methods.filter (·.name = setterWord ++ field) = [setter])

include hgetter hsetter

/-- The accessors of a field are its getters and its setters. -/
theorem perm_accessors :
    (methods.filter (·.name ∈ accessorNames field)).Perm [getter, setter] := by
  have hsplit := List.filter_append_perm
    (fun m : Method ↦ decide (m.name = getterWord ++ field ∨ m.name = queryWord ++ field))
    (methods.filter (·.name ∈ accessorNames field))
  have hgetters : methods.filter (fun m ↦ decide (m.name = getterWord ++ field ∨
      m.name = queryWord ++ field) && decide (m.name ∈ accessorNames field)) = [getter] := by
    rw [← hgetter]
    refine List.filter_congr fun m _ ↦ ?_
    rw [Bool.eq_iff_iff]
    simp only [accessorNames, List.mem_cons, Bool.and_eq_true, decide_eq_true_eq]
    tauto
  have hsetters : methods.filter (fun m ↦ !decide (m.name = getterWord ++ field ∨
      m.name = queryWord ++ field) && decide (m.name ∈ accessorNames field)) = [setter] := by
    rw [← hsetter]
    refine List.filter_congr fun m _ ↦ ?_
    by_cases hname : m.name = setterWord ++ field
    · simp [hname, accessorNames, getterWord, queryWord, setterWord]
    · simp [hname, accessorNames]
  rw [List.filter_filter, List.filter_filter, hgetters, hsetters] at hsplit
  exact hsplit.symm

/-- A getter and a setter that are the only ones of their field are put next to each other, in the
order in which they stand. -/
theorem exists_infix_clusterAccessors (hfits : ∀ m ∈ methods, m.FlagsFit)
    (hisGetter : getter.isGetter = true) (hisSetter : setter.isSetter = true) :
    ∃ pair : List Method, pair.Perm [getter, setter] ∧ pair.Sublist methods ∧
      pair <:+: clusterAccessors methods := by
  have hgetterMem : getter ∈ methods.filter (fun m ↦
      m.name = getterWord ++ field ∨ m.name = queryWord ++ field) := by
    rw [hgetter]
    exact List.mem_singleton_self getter
  have hsetterMem : setter ∈ methods.filter (·.name = setterWord ++ field) := by
    rw [hsetter]
    exact List.mem_singleton_self setter
  obtain ⟨-, hgetterName⟩ := List.mem_filter.mp hgetterMem
  obtain ⟨hread, hsetterName⟩ := List.mem_filter.mp hsetterMem
  rw [decide_eq_true_eq] at hgetterName hsetterName
  have hperm := perm_accessors hgetter hsetter
  refine ⟨_, hperm, List.filter_sublist, ?_⟩
  obtain ⟨first, second, honly⟩ := List.length_eq_two.mp hperm.length_eq
  rw [honly] at hperm ⊢
  refine (pairs_clusterAccessors methods).infix_of_filter hfits honly ?_
  -- Each of the two goes with the other, so it does not matter which of them is first.
  rcases List.mem_pair.mp (hperm.mem_iff.mp List.mem_cons_self) with rfl | rfl
  · obtain rfl : second = setter := List.singleton_perm_singleton.mp hperm.cons_inv
    rw [partnerNames_of_getter hisGetter hgetterName, hsetterName]
    exact List.mem_singleton_self _
  · obtain rfl : second = getter :=
      List.singleton_perm_singleton.mp (hperm.trans (.swap _ _ _)).cons_inv
    rw [(hfits first hread).partnerNames_of_setter hisSetter hsetterName, List.mem_pair]
    exact hgetterName

end OneOfEach

/-- The pass over accessors, on any methods: it has each of them once, keeps the order of those of
one name, and changes nothing if it is done again. If the methods were read from sources, a getter
and a setter that are the only ones of their field, each flagged as what it is, are next to each
other in the order in which they were. -/
theorem clusterAccessors_brings_together (methods : List Method) :
    (clusterAccessors methods).Perm methods ∧
      (∀ name, (clusterAccessors methods).filter (·.name = name) =
        methods.filter (·.name = name)) ∧
      clusterAccessors (clusterAccessors methods) = clusterAccessors methods ∧
      ((∀ m ∈ methods, ∃ text, m ∈ (Reading.ofText text).methods) →
        ∀ (field : Text) (getter setter : Method),
          methods.filter (fun m ↦ m.name = getterWord ++ field ∨ m.name = queryWord ++ field) =
            [getter] → getter.isGetter = true →
          methods.filter (·.name = setterWord ++ field) = [setter] → setter.isSetter = true →
            ∃ pair : List Method, pair.Perm [getter, setter] ∧ pair.Sublist methods ∧
              pair <:+: clusterAccessors methods) := by
  have hpairs := pairs_clusterAccessors methods
  refine ⟨hpairs.perm, fun name ↦ ?_, hpairs.again.eq_clusterAccessors.symm, ?_⟩
  · refine hpairs.filter_eq (· = name) fun m _ partner hpartner hkept other hother ↦ ?_
    rw [decide_eq_true_eq] at hkept hother
    rwa [hother, ← hkept]
  · intro hread field getter setter hgetter hisGetter hsetter hisSetter
    refine exists_infix_clusterAccessors hgetter hsetter (fun m hm ↦ ?_) hisGetter hisSetter
    obtain ⟨text, htext⟩ := hread m hm
    exact flagsFit_of_mem_methods htext

/-- A class in which a method stands between the setter and the getter of a field. -/
def accessorSource : Text :=
  "class C \x7b\n void setA() \x7b\x7d\n int getB() \x7b\x7d\n int isA() \x7b\x7d\n\x7d\n".toList

theorem accessorSource_brought_together :
    ∃ getter setter : Method, getter.isGetter = true ∧ setter.isSetter = true ∧
      (Reading.ofText accessorSource).methods.filter (fun m ↦
        m.name = getterWord ++ ['A'] ∨ m.name = queryWord ++ ['A']) = [getter] ∧
      (Reading.ofText accessorSource).methods.filter (·.name = setterWord ++ ['A']) = [setter] ∧
      ∃ pair : List Method, pair.Perm [getter, setter] ∧
        pair.Sublist (Reading.ofText accessorSource).methods ∧
        pair <:+: clusterAccessors (Reading.ofText accessorSource).methods := by
  have hgetters : ((Reading.ofText accessorSource).methods.filter (fun m ↦
      m.name = getterWord ++ ['A'] ∨ m.name = queryWord ++ ['A'])).map isGetter = [true] := by
    decide +kernel
  have hsetters : ((Reading.ofText accessorSource).methods.filter
      (·.name = setterWord ++ ['A'])).map isSetter = [true] := by
    decide +kernel
  obtain ⟨getter, hgetter, hisGetter⟩ := List.map_eq_singleton_iff.mp hgetters
  obtain ⟨setter, hsetter, hisSetter⟩ := List.map_eq_singleton_iff.mp hsetters
  exact ⟨getter, setter, hisGetter, hisSetter, hgetter, hsetter,
    (clusterAccessors_brings_together _).2.2.2 (fun m hm ↦ ⟨accessorSource, hm⟩) ['A'] getter setter
      hgetter hisGetter hsetter hisSetter⟩

end MemberOrder.Method
