import MemberOrder.Proofs.Order.Permutation

/-!
Overloads brought together. A list gathers the methods of another if it has the same methods, those
of each name in one run, the runs in the order in which the names first occur and each run in the
order of its methods. Exactly one list does, and it comes about by collecting the methods one after
the other, each into the run of its name or into a new one behind the others.
-/

set_option autoImplicit false

namespace MemberOrder

/-! ### The order of first occurrence -/

section FirstOccurrence

variable {α : Type} [BEq α] [LawfulBEq α]

theorem idxOf_cons_lt_iff (a x y : α) (l : List α) :
    (a :: l).idxOf x < (a :: l).idxOf y ↔ a ≠ y ∧ (a = x ∨ l.idxOf x < l.idxOf y) := by
  by_cases hay : a = y
  · simp [hay]
  · by_cases hax : a = x
    · simp [← hax, hay, List.idxOf_cons_ne]
    · simp [hax, hay, List.idxOf_cons_ne]

/-- Leaving out others does not change which of two elements occurs first. -/
theorem idxOf_filter_lt_iff {keep : α → Bool} {x y : α} (hx : keep x = true) (hy : keep y = true)
    (l : List α) :
    (l.filter keep).idxOf x < (l.filter keep).idxOf y ↔ l.idxOf x < l.idxOf y := by
  induction l with
  | nil => rfl
  | cons a l ih =>
    by_cases hkeep : keep a = true
    · rw [List.filter_cons_of_pos hkeep, idxOf_cons_lt_iff, idxOf_cons_lt_iff, ih]
    · have hax : a ≠ x := fun h ↦ hkeep (h ▸ hx)
      have hay : a ≠ y := fun h ↦ hkeep (h ▸ hy)
      rw [List.filter_cons_of_neg hkeep, ih, idxOf_cons_lt_iff]
      simp [hax, hay]

theorem idxOf_eraseDups_lt_iff (l : List α) (x y : α) :
    l.eraseDups.idxOf x < l.eraseDups.idxOf y ↔ l.idxOf x < l.idxOf y := by
  match l with
  | [] => rfl
  | a :: l =>
    rw [List.eraseDups_cons, idxOf_cons_lt_iff, idxOf_cons_lt_iff]
    refine and_congr_right fun hay ↦ ?_
    by_cases hax : a = x
    · simp [hax]
    · rw [idxOf_eraseDups_lt_iff, idxOf_filter_lt_iff]
      · simpa using fun h ↦ hax h.symm
      · simpa using fun h ↦ hay h.symm
termination_by l.length
decreasing_by
  exact Nat.lt_succ_of_le (List.length_filter_le _ _)

theorem nodup_eraseDups (l : List α) : l.eraseDups.Nodup := by
  match l with
  | [] => exact List.nodup_nil
  | a :: l =>
    rw [List.eraseDups_cons, List.nodup_cons, List.mem_eraseDups]
    exact ⟨by simp, nodup_eraseDups _⟩
termination_by l.length
decreasing_by
  exact Nat.lt_succ_of_le (List.length_filter_le _ _)

theorem pairwise_idxOf_eraseDups (l : List α) :
    l.eraseDups.Pairwise fun x y ↦ l.idxOf x < l.idxOf y := by
  refine List.pairwise_iff_getElem.mpr fun i j hi hj hij ↦ ?_
  rw [← idxOf_eraseDups_lt_iff, (nodup_eraseDups l).idxOf_getElem i hi,
    (nodup_eraseDups l).idxOf_getElem j hj]
  exact hij

/-- Lists of the same elements, in which these first occur in the same order, have the same elements
in order of first occurrence. -/
theorem eraseDups_eq_of_idxOf {l l' : List α} (hmem : ∀ x, x ∈ l ↔ x ∈ l')
    (hfirst : ∀ x y, l.idxOf x < l.idxOf y ↔ l'.idxOf x < l'.idxOf y) :
    l.eraseDups = l'.eraseDups := by
  have hperm : l.eraseDups.Perm l'.eraseDups := by
    refine (List.perm_ext_iff_of_nodup (nodup_eraseDups l) (nodup_eraseDups l')).mpr fun x ↦ ?_
    rw [List.mem_eraseDups, List.mem_eraseDups, hmem]
  have hascend : l'.eraseDups.Pairwise fun x y ↦ l.idxOf x < l.idxOf y :=
    (pairwise_idxOf_eraseDups l').imp fun h ↦ (hfirst _ _).mpr h
  refine hperm.eq_of_pairwise ?_ (pairwise_idxOf_eraseDups l) hascend
  intro x y _ _ hxy hyx
  exact absurd hxy (Nat.lt_asymm hyx)

end FirstOccurrence

namespace Method

/-! ### Runs of one name -/

/-- The methods of each name stand together, in one run. -/
def NamesTogether (methods : List Method) : Prop :=
  ∀ name, ∃ front run back, methods = front ++ run ++ back ∧ (∀ m ∈ run, m.name = name) ∧
    ∀ m ∈ front ++ back, m.name ≠ name

theorem NamesTogether.sublist {methods methods' : List Method} (h : NamesTogether methods)
    (hsublist : methods'.Sublist methods) : NamesTogether methods' := by
  intro name
  obtain ⟨front, run, back, rfl, hrun, hothers⟩ := h name
  obtain ⟨start, back', rfl, hstart, hback⟩ := List.sublist_append_iff.mp hsublist
  obtain ⟨front', run', rfl, hfront, hrun'⟩ := List.sublist_append_iff.mp hstart
  exact ⟨front', run', back', rfl, fun m hm ↦ hrun m (hrun'.subset hm),
    fun m hm ↦ hothers m ((hfront.append hback).subset hm)⟩

theorem namesTogether_clusterOverloads (methods : List Method) :
    NamesTogether (clusterOverloads methods) := by
  induction methods using overloads_induction with
  | nil => exact fun _ ↦ ⟨[], [], [], rfl, by simp, by simp⟩
  | cons m rest ih =>
    intro name
    have hfirst : ∀ other ∈ m :: rest.filter (·.name = m.name), other.name = m.name := by
      simp
    rw [clusterOverloads_cons]
    by_cases hname : m.name = name
    · refine ⟨[], m :: rest.filter (·.name = m.name), _, rfl, ?_, ?_⟩
      · exact fun other hother ↦ (hfirst other hother).trans hname
      · intro other hother
        have hrest := (clusterOverloads_perm _).mem_iff.mp hother
        rw [← hname]
        simpa using (List.mem_filter.mp hrest).2
    · obtain ⟨front, run, back, hsplit, hrun, hothers⟩ := ih name
      refine ⟨m :: rest.filter (·.name = m.name) ++ front, run, back, ?_, hrun, ?_⟩
      · rw [hsplit]
        simp only [List.append_assoc]
      · intro other hother
        rw [List.append_assoc] at hother
        rcases List.mem_append.mp hother with hrun' | hrest
        · rw [hfirst other hrun']
          exact hname
        · exact hothers other hrest

/-- The run of the first method starts the list: nothing of another name is in front of it. -/
theorem NamesTogether.exists_run {m : Method} {rest : List Method}
    (h : NamesTogether (m :: rest)) :
    ∃ run back, rest = run ++ back ∧ (∀ other ∈ run, other.name = m.name) ∧
      ∀ other ∈ back, other.name ≠ m.name := by
  obtain ⟨front, run, back, hsplit, hrun, hothers⟩ := h m.name
  cases front with
  | cons x front =>
    obtain ⟨rfl, -⟩ := List.cons.inj hsplit
    exact absurd rfl (hothers m (by simp))
  | nil =>
    cases run with
    | nil =>
      have hsplit' : m :: rest = back := hsplit
      exact absurd rfl (hothers m (hsplit' ▸ List.mem_cons_self))
    | cons x run =>
      obtain ⟨rfl, hrest⟩ := List.cons.inj hsplit
      exact ⟨run, back, hrest, fun other hother ↦ hrun other (List.mem_cons_of_mem _ hother),
        hothers⟩

/-- Clustering leaves methods alone that stand together by name. -/
theorem NamesTogether.clusterOverloads_eq {methods : List Method} (h : NamesTogether methods) :
    clusterOverloads methods = methods := by
  induction methods using overloads_induction with
  | nil => rfl
  | cons m rest ih =>
    obtain ⟨run, back, hrest, hrun, hback⟩ := h.exists_run
    have hsame : rest.filter (·.name = m.name) = run := by
      rw [hrest, List.filter_append, List.filter_eq_self.mpr (by simpa using hrun),
        List.filter_eq_nil_iff.mpr (by simpa using hback), List.append_nil]
    have hothers : (rest.filter fun other ↦ !decide (other.name = m.name)) = back := by
      rw [hrest, List.filter_append, List.filter_eq_nil_iff.mpr (by simpa using hrun),
        List.filter_eq_self.mpr (by simpa using hback), List.nil_append]
    have htogether : NamesTogether (rest.filter fun other ↦ !decide (other.name = m.name)) :=
      h.sublist (List.filter_sublist.cons m)
    rw [clusterOverloads_cons, ih htogether, hsame, hothers, hrest, List.cons_append]

/-- Clustering keeps the order of the methods of a name. -/
theorem filter_clusterOverloads (methods : List Method) (name : Text) :
    (clusterOverloads methods).filter (·.name = name) = methods.filter (·.name = name) := by
  induction methods using overloads_induction with
  | nil => rfl
  | cons m rest ih =>
    rw [clusterOverloads_cons, List.filter_append, ih, List.filter_filter, List.filter_cons,
      List.filter_cons, List.filter_filter]
    by_cases hname : m.name = name
    · have hsame : rest.filter (fun other ↦ decide (other.name = name) &&
          decide (other.name = m.name)) = rest.filter (·.name = name) :=
        List.filter_congr fun other _ ↦ by simp [hname]
      have hnone : rest.filter (fun other ↦ decide (other.name = name) &&
          !decide (other.name = m.name)) = [] :=
        List.filter_eq_nil_iff.mpr fun other _ ↦ by simp [hname]
      rw [hsame, hnone, List.append_nil]
    · have hnone : rest.filter (fun other ↦ decide (other.name = name) &&
          decide (other.name = m.name)) = [] :=
        List.filter_eq_nil_iff.mpr fun other _ ↦ by
          simpa using fun h h' ↦ hname (h'.symm.trans h)
      have hsame : rest.filter (fun other ↦ decide (other.name = name) &&
          !decide (other.name = m.name)) = rest.filter (·.name = name) :=
        List.filter_congr fun other _ ↦ by
          by_cases hother : other.name = name
          · simpa [hother] using fun h ↦ hname h.symm
          · simp [hother]
      rw [hsame, hnone, if_neg (by simpa using hname), if_neg (by simpa using hname),
        List.nil_append]

/-- Clustering keeps the order in which names first occur. -/
theorem eraseDups_names_clusterOverloads (methods : List Method) :
    ((clusterOverloads methods).map (·.name)).eraseDups = (methods.map (·.name)).eraseDups := by
  induction methods using overloads_induction with
  | nil => rfl
  | cons m rest ih =>
    have hsame : ((rest.filter (·.name = m.name)).map (·.name)).filter
        (fun other ↦ !other == m.name) = [] := by
      rw [filter_names, List.filter_filter, List.filter_eq_nil_iff.mpr (by simp)]
      rfl
    have hothers : ∀ other ∈ clusterOverloads (rest.filter fun other ↦
        !decide (other.name = m.name)), (!decide (other.name = m.name)) = true := by
      intro other hother
      exact (List.mem_filter.mp ((clusterOverloads_perm _).mem_iff.mp hother)).2
    rw [clusterOverloads_cons, List.cons_append, List.map_cons, List.eraseDups_cons,
      List.map_append, List.filter_append, hsame, List.nil_append, filter_names,
      List.filter_eq_self.mpr hothers, ih, List.map_cons, List.eraseDups_cons, filter_names]

/-- The order has the methods, those of each name in one run, the runs in the order in which the
names first occur among the methods and the methods of each run in theirs. -/
structure Gathers (methods order : List Method) : Prop where
  perm : order.Perm methods
  together : NamesTogether order
  names_first : ∀ x y, (order.map (·.name)).idxOf x < (order.map (·.name)).idxOf y ↔
    (methods.map (·.name)).idxOf x < (methods.map (·.name)).idxOf y
  filter_eq : ∀ name, order.filter (·.name = name) = methods.filter (·.name = name)

theorem gathers_clusterOverloads (methods : List Method) :
    Gathers methods (clusterOverloads methods) where
  perm := clusterOverloads_perm methods
  together := namesTogether_clusterOverloads methods
  names_first := by
    intro x y
    rw [← idxOf_eraseDups_lt_iff, eraseDups_names_clusterOverloads, idxOf_eraseDups_lt_iff]
  filter_eq := filter_clusterOverloads methods

/-- What gathers the methods is their clustering: names and runs make up the list. -/
theorem Gathers.eq_clusterOverloads {methods order : List Method} (h : Gathers methods order) :
    order = clusterOverloads methods := by
  have hnames : (order.map (·.name)).eraseDups = (methods.map (·.name)).eraseDups :=
    eraseDups_eq_of_idxOf (fun _ ↦ (h.perm.map _).mem_iff) h.names_first
  calc order = clusterOverloads order := h.together.clusterOverloads_eq.symm
    _ = clusterOverloads methods := by
      unfold clusterOverloads
      rw [hnames]
      exact List.flatMap_congr fun name _ ↦ h.filter_eq name

/-! ### Collecting runs -/

/-- Puts a method into the run of its name, or into a new one behind the others. -/
def collect : List (Text × List Method) → Method → List (Text × List Method)
  | [], m => [(m.name, [m])]
  | (name, run) :: runs, m =>
    if name = m.name then (name, run ++ [m]) :: runs else (name, run) :: collect runs m

theorem collect_of_notMem {m : Method} {runs : List (Text × List Method)}
    (h : m.name ∉ runs.map Prod.fst) : collect runs m = runs ++ [(m.name, [m])] := by
  induction runs with
  | nil => rfl
  | cons entry runs ih =>
    rw [List.map_cons, List.mem_cons, not_or] at h
    rw [collect, if_neg (Ne.symm h.1), ih h.2, List.cons_append]

theorem collect_of_mem {m : Method} {names : List Text} (hnodup : names.Nodup)
    (h : m.name ∈ names) (runOf : Text → List Method) :
    collect (names.map fun name ↦ (name, runOf name)) m =
      names.map fun name ↦ (name, if name = m.name then runOf name ++ [m] else runOf name) := by
  induction names with
  | nil => cases h
  | cons name names ih =>
    obtain ⟨hnew, hnodup⟩ := List.nodup_cons.mp hnodup
    rw [List.map_cons, List.map_cons, collect]
    by_cases hname : name = m.name
    · rw [if_pos hname, if_pos hname]
      refine congrArg _ (List.map_congr_left fun other hother ↦ ?_)
      rw [if_neg]
      rintro rfl
      exact hnew (hname ▸ hother)
    · rw [if_neg hname, if_neg hname, ih hnodup]
      exact (List.mem_cons.mp h).resolve_left (Ne.symm hname)

/-- The runs collected from a list are those of its names, in order of first occurrence. -/
theorem foldl_collect (methods : List Method) :
    methods.foldl collect [] = (methods.map (·.name)).eraseDups.map fun name ↦
      (name, methods.filter (·.name = name)) := by
  induction methods using List.reverseRecOn with
  | nil => rfl
  | append_singleton methods m ih =>
    have hrun (name : Text) : (methods ++ [m]).filter (·.name = name) =
        if name = m.name then methods.filter (·.name = name) ++ [m]
        else methods.filter (·.name = name) := by
      rw [List.filter_append, List.filter_singleton]
      by_cases hname : name = m.name
      · simp [hname]
      · simp [hname, Ne.symm hname]
    simp only [hrun]
    rw [List.foldl_append, ih, List.foldl_cons, List.foldl_nil, List.map_append,
      List.eraseDups_append, List.map_singleton]
    by_cases hmem : m.name ∈ methods.map (·.name)
    · have hold : [m.name].removeAll (methods.map (·.name)) = [] := by
        simpa [List.removeAll] using hmem
      rw [collect_of_mem (nodup_eraseDups _) (List.mem_eraseDups.mpr hmem), hold,
        List.eraseDups_nil, List.append_nil]
    · have hnew : [m.name].removeAll (methods.map (·.name)) = [m.name] := by
        simpa [List.removeAll] using hmem
      have hnone : methods.filter (·.name = m.name) = [] := by
        simpa using hmem
      rw [collect_of_notMem, hnew, List.eraseDups_cons, List.filter_nil, List.eraseDups_nil,
        List.map_append, List.map_singleton, if_pos rfl, hnone, List.nil_append]
      · refine congrArg (· ++ _) (List.map_congr_left fun name hname ↦ ?_)
        rw [if_neg]
        rintro rfl
        exact hmem (List.mem_eraseDups.mp hname)
      · simpa [List.mem_eraseDups] using hmem

/-- Clustering gathers the methods of a list, nothing else does, and to do it again changes nothing.
The methods collected one after the other make up the same list. -/
theorem gathers_iff_eq_clusterOverloads (methods : List Method) :
    (∀ order, Gathers methods order ↔ order = clusterOverloads methods) ∧
      clusterOverloads (clusterOverloads methods) = clusterOverloads methods ∧
      (methods.foldl collect []).flatMap Prod.snd = clusterOverloads methods := by
  refine ⟨fun order ↦ ⟨fun h ↦ h.eq_clusterOverloads, ?_⟩, ?_, ?_⟩
  · rintro rfl
    exact gathers_clusterOverloads methods
  · exact (namesTogether_clusterOverloads methods).clusterOverloads_eq
  · rw [foldl_collect, List.flatMap_map]
    rfl

end Method

end MemberOrder
