import Mathlib.Data.List.Perm.Subperm
import MemberOrder.Layout.Basic
import MemberOrder.Proofs.Order.Settled
import MemberOrder.Proofs.RunSort.Ascent

/-!
Callers before callees. The comparison puts a method before those of its group that it calls, but it
is no order: names and places may lead from a callee, by methods each of which may follow the one
before it, back to its caller. A sort compares neighbours, so it puts every caller first if nothing
leads back to it. If something does, there is an order of writing the methods in which it stays as
it is, with the callee first.
-/

set_option autoImplicit false

namespace MemberOrder

/-! ### Chains without repetition -/

theorem forall_mem_of_isChain {α : Type} {r : α → α → Prop} {p : α → Prop}
    (h : ∀ x y, r x y → p y) {x : α} {l : List α} (hchain : (x :: l).IsChain r) :
    ∀ y ∈ l, p y := by
  induction l generalizing x with
  | nil => simp
  | cons z l ih =>
    obtain ⟨hstep, hrest⟩ := List.isChain_cons_cons.mp hchain
    exact List.forall_mem_cons.mpr ⟨h x z hstep, ih hrest⟩

/-- What leads from one element to another does so without repetition. -/
theorem exists_nodup_isChain {α : Type} {r : α → α → Prop} {a b : α}
    (h : Relation.ReflTransGen r a b) :
    ∃ l, (a :: l).Nodup ∧ (a :: l).IsChain r ∧ (a :: l).getLast? = some b := by
  induction h using Relation.ReflTransGen.head_induction_on with
  | refl => exact ⟨[], by simp, List.IsChain.singleton _, rfl⟩
  | @head a c hstep _ ih =>
    obtain ⟨l, hnodup, hchain, hlast⟩ := ih
    by_cases hmem : a ∈ c :: l
    · -- The chain comes back to where it started: only what follows is kept.
      obtain ⟨front, back, hsplit⟩ := List.append_of_mem hmem
      rw [hsplit] at hnodup hchain hlast
      refine ⟨back, (List.nodup_append.mp hnodup).2.1, (List.isChain_append.mp hchain).2.1, ?_⟩
      rwa [List.getLast?_append_of_ne_nil _ (List.cons_ne_nil _ _)] at hlast
    · refine ⟨c :: l, List.nodup_cons.mpr ⟨hmem, hnodup⟩, List.IsChain.cons_cons hstep hchain, ?_⟩
      rwa [List.getLast?_cons_cons]

namespace Options

variable (options : Options)

/-- Do the options put the two methods in one group? -/
def SameGroup (a b : Method) : Prop :=
  (options.separateConstructors = true → a.isConstructor = b.isConstructor) ∧
    a.isStatic = b.isStatic ∧ (options.separateAccess = true → a.access = b.access)

instance (a b : Method) : Decidable (options.SameGroup a b) :=
  inferInstanceAs (Decidable (_ ∧ _ ∧ _))

theorem sameGroup_iff (a b : Method) :
    options.SameGroup a b ↔ options.compareGroups a b = .eq := by
  have hflags (x y : Bool) : compareFlags x y = .eq ↔ x = y := by
    cases x <;> cases y <;> decide
  have haccess (x y : Access) : compare x.rank y.rank = .eq ↔ x = y := by
    cases x <;> cases y <;> decide
  unfold SameGroup compareGroups
  rw [Ordering.then_eq_eq, Ordering.then_eq_eq, hflags]
  refine and_congr ?_ (and_congr_right fun _ ↦ ?_)
  · split_ifs with hseparate
    · simp [hseparate, hflags]
    · simp [hseparate]
  · split_ifs with hseparate
    · simp [hseparate, haccess]
    · simp [hseparate]

/-- Every method stands before those of its group that it calls. -/
def CallersFirst (graph : CallGraph) (order : List Method) : Prop :=
  ∀ (i j : Nat) (a b : Method), order[i]? = some a → order[j]? = some b → options.SameGroup a b →
    graph.calls a.name b.name = true → i < j

/-- By the methods, each of which may follow the one before it, the first leads to the second. -/
def Leads (methods : List Method) : Method → Method → Prop :=
  Relation.TransGen fun x y ↦ x ∈ methods ∧ y ∈ methods ∧
    options.compareKinds (CallGraph.ofMethods methods) y x ≠ .lt

/-- Nothing leads from a higher rank to a lower one if no method may follow one of higher rank. -/
theorem not_leads_of_rank {methods : List Method} (rank : Method → Nat)
    (h : ∀ x ∈ methods, ∀ y ∈ methods,
      options.compareKinds (CallGraph.ofMethods methods) y x ≠ .lt → rank x ≤ rank y)
    {a b : Method} (hab : rank a < rank b) : ¬ options.Leads methods b a := by
  intro hleads
  have hle {y : Method} (hy : options.Leads methods b y) : rank b ≤ rank y := by
    induction hy with
    | single hstep => exact h _ hstep.1 _ hstep.2.1 hstep.2.2
    | tail _ hstep ih => exact Nat.le_trans ih (h _ hstep.1 _ hstep.2.1 hstep.2.2)
  exact Nat.not_lt.mpr (hle hleads) hab

end Options

namespace Options

variable {options : Options}

/-- Callers come first exactly if none stands behind a method that it calls. -/
theorem callersFirst_iff_pairwise (methods order : List Method) :
    options.CallersFirst (CallGraph.ofMethods methods) order ↔
      order.Pairwise fun b a ↦ options.SameGroup a b →
        (CallGraph.ofMethods methods).calls a.name b.name = false := by
  rw [List.pairwise_iff_getElem]
  constructor
  · intro h i j hi hj hij hgroup
    refine Bool.eq_false_iff.mpr fun hcalls ↦ ?_
    have hji := h j i _ _ (List.getElem?_eq_getElem hj) (List.getElem?_eq_getElem hi) hgroup hcalls
    omega
  · intro h i j a b hi hj hgroup hcalls
    obtain ⟨hi, rfl⟩ := List.getElem?_eq_some_iff.mp hi
    obtain ⟨hj, rfl⟩ := List.getElem?_eq_some_iff.mp hj
    rcases Nat.lt_trichotomy i j with hlt | rfl | hgt
    · exact hlt
    · exact absurd rfl ((CallGraph.calls_ofMethods_iff _ _ _).mp hcalls).1
    · have hnot := h j i _ _ hgt hgroup
      rw [hcalls] at hnot
      cases hnot

/-- A method that is called comes after its caller. -/
theorem compareKinds_of_calls (hcallers : options.callersFirst = true) {graph : CallGraph}
    {a b : Method} (hgroup : options.SameGroup a b) (hcalls : graph.calls a.name b.name = true) :
    options.compareKinds graph a b = .lt := by
  rw [compareKinds, (options.sameGroup_iff a b).mp hgroup, hcallers, if_pos rfl, compareCalls,
    if_pos hcalls]
  rfl

/-- Methods that are written down first, each of which may follow the one before it, keep their
order. -/
theorem sublist_sorted_renumbered {methods front rest : List Method}
    (hperm : (front ++ rest).Perm methods)
    (h : front.IsChain fun x y ↦
      options.compareKinds (CallGraph.ofMethods methods) y x ≠ .lt) :
    (Method.renumbered front).Sublist (options.sorted (Method.renumbered (front ++ rest))) := by
  have happend : Method.renumbered (front ++ rest) = Method.renumbered front ++ _ :=
    List.mapIdx_append
  rw [← options.compareKinds_congr (Method.perm_entries_renumbered hperm)] at h
  have hascends := (options.isChain_renumbered_iff
    (CallGraph.ofMethods (Method.renumbered (front ++ rest))) front).mpr h
  unfold sorted
  rw [happend] at hascends ⊢
  exact sublist_runSort hascends

/-- Where something leads from a method to its caller, there is an order of writing the methods down
in which the caller does not come first. -/
theorem exists_not_callersFirst {methods : List Method} {a b : Method} (hb : b ∈ methods)
    (hgroup : options.SameGroup a b)
    (hcalls : (CallGraph.ofMethods methods).calls a.name b.name = true)
    (hleads : options.Leads methods b a) :
    ∃ written, written.Perm methods ∧ ¬ options.CallersFirst (CallGraph.ofMethods methods)
      (options.sorted (Method.renumbered written)) := by
  obtain ⟨way, hnodup, hchain, hlast⟩ := exists_nodup_isChain hleads.to_reflTransGen
  have hway : b :: way ⊆ methods := by
    refine List.cons_subset.mpr ⟨hb, forall_mem_of_isChain (fun x y hxy ↦ hxy.2.1) hchain⟩
  have hperm : ((b :: way) ++ methods.diff (b :: way)).Perm methods :=
    List.subperm_append_diff_self_of_count_le fun x hx ↦ by
      rw [List.count_eq_one_of_mem hnodup hx]
      exact List.one_le_count_iff.mpr (hway hx)
  refine ⟨_, hperm, fun hfirst ↦ ?_⟩
  have hsub := sublist_sorted_renumbered hperm (hchain.imp fun x y hxy ↦ hxy.2.2)
  have hpairs := ((callersFirst_iff_pairwise methods _).mp hfirst).sublist hsub
  have hne : way ≠ [] := by
    rintro rfl
    cases hlast
    exact ((CallGraph.calls_ofMethods_iff _ _ _).mp hcalls).1 rfl
  have hlength : (Method.renumbered (b :: way)).length = way.length + 1 := by
    simp [Method.renumbered]
  have hcallee := List.pairwise_iff_getElem.mp hpairs 0 way.length (by omega) (by omega)
    (List.length_pos_iff.mpr hne)
  have hcaller : (b :: way)[way.length] = a := by
    rw [List.getLast?_eq_getElem?] at hlast
    simpa using hlast
  simp only [Method.renumbered, List.getElem_mapIdx, hcaller, List.getElem_cons_zero] at hcallee
  have hnot := hcallee hgroup
  rw [hcalls] at hnot
  cases hnot

section Acyclic

variable {methods : List Method} (hacyclic : (CallGraph.ofMethods methods).Acyclic)

include hacyclic

/-- Along methods sorted by calls without a cycle each may follow the one before it. -/
theorem isChain_sorted_of_acyclic {written : List Method} (hwritten : written.Perm methods) :
    (options.sorted (Method.renumbered written)).IsChain fun x y ↦
      options.compareKinds (CallGraph.ofMethods methods) y x ≠ .lt := by
  have hentries := Method.perm_entries_renumbered hwritten
  have hacyclic' : (CallGraph.ofMethods (Method.renumbered written)).Acyclic := by
    intro name
    rw [CallGraph.reaches_congr hentries]
    exact hacyclic name
  refine (options.isChain_sorted (Method.renumbered written)).imp fun x y hentangled hkinds ↦ ?_
  refine options.not_entangled_of_acyclic hacyclic' x y (hentangled ?_)
  rw [compareMethods_eq, options.compareKinds_congr hentries, hkinds]
  rfl

/-- Where nothing leads from a method to its caller, callers come first however the methods were
written down. -/
theorem callersFirst_sorted (h : ∀ a ∈ methods, ∀ b ∈ methods, options.SameGroup a b →
      (CallGraph.ofMethods methods).calls a.name b.name = true → ¬ options.Leads methods b a)
    {written : List Method} (hwritten : written.Perm methods) :
    options.CallersFirst (CallGraph.ofMethods methods)
      (options.sorted (Method.renumbered written)) := by
  -- A renumbered method is known by its number, which leads back to what was written.
  let origin (m : Method) : Method := written[m.position]?.getD m
  have horigin {m : Method} (hm : m ∈ options.sorted (Method.renumbered written)) :
      origin m ∈ methods ∧ m = { origin m with position := m.position } := by
    obtain ⟨i, hi, rfl⟩ := List.mem_mapIdx.mp ((options.sorted_perm _).mem_iff.mp hm)
    have heq : origin { written[i] with position := i } = written[i] := by
      simp [origin, hi]
    rw [heq]
    exact ⟨hwritten.mem_iff.mp (List.getElem_mem hi), rfl⟩
  have hchain : (options.sorted (Method.renumbered written)).IsChain fun x y ↦
      options.Leads methods (origin x) (origin y) := by
    refine (isChain_sorted_of_acyclic hacyclic hwritten).imp_of_mem_imp fun x y hx hy hxy ↦ ?_
    obtain ⟨hx, hxeq⟩ := horigin hx
    obtain ⟨hy, hyeq⟩ := horigin hy
    rw [hxeq, hyeq] at hxy
    exact Relation.TransGen.single ⟨hx, hy, hxy⟩
  have htrans : Trans (fun x y ↦ options.Leads methods (origin x) (origin y))
      (fun x y ↦ options.Leads methods (origin x) (origin y))
      (fun x y ↦ options.Leads methods (origin x) (origin y)) := ⟨Relation.TransGen.trans⟩
  refine (callersFirst_iff_pairwise methods _).mpr
    ((List.isChain_iff_pairwise.mp hchain).imp_of_mem fun {b a} hb ha hleads hgroup ↦ ?_)
  obtain ⟨ha, haeq⟩ := horigin ha
  obtain ⟨hb, hbeq⟩ := horigin hb
  refine Bool.eq_false_iff.mpr fun hcalls ↦ ?_
  rw [haeq, hbeq] at hgroup hcalls
  exact h _ ha _ hb hgroup hcalls hleads

end Acyclic

/-- Callers before callees, for all methods whose calls have no cycle and for orders without
clusters. However the methods are written down, none of them calls the one of its group right before
it in the order; and each stands before all those of its group that it calls, however they are
written down, exactly if nothing leads from a method to its caller. -/
theorem callersFirst_iff_not_leads (hcallers : options.callersFirst = true)
    (hplain : options.Unclustered) {methods : List Method}
    (hnames : ∀ m ∈ methods, Name.collates m.name = true)
    (hacyclic : (CallGraph.ofMethods methods).Acyclic) :
    (∀ written : List Method, written.Perm methods → ∃ order,
      options.ordered? (Method.renumbered written) = some order ∧
        order.IsChain fun b a ↦ options.SameGroup a b →
          (CallGraph.ofMethods methods).calls a.name b.name = false) ∧
    ((∀ written : List Method, written.Perm methods → ∃ order,
        options.ordered? (Method.renumbered written) = some order ∧
          options.CallersFirst (CallGraph.ofMethods methods) order) ↔
      ∀ a ∈ methods, ∀ b ∈ methods, options.SameGroup a b →
        (CallGraph.ofMethods methods).calls a.name b.name = true →
          ¬ options.Leads methods b a) := by
  have hordered {written : List Method} (hwritten : written.Perm methods) :
      options.ordered? (Method.renumbered written) =
        some (options.sorted (Method.renumbered written)) := by
    rw [options.ordered?_of_collates (Method.collates_renumbered hwritten hnames),
      hplain.clustered_eq]
  refine ⟨fun written hwritten ↦ ⟨_, hordered hwritten, ?_⟩, fun h a ha b hb hgroup hcalls hleads ↦ ?_,
    fun h written hwritten ↦ ⟨_, hordered hwritten, callersFirst_sorted hacyclic h hwritten⟩⟩
  · refine (isChain_sorted_of_acyclic hacyclic hwritten).imp fun b a hmay hgroup ↦ ?_
    exact Bool.eq_false_iff.mpr fun hcalls ↦ hmay (compareKinds_of_calls hcallers hgroup hcalls)
  · obtain ⟨written, hwritten, hnot⟩ := exists_not_callersFirst hb hgroup hcalls hleads
    obtain ⟨order, horder, hfirst⟩ := h written hwritten
    rw [hordered hwritten, Option.some.injEq] at horder
    exact hnot (horder ▸ hfirst)

/-- A class whose only call goes along with the order of names. -/
def callAlongNamesSource : Text :=
  ("class C \x7b\n  void open() \x7b\x7d\n  void move() \x7b\x7d\n" ++
    "  void close() \x7b open(); \x7d\n\x7d\n").toList

theorem callAlongNamesSource_callersFirst :
    ∃ layout, Reading.ofText callAlongNamesSource = .complete layout ∧ layout.methods.length = 3 ∧
      (CallGraph.ofMethods layout.methods).Acyclic ∧
      ∀ written : List Method, written.Perm layout.methods → ∃ order,
        breadthFirst.ordered? (Method.renumbered written) = some order ∧
          breadthFirst.CallersFirst (CallGraph.ofMethods layout.methods) order := by
  let rank (name : Text) : Nat := (name.headD 'a').toNat
  have hsome : (Reading.ofText callAlongNamesSource).layout?.any fun layout ↦
      decide (layout.methods.length = 3 ∧
        (∀ m ∈ layout.methods, Name.collates m.name = true) ∧
        (∀ m ∈ layout.methods, ∀ callee ∈ m.calls, callee ∈ layout.methods.map Method.name →
          callee ≠ m.name → 200 - rank callee < 200 - rank m.name) ∧
        (∀ x ∈ layout.methods, ∀ y ∈ layout.methods,
          breadthFirst.compareKinds (CallGraph.ofMethods layout.methods) y x ≠ .lt →
            rank x.name ≤ rank y.name) ∧
        ∀ a ∈ layout.methods, ∀ b ∈ layout.methods,
          (CallGraph.ofMethods layout.methods).calls a.name b.name = true →
            rank a.name < rank b.name) := by
    decide +kernel
  obtain ⟨layout, h, hlayout⟩ := Reading.exists_complete_of_any hsome
  obtain ⟨hlength, hnames, hfalls, hrises, hcalls⟩ := of_decide_eq_true hlayout
  have hacyclic := CallGraph.acyclic_of_rank (200 - rank ·) hfalls
  refine ⟨layout, h, hlength, hacyclic, ?_⟩
  refine (callersFirst_iff_not_leads (by decide) (by decide) hnames hacyclic).2.mpr ?_
  intro a ha b hb _ hab
  exact breadthFirst.not_leads_of_rank (rank ·.name) hrises (hcalls a ha b hb hab)

/-- The last method calls the first one, and between them is a third that by its name stays there. -/
def calleeBeforeCallerSource : Text :=
  ("class C \x7b\n  void a() \x7b\x7d\n  void m() \x7b\x7d\n" ++
    "  void z() \x7b a(); \x7d\n\x7d\n").toList

/-- The caller is not put before the method it calls. -/
theorem calleeBeforeCallerSource_stays :
    ∃ layout order, Reading.ofText calleeBeforeCallerSource = .complete layout ∧
      (CallGraph.ofMethods layout.methods).Acyclic ∧
      breadthFirst.ordered? layout.methods = some order ∧
      ¬ breadthFirst.CallersFirst (CallGraph.ofMethods layout.methods) order := by
  let rank (name : Text) : Nat := (name.headD 'a').toNat
  have hsome : (Reading.ofText calleeBeforeCallerSource).layout?.any fun layout ↦
      decide (∀ m ∈ layout.methods, ∀ callee ∈ m.calls, callee ∈ layout.methods.map Method.name →
          callee ≠ m.name → rank callee < rank m.name) &&
        (breadthFirst.ordered? layout.methods).any fun order ↦
          order[0]?.any fun first ↦ order[2]?.any fun last ↦
            decide (breadthFirst.SameGroup last first) &&
              (CallGraph.ofMethods layout.methods).calls last.name first.name := by
    decide +kernel
  obtain ⟨layout, h, hlayout⟩ := Reading.exists_complete_of_any hsome
  simp only [Bool.and_eq_true, decide_eq_true_eq, Option.any_eq_true] at hlayout
  obtain ⟨hfalls, order, horder, first, hfirst, last, hlast, hgroup, hcalls⟩ := hlayout
  refine ⟨layout, order, h, CallGraph.acyclic_of_rank rank hfalls, horder, fun hcallers ↦ ?_⟩
  exact absurd (hcallers 2 0 last first hlast hfirst hgroup hcalls) (by decide)

end Options

end MemberOrder
