import Mathlib.Data.Prod.Lex
import Mathlib.Logic.Relation
import MemberOrder.Order.CallGraph

/-!
Searching a call graph step by step. A search takes the topmost pending name, passes over it if it
was visited, answers if it calls the target, and otherwise pushes those of its callees that it has
not visited. The order in which these are pushed is left open, and so is whether one is pushed
twice. However they are pushed, a search comes to an end, and it finds a chain of calls exactly if
there is one.
-/

set_option autoImplicit false

namespace MemberOrder.CallGraph

/-- A search at work, with the names it has visited and the pending ones, or its answer. -/
inductive SearchState
  | working (visited pending : List Text)
  | answer (found : Bool)

variable {graph : CallGraph} {target caller : Text}

/-- One step of a search for a caller of `target`. -/
inductive SearchStep (graph : CallGraph) (target : Text) : SearchState → SearchState → Prop
  | exhausted (visited : List Text) :
      SearchStep graph target (.working visited []) (.answer false)
  | passed {visited pending : List Text} {name : Text} (hvisited : name ∈ visited) :
      SearchStep graph target (.working visited (name :: pending)) (.working visited pending)
  | found {visited pending : List Text} {name : Text} (hnew : name ∉ visited)
      (hcalls : graph.calls name target = true) :
      SearchStep graph target (.working visited (name :: pending)) (.answer true)
  | pushed {visited pending : List Text} {name : Text} (hnew : name ∉ visited)
      (hmiss : graph.calls name target = false) {callees : List Text}
      (hcallees : ∀ callee,
        callee ∈ callees ↔ graph.calls name callee = true ∧ callee ∉ name :: visited) :
      SearchStep graph target (.working visited (name :: pending))
        (.working (name :: visited) (callees ++ pending))

/-! ### Every search ends -/

/-- What is left of a search: the callers it has not visited, then the names it has pending. -/
def remaining (graph : CallGraph) : SearchState → ℕ ×ₗ ℕ
  | .working visited pending => toLex ((graph.unvisited visited).length, pending.length + 1)
  | .answer _ => toLex (0, 0)

theorem remaining_answer_lt (visited pending : List Text) (found : Bool) :
    graph.remaining (.answer found) < graph.remaining (.working visited pending) := by
  rw [remaining, remaining, Prod.Lex.toLex_lt_toLex]
  rcases Nat.eq_zero_or_pos (graph.unvisited visited).length with hnone | hsome
  · exact Or.inr ⟨hnone.symm, Nat.succ_pos _⟩
  · exact Or.inl hsome

/-- A name without callees leaves one name less pending, and any other one caller less to visit. -/
theorem remaining_visit_lt {visited pending callees : List Text} {name : Text}
    (hnew : name ∉ visited) (hcallees : ∀ callee ∈ callees, graph.calls name callee = true) :
    graph.remaining (.working (name :: visited) (callees ++ pending)) <
      graph.remaining (.working visited (name :: pending)) := by
  rw [remaining, remaining, Prod.Lex.toLex_lt_toLex]
  cases callees with
  | nil =>
    rcases Nat.lt_or_eq_of_le (graph.length_unvisited_le visited name) with hlt | heq
    · exact Or.inl hlt
    · exact Or.inr ⟨heq, Nat.lt_succ_self _⟩
  | cons callee _ =>
    have hcallee := List.contains_iff_mem.mp (hcallees callee List.mem_cons_self)
    have hcaller : name ∈ graph.callers :=
      mem_callers_of_calleesOf (List.ne_nil_of_mem hcallee)
    exact Or.inl (length_unvisited_lt hcaller (by simpa using hnew))

theorem SearchStep.remaining_lt {earlier later : SearchState}
    (h : SearchStep graph target earlier later) :
    graph.remaining later < graph.remaining earlier := by
  cases h with
  | exhausted visited => exact remaining_answer_lt visited [] false
  | passed _ => exact Prod.Lex.toLex_lt_toLex.mpr (Or.inr ⟨rfl, Nat.lt_succ_self _⟩)
  | found _ _ => exact remaining_answer_lt _ _ true
  | pushed hnew _ hcallees =>
    exact remaining_visit_lt hnew fun callee hcallee ↦ ((hcallees callee).mp hcallee).1

/-- No search goes on for ever. -/
theorem wellFounded_searchStep (graph : CallGraph) (target : Text) :
    WellFounded fun later earlier ↦ SearchStep graph target earlier later :=
  Subrelation.wf (fun h ↦ h.remaining_lt) (InvImage.wf graph.remaining wellFounded_lt)

/-- A search at work always has a next step. -/
theorem exists_searchStep (graph : CallGraph) (target : Text) (visited pending : List Text) :
    ∃ later, SearchStep graph target (.working visited pending) later := by
  cases pending with
  | nil => exact ⟨_, .exhausted visited⟩
  | cons name pending =>
    by_cases hvisited : name ∈ visited
    · exact ⟨_, .passed hvisited⟩
    · cases hcalls : graph.calls name target with
      | true => exact ⟨_, .found hvisited hcalls⟩
      | false =>
        let callees := (graph.calleesOf name).filter (· ∉ name :: visited)
        refine ⟨.working (name :: visited) (callees ++ pending), .pushed hvisited hcalls ?_⟩
        intro callee
        rw [List.mem_filter, decide_eq_true_eq, calls, List.contains_iff_mem]

/-! ### What a search finds -/

/-- What a search from `caller` keeps to: the caller is visited or pending, chains of calls lead to
the pending names, and what was visited has been dealt with. -/
structure Explored (graph : CallGraph) (target caller : Text) (visited pending : List Text) :
    Prop where
  start : caller ∈ visited ∨ caller ∈ pending
  chain : ∀ name ∈ pending,
    Relation.ReflTransGen (fun a b ↦ graph.calls a b = true) caller name
  miss : ∀ name ∈ visited, graph.calls name target = false
  closed : ∀ name ∈ visited, ∀ callee, graph.calls name callee = true →
    callee ∈ visited ∨ callee ∈ pending

namespace Explored

variable {visited pending : List Text} {name : Text}

theorem initial (graph : CallGraph) (target caller : Text) :
    Explored graph target caller [] [caller] where
  start := Or.inr List.mem_cons_self
  chain := by
    intro name hname
    rw [List.mem_singleton.mp hname]
  miss := by simp
  closed := by simp

/-- With nothing pending, no chain of calls leads from the caller to the target. -/
theorem not_transGen (h : Explored graph target caller visited []) :
    ¬ Relation.TransGen (fun a b ↦ graph.calls a b = true) caller target := by
  intro htarget
  have hvisited {name : Text}
      (hname : Relation.ReflTransGen (fun a b ↦ graph.calls a b = true) caller name) :
      name ∈ visited := by
    induction hname with
    | refl => simpa using h.start
    | tail _ hcalls ih => simpa using h.closed _ ih _ hcalls
  obtain ⟨last, hlast, hcalls⟩ := Relation.TransGen.tail'_iff.mp htarget
  rw [h.miss last (hvisited hlast)] at hcalls
  cases hcalls

theorem pass (h : Explored graph target caller visited (name :: pending))
    (hvisited : name ∈ visited) : Explored graph target caller visited pending := by
  have hkept {other : Text} (hother : other ∈ visited ∨ other ∈ name :: pending) :
      other ∈ visited ∨ other ∈ pending := by
    rcases hother with hother | hother
    · exact Or.inl hother
    · rcases List.mem_cons.mp hother with rfl | hother
      · exact Or.inl hvisited
      · exact Or.inr hother
  refine ⟨hkept h.start, ?_, h.miss, ?_⟩
  · intro other hother
    exact h.chain other (List.mem_cons_of_mem _ hother)
  · intro other hother callee hcalls
    exact hkept (h.closed other hother callee hcalls)

theorem push (h : Explored graph target caller visited (name :: pending))
    (hmiss : graph.calls name target = false) {callees : List Text}
    (hcallees : ∀ callee,
      callee ∈ callees ↔ graph.calls name callee = true ∧ callee ∉ name :: visited) :
    Explored graph target caller (name :: visited) (callees ++ pending) := by
  -- What was visited or pending still is: the name itself goes from the pending to the visited.
  have hmoved {other : Text} (hother : other ∈ visited ∨ other ∈ name :: pending) :
      other ∈ name :: visited ∨ other ∈ callees ++ pending := by
    simp only [List.mem_cons, List.mem_append] at hother ⊢
    tauto
  refine ⟨hmoved h.start, ?_, ?_, ?_⟩
  · intro other hother
    rcases List.mem_append.mp hother with hcallee | hpending
    · exact (h.chain name List.mem_cons_self).tail ((hcallees other).mp hcallee).1
    · exact h.chain other (List.mem_cons_of_mem _ hpending)
  · intro other hother
    rcases List.mem_cons.mp hother with rfl | hother
    · exact hmiss
    · exact h.miss other hother
  · intro other hother callee hcalls
    rcases List.mem_cons.mp hother with rfl | hother
    · by_cases hknown : callee ∈ other :: visited
      · exact Or.inl hknown
      · exact Or.inr (List.mem_append_left _ ((hcallees callee).mpr ⟨hcalls, hknown⟩))
    · exact hmoved (h.closed other hother callee hcalls)

end Explored

/-- The states of searches from `caller`: at work they keep to what was explored, and their answer
says whether a chain of calls leads to the target. -/
def SearchState.Sound (graph : CallGraph) (target caller : Text) : SearchState → Prop
  | .working visited pending => Explored graph target caller visited pending
  | .answer found =>
    found = true ↔ Relation.TransGen (fun a b ↦ graph.calls a b = true) caller target

theorem SearchStep.sound {earlier later : SearchState} (h : SearchStep graph target earlier later)
    (hsound : earlier.Sound graph target caller) : later.Sound graph target caller := by
  cases h with
  | exhausted visited => exact iff_of_false (by simp) hsound.not_transGen
  | passed hvisited => exact hsound.pass hvisited
  | found _ hcalls =>
    have hchain := hsound.chain _ List.mem_cons_self
    exact iff_of_true rfl (Relation.TransGen.tail' hchain hcalls)
  | pushed _ hmiss hcallees => exact hsound.push hmiss hcallees

theorem sound_of_reflTransGen {earlier later : SearchState}
    (h : Relation.ReflTransGen (SearchStep graph target) earlier later)
    (hsound : earlier.Sound graph target caller) : later.Sound graph target caller := by
  induction h with
  | refl => exact hsound
  | tail _ hstep ih => exact hstep.sound ih

/-- The search that pushes callees as they are listed goes by these steps. -/
theorem reflTransGen_search (graph : CallGraph) (target : Text) (visited pending : List Text) :
    Relation.ReflTransGen (SearchStep graph target) (.working visited pending)
      (.answer (graph.search target visited pending)) := by
  fun_induction search graph target visited pending with
  | case1 visited => exact .single (.exhausted visited)
  | case2 visited name pending hvisited ih =>
    exact .head (.passed (List.contains_iff_mem.mp hvisited)) ih
  | case3 visited name pending hnew callees hcalls =>
    exact .single (.found (by simpa using hnew) hcalls)
  | case4 visited name pending hnew callees hmiss ih =>
    refine .head (.pushed (by simpa using hnew) (Bool.eq_false_iff.mpr hmiss) fun callee ↦ ?_) ih
    rw [List.mem_filter, Bool.not_eq_true', ← Bool.not_eq_true, List.contains_iff_mem, calls,
      List.contains_iff_mem]

/-- A name reaches another exactly if a chain of calls leads to it. -/
theorem reaches_iff_transGen (graph : CallGraph) (caller callee : Text) :
    graph.reaches caller callee = true ↔
      Relation.TransGen (fun a b ↦ graph.calls a b = true) caller callee :=
  sound_of_reflTransGen (reflTransGen_search graph callee [] [caller])
    (Explored.initial graph callee caller)

/-- In whatever order the callees are pushed at each of its steps, a search from a name does not go
on for ever and does not get stuck, and its answer is whether a chain of one call or more leads to
the target. To ask what a name reaches is one such search. -/
theorem searches_decide_chains (graph : CallGraph) (caller callee : Text) :
    (WellFounded fun later earlier ↦ SearchStep graph callee earlier later) ∧
      (∀ visited pending, ∃ later, SearchStep graph callee (.working visited pending) later) ∧
      (∀ found, Relation.ReflTransGen (SearchStep graph callee) (.working [] [caller])
          (.answer found) →
        (found = true ↔ Relation.TransGen (fun a b ↦ graph.calls a b = true) caller callee)) ∧
      Relation.ReflTransGen (SearchStep graph callee) (.working [] [caller])
        (.answer (graph.reaches caller callee)) ∧
      (graph.reaches caller callee = true ↔
        Relation.TransGen (fun a b ↦ graph.calls a b = true) caller callee) := by
  refine ⟨wellFounded_searchStep graph callee, exists_searchStep graph callee, ?_, ?_, ?_⟩
  · intro found hrun
    exact sound_of_reflTransGen hrun (Explored.initial graph callee caller)
  · exact reflTransGen_search graph callee [] [caller]
  · exact reaches_iff_transGen graph caller callee

/-- Two names that call each other, one that calls itself and one that is called and never calls. -/
def cyclicGraph : CallGraph :=
  ⟨[(['a'], [['b'], ['c']]), (['b'], [['a']]), (['d'], [['d'], ['c']])]⟩

/-- Names on a cycle reach themselves whichever of them is pushed first, and the others do not. -/
theorem cyclicGraph_decided :
    (∀ found, Relation.ReflTransGen (SearchStep cyclicGraph ['a']) (.working [] [['a']])
        (.answer found) → found = true) ∧
      cyclicGraph.reaches ['d'] ['d'] = true ∧
      (∀ found, Relation.ReflTransGen (SearchStep cyclicGraph ['c']) (.working [] [['c']])
        (.answer found) → found = false) ∧
      ∀ found, Relation.ReflTransGen (SearchStep cyclicGraph ['d']) (.working [] [['a']])
        (.answer found) → found = false := by
  have ha : cyclicGraph.calleesOf ['a'] = [['b'], ['c']] := rfl
  have hb : cyclicGraph.calleesOf ['b'] = [['a']] := rfl
  have hc : cyclicGraph.calleesOf ['c'] = [] := rfl
  have hcycle := searches_decide_chains cyclicGraph ['a'] ['a']
  have hloop := searches_decide_chains cyclicGraph ['d'] ['d']
  have hcallee := searches_decide_chains cyclicGraph ['c'] ['c']
  have hapart := searches_decide_chains cyclicGraph ['a'] ['d']
  refine ⟨fun found hrun ↦ ?_, ?_, fun found hrun ↦ ?_, fun found hrun ↦ ?_⟩
  · exact (hcycle.2.2.1 found hrun).mpr
      (.tail (.single (show cyclicGraph.calls ['a'] ['b'] = true by decide)) (by decide))
  · exact hloop.2.2.2.2.mpr (.single (by decide))
  · have hnone : cyclicGraph.reaches ['c'] ['c'] = false := by
      simp [reaches, search, hc]
    rw [Bool.eq_false_iff, Ne, hcallee.2.2.1 found hrun, ← hcallee.2.2.2.2, hnone]
    decide
  · have hnone : cyclicGraph.reaches ['a'] ['d'] = false := by
      simp [reaches, search, ha, hb, hc]
    rw [Bool.eq_false_iff, Ne, hapart.2.2.1 found hrun, ← hapart.2.2.2.2, hnone]
    decide

end MemberOrder.CallGraph
