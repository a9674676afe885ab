import MemberOrder.Proofs.Declaration.Locality
import MemberOrder.Proofs.Layout.Sweep
import MemberOrder.Proofs.Source.Query

/-!
Walks through a source. A walk has a position; it looks for the next candidate from there on,
decides it, and goes on from where the decision says. It can fail: it may look up a character that
is not there, it may want the brace of a stretch that has none, and it may stay where it is. A walk
whose moves do not fail and get on finds what a search through all candidates finds.
-/

set_option autoImplicit false

namespace MemberOrder

/-- How a walk can fail. -/
inductive WalkFault
  /-- It looked beyond the ends of the source. -/
  | lookup (fault : LookupFault)
  /-- A stretch that must hold a brace has none. -/
  | noBrace
  /-- It would not get on. -/
  | standstill
deriving DecidableEq

section Walk

variable {α β σ τ : Type}

/-- Goes on from candidate to candidate, the first from `position` on, up to `limit`. `move` decides
a candidate: what is found, where the walk goes on, and what it remembers. -/
def walk (limit : Nat) (next : Nat → Option α)
    (move : τ → α → Except WalkFault (List β × Nat × τ)) (position : Nat) (state : τ) :
    Except WalkFault (List β) :=
  if position < limit then
    match next position with
    | none => .ok []
    | some x => do
      let (found, resume, state) ← move state x
      if position < resume then
        let others ← walk limit next move resume state
        return found ++ others
      else throw .standstill
  else .ok []
termination_by limit - position

variable {start : α → Nat} {limit : Nat} {next : Nat → Option α}
  {move : τ → α → Except WalkFault (List β × Nat × τ)} {step : Nat → σ → α → List β × Nat × σ}
  {R : Nat → τ → Nat → σ → Prop}

/-- A walk does not fail and finds what a search finds, if each of its moves decides as the search
does, gets behind the candidate, and passes over the same candidates as the search does then. -/
theorem walk_eq_sweep {l : List α} {position : Nat} {state : τ} {resume : Nat} {s : σ}
    (hnext : ∀ p, position ≤ p → next p = l.find? (p ≤ start ·))
    (hlimit : ∀ x ∈ l, start x < limit)
    (hmove : ∀ p t r s, R p t r s → ∀ x rest, x :: rest <:+ l → r ≤ start x →
      ∃ p' t', move t x = .ok ((step r s x).1, p', t') ∧ start x < p' ∧
        R p' t' (step r s x).2.1 (step r s x).2.2 ∧
        ∀ y ∈ rest, start y < p' ↔ start y < (step r s x).2.1)
    (hR : R position state resume s) (hsame : ∀ x ∈ l, start x < position ↔ start x < resume) :
    walk limit next move position state = .ok (sweep start step resume s l).1 := by
  induction l generalizing position state resume s with
  | nil =>
    rw [walk]
    split_ifs
    · rw [hnext position (Nat.le_refl _)]
      rfl
    · rfl
  | cons x rest ih =>
    have hbehind {p : Nat} (hp : start x < p)
        (hfrom : ∀ q, p ≤ q → next q = (x :: rest).find? (q ≤ start ·)) (q : Nat) (hq : p ≤ q) :
        next q = rest.find? (q ≤ start ·) := by
      rw [hfrom q hq, List.find?_cons_of_neg (by simpa using Nat.lt_of_lt_of_le hp hq)]
    have hlimits : ∀ y ∈ rest, start y < limit := fun y hy ↦ hlimit y (List.mem_cons_of_mem _ hy)
    have hmoves := fun p t r s h y others hy ↦
      hmove p t r s h y others (List.IsSuffix.trans hy (List.suffix_cons x rest))
    rw [sweep]
    by_cases hearly : start x < resume
    · rw [if_pos hearly]
      exact ih (hbehind ((hsame x List.mem_cons_self).mpr hearly) hnext) hlimits hmoves hR
        fun y hy ↦ hsame y (List.mem_cons_of_mem _ hy)
    · rw [if_neg hearly]
      have hle : position ≤ start x := by
        have hskips := hsame x List.mem_cons_self
        omega
      have hfound : next position = some x := by
        rw [hnext position (Nat.le_refl _), List.find?_cons_of_pos (by simpa using hle)]
      obtain ⟨p', t', hmoved, hlt, hkept, hagree⟩ :=
        hmove _ _ _ _ hR x rest (List.suffix_refl _) (Nat.not_lt.mp hearly)
      have hrest := ih (hbehind hlt fun q hq ↦ hnext q (by omega)) hlimits hmoves hkept hagree
      have hprogress : position < p' := by omega
      rw [walk, if_pos (Nat.lt_of_le_of_lt hle (hlimit x List.mem_cons_self)), hfound]
      simp only [hmoved, bind, Except.bind, if_pos hprogress, hrest]
      rfl

end Walk

namespace Text

section Searches

variable {α : Type} {begins : Option Char → Bool} {recognise : Nat → Text → Option α}
  {start : α → Nat}

/-- A search from the next position on finds all but what starts before. -/
theorem findBetween_succ (hstart : ∀ p t x, recognise p t = some x → start x = p) (t : Text)
    (p stop : Nat) :
    t.findBetween begins recognise (p + 1) stop =
      (t.findBetween begins recognise p stop).filter (p + 1 ≤ start ·) := by
  have hlater : (t.findBetween begins recognise (p + 1) stop).filter (p + 1 ≤ start ·) =
      t.findBetween begins recognise (p + 1) stop := by
    refine List.filter_eq_self.mpr fun x hx ↦ ?_
    obtain ⟨position, hposition, -, -, hx⟩ := exists_of_mem_findBetween hx
    simpa [hstart _ _ _ hx] using hposition
  by_cases hempty : stop ≤ p ∨ t.length ≤ p
  · have hnone (q : Nat) (hq : p ≤ q) : t.findBetween begins recognise q stop = [] := by
      have hextract : t.extract q stop = [] := by
        rw [List.extract_eq_take_drop, List.take_eq_nil_iff, List.drop_eq_nil_iff]
        omega
      rw [findBetween, hextract, findAll]
    rw [hnone p (Nat.le_refl _), hnone (p + 1) (Nat.le_succ _), List.filter_nil]
  · obtain ⟨hstop, hlength⟩ := not_or.mp hempty
    obtain ⟨c, hchar⟩ : ∃ c, t[p]? = some c := ⟨_, List.getElem?_eq_getElem (Nat.not_le.mp hlength)⟩
    have hsplit : t.findBetween begins recognise p stop =
        (if begins (t.charBefore? p) then recognise p (t.extract p stop) else none).toList ++
          t.findBetween begins recognise (p + 1) stop := by
      unfold findBetween
      rw [extract_eq_cons hchar (Nat.not_le.mp hstop), findAll, charBefore?_succ, hchar]
    rw [hsplit, List.filter_append, hlater, List.self_eq_append_left, List.filter_eq_nil_iff]
    intro x hx
    split_ifs at hx
    · rw [hstart _ _ _ (Option.mem_toList.mp hx)]
      simp
    · simp at hx

/-- The first find from a position on is the first that starts there or later. -/
theorem head?_findBetween (hstart : ∀ p t x, recognise p t = some x → start x = p) (t : Text)
    {first p : Nat} (stop : Nat) (h : first ≤ p) :
    (t.findBetween begins recognise p stop).head? =
      (t.findBetween begins recognise first stop).find? (p ≤ start ·) := by
  rw [← List.head?_filter]
  congr 1
  induction p, h using Nat.le_induction with
  | base =>
    refine (List.filter_eq_self.mpr fun x hx ↦ ?_).symm
    obtain ⟨position, hposition, -, -, hx⟩ := exists_of_mem_findBetween hx
    simpa [hstart _ _ _ hx] using hposition
  | succ p _ ih =>
    rw [findBetween_succ hstart, ih, List.filter_filter]
    refine List.filter_congr fun x _ ↦ ?_
    rw [← Bool.decide_and]
    congr 1
    exact propext ⟨fun h ↦ h.1, fun h ↦ ⟨h, Nat.le_of_succ_le h⟩⟩

theorem pairwise_findBetween (hstart : ∀ p t x, recognise p t = some x → start x = p) (t : Text)
    (first stop : Nat) :
    (t.findBetween begins recognise first stop).Pairwise (start · < start ·) := by
  unfold findBetween
  generalize t.charBefore? first = before
  induction t.extract first stop generalizing before first with
  | nil => exact List.Pairwise.nil
  | cons c rest ih =>
    rw [findAll, List.pairwise_append]
    refine ⟨?_, ih (first + 1) (some c), fun x hx y hy ↦ ?_⟩
    · cases (if begins before then recognise first (c :: rest) else none) with
      | none => exact List.Pairwise.nil
      | some x => exact List.pairwise_singleton _ x
    · obtain ⟨i, -, -, hlater⟩ := exists_of_mem_findAll hy
      rw [hstart _ _ _ hlater]
      split_ifs at hx
      · rw [hstart _ _ _ (Option.mem_toList.mp hx)]
        omega
      · simp at hx

end Searches

end Text

namespace Source

/-- What a walk looks up. -/
def look {α : Type} (answer : Except LookupFault α) : Except WalkFault α :=
  answer.mapError .lookup

/-- The character at a position; below zero it counts from the end. -/
def characterAt (src : Source) (i : Int) : Except LookupFault Char :=
  match src.stretch i (i + 1) with
  | [] => .error .character
  | g :: _ => .ok g.char

/-- The last position from `start` up to `stop` that holds the character. -/
def lastOf? (src : Source) (c : Char) (start : Nat) : Nat → Option Nat
  | 0 => none
  | stop + 1 =>
    if stop < start then none
    else if src.text[stop]? = some c then some stop
    else src.lastOf? c start stop

/-- The last brace from `start` up to `stop`, which must hold one. -/
def lastBrace (src : Source) (start stop : Nat) : Except WalkFault Nat :=
  match src.lastOf? '\x7b' start stop with
  | some brace => .ok brace
  | none => .error .noBrace

variable {src : Source} {c : Char}

theorem characterAt_eq {i : Nat} (h : src.text[i]? = some c) : src.characterAt i = .ok c := by
  obtain ⟨g, hg, hchar⟩ := Option.map_eq_some_iff.mp ((src.getElem?_text i).symm.trans h)
  have hlt : i + 1 ≤ src.length := (List.getElem?_eq_some_iff.mp hg).1
  have hstretch : src.stretch i (i + 1) = g :: src.glyphs.extract (i + 1) (i + 1) := by
    rw [← extract_eq_cons hg (Nat.lt_succ_self i), ← stretch_eq hlt]
    rfl
  rw [characterAt, hstretch]
  simp [hchar]

theorem forall_ne_of_lastOf?_eq_none {start stop : Nat} (h : src.lastOf? c start stop = none) :
    ∀ i, start ≤ i → i < stop → src.text[i]? ≠ some c := by
  induction stop with
  | zero => simp
  | succ stop ih =>
    rw [lastOf?] at h
    split_ifs at h with hbefore hchar
    · omega
    · intro i hstart hstop
      rcases Nat.lt_succ_iff_lt_or_eq.mp hstop with hlt | rfl
      · exact ih h i hstart hlt
      · exact hchar

theorem lastOf?_eq_some {start stop last : Nat} (h : src.lastOf? c start stop = some last) :
    start ≤ last ∧ last < stop ∧ src.text[last]? = some c ∧
      ∀ i, last < i → i < stop → src.text[i]? ≠ some c := by
  induction stop with
  | zero => simp [lastOf?] at h
  | succ stop ih =>
    rw [lastOf?] at h
    split_ifs at h with hbefore hchar
    · cases h
      exact ⟨Nat.not_lt.mp hbefore, Nat.lt_succ_self _, hchar, fun i hlt hle ↦ by omega⟩
    · obtain ⟨hstart, hstop, hlast, hlater⟩ := ih h
      refine ⟨hstart, Nat.lt_succ_of_lt hstop, hlast, fun i hlt hle ↦ ?_⟩
      rcases Nat.lt_succ_iff_lt_or_eq.mp hle with hle | rfl
      · exact hlater i hlt hle
      · exact hchar

theorem lastBrace_eq {start stop brace : Nat} (hstart : start ≤ brace) (hstop : brace < stop)
    (hbrace : src.text[brace]? = some '\x7b')
    (hlater : ∀ i, brace < i → i < stop → src.text[i]? ≠ some '\x7b') :
    src.lastBrace start stop = .ok brace := by
  unfold lastBrace
  cases h : src.lastOf? '\x7b' start stop with
  | none => exact absurd hbrace (forall_ne_of_lastOf?_eq_none h brace hstart hstop)
  | some last =>
    obtain ⟨hfirst, hend, hlast, hnone⟩ := lastOf?_eq_some h
    rcases Nat.lt_trichotomy brace last with hlt | rfl | hlt
    · exact absurd hlast (hlater last hlt hend)
    · rfl
    · exact absurd hbrace (hnone brace hlt hstop)

end Source

end MemberOrder
