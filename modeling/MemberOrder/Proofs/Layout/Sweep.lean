import MemberOrder.Proofs.Layout.Member

/-!
The three searches through a class body, for nested types, for initializer blocks and for methods,
have one form. Candidates are tried in order; one that starts before the place where the search
resumes is passed over, any other is decided, and its decision says where the search resumes. A
search of two lists of candidates is a search of the one and then of the other, and two searches
whose decisions correspond find what corresponds.
-/

set_option autoImplicit false

namespace MemberOrder

section Sweep

variable {α β σ : Type} (start : α → Nat) (step : Nat → σ → α → List β × Nat × σ)

/-- Goes through the candidates. `step` decides one: what is found, where the search resumes, and
what it remembers. Gives all that is found, and where the search stands at the end. -/
def sweep : Nat → σ → List α → List β × Nat × σ
  | resume, state, [] => ([], resume, state)
  | resume, state, x :: rest =>
    if start x < resume then sweep resume state rest
    else
      let decision := step resume state x
      let others := sweep decision.2.1 decision.2.2 rest
      (decision.1 ++ others.1, others.2)

theorem sweep_append (resume : Nat) (state : σ) (front back : List α) :
    sweep start step resume state (front ++ back) =
      ((sweep start step resume state front).1 ++
          (sweep start step (sweep start step resume state front).2.1
            (sweep start step resume state front).2.2 back).1,
        (sweep start step (sweep start step resume state front).2.1
          (sweep start step resume state front).2.2 back).2) := by
  induction front generalizing resume state with
  | nil => rfl
  | cons x front ih =>
    rw [List.cons_append, sweep, sweep]
    split_ifs with hearly
    · exact ih resume state
    · simp only [ih, List.append_assoc]

variable {start step}

/-- What is found is found by a decision. -/
theorem exists_of_mem_sweep {l : List α} {resume : Nat} {state : σ} {found : β}
    (h : found ∈ (sweep start step resume state l).1) :
    ∃ r s, ∃ x ∈ l, found ∈ (step r s x).1 := by
  induction l generalizing resume state with
  | nil => simp [sweep] at h
  | cons x l ih =>
    rw [sweep] at h
    split_ifs at h with hearly
    · obtain ⟨r, s, y, hy, hfound⟩ := ih h
      exact ⟨r, s, y, List.mem_cons_of_mem _ hy, hfound⟩
    · rcases List.mem_append.mp h with hfound | hlater
      · exact ⟨resume, state, x, List.mem_cons_self, hfound⟩
      · obtain ⟨r, s, y, hy, hfound⟩ := ih hlater
        exact ⟨r, s, y, List.mem_cons_of_mem _ hy, hfound⟩

/-- Where what a search remembers goes by what each decision finds, it goes by all that is found. -/
theorem sweep_state {act : List β → σ → σ} (hnil : ∀ s, act [] s = s)
    (happend : ∀ a b s, act (a ++ b) s = act b (act a s))
    (hstep : ∀ r s x, (step r s x).2.2 = act (step r s x).1 s) (r : Nat) (s : σ) (l : List α) :
    (sweep start step r s l).2.2 = act (sweep start step r s l).1 s := by
  induction l generalizing r s with
  | nil => exact (hnil s).symm
  | cons x l ih =>
    rw [sweep]
    split_ifs with hearly
    · exact ih r s
    · simp only [ih, happend, hstep]

/-- Searches with the same decisions are the same, and keep what every decision keeps. -/
theorem sweep_congr {stepA : Nat → σ → α → List β × Nat × σ} {I : Nat → σ → Prop} {l : List α}
    (hstep : ∀ r s, I r s → ∀ x ∈ l, r ≤ start x →
      step r s x = stepA r s x ∧ I (stepA r s x).2.1 (stepA r s x).2.2)
    {r : Nat} {s : σ} (h : I r s) :
    sweep start step r s l = sweep start stepA r s l ∧
      I (sweep start stepA r s l).2.1 (sweep start stepA r s l).2.2 := by
  induction l generalizing r s with
  | nil => exact ⟨rfl, h⟩
  | cons x l ih =>
    have hrest {r : Nat} {s : σ} := ih (r := r) (s := s)
      (fun r s h y hy ↦ hstep r s h y (List.mem_cons_of_mem _ hy))
    rw [sweep, sweep]
    by_cases hearly : start x < r
    · rw [if_pos hearly, if_pos hearly]
      exact hrest h
    · rw [if_neg hearly, if_neg hearly]
      obtain ⟨hsame, hkept⟩ := hstep r s h x List.mem_cons_self (Nat.not_lt.mp hearly)
      obtain ⟨hothers, hend⟩ := hrest hkept
      simp only [hsame, hothers, true_and]
      exact hend

variable {α' β' σ' : Type} {start' : α' → Nat}
  {step' : Nat → σ' → α' → List β' × Nat × σ'} {f : α → α'} {g : β → β'}
  {R : Nat → σ → Nat → σ' → Prop}

/-- Searches that stay related find what corresponds. -/
theorem sweep_map {l : List α}
    (hskip : ∀ r s r' s', R r s r' s' → ∀ x ∈ l, start x < r ↔ start' (f x) < r')
    (hstep : ∀ r s r' s', R r s r' s' → ∀ x ∈ l, r ≤ start x →
      (step' r' s' (f x)).1 = (step r s x).1.map g ∧
        R (step r s x).2.1 (step r s x).2.2 (step' r' s' (f x)).2.1 (step' r' s' (f x)).2.2)
    (r : Nat) (s : σ) (r' : Nat) (s' : σ') (h : R r s r' s') :
    (sweep start' step' r' s' (l.map f)).1 = (sweep start step r s l).1.map g ∧
      R (sweep start step r s l).2.1 (sweep start step r s l).2.2
        (sweep start' step' r' s' (l.map f)).2.1 (sweep start' step' r' s' (l.map f)).2.2 := by
  induction l generalizing r s r' s' with
  | nil => exact ⟨rfl, h⟩
  | cons x l ih =>
    have hrest := ih (fun r s r' s' h y hy ↦ hskip r s r' s' h y (List.mem_cons_of_mem _ hy))
      (fun r s r' s' h y hy ↦ hstep r s r' s' h y (List.mem_cons_of_mem _ hy))
    have hiff := hskip r s r' s' h x List.mem_cons_self
    rw [List.map_cons, sweep, sweep]
    by_cases hearly : start x < r
    · rw [if_pos hearly, if_pos (hiff.mp hearly)]
      exact hrest r s r' s' h
    · rw [if_neg hearly, if_neg (mt hiff.mpr hearly)]
      obtain ⟨hfound, hrelated⟩ := hstep r s r' s' h x List.mem_cons_self (Nat.not_lt.mp hearly)
      obtain ⟨hothers, hend⟩ := hrest _ _ _ _ hrelated
      refine ⟨?_, hend⟩
      simp only [hfound, hothers, List.map_append]

/-- A search of two lists finds what a search of the first finds, and what corresponds to the
findings of another search in a list that the second corresponds to. -/
theorem sweep_append_map {step₁ : Nat → σ' → α' → List β' × Nat × σ'} {I : Nat → σ' → Prop}
    {front : List α'} {back : List α}
    (hfront : ∀ r s, I r s → ∀ x ∈ front, r ≤ start' x →
      step' r s x = step₁ r s x ∧ I (step₁ r s x).2.1 (step₁ r s x).2.2)
    (hskip : ∀ r s r' s', R r s r' s' → ∀ x ∈ back, start x < r ↔ start' (f x) < r')
    (hback : ∀ r s r' s', R r s r' s' → ∀ x ∈ back, r ≤ start x →
      (step' r' s' (f x)).1 = (step r s x).1.map g ∧
        R (step r s x).2.1 (step r s x).2.2 (step' r' s' (f x)).2.1 (step' r' s' (f x)).2.2)
    {r : Nat} {s : σ} {r' : Nat} {s' : σ'} (h : I r' s')
    (hlink : I (sweep start' step₁ r' s' front).2.1 (sweep start' step₁ r' s' front).2.2 →
      R r s (sweep start' step₁ r' s' front).2.1 (sweep start' step₁ r' s' front).2.2) :
    (sweep start' step' r' s' (front ++ back.map f)).1 =
      (sweep start' step₁ r' s' front).1 ++ (sweep start step r s back).1.map g := by
  obtain ⟨hsame, hend⟩ := sweep_congr hfront h
  rw [sweep_append, hsame]
  simp only
  rw [(sweep_map hskip hback _ _ _ _ (hlink hend)).1]

end Sweep

namespace ClassBody

variable (src : Source) (body : ClassBody) (skipped : List Region)

/-- Where a nested type ends that has the given header, if it is one. -/
def typeEnd? (header : TypeHeader) : Option Nat :=
  (header.openBrace? src body.closeBrace).bind (body.innerClose? src)

/-- The decision about a type header. -/
def decideType (_ : Nat) (_ : Unit) (header : TypeHeader) : List Region × Nat × Unit :=
  match body.typeEnd? src header with
  | some close => ([⟨body.lineStart src header.start, close + 1⟩], close + 1, ())
  | none => ([], header.stop, ())

theorem typeRegions_eq_sweep (resume : Nat) (headers : List TypeHeader) :
    body.typeRegions src resume headers =
      (sweep TypeHeader.start (body.decideType src) resume () headers).1 := by
  induction headers generalizing resume with
  | nil => rfl
  | cons header rest ih =>
    rw [typeRegions, sweep, decideType, typeEnd?]
    split_ifs with hearly
    · exact ih resume
    · cases (header.openBrace? src body.closeBrace).bind (body.innerClose? src) with
      | none => exact ih header.stop
      | some close => simp only [ih (close + 1), List.cons_append, List.nil_append]

variable {src body}

theorem mem_decideType {r : Nat} {u : Unit} {header : TypeHeader} {region : Region}
    (h : region ∈ (body.decideType src r u header).1) :
    ∃ close, body.typeEnd? src header = some close ∧
      region = ⟨body.lineStart src header.start, close + 1⟩ := by
  unfold decideType at h
  cases hend : body.typeEnd? src header with
  | none => simp [hend] at h
  | some close => exact ⟨close, rfl, by simpa [hend] using h⟩

theorem lt_of_typeEnd? {header : TypeHeader} {close : Nat}
    (h : body.typeEnd? src header = some close) :
    header.stop < close ∧ close < body.closeBrace := by
  obtain ⟨brace, hbrace, hclose⟩ := Option.bind_eq_some_iff.mp h
  obtain ⟨hclosing, hlt⟩ := innerClose?_eq_some hclose
  have hbehind := (Source.closeOf?_bounds hclosing).1
  unfold TypeHeader.openBrace? at hbrace
  split_ifs at hbrace
  obtain ⟨hfound, -⟩ := Option.filter_eq_some_iff.mp hbrace
  obtain ⟨i, -, rfl⟩ := Option.map_eq_some_iff.mp hfound
  omega

variable (src body)

/-- Where an initializer block ends that has the given head, if it is one. -/
def initializerEnd? (taken : List Region) (atBoundary : Bool) (head : InitializerHead) :
    Option Nat :=
  if src.isCodeAt head.brace && (Region.holding? taken head.brace).isNone
      && (!atBoundary || (src.lastSolid? body.openBrace head.brace).any isBoundary)
  then body.innerClose? src head.brace else none

/-- The decision about an initializer head. -/
def decideInitializer (taken : List Region) (atBoundary : Bool) (_ : Nat) (_ : Unit)
    (head : InitializerHead) : List Region × Nat × Unit :=
  match body.initializerEnd? src taken atBoundary head with
  | some close => ([⟨head.start, close + 1⟩], close + 1, ())
  | none => ([], head.stop, ())

theorem initializerRegions_eq_sweep (taken : List Region) (atBoundary : Bool) (resume : Nat)
    (heads : List InitializerHead) :
    body.initializerRegions src taken atBoundary resume heads =
      (sweep InitializerHead.start (body.decideInitializer src taken atBoundary) resume ()
        heads).1 := by
  induction heads generalizing resume with
  | nil => rfl
  | cons head rest ih =>
    rw [initializerRegions, sweep, decideInitializer]
    by_cases hearly : head.start < resume
    · rw [if_pos hearly, if_pos hearly]
      exact ih resume
    · rw [if_neg hearly, if_neg hearly]
      change (match body.initializerEnd? src taken atBoundary head with
        | some close => Region.mk head.start (close + 1) ::
            body.initializerRegions src taken atBoundary (close + 1) rest
        | none => body.initializerRegions src taken atBoundary head.stop rest) = _
      cases body.initializerEnd? src taken atBoundary head with
      | none => exact ih head.stop
      | some close => simp only [ih (close + 1), List.cons_append, List.nil_append]

variable {src body}

theorem initializerEnd?_eq_some {taken : List Region} {atBoundary : Bool} {head : InitializerHead}
    {close : Nat} (h : body.initializerEnd? src taken atBoundary head = some close) :
    body.innerClose? src head.brace = some close := by
  unfold initializerEnd? at h
  split_ifs at h
  exact h

theorem mem_decideInitializer {taken : List Region} {atBoundary : Bool} {r : Nat} {u : Unit}
    {head : InitializerHead} {region : Region}
    (h : region ∈ (body.decideInitializer src taken atBoundary r u head).1) :
    ∃ close, body.innerClose? src head.brace = some close ∧
      region = ⟨head.start, close + 1⟩ := by
  unfold decideInitializer at h
  cases hend : body.initializerEnd? src taken atBoundary head with
  | none => simp [hend] at h
  | some close => exact ⟨close, initializerEnd?_eq_some hend, by simpa [hend] using h⟩

variable (src body)

/-- The decision about a method head. The search remembers where the last method ended, and how
many there were. -/
def decideHead (resume : Nat) (state : Nat × Nat) (head : MethodHead) :
    List Finding × Nat × (Nat × Nat) :=
  match Region.holding? skipped head.start with
  | some region => ([], region.stop, state)
  | none =>
    if src.braceDepth body.openBrace head.start ≠ 1 then ([], resume, state)
    else match body.methodAt? src skipped state.1 state.2 head with
      | none => ([], resume, state)
      | some m =>
        if body.startsMember src m then ([.method m], m.stop, (m.stop, state.2 + 1))
        else ([.inPlace m.signature], m.stop, state)

theorem findMembers_eq_sweep (resume previous place : Nat) (heads : List MethodHead) :
    body.findMembers src skipped resume previous place heads =
      (sweep MethodHead.start (body.decideHead src skipped) resume (previous, place) heads).1 := by
  induction heads generalizing resume previous place with
  | nil => rfl
  | cons head rest ih =>
    rw [findMembers, sweep, decideHead]
    by_cases hearly : head.start < resume
    · rw [if_pos hearly, if_pos hearly]
      exact ih resume previous place
    · rw [if_neg hearly, if_neg hearly]
      cases Region.holding? skipped head.start with
      | some region => exact ih region.stop previous place
      | none =>
        simp only
        by_cases hdepth : src.braceDepth body.openBrace head.start ≠ 1
        · rw [if_pos hdepth, if_pos hdepth]
          exact ih resume previous place
        · rw [if_neg hdepth, if_neg hdepth]
          cases body.methodAt? src skipped previous place head with
          | none => exact ih resume previous place
          | some m =>
            simp only
            by_cases hstarts : body.startsMember src m = true
            · rw [if_pos hstarts, if_pos hstarts, ih]
              rfl
            · rw [if_neg hstarts, if_neg hstarts, ih]
              rfl

end ClassBody

end MemberOrder
