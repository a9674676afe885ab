import MemberOrder.Proofs.Layout.Content

/-!
How far recognisers look. What a line, a type header, an initializer or a declaration tail is read
from ends at a line feed or before it, unless a word stands last that asks for more. So a search of
a text finds what it finds in the part up to a line feed and, moved, what it finds behind it.
-/

set_option autoImplicit false

namespace MemberOrder

/-! ### Runs of characters in front of a text -/

section Runs

variable {α : Type} {p : α → Bool}

theorem takeWhile_append_of_neg (l : List α) {x : α} (hx : p x = false) (rest : List α) :
    (l ++ x :: rest).takeWhile p = l.takeWhile p := by
  induction l with
  | nil => simp [hx]
  | cons y l ih =>
    rw [List.cons_append, List.takeWhile_cons, List.takeWhile_cons, ih]

theorem dropWhile_append_of_neg (l : List α) {x : α} (hx : p x = false) (rest : List α) :
    (l ++ x :: rest).dropWhile p = l.dropWhile p ++ x :: rest := by
  induction l with
  | nil => simp [hx]
  | cons y l ih =>
    rw [List.cons_append, List.dropWhile_cons, List.dropWhile_cons, ih]
    split_ifs <;> rfl

theorem drop_length_takeWhile (l : List α) : l.drop (l.takeWhile p).length = l.dropWhile p := by
  induction l with
  | nil => rfl
  | cons x l ih =>
    rw [List.takeWhile_cons, List.dropWhile_cons]
    split_ifs
    · exact ih
    · rfl

/-- A run that ends inside a list ends there, whatever follows the list. -/
theorem takeWhile_append_of_exists {l : List α} (h : ∃ x ∈ l, p x = false) (rest : List α) :
    (l ++ rest).takeWhile p = l.takeWhile p ∧
      (l ++ rest).dropWhile p = l.dropWhile p ++ rest ∧ l.dropWhile p ≠ [] := by
  obtain ⟨x, hx, hp⟩ := h
  obtain ⟨front, back, rfl⟩ := List.append_of_mem hx
  rw [List.append_assoc, List.cons_append, takeWhile_append_of_neg _ hp,
    takeWhile_append_of_neg _ hp, dropWhile_append_of_neg _ hp, dropWhile_append_of_neg _ hp,
    List.append_assoc, List.cons_append]
  exact ⟨rfl, rfl, by simp⟩

theorem findSome?_eq_map {β γ : Type} {f : α → Option γ} {f' : α → Option β} {g : β → γ}
    {l : List α} (h : ∀ x ∈ l, f x = (f' x).map g) :
    l.findSome? f = (l.findSome? f').map g := by
  induction l with
  | nil => rfl
  | cons x l ih =>
    rw [List.findSome?_cons, List.findSome?_cons, h x List.mem_cons_self,
      ih fun y hy ↦ h y (List.mem_cons_of_mem _ hy)]
    cases f' x <;> rfl

end Runs

namespace Text

/-! ### Searches -/

section Searches

variable {α : Type} {begins : Option Char → Bool} {recognise recognise' : Nat → Text → Option α}

theorem findAll_append (before : Option Char) (position : Nat) (t u : Text) :
    findAll begins recognise before position (t ++ u) =
      findAll begins (fun p s ↦ recognise p (s ++ u)) before position t ++
        findAll begins recognise (t.getLast?.or before) (position + t.length) u := by
  induction t generalizing before position with
  | nil => simp [findAll]
  | cons c t ih =>
    have hlast : (t.getLast?.or (some c)) = (c :: t).getLast?.or before := by
      rw [List.getLast?_cons]
      cases t.getLast? <;> rfl
    rw [List.cons_append, findAll, findAll, ih, List.append_assoc, hlast, List.length_cons,
      show position + 1 + t.length = position + (t.length + 1) by omega]
    rfl

theorem findAll_congr {t : Text}
    (h : ∀ s, s <:+ t → s ≠ [] → ∀ p, recognise p s = recognise' p s) (before : Option Char)
    (position : Nat) :
    findAll begins recognise before position t = findAll begins recognise' before position t := by
  induction t generalizing before position with
  | nil => rfl
  | cons c t ih =>
    rw [findAll, findAll, h _ (List.suffix_refl _) (List.cons_ne_nil c t) position,
      ih fun s hs ↦ h s (hs.trans (List.suffix_cons c t))]

theorem findAll_map {f : α → α} {shift : Nat}
    (h : ∀ p s, recognise (p + shift) s = (recognise p s).map f) (before : Option Char)
    (position : Nat) (t : Text) :
    findAll begins recognise before (position + shift) t =
      (findAll begins recognise before position t).map f := by
  induction t generalizing before position with
  | nil => rfl
  | cons c t ih =>
    rw [findAll, findAll, h, List.map_append, ← ih,
      show position + shift + 1 = position + 1 + shift by omega]
    congr 1
    split_ifs
    · cases recognise position (c :: t) <;> rfl
    · rfl

/-- Where recognition does not look over the end of a line at the end of a text, a search of the
text with another line behind it finds what is in the text and what is behind it. -/
theorem findAll_append_lineFeed {f : Nat → α → α} {t : Text}
    (hlocal : ∀ s, s <:+ t → s ≠ [] → ∀ p z, recognise p (s ++ '\n' :: z) = recognise p s)
    (hfeed : ∀ p z, recognise p ('\n' :: z) = none)
    (hshift : ∀ shift p s, recognise (p + shift) s = (recognise p s).map (f shift))
    (before before' : Option Char) (position : Nat) (z : Text) :
    findAll begins recognise before position (t ++ '\n' :: z) =
      findAll begins recognise before position t ++
        (findAll begins recognise before' position ('\n' :: z)).map (f t.length) := by
  have hnone (b : Option Char) (i : Nat) : findAll begins recognise b i ('\n' :: z) =
      findAll begins recognise (some '\n') (i + 1) z := by
    rw [findAll, hfeed, ite_self]
    rfl
  rw [findAll_append, hnone, hnone, ← findAll_map (hshift t.length),
    show position + t.length + 1 = position + 1 + t.length by omega,
    findAll_congr fun s hs hne p ↦ hlocal s hs hne p z]

end Searches

end Text

namespace Text

/-! ### Words at the end of a text -/

theorem trimRight_append_blanks (t : Text) {blanks : Text} (h : ∀ c ∈ blanks, isBlank c = true) :
    trimRight (t ++ blanks) = trimRight t := by
  unfold trimRight
  rw [List.reverse_append, List.dropWhile_append_of_pos]
  simpa using h

theorem trimRight_of_getLast? {t : Text} {c : Char} (h : t.getLast? = some c)
    (hc : isBlank c = false) : trimRight t = t := by
  obtain ⟨front, rfl⟩ : ∃ front, t = front ++ [c] := by
    rw [List.getLast?_eq_some_iff] at h
    exact h
  simp [trimRight, hc]

/-- Does the word stand at the end of the text, but for white space? -/
def endsInWord (word t : Text) : Bool := word.isSuffixOf (trimRight t)

/-- A word that does not stand at the end has something else than white space behind it. -/
theorem exists_solid_of_endsInWord {word t rest : Text} {c : Char}
    (h : endsInWord word t = false) (hword : word.getLast? = some c) (hc : isBlank c = false)
    (hsuffix : word ++ rest <:+ t) : ∃ d ∈ rest, isBlank d = false := by
  by_contra hnone
  have hblank : ∀ d ∈ rest, isBlank d = true := by
    intro d hd
    by_contra hd'
    exact hnone ⟨d, hd, by simpa using hd'⟩
  obtain ⟨front, rfl⟩ := hsuffix
  have hlast : (front ++ word).getLast? = some c := by
    rw [List.getLast?_append, hword]
    rfl
  rw [← List.append_assoc, endsInWord, trimRight_append_blanks _ hblank,
    trimRight_of_getLast? hlast hc, ← Bool.not_eq_true, List.isSuffixOf_iff_suffix] at h
  exact h (List.suffix_append _ _)

theorem isPrefixOf_append_lineFeed {word : Text} (h : '\n' ∉ word) (t z : Text) :
    word.isPrefixOf (t ++ '\n' :: z) = word.isPrefixOf t := by
  induction word generalizing t with
  | nil => rfl
  | cons w word ih =>
    have hw : w ≠ '\n' := fun heq ↦ h (heq ▸ List.mem_cons_self)
    cases t with
    | nil => simp [List.isPrefixOf, hw]
    | cons c t =>
      rw [List.cons_append, List.isPrefixOf, List.isPrefixOf,
        ih (fun hmem ↦ h (List.mem_cons_of_mem _ hmem))]

theorem isPrefixOf_append_of_mem {word t : Text} {c : Char} (hmem : c ∈ t) (hword : c ∉ word)
    (u : Text) : word.isPrefixOf (t ++ u) = word.isPrefixOf t := by
  induction word generalizing t with
  | nil => rfl
  | cons w word ih =>
    cases t with
    | nil => cases hmem
    | cons d t =>
      rw [List.cons_append, List.isPrefixOf, List.isPrefixOf]
      by_cases heq : w = d
      · have hne : c ≠ d := fun hcd ↦ hword (by rw [hcd, ← heq]; exact List.mem_cons_self)
        rw [ih ((List.mem_cons.mp hmem).resolve_left hne)
          (fun hin ↦ hword (List.mem_cons_of_mem _ hin))]
      · rw [beq_false_of_ne heq, Bool.false_and, Bool.false_and]

theorem length_identifier?_le {t name : Text} (h : identifier? t = some name) :
    name.length ≤ t.length := by
  cases t with
  | nil => simp [identifier?] at h
  | cons c t =>
    simp only [identifier?] at h
    split_ifs at h
    cases h
    exact Nat.succ_le_succ (List.takeWhile_sublist _).length_le

theorem identifier?_append_lineFeed {t : Text} (h : t ≠ []) (z : Text) :
    identifier? (t ++ '\n' :: z) = identifier? t := by
  obtain ⟨c, t, rfl⟩ := List.exists_cons_of_ne_nil h
  rw [List.cons_append, identifier?, identifier?, takeWhile_append_of_neg _ (by decide)]

end Text

/-! ### Type headers -/

namespace TypeHeader

/-- The header at another place. -/
def moved (shift : Nat) (header : TypeHeader) : TypeHeader :=
  { header with start := header.start + shift, stop := header.stop + shift }

theorem ofKind?_add (kind : TypeKind) (shift position : Nat) (t : Text) :
    ofKind? kind (position + shift) t = (ofKind? kind position t).map (moved shift) := by
  unfold ofKind?
  split_ifs with hkeyword
  · simp only
    split_ifs
    · rfl
    · rw [Option.map_map]
      congr 1
      funext name
      simp only [Function.comp_apply, moved, TypeHeader.mk.injEq, true_and]
      omega
  · rfl

theorem at?_add (shift position : Nat) (t : Text) :
    at? (position + shift) t = (at? position t).map (moved shift) := by
  simp only [at?, List.findSome?, ofKind?_add]
  cases ofKind? .classType position t with
  | some header => rfl
  | none =>
    cases ofKind? .interfaceType position t with
    | some header => rfl
    | none => cases ofKind? .enumType position t <;> rfl

theorem ofKind?_append_lineFeed {kind : TypeKind} {t : Text}
    (h : ∀ rest, t = kind.keyword ++ rest → ∃ c ∈ rest, Text.isBlank c = false) (position : Nat)
    (z : Text) : ofKind? kind position (t ++ '\n' :: z) = ofKind? kind position t := by
  have hfeed : '\n' ∉ kind.keyword := by cases kind <;> decide
  unfold ofKind?
  rw [Text.isPrefixOf_append_lineFeed hfeed]
  split_ifs with hkeyword
  · obtain ⟨rest, rfl⟩ := List.isPrefixOf_iff_prefix.mp hkeyword
    obtain ⟨hrun, -, hne⟩ := takeWhile_append_of_exists (h rest rfl) ('\n' :: z)
    rw [← drop_length_takeWhile] at hne
    simp only [List.append_assoc, List.drop_left]
    rw [hrun, List.drop_append_of_le_length (List.takeWhile_sublist _).length_le,
      Text.identifier?_append_lineFeed hne]
  · rfl

/-- Each header starts where it is found and ends in the text. -/
theorem at?_bounds {position : Nat} {t : Text} {header : TypeHeader}
    (h : at? position t = some header) :
    header.start = position ∧ position < header.stop ∧ header.stop ≤ position + t.length := by
  obtain ⟨kind, -, hkind⟩ := List.exists_of_findSome?_eq_some h
  unfold ofKind? at hkind
  split_ifs at hkind with hkeyword
  simp only at hkind
  split_ifs at hkind with hgap
  obtain ⟨name, hname, rfl⟩ := Option.map_eq_some_iff.mp hkind
  obtain ⟨rest, rfl⟩ := List.isPrefixOf_iff_prefix.mp hkeyword
  rw [List.drop_left, drop_length_takeWhile] at hname
  have hsplit := congrArg List.length (List.takeWhile_append_dropWhile (p := Text.isBlank) (l := rest))
  have hpos : 0 < kind.keyword.length := by cases kind <;> decide
  have hlength := Text.length_identifier?_le hname
  rw [List.length_append] at hsplit
  refine ⟨rfl, ?_, ?_⟩
  · simp only [List.drop_left]
    omega
  · simp only [List.drop_left, List.length_append]
    omega

theorem apart_sublist (resume : Nat) (headers : List TypeHeader) :
    (apart resume headers).Sublist headers := by
  induction headers generalizing resume with
  | nil => exact List.Sublist.refl _
  | cons header rest ih =>
    rw [apart]
    split_ifs
    · exact (ih resume).cons header
    · exact (ih header.stop).cons_cons header

theorem at?_lineFeed (position : Nat) (z : Text) : at? position ('\n' :: z) = none := by
  have hnone (kind : TypeKind) : ofKind? kind position ('\n' :: z) = none := by
    refine if_neg ?_
    rw [← List.nil_append ('\n' :: z), Text.isPrefixOf_append_lineFeed] <;> cases kind <;> decide
  simp [at?, List.findSome?, hnone]

theorem at?_append_lineFeed {t s : Text} (h : ∀ kind : TypeKind, Text.endsInWord kind.keyword t = false)
    (hs : s <:+ t) (position : Nat) (z : Text) : at? position (s ++ '\n' :: z) = at? position s := by
  have hlocal (kind : TypeKind) : ofKind? kind position (s ++ '\n' :: z) = ofKind? kind position s := by
    refine ofKind?_append_lineFeed (fun rest hrest ↦ ?_) position z
    have hlast : ∃ c, kind.keyword.getLast? = some c ∧ Text.isBlank c = false := by
      cases kind
      · exact ⟨'s', by decide, by decide⟩
      · exact ⟨'e', by decide, by decide⟩
      · exact ⟨'m', by decide, by decide⟩
    obtain ⟨c, hword, hc⟩ := hlast
    exact Text.exists_solid_of_endsInWord (h kind) hword hc (hrest ▸ hs)
  simp only [at?, hlocal]

end TypeHeader

/-! ### Initializer heads -/

namespace InitializerHead

/-- The head at another place. -/
def moved (shift : Nat) (head : InitializerHead) : InitializerHead :=
  ⟨head.start + shift, head.brace + shift, head.stop + shift⟩

theorem afterStaticBrace?_comment (t : Text) :
    afterStaticBrace? ('/' :: '*' :: t) =
      (commentEnds t).findSome? fun rest ↦ afterStaticBrace? (rest.dropWhile Text.isIndent) := by
  rw [afterStaticBrace?]
  simp

theorem commentEnds_append_lineFeed (t z : Text) :
    commentEnds (t ++ '\n' :: z) = (commentEnds t).map (· ++ '\n' :: z) := by
  fun_induction commentEnds t with
  | case1 => simp [commentEnds]
  | case2 => simp [commentEnds]
  | case3 rest ih =>
    rw [List.cons_append, List.cons_append, commentEnds, List.map_cons, ← ih, List.cons_append]
  | case4 c rest hfeed hend ih =>
    have hend' : ∀ others, c = '*' → rest ++ '\n' :: z = '/' :: others → False := by
      rintro others rfl heq
      cases rest with
      | nil => simp at heq
      | cons d rest =>
        obtain ⟨rfl, -⟩ := List.cons_eq_cons.mp heq
        exact hend rest rfl rfl
    rw [List.cons_append, commentEnds, ih]
    · exact hfeed
    · exact hend'

theorem suffix_of_mem_commentEnds {t rest : Text} (h : rest ∈ commentEnds t) : rest <:+ t := by
  fun_induction commentEnds t with
  | case1 => simp at h
  | case2 => simp at h
  | case3 others ih =>
    rcases List.mem_cons.mp h with rfl | h
    · exact ⟨['*', '/'], rfl⟩
    · exact (ih h).trans (List.suffix_cons _ _)
  | case4 c others _ _ ih => exact (ih h).trans (List.suffix_cons _ _)

theorem afterStatic?_append_lineFeed {t : Text}
    (h : ∀ rest, "static".toList ++ rest <:+ t → ∃ c ∈ rest, Text.isBlank c = false) (z : Text) :
    afterStatic? (t ++ '\n' :: z) = (afterStatic? t).map (· ++ '\n' :: z) := by
  unfold afterStatic?
  rw [Text.isPrefixOf_append_lineFeed (by decide)]
  split_ifs with hstatic
  · obtain ⟨rest, rfl⟩ := List.isPrefixOf_iff_prefix.mp hstatic
    obtain ⟨-, hdrop, hne⟩ := takeWhile_append_of_exists (h rest (List.suffix_refl _)) ('\n' :: z)
    have hword (u : Text) : ("static".toList ++ u).drop 6 = u := rfl
    rw [List.append_assoc, hword, hword, hdrop]
    obtain ⟨c, others, hcons⟩ := List.exists_cons_of_ne_nil hne
    rw [hcons, List.cons_append]
    split <;> simp_all
  · rfl

/-- What follows the brace of a static initializer follows it also with more lines behind. -/
theorem afterStaticBrace?_append_lineFeed {t : Text}
    (h : ∀ rest, "static".toList ++ rest <:+ t → ∃ c ∈ rest, Text.isBlank c = false) (z : Text) :
    afterStaticBrace? (t ++ '\n' :: z) = (afterStaticBrace? t).map (· ++ '\n' :: z) := by
  fun_induction afterStaticBrace? t with
  | case1 rest ih =>
    have hends (others : Text) (hothers : others ∈ commentEnds rest) :
        afterStaticBrace? ((others ++ '\n' :: z).dropWhile Text.isIndent) =
          (afterStaticBrace? (others.dropWhile Text.isIndent)).map (· ++ '\n' :: z) := by
      rw [dropWhile_append_of_neg _ (by decide)]
      refine ih others hothers fun tail htail ↦ h tail ?_
      have hsuffix : others <:+ '/' :: '*' :: rest :=
        (suffix_of_mem_commentEnds hothers).trans ⟨['/', '*'], rfl⟩
      exact htail.trans ((List.dropWhile_suffix _).trans hsuffix)
    rw [List.cons_append, List.cons_append, afterStaticBrace?_comment,
      commentEnds_append_lineFeed, List.findSome?_map]
    refine (findSome?_eq_map hends).trans ?_
    simp
  | case2 t hcomment =>
    have hcomment' : ∀ rest, t ++ '\n' :: z = '/' :: '*' :: rest → False := by
      intro rest heq
      match t with
      | [] => simp at heq
      | [c] => simp at heq
      | c :: d :: t =>
        simp only [List.cons_append, List.cons.injEq] at heq
        exact hcomment t (by rw [heq.1, heq.2.1])
    rw [afterStaticBrace?]
    · exact afterStatic?_append_lineFeed h z
    · exact hcomment'

/-- The head of a static initializer ends with its brace. -/
theorem brace_suffix_of_afterStaticBrace? {t rest : Text} (h : afterStaticBrace? t = some rest) :
    '\x7b' :: rest <:+ t := by
  fun_induction afterStaticBrace? t with
  | case1 tail ih =>
    have hattach : (commentEnds tail).findSome?
        (fun others ↦ afterStaticBrace? (others.dropWhile Text.isIndent)) = some rest := by
      simpa using h
    obtain ⟨others, hothers, hrest⟩ := List.exists_of_findSome?_eq_some hattach
    have hends : others.dropWhile Text.isIndent <:+ '/' :: '*' :: tail :=
      (List.dropWhile_suffix _).trans
        ((suffix_of_mem_commentEnds hothers).trans ⟨['/', '*'], rfl⟩)
    exact (ih others hothers hrest).trans hends
  | case2 t hcomment =>
    unfold afterStatic? at h
    split_ifs at h with hstatic
    obtain ⟨tail, rfl⟩ := List.isPrefixOf_iff_prefix.mp hstatic
    have hword : ("static".toList ++ tail).drop 6 = tail := rfl
    rw [hword] at h
    split at h
    · rename_i others hdrop
      cases h
      have hsuffix : '\x7b' :: rest <:+ tail := hdrop ▸ List.dropWhile_suffix _
      exact hsuffix.trans (List.suffix_append _ _)
    · cases h

theorem suffix_of_afterStaticBrace? {t rest : Text} (h : afterStaticBrace? t = some rest) :
    rest <:+ t ∧ rest.length < t.length :=
  have hbrace := brace_suffix_of_afterStaticBrace? h
  ⟨(List.suffix_cons _ _).trans hbrace, hbrace.length_le⟩

theorem static?_add (shift start : Nat) (t : Text) :
    static? (start + shift) t = (static? start t).map (moved shift) := by
  unfold static?
  rw [Option.map_map]
  refine Option.map_congr fun rest hrest ↦ ?_
  obtain ⟨-, hlt⟩ := suffix_of_afterStaticBrace? hrest
  have hle := (List.dropWhile_suffix (l := t) Text.isIndent).length_le
  simp only [Function.comp_apply, moved, InitializerHead.mk.injEq, true_and]
  omega

theorem static?_bounds {start : Nat} {t : Text} {head : InitializerHead}
    (h : static? start t = some head) :
    head.start = start ∧ start ≤ head.brace ∧ head.brace < head.stop ∧
      head.stop ≤ start + t.length := by
  unfold static? at h
  obtain ⟨rest, hrest, rfl⟩ := Option.map_eq_some_iff.mp h
  obtain ⟨-, hlt⟩ := suffix_of_afterStaticBrace? hrest
  have hle := (List.dropWhile_suffix (l := t) Text.isIndent).length_le
  refine ⟨rfl, ?_, ?_, ?_⟩ <;> simp only <;> omega

theorem static?_lineFeed (start : Nat) (z : Text) : static? start ('\n' :: z) = none := by
  have hnone : afterStaticBrace? ('\n' :: z) = none := by
    rw [afterStaticBrace?]
    · rfl
    · simp
  have hdrop : ('\n' :: z).dropWhile Text.isIndent = '\n' :: z := by
    rw [List.dropWhile_cons, if_neg (by decide)]
  rw [static?, hdrop, hnone, Option.map_none]

theorem static?_append_lineFeed {t s : Text} (h : Text.endsInWord "static".toList t = false)
    (hs : s <:+ t) (start : Nat) (z : Text) : static? start (s ++ '\n' :: z) = static? start s := by
  have hstatic : ∀ rest, "static".toList ++ rest <:+ s.dropWhile Text.isIndent →
      ∃ c ∈ rest, Text.isBlank c = false := fun rest hrest ↦
    Text.exists_solid_of_endsInWord h (c := 'c') (by decide) (by decide)
      (hrest.trans ((List.dropWhile_suffix _).trans hs))
  unfold static?
  rw [dropWhile_append_of_neg _ (by decide), afterStaticBrace?_append_lineFeed hstatic,
    Option.map_map]
  congr 1
  funext rest
  simp only [Function.comp_apply, List.length_append]
  rw [Nat.add_sub_add_right]

theorem instance?_add (shift start : Nat) (t : Text) :
    instance? (start + shift) t = (instance? start t).map (moved shift) := by
  unfold instance?
  simp only
  split
  · split <;> simp only [Option.map_some, Option.map_none, moved, Option.some.injEq,
      InitializerHead.mk.injEq, true_and]
    all_goals omega
  · rfl

theorem instance?_bounds {start : Nat} {t : Text} {head : InitializerHead}
    (h : instance? start t = some head) :
    head.start = start ∧ start ≤ head.brace ∧ head.brace < head.stop ∧
      head.stop ≤ start + t.length := by
  unfold instance? at h
  simp only at h
  split at h
  · rename_i rest hrest
    have hlength := congrArg List.length hrest
    rw [List.length_drop, List.length_cons] at hlength
    have hfill := (List.takeWhile_sublist (l := rest) Text.isLineFill).length_le
    split at h
    · cases h
      refine ⟨rfl, ?_, ?_, ?_⟩ <;> simp only <;> omega
    · cases h
      refine ⟨rfl, ?_, ?_, ?_⟩ <;> simp only <;> omega
    · cases h
  · cases h

theorem instance?_lineFeed (start : Nat) (z : Text) : instance? start ('\n' :: z) = none := by
  have htake : ('\n' :: z).takeWhile Text.isIndent = [] := by
    rw [List.takeWhile_cons, if_neg (by decide)]
  unfold instance?
  rw [htake]
  rfl

theorem instance?_append_lineFeed (s : Text) (start : Nat) (z : Text) :
    instance? start (s ++ '\n' :: z) = instance? start s := by
  unfold instance?
  simp only
  rw [takeWhile_append_of_neg _ (by decide),
    List.drop_append_of_le_length (List.takeWhile_sublist _).length_le]
  cases s.drop (s.takeWhile Text.isIndent).length with
  | nil => rfl
  | cons c rest =>
    rw [List.cons_append]
    by_cases hbrace : c = '\x7b'
    · subst hbrace
      simp only
      rw [takeWhile_append_of_neg _ (by decide),
        List.drop_append_of_le_length (List.takeWhile_sublist _).length_le]
      cases rest.drop (rest.takeWhile Text.isLineFill).length with
      | nil => rfl
      | cons d others => 
        rw [List.cons_append]
        split <;> simp_all
    · split <;> simp_all

end InitializerHead

/-! ### Method heads -/

namespace MethodHead

/-- The head at another place. -/
def moved (shift : Nat) (head : MethodHead) : MethodHead :=
  { head with
    start := head.start + shift
    nameStart := head.nameStart + shift
    parenthesis := head.parenthesis + shift }

theorem at?_add (shift start : Nat) (t : Text) :
    at? (start + shift) t = (at? start t).map (moved shift) := by
  unfold at? onLine?
  simp only
  rw [Option.map_map]
  congr 1
  funext ⟨fromName, name, fromParenthesis⟩
  simp only [Function.comp_apply, moved, MethodHead.mk.injEq, true_and]
  omega

theorem length_skipMarks_le (t : Text) : (skipMarks t).length ≤ t.length := by
  fun_induction skipMarks t with
  | case1 t rest hmark ih => exact ih.trans (length_afterMark?_lt hmark).le
  | case2 t hmark => exact Nat.le_refl _

theorem at?_bounds {start : Nat} {t : Text} {head : MethodHead} (h : at? start t = some head) :
    head.start = start ∧ start ≤ head.nameStart ∧ head.nameStart ≤ head.parenthesis ∧
      head.parenthesis < start + t.length := by
  obtain ⟨hstart, hname, hparenthesis⟩ := start_of_onLine? h
  refine ⟨hstart, hname, hparenthesis, ?_⟩
  unfold at? onLine? at h
  obtain ⟨⟨fromName, name, fromParenthesis⟩, hfound, rfl⟩ := Option.map_eq_some_iff.mp h
  obtain ⟨hle, hle', hpos⟩ := length_findName?_le hfound
  have hmarks := length_skipMarks_le
    ((t.takeWhile (· != '\n')).dropWhile Text.isIndent)
  have hbody := length_dropWhile_le Text.isIndent (t.takeWhile (· != '\n'))
  have hline := (List.takeWhile_sublist (l := t) (· != '\n')).length_le
  simp only
  omega

theorem at?_lineFeed (start : Nat) (z : Text) : at? start ('\n' :: z) = none := by
  cases h : at? start ('\n' :: z) with
  | none => rfl
  | some head =>
    have hline : at? start ('\n' :: z) = at? start [] := rfl
    obtain ⟨-, hname, hparenthesis, hlt⟩ := at?_bounds (hline.symm.trans h)
    simp only [List.length_nil] at hlt
    omega

theorem at?_append_lineFeed (s : Text) (start : Nat) (z : Text) :
    at? start (s ++ '\n' :: z) = at? start s := by
  unfold at?
  rw [takeWhile_append_of_neg _ (by decide)]

end MethodHead

/-! ### Declaration tails -/

namespace Terminator

theorem first?_append {t : Text} (h : t ≠ []) (u : Text) : first? (t ++ u) = first? t := by
  obtain ⟨c, t, rfl⟩ := List.exists_cons_of_ne_nil h
  rfl

/-- The tail of a declaration is read up to a character that cannot stand in it. -/
theorem find?_append {t : Text} {c : Char} (hmem : c ∈ t) (hc : isClausePart c = false)
    (u : Text) : find? (t ++ u) = find? t := by
  have hblank : Text.isBlank c = false := by
    simp only [isClausePart, Bool.or_eq_false_iff] at hc
    exact hc.1.2
  obtain ⟨hgap, hrest, hne⟩ := takeWhile_append_of_exists ⟨c, hmem, hblank⟩ u
  have hmem' : c ∈ t.dropWhile Text.isBlank := by
    rw [← List.takeWhile_append_dropWhile (p := Text.isBlank) (l := t)] at hmem
    refine (List.mem_append.mp hmem).resolve_left fun hin ↦ ?_
    rw [List.mem_takeWhile_imp hin] at hblank
    cases hblank
  unfold find?
  simp only
  rw [hgap, List.drop_append_of_le_length (List.takeWhile_sublist _).length_le,
    drop_length_takeWhile]
  set rest := t.dropWhile Text.isBlank
  rw [first?_append hne]
  split
  · rfl
  · have hall : ∀ d ∈ "throws".toList, isClausePart d = true :=
      List.all_eq_true.mp (by decide)
    have hword : c ∉ "throws".toList := fun hin ↦ by
      rw [hall c hin] at hc
      cases hc
    rw [Text.isPrefixOf_append_of_mem hmem' hword]
    by_cases hthrows : "throws".toList.isPrefixOf rest = true
    · obtain ⟨tail, htail⟩ := List.isPrefixOf_iff_prefix.mp hthrows
      have hdrop (v : Text) : ("throws".toList ++ v).drop 6 = v := rfl
      have hclause : c ∈ tail := by
        rw [← htail] at hmem'
        exact (List.mem_append.mp hmem').resolve_left hword
      obtain ⟨hrun, -, hne'⟩ := takeWhile_append_of_exists ⟨c, hclause, hc⟩ u
      rw [← drop_length_takeWhile] at hne'
      rw [if_pos hthrows, if_pos hthrows, ← htail, List.append_assoc, hdrop, hdrop, hrun,
        ← List.drop_drop, ← List.drop_drop, hdrop, hdrop,
        List.drop_append_of_le_length (List.takeWhile_sublist _).length_le, first?_append hne']
    · rw [if_neg hthrows, if_neg hthrows]

end Terminator

end MemberOrder
