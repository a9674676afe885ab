import Mathlib.Data.Nat.Find
import MemberOrder.Proofs.Source.Reading

/-!
Tokens. From left to right a text falls into comments, text blocks and literals, none of which is
code, and single characters, which are. At each position the first rule that applies is taken. The
rules say how a token opens, where its end is looked for and what is its end, and nothing of how a
reader goes about it; every text falls into tokens in one way, and a character is read as code
exactly if its token is code.
-/

set_option autoImplicit false

namespace MemberOrder.Source

open Glyph (code mute)

/-- The tokens that are not code. -/
inductive MuteKind
  | lineComment
  | blockComment
  | textBlock
  | string
  | character
deriving DecidableEq

namespace MuteKind

/-- The sign that opens a token. -/
def opening : MuteKind → Text
  | .lineComment => ['/', '/']
  | .blockComment => ['/', '*']
  | .textBlock => ['"', '"', '"']
  | .string => ['"']
  | .character => ['\'']

/-- The kind of the token that begins with the text: the first in this order whose sign opens it. -/
def first? (t : Text) : Option MuteKind :=
  [lineComment, blockComment, textBlock, string, character].find? (·.opening.isPrefixOf t)

/-- Is a backslash taken together with the character behind it? -/
def escapes : MuteKind → Bool
  | .lineComment | .blockComment => false
  | .textBlock | .string | .character => true

/-- Does the token end with the text, and how much of the text belongs to it then? A closing sign
does, and a line feed does not. -/
def closing? : MuteKind → Text → Option Nat
  | .lineComment, '\n' :: _ => some 0
  | .blockComment, '*' :: '/' :: _ => some 2
  | .textBlock, '"' :: '"' :: '"' :: _ => some 3
  | .string, '"' :: _ => some 1
  | .string, '\n' :: _ => some 0
  | .character, '\'' :: _ => some 1
  | .character, '\n' :: _ => some 0
  | _, _ => none

/-- The positions behind the opening sign at which the end of a token is looked for: all of them,
but not those inside a backslash pair where there are such pairs. -/
inductive Visits (kind : MuteKind) : Text → Nat → Prop
  | start (t : Text) : Visits kind t 0
  | pair {t : Text} {i : Nat} (c : Char) (hescapes : kind.escapes = true) (h : Visits kind t i) :
    Visits kind ('\\' :: c :: t) (i + 2)
  | single {t : Text} {i : Nat} {c : Char} (hc : kind.escapes = true → c ≠ '\\')
    (h : Visits kind t i) : Visits kind (c :: t) (i + 1)

/-- How far a token reaches into the text behind its opening sign: through the first end of it, or
over all of the text. -/
inductive Reaches (kind : MuteKind) (t : Text) : Nat → Prop
  | closed {i n : Nat} (hi : Visits kind t i) (hclosing : kind.closing? (t.drop i) = some n)
    (hfirst : ∀ j < i, Visits kind t j → kind.closing? (t.drop j) = none) : Reaches kind t (i + n)
  | unclosed (h : ∀ i, Visits kind t i → kind.closing? (t.drop i) = none) :
    Reaches kind t t.length

/-- The mode in which the reader is behind the opening sign. -/
def mode : MuteKind → Mode
  | .lineComment => .lineComment
  | .blockComment => .blockComment
  | .textBlock => .textBlock
  | .string => .literal '"'
  | .character => .literal '\''

end MuteKind

inductive Token
  | mute (kind : MuteKind) (text : Text)
  | plain (c : Char)
deriving DecidableEq

namespace Token

def text : Token → Text
  | .mute _ text => text
  | .plain c => [c]

def isCode : Token → Bool
  | .mute _ _ => false
  | .plain _ => true

/-- The characters of the token, read as it says. -/
def glyphs (token : Token) : List Glyph := token.text.map fun c ↦ ⟨c, token.isCode⟩

end Token

/-- The text falls into these tokens. -/
inductive FallsInto : Text → List Token → Prop
  | nil : FallsInto [] []
  | mute {kind : MuteKind} {rest : Text} {n : Nat} {tokens : List Token}
    (hfirst : MuteKind.first? (kind.opening ++ rest) = some kind) (hn : kind.Reaches rest n)
    (h : FallsInto (rest.drop n) tokens) :
    FallsInto (kind.opening ++ rest) (.mute kind (kind.opening ++ rest.take n) :: tokens)
  | plain {c : Char} {rest : Text} {tokens : List Token}
    (hnone : MuteKind.first? (c :: rest) = none) (h : FallsInto rest tokens) :
    FallsInto (c :: rest) (.plain c :: tokens)

/-! ### One token -/

namespace MuteKind

variable {kind : MuteKind} {t : Text} {c : Char}

theorem scan_opening (h : first? (kind.opening ++ t) = some kind) :
    scan .code (kind.opening ++ t) = kind.opening.map mute ++ scan kind.mode t := by
  cases kind with
  | lineComment => simp [opening, mode, scan]
  | blockComment => simp [opening, mode, scan]
  | textBlock => simp [opening, mode, scan]
  | string =>
    -- Two more quotes would open a text block.
    have hquotes : ∀ rest, t ≠ '"' :: '"' :: rest := by
      rintro rest rfl
      simp [first?, opening] at h
    simp [opening, mode, scan]
  | character => simp [opening, mode, scan]

theorem scan_plain (h : first? (c :: t) = none) :
    scan .code (c :: t) = code c :: scan .code t := by
  simp only [first?, List.find?_eq_none, List.mem_cons, List.not_mem_nil, or_false, forall_eq_or_imp,
    forall_eq, opening, List.isPrefixOf_iff_prefix] at h
  obtain ⟨hline, hblock, -, hquote, hsingle⟩ := h
  rw [scan]
  · rintro rest rfl rfl
    exact hline ⟨rest, rfl⟩
  · rintro rest rfl rfl
    exact hblock ⟨rest, rfl⟩
  · rintro rest rfl rfl
    exact hquote ⟨_, rfl⟩
  · rintro rfl
    exact hquote ⟨_, rfl⟩
  · rintro rfl
    exact hsingle ⟨_, rfl⟩

theorem scan_of_closing? {n : Nat} (h : kind.closing? t = some n) :
    scan kind.mode t = (t.take n).map mute ++ scan .code (t.drop n) := by
  unfold closing? at h
  split at h <;> cases h <;> simp [mode, scan]

theorem scan_pair (hescapes : kind.escapes = true) (h : kind.closing? ('\\' :: c :: t) = none) :
    scan kind.mode ('\\' :: c :: t) = mute '\\' :: mute c :: scan kind.mode t := by
  cases kind with
  | lineComment => cases hescapes
  | blockComment => cases hescapes
  | textBlock => simp [mode, scan]
  | string => simp [mode, scan]
  | character => simp [mode, scan]

theorem scan_single (hc : kind.escapes = true → c = '\\' → t = [])
    (h : kind.closing? (c :: t) = none) :
    scan kind.mode (c :: t) = mute c :: scan kind.mode t := by
  have hpair (hescapes : kind.escapes = true) : ∀ d rest, c = '\\' → t = d :: rest → False := by
    intro d rest hback ht
    rw [hc hescapes hback] at ht
    cases ht
  -- What ends a token of the kind is no character of it.
  have hopen {d : Char} {n : Nat} (hd : kind.closing? (d :: t) = some n) : c ≠ d := by
    rintro rfl
    rw [h] at hd
    cases hd
  cases kind with
  | lineComment =>
    have hfeed : c ≠ '\n' := hopen rfl
    simp [mode, scan]
  | blockComment =>
    have hstar : ∀ rest, c = '*' → t = '/' :: rest → False := by
      rintro rest rfl rfl
      cases h
    simp [mode, scan]
  | textBlock =>
    have hescape := hpair rfl
    have hquotes : ∀ rest, c = '"' → t = '"' :: '"' :: rest → False := by
      rintro rest rfl rfl
      cases h
    simp [mode, scan]
  | string =>
    have hescape := hpair rfl
    have hfeed : c ≠ '\n' := hopen rfl
    have hquote : c ≠ '"' := hopen rfl
    simp [mode, scan, hquote]
  | character =>
    have hescape := hpair rfl
    have hfeed : c ≠ '\n' := hopen rfl
    have hquote : c ≠ '\'' := hopen rfl
    simp [mode, scan, hquote]

/-- The reader does not leave a token before a position at which its end is looked for first. -/
theorem scan_of_visits {i : Nat} (h : Visits kind t i)
    (hfirst : ∀ j < i, Visits kind t j → kind.closing? (t.drop j) = none) :
    scan kind.mode t = (t.take i).map mute ++ scan kind.mode (t.drop i) := by
  induction h with
  | start t => simp
  | pair c hescapes h ih =>
    have hopen := hfirst 0 (by omega) (.start _)
    have hrest := ih fun j hj hvisits ↦ hfirst (j + 2) (by omega) (.pair c hescapes hvisits)
    rw [scan_pair hescapes hopen, hrest]
    rfl
  | single hc h ih =>
    have hopen := hfirst 0 (by omega) (.start _)
    have hrest := ih fun j hj hvisits ↦ hfirst (j + 1) (by omega) (.single hc hvisits)
    rw [scan_single (fun hescapes hback ↦ absurd hback (hc hescapes)) hopen, hrest]
    rfl

/-- A token without end reaches over all of the text. -/
theorem scan_of_unclosed (t : Text) (h : ∀ i, Visits kind t i → kind.closing? (t.drop i) = none) :
    scan kind.mode t = t.map mute := by
  match t with
  | [] => simp [scan]
  | c :: rest =>
    have hopen := h 0 (.start _)
    by_cases hc : kind.escapes = true ∧ c = '\\'
    · obtain ⟨hescapes, rfl⟩ := hc
      match rest with
      | [] => rw [scan_single (fun _ _ ↦ rfl) hopen, scan, List.map_singleton]
      | d :: rest =>
        have hrest := scan_of_unclosed rest fun i hi ↦ h (i + 2) (.pair d hescapes hi)
        rw [scan_pair hescapes hopen, hrest]
        rfl
    · have hplain : kind.escapes = true → c ≠ '\\' := fun hescapes hback ↦ hc ⟨hescapes, hback⟩
      have hrest := scan_of_unclosed rest fun i hi ↦ h (i + 1) (.single hplain hi)
      rw [scan_single (fun hescapes hback ↦ absurd hback (hplain hescapes)) hopen, hrest]
      rfl

/-- The reader is back in code where the token ends. -/
theorem Reaches.scan_eq {n : Nat} (h : kind.Reaches t n) :
    scan kind.mode t = (t.take n).map mute ++ scan .code (t.drop n) := by
  cases h with
  | closed hi hclosing hfirst =>
    rw [scan_of_visits hi hfirst, scan_of_closing? hclosing, List.take_add, List.drop_drop,
      List.map_append, List.append_assoc]
  | unclosed hnone => simp [scan_of_unclosed t hnone, scan]

theorem exists_reaches (kind : MuteKind) (t : Text) : ∃ n, kind.Reaches t n := by
  classical
  by_cases hend : ∃ i, Visits kind t i ∧ (kind.closing? (t.drop i)).isSome
  · obtain ⟨hvisits, hsome⟩ := Nat.find_spec hend
    obtain ⟨n, hn⟩ := Option.isSome_iff_exists.mp hsome
    refine ⟨_, .closed hvisits hn fun j hj hvisits ↦ ?_⟩
    simpa [hvisits] using Nat.find_min hend hj
  · refine ⟨_, .unclosed fun i hi ↦ ?_⟩
    simpa [hi] using not_exists.mp hend i

/-- A token has one end. -/
theorem Reaches.unique {m n : Nat} (hm : kind.Reaches t m) (hn : kind.Reaches t n) : m = n := by
  cases hm with
  | closed hi hclosing hfirst =>
    cases hn with
    | closed hi' hclosing' hfirst' =>
      rename_i i k i' k'
      obtain hlt | rfl | hlt := Nat.lt_trichotomy i i'
      · rw [hfirst' i hlt hi] at hclosing
        cases hclosing
      · rw [hclosing, Option.some.injEq] at hclosing'
        rw [hclosing']
      · rw [hfirst i' hlt hi'] at hclosing'
        cases hclosing'
    | unclosed hnone =>
      rw [hnone _ hi] at hclosing
      cases hclosing
  | unclosed hnone =>
    cases hn with
    | closed hi hclosing hfirst =>
      rw [hnone _ hi] at hclosing
      cases hclosing
    | unclosed hnone' => rfl

/-- A kind that comes first opens the text. -/
theorem exists_eq_append_of_first? (h : first? t = some kind) : ∃ rest, t = kind.opening ++ rest := by
  have hprefix := List.find?_some h
  simp only [List.isPrefixOf_iff_prefix] at hprefix
  obtain ⟨rest, hrest⟩ := hprefix
  exact ⟨rest, hrest.symm⟩

end MuteKind

/-! ### All tokens -/

theorem exists_fallsInto (t : Text) : ∃ tokens, FallsInto t tokens := by
  match t with
  | [] => exact ⟨[], .nil⟩
  | c :: rest =>
    cases hfirst : MuteKind.first? (c :: rest) with
    | none =>
      obtain ⟨tokens, htokens⟩ := exists_fallsInto rest
      exact ⟨_, .plain hfirst htokens⟩
    | some kind =>
      obtain ⟨inner, hinner⟩ := MuteKind.exists_eq_append_of_first? hfirst
      obtain ⟨n, hn⟩ := kind.exists_reaches inner
      have hshorter : inner.length - n < rest.length + 1 := by
        have hpos : 0 < kind.opening.length := by cases kind <;> decide
        have hlength := congrArg List.length hinner
        rw [List.length_cons, List.length_append] at hlength
        omega
      obtain ⟨tokens, htokens⟩ := exists_fallsInto (inner.drop n)
      rw [hinner] at hfirst ⊢
      exact ⟨_, .mute hfirst hn htokens⟩
termination_by t.length

/-- A text falls into tokens in one way. -/
theorem FallsInto.unique {t : Text} {tokens others : List Token} (h : FallsInto t tokens)
    (h' : FallsInto t others) : tokens = others := by
  induction h generalizing others with
  | nil =>
    generalize ht : ([] : Text) = t at h'
    cases h' with
    | nil => rfl
    | mute hfirst hn h =>
      rename_i kind rest n tokens
      cases kind <;> cases ht
    | plain hnone h => cases ht
  | mute hfirst hn h ih =>
    rename_i kind rest n tokens
    generalize ht : kind.opening ++ rest = t at h'
    cases h' with
    | nil => cases kind <;> cases ht
    | mute hfirst' hn' h' =>
      rename_i kind' rest' n' tokens'
      obtain rfl : kind = kind' := by
        rw [ht, hfirst', Option.some.injEq] at hfirst
        exact hfirst.symm
      obtain rfl : rest = rest' := List.append_cancel_left ht
      obtain rfl := hn.unique hn'
      rw [ih h']
    | plain hnone h' =>
      rw [ht, hnone] at hfirst
      cases hfirst
  | plain hnone h ih =>
    rename_i c rest tokens
    generalize ht : c :: rest = t at h'
    cases h' with
    | nil => cases ht
    | mute hfirst hn h' =>
      rw [← ht, hnone] at hfirst
      cases hfirst
    | plain hnone' h' =>
      obtain ⟨rfl, rfl⟩ := List.cons_eq_cons.mp ht
      rw [ih h']

/-- A text is read as its tokens say. -/
theorem FallsInto.scan_eq {t : Text} {tokens : List Token} (h : FallsInto t tokens) :
    scan .code t = tokens.flatMap Token.glyphs := by
  induction h with
  | nil => simp [scan]
  | mute hfirst hn h ih =>
    rw [MuteKind.scan_opening hfirst, hn.scan_eq, ih, List.flatMap_cons, ← List.append_assoc,
      ← List.map_append]
    rfl
  | plain hnone h ih =>
    rw [MuteKind.scan_plain hnone, ih, List.flatMap_cons]
    rfl

/-- Every source falls into tokens in one way. Put together they are its text, and of each token all
characters are code or none is, as the token says; so what is not code is exactly what stands in
comments, text blocks and literals. -/
theorem isCode_eq_of_tokens (src : Source) :
    ∃ tokens, FallsInto src.text tokens ∧ (∀ others, FallsInto src.text others → others = tokens) ∧
      tokens.flatMap Token.text = src.text ∧
      src.glyphs.map Glyph.isCode =
        tokens.flatMap (fun token ↦ List.replicate token.text.length token.isCode) ∧
      (src.glyphs.map Glyph.isCode).length = src.text.length := by
  obtain ⟨tokens, htokens⟩ := exists_fallsInto src.text
  have hglyphs : src.glyphs = tokens.flatMap Token.glyphs := src.glyphs_eq.trans htokens.scan_eq
  refine ⟨tokens, htokens, fun others hothers ↦ hothers.unique htokens, ?_, ?_, ?_⟩
  · rw [← src.map_char_glyphs, hglyphs, List.map_flatMap]
    simp [Token.glyphs, Function.comp_def]
  · rw [hglyphs, List.map_flatMap]
    simp [Token.glyphs, Function.comp_def, List.map_const']
  · rw [List.length_map, src.length_glyphs]

end MemberOrder.Source
