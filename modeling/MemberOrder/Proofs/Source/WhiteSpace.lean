import Mathlib.Data.List.TakeWhile
import MemberOrder.Proofs.Source.Modes

/-!
Reading on behind white space. White space completes no sign, so that a text is read the same
whatever follows the white space behind it; only an escape that the text leaves open takes a
character of it. The end of a line ends all that the reader may be inside of but block comments and
text blocks, and two line feeds do even behind an open escape.
-/

set_option autoImplicit false

namespace MemberOrder

/-- Is it a mode that reading can lead to: are literals between quotes? -/
def Mode.Proper : Mode → Prop
  | .literal quote => quote = '"' ∨ quote = '\''
  | _ => True

/-- Does the end of the line end what the reader is inside of? -/
def Mode.endsWithLine : Mode → Bool
  | .blockComment => false
  | .textBlock => false
  | _ => true

theorem Mode.proper_code : Mode.code.Proper := trivial

theorem Mode.endsWithLine_code : Mode.code.endsWithLine = true := rfl

namespace Source

open Glyph (code mute)

theorem proper_modeAfter {mode : Mode} (h : mode.Proper) (t : Text) : (modeAfter mode t).Proper := by
  fun_induction modeAfter mode t with
  | case1 mode => exact h
  | case5 rest hquotes ih => exact ih (Or.inl rfl)
  | case6 rest ih => exact ih (Or.inr rfl)
  | case16 quote c rest ih => exact ih h
  | case17 quote c rest hfeed hescape ih =>
    apply ih
    split_ifs
    · trivial
    · exact h
  | _ =>
    rename_i ih
    exact ih trivial

section Blank

variable {b : Char} (hb : Text.isBlank b = true)

include hb

theorem blank_ne {c : Char} (hc : Text.isBlank c = false) : b ≠ c := by
  rintro rfl
  rw [hb] at hc
  cases hc

/-- A sign of two characters that white space follows stands before it. -/
theorem append_blank_ne_cons {c a d : Char} {t : Text} (u : Text) (hd : Text.isBlank d = false)
    (hsign : ∀ rest, c = a → t = d :: rest → False) :
    ∀ rest, c = a → t ++ b :: u = d :: rest → False := by
  intro rest hc heq
  cases t with
  | nil => exact blank_ne hb hd (List.cons_eq_cons.mp heq).1
  | cons e t =>
    obtain ⟨rfl, -⟩ := List.cons_eq_cons.mp heq
    exact hsign t hc rfl

theorem append_blank_ne_quotes {c : Char} {t : Text} (u : Text)
    (hsign : ∀ rest, c = '"' → t = '"' :: '"' :: rest → False) :
    ∀ rest, c = '"' → t ++ b :: u = '"' :: '"' :: rest → False := by
  intro rest hc heq
  match t with
  | [] => exact blank_ne hb (by decide) (List.cons_eq_cons.mp heq).1
  | [d] => exact blank_ne hb (by decide) (List.cons_eq_cons.mp (List.cons_eq_cons.mp heq).2).1
  | d :: e :: t =>
    simp only [List.cons_append, List.cons.injEq] at heq
    obtain ⟨rfl, rfl, -⟩ := heq
    exact hsign t hc rfl

end Blank

/-- How a text is read that white space follows: as it is alone. The reader goes on in the mode it
leaves, unless it leaves an escape open, which takes the first blank. -/
theorem exists_scan_append_blank {mode : Mode} (hmode : mode.Proper) (t : Text) :
    ∃ escaped : Bool, (escaped = true →
        modeAfter mode t = .textBlock ∨ ∃ quote, modeAfter mode t = .literal quote) ∧
      ∀ b u, Text.isBlank b = true → scan mode (t ++ b :: u) =
        scan mode t ++ if escaped then mute b :: scan (modeAfter mode t) u
          else scan (modeAfter mode t) (b :: u) := by
  fun_induction modeAfter mode t with
  | case1 mode => exact ⟨false, by simp, by simp [scan]⟩
  | case5 rest hquotes ih =>
    obtain ⟨escaped, hescaped, hread⟩ := ih (Or.inl rfl)
    refine ⟨escaped, hescaped, fun b u hb ↦ ?_⟩
    have hquotes' (r : Text) := append_blank_ne_quotes hb u (fun r _ ↦ hquotes r) r rfl
    simp [scan, hread b u hb]
  | case6 rest ih =>
    obtain ⟨escaped, hescaped, hread⟩ := ih (Or.inr rfl)
    refine ⟨escaped, hescaped, fun b u hb ↦ ?_⟩
    simp [scan, hread b u hb]
  | case7 c rest hslash hstar hquotes hquote hsingle ih =>
    obtain ⟨escaped, hescaped, hread⟩ := ih trivial
    refine ⟨escaped, hescaped, fun b u hb ↦ ?_⟩
    have hslash' := append_blank_ne_cons hb u (by decide) hslash
    have hstar' := append_blank_ne_cons hb u (by decide) hstar
    have hquotes' := append_blank_ne_quotes hb u hquotes
    simp [scan, hread b u hb]
  | case11 c rest hstar ih =>
    obtain ⟨escaped, hescaped, hread⟩ := ih trivial
    refine ⟨escaped, hescaped, fun b u hb ↦ ?_⟩
    have hstar' := append_blank_ne_cons hb u (by decide) hstar
    simp [scan, hread b u hb]
  | case14 c rest hescape hquotes ih =>
    by_cases hopen : c = '\\' ∧ rest = []
    · obtain ⟨rfl, rfl⟩ := hopen
      exact ⟨true, fun _ ↦ Or.inl rfl, fun b u hb ↦ by simp [scan, modeAfter]⟩
    · obtain ⟨escaped, hescaped, hread⟩ := ih trivial
      refine ⟨escaped, hescaped, fun b u hb ↦ ?_⟩
      have hescape' := append_ne_escape (b :: u) hopen hescape
      have hquotes' := append_blank_ne_quotes hb u hquotes
      simp [scan, hread b u hb]
  | case16 quote c rest ih =>
    obtain ⟨escaped, hescaped, hread⟩ := ih hmode
    refine ⟨escaped, hescaped, fun b u hb ↦ ?_⟩
    simp [scan, hread b u hb]
  | case17 quote c rest hfeed hescape ih =>
    have hproper : (if c = quote then Mode.code else .literal quote).Proper := by
      split_ifs
      · trivial
      · exact hmode
    by_cases hopen : c = '\\' ∧ rest = []
    · obtain ⟨rfl, rfl⟩ := hopen
      have hquote : '\\' ≠ quote := by
        rcases hmode with rfl | rfl <;> decide
      refine ⟨true, fun _ ↦ Or.inr ⟨quote, ?_⟩, fun b u hb ↦ ?_⟩
      · rw [if_neg hquote, modeAfter]
      · simp [scan, modeAfter, hquote]
    · obtain ⟨escaped, hescaped, hread⟩ := ih hproper
      refine ⟨escaped, hescaped, fun b u hb ↦ ?_⟩
      have hescape' := append_ne_escape (b :: u) hopen hescape
      simp [scan, hread b u hb]
  | _ =>
    rename_i ih
    obtain ⟨escaped, hescaped, hread⟩ := ih trivial
    refine ⟨escaped, hescaped, fun b u hb ↦ ?_⟩
    simp [scan, hread b u hb]

/-! ### Characters that are no white space -/

/-- The characters of a stretch that are no white space, each code or not. -/
def marks (stretch : List Glyph) : List Glyph := stretch.filter (!·.isBlank)

@[simp] theorem marks_nil : marks [] = [] := rfl

@[simp] theorem marks_append (stretch rest : List Glyph) :
    marks (stretch ++ rest) = marks stretch ++ marks rest :=
  List.filter_append ..

theorem marks_cons_of_isBlank {g : Glyph} (h : g.isBlank = true) (stretch : List Glyph) :
    marks (g :: stretch) = marks stretch :=
  List.filter_cons_of_neg (by simp [h])

@[simp] theorem marks_cons_feed (stretch : List Glyph) :
    marks (code '\n' :: stretch) = marks stretch :=
  marks_cons_of_isBlank (by decide) stretch

/-- Blanks leave no marks, whatever the mode. -/
theorem marks_scan_blanks (mode : Mode) {blanks : Text} (h : ∀ c ∈ blanks, Text.isBlank c = true) :
    marks (scan mode blanks) = [] := by
  refine List.filter_eq_nil_iff.mpr fun g hg ↦ ?_
  have hchar : g.char ∈ blanks := by
    rw [← map_char_scan mode blanks]
    exact List.mem_map_of_mem hg
  simp [Glyph.isBlank, h g.char hchar]

/-- In code blanks are read by themselves. -/
theorem scan_code_blanks_append {blanks : Text} (h : ∀ c ∈ blanks, Text.isBlank c = true)
    (t : Text) : scan .code (blanks ++ t) = blanks.map code ++ scan .code t := by
  induction blanks with
  | nil => rfl
  | cons b blanks ih =>
    obtain ⟨hb, hblanks⟩ := List.forall_mem_cons.mp h
    have hslash : b ≠ '/' := blank_ne hb (by decide)
    have hquote : b ≠ '"' := blank_ne hb (by decide)
    have hsingle : b ≠ '\'' := blank_ne hb (by decide)
    simp [scan, hslash, hquote, ih hblanks]

theorem marks_scan_code_blanks_append {blanks : Text} (h : ∀ c ∈ blanks, Text.isBlank c = true)
    (t : Text) : marks (scan .code (blanks ++ t)) = marks (scan .code t) := by
  have hnone : marks (blanks.map code) = [] := by
    have halone := scan_code_blanks_append h []
    rw [List.append_nil, scan, List.append_nil] at halone
    rw [← halone]
    exact marks_scan_blanks .code h
  rw [scan_code_blanks_append h, marks_append, hnone, List.nil_append]

/-- What only ends at a sign of its own takes in the blanks that follow. -/
theorem scan_blanks_of_not_endsWithLine {mode : Mode} (hmode : mode.endsWithLine = false)
    {blanks : Text} (h : ∀ c ∈ blanks, Text.isBlank c = true) :
    scan mode blanks = blanks.map mute := by
  induction blanks with
  | nil => rfl
  | cons b blanks ih =>
    obtain ⟨hb, hblanks⟩ := List.forall_mem_cons.mp h
    have hstar : b ≠ '*' := blank_ne hb (by decide)
    have hquote : b ≠ '"' := blank_ne hb (by decide)
    have hescape : b ≠ '\\' := blank_ne hb (by decide)
    cases mode with
    | blockComment => simp [scan, hstar, ih hblanks]
    | textBlock => simp [scan, hquote, hescape, ih hblanks]
    | code => cases hmode
    | lineComment => cases hmode
    | literal quote => cases hmode

/-- Blanks at the end of a text leave no marks. -/
theorem marks_scan_append_blanks (t : Text) {blanks : Text}
    (h : ∀ c ∈ blanks, Text.isBlank c = true) :
    marks (scan .code (t ++ blanks)) = marks (scan .code t) := by
  cases blanks with
  | nil => rw [List.append_nil]
  | cons b blanks =>
    obtain ⟨hb, hblanks⟩ := List.forall_mem_cons.mp h
    obtain ⟨escaped, -, hread⟩ := exists_scan_append_blank Mode.proper_code t
    rw [hread b blanks hb, marks_append]
    split_ifs
    · rw [marks_cons_of_isBlank (show (mute b).isBlank = true from hb), marks_scan_blanks _ hblanks,
        List.append_nil]
    · rw [marks_scan_blanks _ h, List.append_nil]

/-- A text that ends in code, but for blanks that stand behind it, leaves the reader in what ends
with the line. -/
theorem endsWithLine_of_lastIsCode {t blanks : Text} (h : ∀ c ∈ blanks, Text.isBlank c = true)
    (hlast : lastIsCode true (scan .code (t ++ blanks)) = true) :
    (modeAfter .code t).endsWithLine = true := by
  cases blanks with
  | nil =>
    rw [List.append_nil] at hlast
    have hcode : modeAfter .code t = .code := modeAfter_eq_code hlast
    rw [hcode]
    rfl
  | cons b blanks =>
    obtain ⟨hb, hblanks⟩ := List.forall_mem_cons.mp h
    obtain ⟨escaped, -, hread⟩ := exists_scan_append_blank Mode.proper_code t
    by_contra hmode
    have hmode : (modeAfter .code t).endsWithLine = false := by simpa using hmode
    -- The blanks are all taken in, so that the last one is no code.
    have hmute : scan .code (t ++ b :: blanks) = scan .code t ++ (b :: blanks).map mute := by
      rw [hread b blanks hb]
      split_ifs
      · rw [scan_blanks_of_not_endsWithLine hmode hblanks, List.map_cons]
      · rw [scan_blanks_of_not_endsWithLine hmode h]
    rw [hmute, lastIsCode, List.getLast?_append, List.getLast?_map, List.getLast?_cons] at hlast
    simp [mute] at hlast

/-! ### Where a line ends -/

/-- The end of the line leads back to code. -/
theorem scan_feed_of_endsWithLine {mode : Mode} (h : mode.endsWithLine = true) (rest : Text) :
    scan mode ('\n' :: rest) = code '\n' :: scan .code rest := by
  cases mode with
  | code => simp [scan]
  | lineComment => simp [scan]
  | literal quote => simp [scan]
  | blockComment => cases h
  | textBlock => cases h

/-- It does so whatever fills the line before it. -/
theorem marks_scan_lineEnd {mode : Mode} (hproper : mode.Proper) (hmode : mode.endsWithLine = true)
    {fill : Text} (hfill : ∀ c ∈ fill, Text.isLineFill c = true) (rest : Text) :
    marks (scan mode (fill ++ '\n' :: rest)) = marks (scan .code rest) := by
  induction fill with
  | nil => rw [List.nil_append, scan_feed_of_endsWithLine hmode, marks_cons_feed]
  | cons c fill ih =>
    obtain ⟨hc, hrest⟩ := List.forall_mem_cons.mp hfill
    have hblank := Text.isBlank_of_isLineFill hc
    have hfeed : c ≠ '\n' := by
      rintro rfl
      exact absurd hc (by decide)
    -- The mode stays, and the character is code or not as the mode is.
    have hstays : ∃ g : Glyph, g.char = c ∧
        scan mode (c :: (fill ++ '\n' :: rest)) = g :: scan mode (fill ++ '\n' :: rest) := by
      cases mode with
      | code =>
        refine ⟨code c, rfl, ?_⟩
        simpa using scan_code_blanks_append (List.forall_mem_singleton.mpr hblank)
          (fill ++ '\n' :: rest)
      | lineComment => exact ⟨mute c, rfl, by simp [scan]⟩
      | literal quote =>
        have hescape : c ≠ '\\' := blank_ne hblank (by decide)
        have hquote : c ≠ quote := by
          rcases hproper with rfl | rfl <;> exact blank_ne hblank (by decide)
        exact ⟨mute c, rfl, by simp [scan, hescape, hquote]⟩
      | blockComment => cases hmode
      | textBlock => cases hmode
    obtain ⟨g, rfl, hread⟩ := hstays
    rw [List.cons_append, hread, marks_cons_of_isBlank hblank, ih hrest]

/-- Two line feeds lead back to code, even behind an open escape. -/
theorem marks_scan_feeds {t : Text} (h : (modeAfter .code t).endsWithLine = true) (rest : Text) :
    marks (scan .code (t ++ '\n' :: '\n' :: rest)) =
      marks (scan .code t) ++ marks (scan .code rest) := by
  obtain ⟨escaped, -, hread⟩ := exists_scan_append_blank Mode.proper_code t
  rw [hread '\n' _ (by decide), marks_append]
  split_ifs
  · rw [marks_cons_of_isBlank (by decide), scan_feed_of_endsWithLine h, marks_cons_feed]
  · rw [scan_feed_of_endsWithLine h, marks_cons_feed]
    simp [scan]

/-- Does the end of the line lead back to code behind the text, whatever fills the line? -/
def ClosesLine (t : Text) : Prop :=
  ∀ fill rest, (∀ c ∈ fill, Text.isLineFill c = true) →
    marks (scan .code (t ++ (fill ++ '\n' :: rest))) = marks (scan .code t) ++ marks (scan .code rest)

/-- Does an empty line lead back to code behind the text? -/
def Settles (t : Text) : Prop :=
  ∀ rest, marks (scan .code (t ++ '\n' :: '\n' :: rest)) =
    marks (scan .code t) ++ marks (scan .code rest)

theorem ClosesLine.settles {t : Text} (h : ClosesLine t) : Settles t := by
  intro rest
  have hfeed := h [] ('\n' :: rest) (by simp)
  rwa [scan_feed_of_endsWithLine Mode.endsWithLine_code,
    marks_cons_feed] at hfeed

/-- A text that the end of the line closes is read by itself before one that begins with it. -/
theorem ClosesLine.append {t tail : Text} (h : ClosesLine t)
    (htail : (tail.dropWhile Text.isLineFill).head? = some '\n') :
    marks (scan .code (t ++ tail)) = marks (scan .code t) ++ marks (scan .code tail) := by
  obtain ⟨rest, hrest⟩ := List.head?_eq_some_iff.mp htail
  have hfill : ∀ c ∈ tail.takeWhile Text.isLineFill, Text.isLineFill c = true :=
    fun c hc ↦ List.mem_takeWhile_imp hc
  have hsplit : tail = tail.takeWhile Text.isLineFill ++ '\n' :: rest := by
    rw [← hrest, List.takeWhile_append_dropWhile]
  rw [hsplit, h _ rest hfill, marks_scan_lineEnd Mode.proper_code Mode.endsWithLine_code hfill]

theorem ClosesLine.of_blanks_append {blanks t : Text} (hblanks : ∀ c ∈ blanks, Text.isBlank c = true)
    (h : ClosesLine (blanks ++ t)) : ClosesLine t := by
  intro fill rest hfill
  have hclose := h fill rest hfill
  rwa [List.append_assoc, marks_scan_code_blanks_append hblanks,
    marks_scan_code_blanks_append hblanks] at hclose

theorem closesLine_of_code {t : Text} (hsign : EndsSign t) (hcode : modeAfter .code t = .code) :
    ClosesLine t := by
  intro fill rest hfill
  rw [scan_append _ hsign, hcode, marks_append, marks_scan_lineEnd Mode.proper_code
    Mode.endsWithLine_code hfill]

/-- A text that a line feed follows as code is closed by it. -/
theorem closesLine_of_feed {t rest : Text}
    (h : (scan .code (t ++ '\n' :: rest))[t.length]? = some (code '\n')) :
    scan .code (t ++ '\n' :: rest) = scan .code t ++ scan .code ('\n' :: rest) ∧ ClosesLine t := by
  obtain ⟨escaped, -, hread⟩ := exists_scan_append_blank Mode.proper_code t
  have hproper : (modeAfter .code t).Proper := proper_modeAfter Mode.proper_code t
  rw [hread '\n' rest (by decide), List.getElem?_append_right (Nat.le_of_eq (length_scan .code t)),
    length_scan, Nat.sub_self] at h
  cases escaped with
  | true => simp [mute, code] at h
  | false =>
    have hline : (modeAfter .code t).endsWithLine = true := by
      cases hmode : modeAfter .code t with
      | blockComment => simp [hmode, scan, mute, code] at h
      | textBlock => simp [hmode, scan, mute, code] at h
      | code => rfl
      | lineComment => rfl
      | literal quote => rfl
    constructor
    · rw [hread '\n' rest (by decide), if_neg Bool.false_ne_true, scan_feed_of_endsWithLine hline,
        scan_feed_of_endsWithLine Mode.endsWithLine_code]
    · intro fill others hfill
      obtain ⟨b, u, hb, hfirst⟩ : ∃ b u, Text.isBlank b = true ∧ fill ++ '\n' :: others = b :: u := by
        cases fill with
        | nil => exact ⟨'\n', others, by decide, rfl⟩
        | cons c fill =>
          exact ⟨c, _, Text.isBlank_of_isLineFill (hfill c List.mem_cons_self), rfl⟩
      rw [hfirst, hread b u hb, if_neg Bool.false_ne_true, ← hfirst, marks_append,
        marks_scan_lineEnd hproper hline hfill]

/-- A text that ends in code, but for blanks that stand behind it, is closed by an empty line. -/
theorem settles_of_lastIsCode {t blanks : Text} (h : ∀ c ∈ blanks, Text.isBlank c = true)
    (hlast : lastIsCode true (scan .code (t ++ blanks)) = true) : Settles t :=
  marks_scan_feeds (endsWithLine_of_lastIsCode h hlast)

/-! ### Stretches that are read afresh -/

/-- Is the source read from the position on as if it began there? -/
def Restarts (src : Source) (i : Nat) : Prop := src.glyphs.drop i = scan .code (src.text.drop i)

theorem restarts_of_modeAfter {src : Source} {i : Nat} (hi : i ≤ src.text.length)
    (hsign : EndsSign (src.text.take i)) (hcode : modeAfter .code (src.text.take i) = .code) :
    src.Restarts i := by
  rw [Restarts, src.glyphs_eq_append hsign, hcode]
  exact List.drop_left' (by rw [length_scan, List.length_take, Nat.min_eq_left hi])

namespace Restarts

variable {src : Source} {a b : Nat} (h : src.Restarts a) (hab : a ≤ b) (hb : b ≤ src.text.length)

include h hab hb

/-- A stretch that what follows it does not change is read by itself. -/
theorem extract_and_drop {rest : List Glyph}
    (hread : scan .code (src.text.extract a b ++ src.text.drop b) =
      scan .code (src.text.extract a b) ++ rest) :
    src.glyphs.extract a b = scan .code (src.text.extract a b) ∧ src.glyphs.drop b = rest := by
  have hlength : (scan .code (src.text.extract a b)).length = b - a := by
    rw [length_scan, length_extract _ hab hb]
  have hall : src.glyphs.drop a = scan .code (src.text.extract a b) ++ rest := by
    rw [h, ← hread, List.extract_eq_take_drop, ← drop_drop_sub src.text hab, List.take_append_drop]
  constructor
  · rw [List.extract_eq_take_drop, hall]
    exact List.take_left' hlength
  · rw [← drop_drop_sub _ hab, hall]
    exact List.drop_left' hlength

/-- A stretch that ends with code, or that a line feed follows as code, is read by itself. The source
is read afresh behind it, and the end of the line closes it. -/
theorem extract_of_code_end (hend : (∃ c ∉ signStarts, src.glyphs[b - 1]? = some (code c) ∧ a < b) ∨
      src.glyphs[b]? = some (code '\n')) :
    src.glyphs.extract a b = scan .code (src.text.extract a b) ∧ src.Restarts b ∧
      ClosesLine (src.text.extract a b) := by
  rcases hend with ⟨c, hc, hglyph, hlt⟩ | hfeed
  · have hsign : EndsSign (src.text.extract a b) := by
      intro d hd
      rw [Option.mem_def, getLast?_extract hlt hb, src.getElem?_text, hglyph, Option.map_some,
        Option.some.injEq] at hd
      rwa [← hd]
    obtain ⟨hextract, hdrop⟩ := h.extract_and_drop hab hb (scan_append _ hsign)
    have hcode : modeAfter .code (src.text.extract a b) = .code := by
      apply modeAfter_eq_code
      rw [← hextract, lastIsCode, getLast?_extract hlt (by rwa [src.length_glyphs]), hglyph]
      rfl
    rw [hcode] at hdrop
    exact ⟨hextract, hdrop, closesLine_of_code hsign hcode⟩
  · obtain ⟨hlt, hchar⟩ := List.getElem?_eq_some_iff.mp
      (show src.text[b]? = some '\n' by rw [src.getElem?_text, hfeed]; rfl)
    have hdrop : src.text.drop b = '\n' :: src.text.drop (b + 1) := by
      rw [List.drop_eq_getElem_cons hlt, hchar]
    have hat : (scan .code (src.text.extract a b ++ '\n' :: src.text.drop (b + 1)))[
        (src.text.extract a b).length]? = some (code '\n') := by
      rw [← hdrop, List.extract_eq_take_drop, ← drop_drop_sub src.text hab, List.take_append_drop,
        ← h, ← List.extract_eq_take_drop, length_extract _ hab hb, List.getElem?_drop,
        Nat.add_sub_cancel' hab, hfeed]
    obtain ⟨hread, hcloses⟩ := closesLine_of_feed hat
    rw [← hdrop] at hread
    obtain ⟨hextract, hrest⟩ := h.extract_and_drop hab hb hread
    exact ⟨hextract, hrest, hcloses⟩

/-- A stretch that ends with a line feed is read by itself. -/
theorem extract_of_feed (hend : a < b → src.text[b - 1]? = some '\n') :
    src.glyphs.extract a b = scan .code (src.text.extract a b) := by
  refine (h.extract_and_drop hab hb (scan_append _ ?_)).1
  intro c hc
  rcases Nat.eq_or_lt_of_le hab with rfl | hlt
  · simp at hc
  · rw [Option.mem_def, getLast?_extract hlt hb, hend hlt, Option.some.injEq] at hc
    rw [← hc]
    decide

end Restarts

end Source

end MemberOrder
