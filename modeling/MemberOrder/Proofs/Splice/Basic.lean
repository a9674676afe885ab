import MemberOrder.Proofs.Declaration.Locality
import MemberOrder.Proofs.Layout.Sweep
import MemberOrder.Proofs.Layout.Tiling
import MemberOrder.Proofs.Source.Nesting

/-!
A piece of a class body, put behind the opening brace and in front of the rest of the body. Three
sources have the opening in common: the whole one has the piece and the rest, the other two have the
piece alone and the rest alone. The whole one agrees with the piece alone up to the line feed behind
the piece, and from there on with the rest alone, shifted by the length of the piece.

A piece is sealed if nothing in it goes on behind it: its delimiters are balanced, no head is left
open, it ends a statement or block, and no line at its end could lead what comes behind it. Then the
searches for heads in the whole source find those of the piece and, shifted, those of the rest.
-/

set_option autoImplicit false

namespace MemberOrder

/-- The words that make a head with what follows them, also on the next line. -/
def unfinishedWords : List Text := ["class", "interface", "enum", "static"].map String.toList

namespace ClassBody

/-- All that the search for methods finds in the body. -/
def findings (src : Source) (body : ClassBody) : List Finding :=
  body.members src (body.skippedRegions src)

def methods (src : Source) (body : ClassBody) : List Method :=
  (body.findings src).filterMap Finding.method?

/-- Where the last method of the class ends, or the body begins if it has none. -/
def lastStop (src : Source) (body : ClassBody) : Nat :=
  ((body.methods src).getLast?.map Method.stop).getD (body.openBrace + 1)

/-- The content of the body, up to the line feed before its closing brace, leaves nothing open. -/
structure Sealed (src : Source) (body : ClassBody) : Prop where
  opens : src.glyphs[body.openBrace]? = some (Glyph.code '\x7b')
  feed : src.glyphs[body.closeBrace - 1]? = some (Glyph.code '\n')
  braces : Source.Balanced ['\x7b'] ['\x7d']
    (src.glyphs.extract (body.openBrace + 1) body.closeBrace)
  parentheses : Source.Balanced ['('] [')']
    (src.glyphs.extract (body.openBrace + 1) body.closeBrace)
  headers : ∀ header ∈ TypeHeader.allBetween src.text (body.openBrace + 1) body.closeBrace,
    src.isCodeBetween header.start header.stop →
      (src.firstCode? ['\x7b', ';'] header.stop body.closeBrace).isSome
  words : ∀ word ∈ unfinishedWords,
    Text.endsInWord word (src.text.extract (body.openBrace + 1) body.closeBrace) = false
  boundary : (src.lastSolid? body.openBrace body.closeBrace).any isBoundary
  leading : src.leadingLines
    (leadingFloor (body.skippedRegions src) (body.lastStop src) body.closeBrace)
      body.closeBrace = []

instance (src : Source) (body : ClassBody) : Decidable (body.Sealed src) :=
  decidable_of_iff
    (src.glyphs[body.openBrace]? = some (Glyph.code '\x7b') ∧
      src.glyphs[body.closeBrace - 1]? = some (Glyph.code '\n') ∧
      Source.Balanced ['\x7b'] ['\x7d']
        (src.glyphs.extract (body.openBrace + 1) body.closeBrace) ∧
      Source.Balanced ['('] [')'] (src.glyphs.extract (body.openBrace + 1) body.closeBrace) ∧
      (∀ header ∈ TypeHeader.allBetween src.text (body.openBrace + 1) body.closeBrace,
        src.isCodeBetween header.start header.stop →
          (src.firstCode? ['\x7b', ';'] header.stop body.closeBrace).isSome) ∧
      (∀ word ∈ unfinishedWords,
        Text.endsInWord word (src.text.extract (body.openBrace + 1) body.closeBrace) = false) ∧
      (src.lastSolid? body.openBrace body.closeBrace).any isBoundary ∧
      src.leadingLines
        (leadingFloor (body.skippedRegions src) (body.lastStop src) body.closeBrace)
          body.closeBrace = [])
    ⟨fun ⟨h₁, h₂, h₃, h₄, h₅, h₆, h₇, h₈⟩ ↦ ⟨h₁, h₂, h₃, h₄, h₅, h₆, h₇, h₈⟩,
      fun ⟨h₁, h₂, h₃, h₄, h₅, h₆, h₇, h₈⟩ ↦ ⟨h₁, h₂, h₃, h₄, h₅, h₆, h₇, h₈⟩⟩

end ClassBody

/-- The source `whole` is `alone` up to the line feed behind a piece of length `w`, which follows
the brace at `o`, and from that line feed on it is `rest` from behind the brace on. -/
structure Spliced (whole alone rest : Source) (o w : Nat) : Prop where
  front : whole.AgreesUpTo (o + w + 2) alone
  back : whole.AgreesFrom (o + 1) w rest
  opens : rest.glyphs[o]? = some (Glyph.code '\x7b')

namespace Spliced

variable {whole alone rest : Source} {name : Text} {o w c : Nat}
  (h : Spliced whole alone rest o w) (hsealed : ClassBody.Sealed alone ⟨name, o, o + w + 2⟩)

include hsealed

theorem alone_feed : alone.glyphs[o + w + 1]? = some (Glyph.code '\n') := hsealed.feed

theorem alone_length : o + w + 1 < alone.text.length := by
  rw [← alone.length_glyphs]
  exact (List.getElem?_eq_some_iff.mp (alone_feed hsealed)).1

theorem alone_extract : alone.text.extract (o + 1) (o + w + 2) =
    alone.text.extract (o + 1) (o + w + 1) ++ ['\n'] := by
  have hfeed : alone.text[o + w + 1]? = some '\n' := by
    rw [← alone.map_char_glyphs, List.getElem?_map, alone_feed hsealed]
    rfl
  exact extract_eq_concat hfeed (by omega)

theorem piece_length : (alone.text.extract (o + 1) (o + w + 1)).length = w := by
  have hlength := alone_length hsealed
  rw [length_extract _ (by omega) (by omega)]
  omega

include h

theorem rest_feed : rest.glyphs[o + 1]? = some (Glyph.code '\n') := by
  rw [← h.back.getElem? (Nat.le_refl _), show o + 1 + w = o + w + 1 by omega,
    h.front.getElem? (by omega), alone_feed hsealed]

/-- The text of the body: the piece, the line feed, and what follows it. -/
theorem exists_text_eq (hc : o + 1 < c) :
    ∃ z, rest.text.extract (o + 1) c = '\n' :: z ∧
      whole.text.extract (o + 1) (c + w) = alone.text.extract (o + 1) (o + w + 1) ++ '\n' :: z := by
  have hfeed : rest.text[o + 1]? = some '\n' := by
    rw [← rest.map_char_glyphs, List.getElem?_map, h.rest_feed hsealed]
    rfl
  have hcons := extract_eq_cons hfeed hc
  refine ⟨rest.text.extract (o + 2) c, hcons, ?_⟩
  rw [← extract_append_extract whole.text (show o + 1 ≤ o + w + 1 by omega)
    (show o + w + 1 ≤ c + w by omega), h.front.text_extract (by omega), ← hcons,
    ← h.back.text_extract c (Nat.le_refl _), show o + 1 + w = o + w + 1 by omega]

end Spliced

/-! ### Heads in the piece and in the rest -/

/-- Recognition at a place of the text does not look behind the line feed that follows the text, and
goes by the text alone but for the position it is told. -/
structure Text.Contained {α : Type} (recognise : Nat → Text → Option α) (moved : Nat → α → α)
    (t : Text) : Prop where
  inside : ∀ s, s <:+ t → s ≠ [] → ∀ p z, recognise p (s ++ '\n' :: z) = recognise p s
  feed : ∀ p z, recognise p ('\n' :: z) = none
  shift : ∀ shift p s, recognise (p + shift) s = (recognise p s).map (moved shift)

namespace Spliced

section Searches

variable {whole alone rest : Source} {name : Text} {o w c : Nat} {α : Type}
  {begins : Option Char → Bool} {recognise : Nat → Text → Option α} {moved : Nat → α → α}
  (h : Spliced whole alone rest o w) (hsealed : ClassBody.Sealed alone ⟨name, o, o + w + 2⟩)
  (hcontained : Text.Contained recognise moved (alone.text.extract (o + 1) (o + w + 1)))

include hsealed hcontained

theorem alone_findBetween : alone.text.findBetween begins recognise (o + 1) (o + w + 2) =
    Text.findAll begins recognise alone.text[o]? (o + 1)
      (alone.text.extract (o + 1) (o + w + 1)) := by
  unfold Text.findBetween
  rw [alone_extract hsealed, Text.charBefore?_succ, Text.findAll_append_lineFeed
    hcontained.inside hcontained.feed hcontained.shift _ none, Text.findAll, hcontained.feed]
  simp [Text.findAll]

/-- What is found in the piece alone is recognised by the piece alone. -/
theorem exists_of_mem_alone {x : α}
    (hx : x ∈ alone.text.findBetween begins recognise (o + 1) (o + w + 2)) :
    ∃ p s, o + 1 ≤ p ∧ p < o + w + 1 ∧ p + s.length = o + w + 1 ∧ recognise p s = some x := by
  rw [alone_findBetween hsealed hcontained] at hx
  obtain ⟨i, hi, -, hrecognise⟩ := Text.exists_of_mem_findAll hx
  have hlength := piece_length hsealed
  refine ⟨_, _, by omega, by omega, ?_, hrecognise⟩
  rw [List.length_drop]
  omega

include h

theorem findBetween_eq (hc : o + 1 < c) :
    whole.text.findBetween begins recognise (o + 1) (c + w) =
      alone.text.findBetween begins recognise (o + 1) (o + w + 2) ++
        (rest.text.findBetween begins recognise (o + 1) c).map (moved w) := by
  obtain ⟨z, hrest, hwhole⟩ := h.exists_text_eq hsealed hc
  rw [alone_findBetween hsealed hcontained]
  unfold Text.findBetween
  rw [hrest, hwhole, Text.charBefore?_succ, h.front.text_getElem? (by omega),
    Text.findAll_append_lineFeed hcontained.inside hcontained.feed hcontained.shift _
      (rest.text.charBefore? (o + 1)), piece_length hsealed]

/-- What is found in the rest starts behind its first line feed. -/
theorem exists_of_mem_rest (hc : o + 1 < c) {x : α}
    (hx : x ∈ rest.text.findBetween begins recognise (o + 1) c) :
    ∃ p s, o + 2 ≤ p ∧ p < c ∧ recognise p s = some x := by
  obtain ⟨z, hrest, -⟩ := h.exists_text_eq hsealed hc
  obtain ⟨p, hp, hpc, -, hrecognise⟩ := Text.exists_of_mem_findBetween hx
  refine ⟨p, _, ?_, hpc, hrecognise⟩
  rcases Nat.lt_or_ge (o + 1) p with hlt | hge
  · exact hlt
  · rw [show p = o + 1 by omega, hrest, hcontained.feed] at hrecognise
    cases hrecognise

end Searches

variable {alone : Source} {name : Text} {o w : Nat}
  (hsealed : ClassBody.Sealed alone ⟨name, o, o + w + 2⟩)

include hsealed

theorem not_endsInWord {word : Text} (hword : word ∈ unfinishedWords) :
    Text.endsInWord word (alone.text.extract (o + 1) (o + w + 1)) = false := by
  have hfalse := hsealed.words word hword
  simp only [alone_extract hsealed, Text.endsInWord] at hfalse
  rwa [Text.trimRight_append_blanks _ (List.all_eq_true.mp (by decide))] at hfalse

theorem contained_header : Text.Contained TypeHeader.at? TypeHeader.moved
    (alone.text.extract (o + 1) (o + w + 1)) where
  inside s hs _ p z := TypeHeader.at?_append_lineFeed
    (fun kind ↦ not_endsInWord hsealed (by cases kind <;> decide)) hs p z
  feed := TypeHeader.at?_lineFeed
  shift := TypeHeader.at?_add

theorem contained_static : Text.Contained InitializerHead.static? InitializerHead.moved
    (alone.text.extract (o + 1) (o + w + 1)) where
  inside s hs _ p z := InitializerHead.static?_append_lineFeed
    (not_endsInWord hsealed (by decide)) hs p z
  feed := InitializerHead.static?_lineFeed
  shift := InitializerHead.static?_add

omit hsealed

theorem contained_instance (t : Text) :
    Text.Contained InitializerHead.instance? InitializerHead.moved t where
  inside s _ _ p z := InitializerHead.instance?_append_lineFeed s p z
  feed := InitializerHead.instance?_lineFeed
  shift := InitializerHead.instance?_add

theorem contained_method (t : Text) : Text.Contained MethodHead.at? MethodHead.moved t where
  inside s _ _ p z := MethodHead.at?_append_lineFeed s p z
  feed := MethodHead.at?_lineFeed
  shift := MethodHead.at?_add

end Spliced

end MemberOrder
