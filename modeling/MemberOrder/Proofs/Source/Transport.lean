import MemberOrder.Proofs.Source.Modes
import MemberOrder.Source.Query

/-!
Sources that read alike. Two sources may agree up to a position, or from a position on with the one
shifted against the other; every query about a source that looks nowhere else has the same answer,
or the shifted one.
-/

set_option autoImplicit false

namespace MemberOrder.Source

variable {src other : Source}

/-- Both sources read alike before `n`. -/
def AgreesUpTo (n : Nat) (src other : Source) : Prop := src.glyphs.take n = other.glyphs.take n

/-- From `start + shift` on the source reads as the other does from `start` on. -/
def AgreesFrom (start shift : Nat) (src other : Source) : Prop :=
  src.glyphs.drop (start + shift) = other.glyphs.drop start

namespace AgreesUpTo

variable {n : Nat} (h : AgreesUpTo n src other)

include h

theorem mono {m : Nat} (hm : m ≤ n) : AgreesUpTo m src other := by
  have heq := congrArg (List.take m) h
  rwa [List.take_take, List.take_take, Nat.min_eq_left hm] at heq

theorem getElem? {i : Nat} (hi : i < n) : src.glyphs[i]? = other.glyphs[i]? := by
  rw [← List.getElem?_take_of_lt hi, h, List.getElem?_take_of_lt hi]

theorem extract {a b : Nat} (hb : b ≤ n) : src.glyphs.extract a b = other.glyphs.extract a b := by
  rw [List.extract_eq_take_drop, List.extract_eq_take_drop, List.take_drop, List.take_drop]
  have hcut : (src.glyphs.take (a + (b - a))) = other.glyphs.take (a + (b - a)) ∨ b < a := by
    rcases Nat.lt_or_ge b a with hlt | hge
    · exact Or.inr hlt
    · exact Or.inl (h.mono (by omega))
  rcases hcut with heq | hlt
  · rw [heq]
  · rw [Nat.sub_eq_zero_of_le (Nat.le_of_lt hlt), Nat.add_zero, List.drop_take, List.drop_take,
      Nat.sub_self, List.take_zero, List.take_zero]

theorem text_getElem? {i : Nat} (hi : i < n) : src.text[i]? = other.text[i]? := by
  rw [← src.map_char_glyphs, ← other.map_char_glyphs, List.getElem?_map, List.getElem?_map,
    h.getElem? hi]

theorem text_extract {a b : Nat} (hb : b ≤ n) : src.text.extract a b = other.text.extract a b := by
  rw [← map_char_extract, ← map_char_extract, h.extract hb]

theorem text_take {i : Nat} (hi : i ≤ n) : src.text.take i = other.text.take i := by
  rw [← src.map_char_glyphs, ← other.map_char_glyphs, ← List.map_take, ← List.map_take,
    h.mono hi]

theorem isCodeAt {i : Nat} (hi : i < n) : src.isCodeAt i = other.isCodeAt i := by
  unfold Source.isCodeAt
  rw [h.getElem? hi]

theorem isCodeBetween {a b : Nat} (hb : b ≤ n) :
    src.isCodeBetween a b = other.isCodeBetween a b := by
  unfold Source.isCodeBetween
  rw [h.extract hb]

theorem lastSolid? {a b : Nat} (hb : b ≤ n) : src.lastSolid? a b = other.lastSolid? a b := by
  unfold Source.lastSolid?
  rw [h.extract hb]

theorem braceDepth {a b : Nat} (hb : b ≤ n) : src.braceDepth a b = other.braceDepth a b := by
  unfold Source.braceDepth
  rw [h.extract hb]

theorem calledNames {a b : Nat} (ha : a ≤ n) (hb : b ≤ n) :
    src.calledNames a b = other.calledNames a b := by
  unfold Source.calledNames
  rw [h.extract hb]
  cases a with
  | zero => rfl
  | succ i => simp only [h.getElem? (Nat.lt_of_succ_le ha)]

theorem leadingLines {floor start : Nat} (hfloor : floor ≤ n) (hstart : start ≤ n) :
    src.leadingLines floor start = other.leadingLines floor start := by
  unfold Source.leadingLines
  rw [h.extract hstart]
  cases floor with
  | zero => rfl
  | succ i => simp only [h.text_getElem? (Nat.lt_of_succ_le hfloor)]

/-- What is found before `n` is found there, however far the search may go. -/
theorem firstCode? {characters : Text} {a b i : Nat} (hb : n ≤ b)
    (hfound : other.firstCode? characters a n = some i) :
    src.firstCode? characters a b = some i ∧ a ≤ i ∧ i < n := by
  unfold Source.firstCode? at hfound ⊢
  obtain ⟨j, hj, rfl⟩ := Option.map_eq_some_iff.mp hfound
  obtain ⟨hlt, -, -⟩ := List.findIdx?_eq_some_iff_getElem.mp hj
  rw [List.extract_eq_take_drop, List.length_take] at hlt
  rw [← extract_append_extract src.glyphs (show a ≤ n by omega) hb, h.extract (Nat.le_refl n),
    List.findIdx?_append, hj]
  exact ⟨rfl, Nat.le_add_right a j, by omega⟩

end AgreesUpTo

namespace AgreesFrom

variable {start shift : Nat} (h : AgreesFrom start shift src other)

include h

theorem drop {i : Nat} (hi : start ≤ i) : src.glyphs.drop (i + shift) = other.glyphs.drop i := by
  have heq := congrArg (List.drop (i - start)) h
  rw [List.drop_drop, List.drop_drop] at heq
  rwa [show start + shift + (i - start) = i + shift by omega,
    show start + (i - start) = i by omega] at heq

theorem getElem? {i : Nat} (hi : start ≤ i) : src.glyphs[i + shift]? = other.glyphs[i]? := by
  rw [← List.head?_drop, ← List.head?_drop, h.drop hi]

theorem extract {a : Nat} (b : Nat) (ha : start ≤ a) :
    src.glyphs.extract (a + shift) (b + shift) = other.glyphs.extract a b := by
  rw [List.extract_eq_take_drop, List.extract_eq_take_drop, h.drop ha,
    show b + shift - (a + shift) = b - a by omega]

theorem text_getElem? {i : Nat} (hi : start ≤ i) : src.text[i + shift]? = other.text[i]? := by
  rw [← src.map_char_glyphs, ← other.map_char_glyphs, List.getElem?_map, List.getElem?_map,
    h.getElem? hi]

theorem text_extract {a : Nat} (b : Nat) (ha : start ≤ a) :
    src.text.extract (a + shift) (b + shift) = other.text.extract a b := by
  rw [← map_char_extract, ← map_char_extract, h.extract b ha]

theorem isCodeAt {i : Nat} (hi : start ≤ i) : src.isCodeAt (i + shift) = other.isCodeAt i := by
  unfold Source.isCodeAt
  rw [h.getElem? hi]

theorem isCodeBetween {a : Nat} (b : Nat) (ha : start ≤ a) :
    src.isCodeBetween (a + shift) (b + shift) = other.isCodeBetween a b := by
  unfold Source.isCodeBetween
  rw [h.extract b ha]

theorem firstCode? (characters : Text) {a : Nat} (b : Nat) (ha : start ≤ a) :
    src.firstCode? characters (a + shift) (b + shift) =
      (other.firstCode? characters a b).map (· + shift) := by
  unfold Source.firstCode?
  rw [h.extract b ha, Option.map_map]
  congr 1
  funext i
  simp only [Function.comp_apply]
  omega

theorem closeOf? (opening closing : Text) {i : Nat} (hi : start ≤ i) :
    src.closeOf? opening closing (i + shift) =
      (other.closeOf? opening closing i).map (· + shift) := by
  unfold Source.closeOf?
  rw [h.drop hi]
  cases other.glyphs.drop i with
  | nil => rfl
  | cons g rest =>
    simp only
    split_ifs
    · rw [Option.map_map]
      congr 1
      funext j
      simp only [Function.comp_apply]
      omega
    · rfl

theorem calledNames {a : Nat} (b : Nat) (ha : start < a) :
    src.calledNames (a + shift) (b + shift) = other.calledNames a b := by
  unfold Source.calledNames
  rw [h.extract b (Nat.le_of_lt ha)]
  obtain ⟨i, rfl⟩ : ∃ i, a = i + 1 := ⟨a - 1, by omega⟩
  rw [show i + 1 + shift = i + shift + 1 by omega]
  simp only [h.getElem? (Nat.le_of_lt_succ ha)]

theorem leadingLines {floor : Nat} (i : Nat) (hfloor : start < floor) :
    src.leadingLines (floor + shift) (i + shift) = other.leadingLines floor i := by
  unfold Source.leadingLines
  rw [h.extract i (Nat.le_of_lt hfloor)]
  obtain ⟨j, rfl⟩ : ∃ j, floor = j + 1 := ⟨floor - 1, by omega⟩
  rw [show j + 1 + shift = j + shift + 1 by omega]
  simp only [h.text_getElem? (Nat.le_of_lt_succ hfloor)]

end AgreesFrom

end MemberOrder.Source
