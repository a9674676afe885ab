import MemberOrder.Proofs.Source.Reading
import MemberOrder.Source.Query

/-!
Queries at positions of a source. A query that ends inside the source, or at its end, looks at
nothing beyond it, so that it does not fail, and answers as the function does that asks the same of
positions known to be there.
-/

set_option autoImplicit false

namespace MemberOrder.Source

variable {src : Source} {start stop : Nat}

theorem stretch_eq (h : stop ≤ src.length) :
    src.stretch start stop = src.glyphs.extract start stop := by
  have hbelow : (src.length + min (stop : Int) 0).toNat ≤
      (src.length + max (start : Int) (-src.length)).toNat := by omega
  have hend : (min (stop : Int) src.length).toNat = stop := by omega
  have hbegin : (max (start : Int) 0).toNat = start := by omega
  unfold stretch
  simp only [hend, hbegin]
  rw [List.extract_eq_take_drop, Nat.sub_eq_zero_of_le hbelow, List.take_zero, List.nil_append]

theorem overruns_eq_false (start : Int) (h : stop ≤ src.length) :
    src.overruns start stop = false := by
  simp [overruns, h]

theorem underruns_eq_false (start : Nat) (stop : Int) : src.underruns start stop = false := by
  have hstart : ¬ (start : Int) < -(src.length : Int) := by omega
  simp [underruns, hstart]

theorem isCodeQuery_eq (src : Source) (i : Nat) : src.isCodeQuery i = src.isCodeAt i := by
  simp [isCodeQuery]

theorem matchingClose?_eq (src : Source) (opening closing : Text) (i : Nat) :
    src.matchingClose? opening closing i = src.closeOf? opening closing i := by
  simp [matchingClose?]

theorem rangeIsCode_eq (h : stop ≤ src.length) :
    src.rangeIsCode start stop = src.isCodeBetween start stop := by
  by_cases hempty : stop ≤ start
  · have hnone : src.glyphs.extract start stop = [] := by
      rw [List.extract_eq_take_drop, Nat.sub_eq_zero_of_le hempty, List.take_zero]
    simp [rangeIsCode, isCodeBetween, hempty, hnone]
  · simp [rangeIsCode, hempty, h]

theorem rangeIsMute_eq (h : stop ≤ src.length) :
    src.rangeIsMute start stop = .ok ((src.glyphs.extract start stop).all (!·.isSolid)) := by
  have hend : (min (stop : Int) src.length).toNat = stop := by omega
  have hbegin : (max (start : Int) 0).toNat = start := by omega
  unfold rangeIsMute
  rw [underruns_eq_false, overruns_eq_false _ h, hend, hbegin, List.all_eq_not_any_not]
  cases hany : (src.glyphs.extract start stop).any (·.isSolid) <;> simp [hany]

theorem depthBetween_eq (h : stop ≤ src.length) :
    src.depthBetween start stop = .ok (src.braceDepth start stop) := by
  simp [depthBetween, underruns_eq_false, overruns_eq_false _ h, stretch_eq h, braceDepth]

theorem nextCode?_eq (characters : Text) (h : stop ≤ src.length) :
    src.nextCode? characters start stop =
      .ok ((src.firstCode? characters start stop).map Int.ofNat) := by
  unfold nextCode? firstCode?
  rw [underruns_eq_false, overruns_eq_false _ h, stretch_eq h]
  cases (src.glyphs.extract start stop).findIdx? fun g ↦ g.isCode && characters.contains g.char <;>
    simp

theorem previousSolid?_eq (h : stop ≤ src.length) :
    src.previousSolid? start stop = .ok (src.lastSolid? start stop) := by
  unfold previousSolid? lastSolid?
  rw [underruns_eq_false, overruns_eq_false _ h, stretch_eq h]
  cases (src.glyphs.extract start stop).reverse.find? (·.isSolid) <;> simp

end MemberOrder.Source
