import MemberOrder.Proofs.Files.System
import MemberOrder.Proofs.Text.Utf8

/-!
The bytes of paths. A byte below 128 comes from its own character and from no other, so that the
bytes of a path are cut at slashes where the path is, and a path with the extension of a Java file
ends, as bytes, with a name that has it.
-/

set_option autoImplicit false

namespace MemberOrder

namespace Utf8

theorem encode_singleton (c : Char) : encode [c] = (encodeNat c.toNat).map UInt8.ofNat := by
  simp [encode]

theorem encode_cons (c : Char) (t : Text) : encode (c :: t) = encode [c] ++ encode t := by
  simp [encode]

/-- A byte below 128 is written for its own character only. -/
theorem toNat_eq_of_mem_encode {c : Char} {b : UInt8} (hb : b ∈ encode [c])
    (hsmall : b.toNat < 0x80) : c.toNat = b.toNat := by
  rw [encode_singleton, List.mem_map] at hb
  obtain ⟨n, hn, rfl⟩ := hb
  have hvalid : c.toNat < 0xd800 ∨ 0xdfff < c.toNat ∧ c.toNat < 0x110000 := c.valid
  unfold encodeNat at hn
  split_ifs at hn <;> simp only [List.mem_cons, List.not_mem_nil, or_false] at hn <;>
    rw [toNat_ofNat (by omega)] at hsmall ⊢ <;> omega

theorem encode_singleton_ne_nil (c : Char) : encode [c] ≠ [] := by
  rw [encode_singleton, ne_eq, List.map_eq_nil_iff, encodeNat]
  split_ifs <;> simp

end Utf8

namespace RawChar

variable {c : RawChar} {bytes : List UInt8}

theorem eq_scalar_of_mem_bytes (h : c.bytes? = some bytes) {b : UInt8} (hb : b ∈ bytes)
    (hsmall : b.toNat < 0x80) : ∃ d, c = .scalar d ∧ d.toNat = b.toNat := by
  cases c with
  | scalar d =>
    cases h
    exact ⟨d, rfl, Utf8.toNat_eq_of_mem_encode hb hsmall⟩
  | surrogate n =>
    simp only [bytes?] at h
    split_ifs at h with hn
    cases h
    rw [List.mem_singleton] at hb
    subst hb
    rw [Utf8.toNat_ofNat (by omega)] at hsmall
    omega

theorem ne_nil_of_bytes? (h : c.bytes? = some bytes) : bytes ≠ [] := by
  cases c with
  | scalar d =>
    cases h
    exact Utf8.encode_singleton_ne_nil d
  | surrogate n =>
    simp only [bytes?] at h
    split_ifs at h
    cases h
    exact List.cons_ne_nil _ _

end RawChar

namespace Path

variable {position : Nat} {t u path : RawText} {bytes : List UInt8}

theorem encodeFrom_cons_eq_ok {c : RawChar} (h : encodeFrom position (c :: t) = .ok bytes) :
    ∃ first rest, bytes = first ++ rest ∧ c.bytes? = some first ∧
      encodeFrom (position + 1) t = .ok rest := by
  rw [encodeFrom] at h
  split at h
  · rename_i first hfirst
    cases hrest : encodeFrom (position + 1) t with
    | error e => simp [hrest, Except.map] at h
    | ok rest =>
      rw [hrest] at h
      cases h
      exact ⟨first, rest, rfl, hfirst, rfl⟩
  · cases h

theorem encodeFrom_append_eq_ok (h : encodeFrom position (t ++ u) = .ok bytes) :
    ∃ first rest, bytes = first ++ rest ∧ encodeFrom position t = .ok first ∧
      encodeFrom (position + t.length) u = .ok rest := by
  induction t generalizing position bytes with
  | nil => exact ⟨[], bytes, rfl, rfl, h⟩
  | cons c t ih =>
    obtain ⟨first, rest, rfl, hfirst, h⟩ := encodeFrom_cons_eq_ok h
    obtain ⟨middle, last, rfl, hmiddle, hlast⟩ := ih h
    refine ⟨first ++ middle, last, (List.append_assoc ..).symm, ?_, ?_⟩
    · rw [encodeFrom, hfirst, hmiddle]
      rfl
    · rwa [List.length_cons, Nat.add_comm t.length, ← Nat.add_assoc]

/-- Every byte of a path comes from a character of it, and every character gives its bytes. -/
theorem mem_iff_of_encodeFrom (h : encodeFrom position t = .ok bytes) {b : UInt8} :
    b ∈ bytes ↔ ∃ c ∈ t, ∃ own, c.bytes? = some own ∧ b ∈ own := by
  induction t generalizing position bytes with
  | nil =>
    cases h
    simp
  | cons c t ih =>
    obtain ⟨first, rest, rfl, hfirst, h⟩ := encodeFrom_cons_eq_ok h
    rw [List.mem_append, ih h, List.exists_mem_cons_iff]
    simp [hfirst]

theorem exists_encodeFrom_iff :
    (∃ bytes, encodeFrom position t = .ok bytes) ↔ ∀ c ∈ t, c.bytes?.isSome = true := by
  induction t generalizing position with
  | nil => exact iff_of_true ⟨[], rfl⟩ fun _ hc ↦ absurd hc List.not_mem_nil
  | cons c t ih =>
    rw [List.forall_mem_cons, ← @ih (position + 1), encodeFrom]
    cases c.bytes? with
    | none => simp
    | some own => cases encodeFrom (position + 1) t <;> simp [Except.map]

/-- A text has the bytes of its encoding. -/
theorem encodeFrom_ofText (position : Nat) (t : Text) :
    encodeFrom position (.ofText t) = .ok (Utf8.encode t) := by
  induction t generalizing position with
  | nil => rfl
  | cons c t ih =>
    rw [RawText.ofText_cons, encodeFrom, RawChar.bytes?]
    simp only [ih]
    exact congrArg Except.ok (Utf8.encode_cons c t).symm

/-- A byte below 128 stands among the bytes of a path exactly where its character stands in it. -/
theorem mem_bytes_iff (h : encodeFrom position t = .ok bytes) {d : Char} (hd : d.toNat < 0x80) :
    UInt8.ofNat d.toNat ∈ bytes ↔ .scalar d ∈ t := by
  rw [mem_iff_of_encodeFrom h]
  constructor
  · rintro ⟨c, hc, own, hown, hb⟩
    have hsmall : (UInt8.ofNat d.toNat).toNat = d.toNat := Utf8.toNat_ofNat (by omega)
    obtain ⟨d', rfl, hd'⟩ := RawChar.eq_scalar_of_mem_bytes hown hb (by omega)
    rwa [← Char.toNat_inj.mp (hd'.trans hsmall)]
  · intro hc
    refine ⟨_, hc, _, rfl, ?_⟩
    rw [Utf8.encode_singleton, Utf8.encodeNat, if_pos hd]
    exact List.mem_singleton.mpr rfl

/-! ### Java files -/

theorem takeWhile_reverse_of_not_mem {before ending : RawText} (h : point ∉ ending) :
    (before ++ point :: ending).reverse.takeWhile (· != point) = ending.reverse := by
  have hall : ∀ c ∈ ending.reverse, (c != point) = true := by
    intro c hc
    rw [bne_iff_ne]
    rintro rfl
    exact h (List.mem_reverse.mp hc)
  rw [List.reverse_append, List.reverse_cons, List.append_assoc,
    List.takeWhile_append_of_pos hall]
  simp

/-- A path of a Java file ends with a name that has something other than points before the
extension. -/
theorem exists_of_isJava (h : isJava path = true) :
    ∃ front stem, path = front ++ (stem ++ .ofString javaExtension) ∧
      slash ∉ stem ++ RawText.ofString javaExtension ∧
      (front = [] ∨ front.getLast? = some slash) ∧ ∃ c ∈ stem, c ≠ point := by
  obtain ⟨front, name, rfl, hname, hfront⟩ := Text.exists_eq_append_piece slash path
  rw [isJava, extension, Text.lastPiece_append hname hfront, beq_iff_eq] at h
  obtain ⟨before, ending, rfl, hending, rfl | hlast⟩ := Text.exists_eq_append_piece point name
  · rw [List.nil_append, if_neg (by simp [hending])] at h
    cases h
  · obtain ⟨stem, rfl⟩ := List.getLast?_eq_some_iff.mp hlast
    rw [List.append_assoc, List.singleton_append] at h hname ⊢
    simp only [takeWhile_reverse_of_not_mem hending, List.reverse_reverse] at h
    rw [show (stem ++ point :: ending).length - ending.length - 1 = stem.length by
      simp only [List.length_append, List.length_cons]; omega, List.take_left] at h
    split_ifs at h with hpoints
    · rw [h] at hname ⊢
      rw [Bool.and_eq_true, List.any_eq_true] at hpoints
      obtain ⟨-, c, hc, hne⟩ := hpoints
      exact ⟨front, stem, rfl, hname, hfront, c, hc, bne_iff_ne.mp hne⟩
    · cases h

/-- The name has the extension of a Java file. -/
def IsJavaName (name : FileName) : Prop :=
  ∃ stem, name = stem ++ Utf8.encode javaExtension.toList ∧ ∃ b ∈ stem, b ≠ 0x2e

/-- As bytes, the last component of a path of a Java file has the extension. -/
theorem exists_pieces_of_isJava (hjava : isJava path = true) (h : encode path = .ok bytes) :
    ∃ others name, Text.pieces FileSystem.slash bytes = others ++ [name] ∧ IsJavaName name := by
  obtain ⟨front, stem, rfl, hslash, hfront, c, hc, hne⟩ := exists_of_isJava hjava
  obtain ⟨first, name, rfl, hfirst, hname⟩ := encodeFrom_append_eq_ok h
  obtain ⟨start, ending, rfl, hstart, hending⟩ := encodeFrom_append_eq_ok hname
  have hlast : first = [] ∨ first.getLast? = some FileSystem.slash := by
    rcases hfront with rfl | hfront
    · cases hfirst
      exact Or.inl rfl
    · obtain ⟨before, rfl⟩ := List.getLast?_eq_some_iff.mp hfront
      obtain ⟨bytes, last, rfl, -, hlast⟩ := encodeFrom_append_eq_ok hfirst
      cases hlast
      exact Or.inr List.getLast?_concat
  have hwhole : FileSystem.slash ∉ start ++ ending := fun hmem ↦
    hslash ((mem_bytes_iff hname (d := '/') (by decide)).mp hmem)
  obtain ⟨others, hothers⟩ := Text.exists_pieces_append hwhole hlast
  refine ⟨others, _, hothers, start, ?_, ?_⟩
  · rw [RawText.ofString, encodeFrom_ofText, Except.ok.injEq] at hending
    rw [hending]
  · -- A character other than the point has a byte that is none.
    obtain ⟨own, hown⟩ :=
      Option.isSome_iff_exists.mp (exists_encodeFrom_iff.mp ⟨start, hstart⟩ c hc)
    obtain ⟨b, hb⟩ := List.exists_mem_of_ne_nil own (RawChar.ne_nil_of_bytes? hown)
    refine ⟨b, (mem_iff_of_encodeFrom hstart).mpr ⟨c, hc, own, hown, hb⟩, ?_⟩
    rintro rfl
    obtain ⟨d, rfl, hd⟩ := RawChar.eq_scalar_of_mem_bytes hown hb (by decide)
    exact hne (congrArg RawChar.scalar (Char.toNat_inj.mp (hd.trans rfl)))

end Path

/-- A path of a Java file leads to a node that is called so. -/
theorem FileSystem.called_of_isJava {fs : FileSystem} {path : RawText} {bytes : List UInt8}
    {i : Inode} (hjava : Path.isJava path = true) (hbytes : Path.encode path = .ok bytes)
    (h : fs.resolve bytes = .ok (.found i)) : ∃ name, Path.IsJavaName name ∧ fs.Called name i := by
  obtain ⟨others, name, hpieces, hname⟩ := Path.exists_pieces_of_isJava hjava hbytes
  have hlong : 5 < name.length := by
    obtain ⟨stem, rfl, b, hb, -⟩ := hname
    have hstem := List.length_pos_of_mem hb
    have hextension : (Utf8.encode Path.javaExtension.toList).length = 5 := by decide +kernel
    rw [List.length_append, hextension]
    omega
  refine ⟨name, hname, called_of_resolve ?_ ?_ ?_ hpieces h⟩ <;> rintro rfl <;>
    exact absurd hlong (by decide)

end MemberOrder
