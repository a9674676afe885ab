import MemberOrder.Proofs.Document.Files
import MemberOrder.Proofs.Rearrange.Safety

/-!
What is told of documents. Reading a document fails untold only where its path is one that the
system cannot be asked for. A document that was read has a path that can be written to, if the
system lets it, and its text can always be rearranged, so nothing fails untold behind that.
-/

set_option autoImplicit false

namespace MemberOrder

/-- Nothing goes wrong untold: there is a result, or the error is one that is reported. -/
def Told {ε α : Type} (isReported : ε → Bool) : Except ε α → Prop
  | .ok _ => True
  | .error e => isReported e = true

instance {ε α : Type} (isReported : ε → Bool) (result : Except ε α) :
    Decidable (Told isReported result) :=
  match result with
  | .ok _ => isTrue trivial
  | .error e => inferInstanceAs (Decidable (isReported e = true))

section Told

variable {ε ε' α β : Type} {isReported : ε → Bool}

@[simp] theorem told_ok (a : α) : Told isReported (.ok a) := trivial

@[simp] theorem told_error_iff (e : ε) :
    Told isReported (.error e : Except ε α) ↔ isReported e = true := Iff.rfl

theorem told_of_forall (h : ∀ e, isReported e = true) (result : Except ε α) :
    Told isReported result := by
  cases result with
  | error e => exact h e
  | ok a => exact told_ok a

theorem told_bind_iff {first : Except ε α} {next : α → Except ε β} :
    Told isReported (first >>= next) ↔
      Told isReported first ∧ ∀ a, first = .ok a → Told isReported (next a) := by
  cases first with
  | error e =>
    constructor
    · intro h
      refine ⟨h, ?_⟩
      intro a ha
      cases ha
    · exact And.left
  | ok a =>
    constructor
    · intro h
      refine ⟨trivial, ?_⟩
      intro b hb
      cases hb
      exact h
    · intro h
      exact h.2 a rfl

theorem told_map_iff (f : α → β) (result : Except ε α) :
    Told isReported (result.map f) ↔ Told isReported result := by
  cases result <;> exact Iff.rfl

theorem told_mapError_iff (f : ε' → ε) (result : Except ε' α) :
    Told isReported (result.mapError f) ↔ Told (fun e ↦ isReported (f e)) result := by
  cases result <;> exact Iff.rfl

end Told

namespace Document

variable {files : FileSystem} {path : RawText}

/-- The system can be asked for the path: all its characters have bytes, and none is U+0000. -/
def Addressable (path : RawText) : Prop :=
  ∀ c ∈ path, c ≠ .scalar '\x00' ∧ c.bytes?.isSome = true

instance (path : RawText) : Decidable (Addressable path) :=
  inferInstanceAs (Decidable (∀ c ∈ path, _))

theorem exists_address_eq_ok_iff : (∃ place, address path = .ok place) ↔ Addressable path := by
  have hnull {place : List UInt8} (h : Path.encode path = .ok place) :
      (0 : UInt8) ∈ place ↔ .scalar '\x00' ∈ path := Path.mem_bytes_iff h (d := '\x00') (by decide)
  simp only [address_eq_ok_iff]
  constructor
  · rintro ⟨place, hplace, hzero⟩ c hc
    refine ⟨?_, Path.exists_encodeFrom_iff.mp ⟨place, hplace⟩ c hc⟩
    rintro rfl
    exact hzero ((hnull hplace).mpr hc)
  · intro h
    obtain ⟨place, hplace⟩ := Path.exists_encodeFrom_iff.mpr fun c hc ↦ (h c hc).2
    exact ⟨place, hplace, fun hzero ↦ (h _ ((hnull hplace).mp hzero)).1 rfl⟩

/-- A path that the system cannot be asked for is told to nobody. -/
theorem told_address_iff : Told DocumentError.isReported (address path) ↔ Addressable path := by
  rw [← exists_address_eq_ok_iff]
  cases haddress : address path with
  | ok place => exact iff_of_true (told_ok place) ⟨place, rfl⟩
  | error e =>
    refine iff_of_false ?_ fun ⟨_, h⟩ ↦ nomatch h
    unfold address at haddress
    cases hencode : Path.encode path with
    | error fault =>
      rw [hencode] at haddress
      cases haddress
      exact Bool.false_ne_true
    | ok bytes =>
      simp only [hencode, Except.mapError, bind, Except.bind] at haddress
      split_ifs at haddress
      cases haddress
      exact Bool.false_ne_true

/-- What goes wrong when a document is read is told, unless its path is one that no system can look
for. -/
theorem told_read_iff : Told DocumentError.isReported (read files path) ↔
    (Path.isJava path = true → Addressable path) := by
  cases hjava : Path.isJava path with
  | false =>
    rw [read_of_not_isJava hjava]
    exact iff_of_true rfl fun h ↦ nomatch h
  | true =>
    rw [read_of_isJava hjava, told_bind_iff, told_address_iff]
    refine ⟨fun h _ ↦ h.1, fun h ↦ ⟨h rfl, fun place _ ↦ ?_⟩⟩
    refine told_bind_iff.mpr ⟨?_, fun bytes _ ↦ ?_⟩ <;>
      exact (told_mapError_iff _ _).mpr (told_of_forall (fun _ ↦ rfl) _)

/-- Where a document was read, only the system can refuse to write it, and that is told. -/
theorem told_conclude {old : Text} (hread : read files path = .ok old) (new : Text)
    (changed unchanged : String) (written : Bool) :
    Told DocumentError.isReported
      (conclude files path old new changed unchanged ⟨written, none⟩).result := by
  obtain ⟨hjava, place, -, -, -, hplace, -⟩ := read_eq_ok hread
  unfold conclude
  by_cases hsame : new = old
  · rw [if_pos hsame]
    exact told_ok _
  rw [if_neg hsame]
  cases written with
  | false => exact told_ok _
  | true =>
    rw [write_of_address hjava hplace]
    cases files.write place (Utf8.encode new) with
    | error e => exact (told_error_iff _).mpr rfl
    | ok after => exact told_ok _

theorem told_sort_iff (options : Options) (written : Bool) :
    Told DocumentError.isReported (sort files options ⟨written, none⟩ path).result ↔
      (Path.isJava path = true → Addressable path) := by
  rw [← @told_read_iff files]
  unfold sort
  cases hread : read files path with
  | error e => exact Iff.rfl
  | ok old =>
    obtain ⟨new, hsort⟩ := Rearrange.exists_sort_eq options old
    simp only [hsort]
    exact iff_of_true (told_conclude hread new _ _ written) (told_ok old)

theorem told_shuffle_iff {indexes : IndexSource} (written : Bool)
    (hindexes : ∀ old, read files path = .ok old →
      indexes.InRange ((Reading.ofText old).methods.length - 1)) :
    Told DocumentError.isReported (shuffle files indexes ⟨written, none⟩ path).1.result ↔
      (Path.isJava path = true → Addressable path) := by
  rw [← @told_read_iff files]
  unfold shuffle
  cases hread : read files path with
  | error e => exact Iff.rfl
  | ok old =>
    obtain ⟨new, rest, hshuffle⟩ := Rearrange.exists_shuffle_eq (hindexes old hread)
    simp only [hshuffle]
    exact iff_of_true (told_conclude hread new _ _ written) (told_ok old)

end Document

end MemberOrder
