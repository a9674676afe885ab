import MemberOrder.Proofs.Document.Reports

/-!
Sorting one document among others. At most the node that its path leads to changes, and paths lead
where they led; so what is found along a path to another node is what was found, and a document is
sorted or refused there as it would be by itself.
-/

set_option autoImplicit false

namespace MemberOrder

open Document (LeadsTo)

namespace FileSystem

variable {before middle after : FileSystem} {paths others : List RawText} {path other : RawText}

/-- No node is one that both paths lead to. -/
def NamesApart (fs : FileSystem) (path other : RawText) : Prop :=
  ∀ i, LeadsTo fs path i → ¬ LeadsTo fs other i

theorem NamesApart.symm {fs : FileSystem} (h : fs.NamesApart path other) :
    fs.NamesApart other path :=
  fun i hother hpath ↦ h i hpath hother

theorem SamePlaces.namesApart_iff (h : before.SamePlaces after) :
    after.NamesApart path other ↔ before.NamesApart path other := by
  simp only [NamesApart, Document.leadsTo_congr h]

/-- The path leads where it led, and to the same. -/
structure FindsSame (before after : FileSystem) (path : RawText) : Prop where
  places : before.SamePlaces after
  node : ∀ i, LeadsTo before path i → after.node? i = before.node? i

theorem FindsSame.refl (fs : FileSystem) (path : RawText) : fs.FindsSame fs path :=
  ⟨.refl fs, fun _ _ ↦ rfl⟩

theorem FindsSame.symm (h : before.FindsSame after path) : after.FindsSame before path :=
  ⟨h.places.symm, fun i hi ↦ (h.node i ((Document.leadsTo_congr h.places).mp hi)).symm⟩

theorem FindsSame.trans (h : before.FindsSame middle path) (h' : middle.FindsSame after path) :
    before.FindsSame after path :=
  ⟨h.places.trans h'.places, fun i hi ↦
    (h'.node i ((Document.leadsTo_congr h.places).mpr hi)).trans (h.node i hi)⟩

/-- Files are kept, and only those that the paths lead to may have changed. -/
structure ChangesOnly (before after : FileSystem) (paths : List RawText) : Prop where
  keeps : before.Keeps after
  node_eq : ∀ i, (∀ path ∈ paths, ¬ LeadsTo before path i) → after.node? i = before.node? i

namespace ChangesOnly

theorem refl (fs : FileSystem) (paths : List RawText) : fs.ChangesOnly fs paths :=
  ⟨Keeps.refl fs, fun _ _ ↦ rfl⟩

theorem trans (h : before.ChangesOnly middle paths) (h' : middle.ChangesOnly after others) :
    before.ChangesOnly after (paths ++ others) := by
  refine ⟨h.keeps.trans h'.keeps, fun i hi ↦ ?_⟩
  obtain ⟨hpaths, hothers⟩ := List.forall_mem_append.mp hi
  rw [← h.node_eq i hpaths]
  refine h'.node_eq i fun path hpath ↦ ?_
  rw [Document.leadsTo_congr h.keeps.samePlaces]
  exact hothers path hpath

/-- A path that leads elsewhere finds what it found. -/
theorem findsSame (h : before.ChangesOnly after paths)
    (hapart : ∀ other ∈ paths, before.NamesApart other path) : before.FindsSame after path :=
  ⟨h.keeps.samePlaces, fun i hi ↦
    h.node_eq i fun other hother hleads ↦ hapart other hother i hleads hi⟩

end ChangesOnly

end FileSystem

namespace Document

variable {files before after : FileSystem} {options : Options} {written : Bool} {path : RawText}
  {e : DocumentError}

theorem read_eq_of_findsSame (h : before.FindsSame after path) :
    read after path = read before path := by
  cases hjava : Path.isJava path with
  | false => rw [read_of_not_isJava hjava, read_of_not_isJava hjava]
  | true =>
    rw [read_of_isJava hjava, read_of_isJava hjava]
    cases hplace : address path with
    | error e => rfl
    | ok place =>
      have hread : after.read place = before.read place := by
        unfold FileSystem.read
        rw [h.places.resolve_eq]
        cases hspot : before.resolve place with
        | error e => rfl
        | ok spot =>
          cases spot with
          | vacant directory name => rfl
          | found i =>
            simp only [bind, Except.bind]
            rw [h.node i ⟨place, hplace, hspot⟩]
      simp only [bind, Except.bind, hread]

/-- Whether a document can be written is a matter of where its path leads. -/
theorem write_eq_error_of_findsSame (h : before.FindsSame after path) {source : Text}
    (hwrite : write before path source = .error e) : write after path source = .error e := by
  cases hjava : Path.isJava path with
  | false =>
    rw [write_of_not_isJava hjava] at hwrite ⊢
    exact hwrite
  | true =>
    cases hplace : address path with
    | error fault =>
      rw [write_of_isJava hjava, hplace] at hwrite ⊢
      exact hwrite
    | ok place =>
      rw [write_of_address hjava hplace] at hwrite ⊢
      unfold FileSystem.write at hwrite ⊢
      rw [h.places.resolve_eq]
      cases hspot : before.resolve place with
      | error fault =>
        rw [hspot] at hwrite
        exact hwrite
      | ok spot =>
        rw [hspot] at hwrite
        cases spot with
        | vacant directory name => cases hwrite
        | found i =>
          simp only [bind, Except.bind] at hwrite ⊢
          rw [h.node i ⟨place, hplace, hspot⟩]
          cases hnode : before.node? i with
          | none =>
            rw [hnode] at hwrite
            exact hwrite
          | some node =>
            rw [hnode] at hwrite
            cases node with
            | file bytes => cases hwrite
            | sink => cases hwrite
            | _ => exact hwrite

/-- Why a document is not sorted: it cannot be read, or its sorted text is another one that is to be
written and cannot be. -/
inductive Refuses (files : FileSystem) (options : Options) (written : Bool) (path : RawText) :
    DocumentError → Prop
  | unread {e : DocumentError} (h : read files path = .error e) :
    Refuses files options written path e
  | unwritten {e : DocumentError} {old new : Text} (hwritten : written = true)
    (hread : read files path = .ok old) (hsort : Rearrange.sort options old = .ok new)
    (hne : new ≠ old) (h : write files path new = .error e) :
    Refuses files options written path e

/-- A document is refused whatever became of others. -/
theorem Refuses.of_findsSame (hrefuses : Refuses before options written path e)
    (h : before.FindsSame after path) : Refuses after options written path e := by
  have hread := read_eq_of_findsSame h
  cases hrefuses with
  | unread hunread => exact .unread (hread.trans hunread)
  | unwritten hwritten hold hsort hne hunwritten =>
    exact .unwritten hwritten (hread.trans hold) hsort hne
      (write_eq_error_of_findsSame h hunwritten)

/-- Users are told why a document is refused whose path the system can be asked for. -/
theorem Refuses.isReported (h : Refuses files options written path e)
    (hpath : Addressable path) : e.isReported = true := by
  cases h with
  | unread h =>
    have htold := (@told_read_iff files path).mpr fun _ ↦ hpath
    rwa [h] at htold
  | unwritten _ hread _ _ h =>
    obtain ⟨hjava, place, -, -, -, hplace, -⟩ := read_eq_ok hread
    rw [write_of_address hjava hplace] at h
    obtain ⟨cause, -, rfl⟩ := mapError_eq_error_iff.mp h
    rfl

/-- A document that was sorted: its path, and its text before and after. -/
structure Sorted where
  path : Text
  old : Text
  new : Text

namespace Sorted

def message (s : Sorted) : String := if s.new = s.old then alreadySortedMessage else sortedMessage

/-- What is printed for the document: a line about it where it is written, else its text. -/
def report (written : Bool) (s : Sorted) : Text :=
  if written then s.path ++ ": ".toList ++ s.message.toList ++ ['\n'] else s.new

/-- The document has the old text, that text sorted is the new one, and nothing is refused. -/
structure Accepted (files : FileSystem) (options : Options) (written : Bool) (s : Sorted) :
    Prop where
  read_eq : read files (.ofText s.path) = .ok s.old
  sort_eq : Rearrange.sort options s.old = .ok s.new
  not_refused : ∀ e, ¬ Refuses files options written (.ofText s.path) e

theorem Accepted.of_findsSame {s : Sorted} (haccepted : s.Accepted before options written)
    (h : before.FindsSame after (.ofText s.path)) : s.Accepted after options written where
  read_eq := (read_eq_of_findsSame h).trans haccepted.read_eq
  sort_eq := haccepted.sort_eq
  not_refused e hrefuses := haccepted.not_refused e (hrefuses.of_findsSame h.symm)

/-- What sorting a document leaves: in the mode that writes, the new text and no other change, else
everything as it was. -/
structure Stored (written : Bool) (files after : FileSystem) (s : Sorted) : Prop where
  changes : files.ChangesOnly after [.ofText s.path]
  read_new : written = true → read after (.ofText s.path) = .ok s.new
  kept : written = false → after = files

end Sorted

section Step

variable {old new : Text}

end Step

end Document

end MemberOrder
