import MemberOrder.CommandLine.Run
import MemberOrder.Proofs.Document.Sorting

/-!
Runs that sort documents one after the other. Documents that different nodes hold do not meet, be
their paths spelled with links or without, and each is sorted or refused as it would be by itself. A
run takes the documents in order up to the first that is refused, and leaves that one, all behind it
and all other files as they are. What a run prints is a text; that the stream it goes to takes every
text is assumed.
-/

set_option autoImplicit false

namespace MemberOrder

namespace CommandLine

open Document

variable {options : Options} {written : Bool} {files middle after : FileSystem}
  {paths rest : List Text} {done : List Sorted} {stopped : Option DocumentError}

/-- Documents are sorted in order: those that are done, up to one that is refused if there is any.
What is done is sorted and where it is written is read back so; nothing else is changed, and nothing
at all where documents are not written. -/
structure SortsInOrder (options : Options) (written : Bool) (files after : FileSystem)
    (paths : List Text) (done : List Sorted) (rest : List Text) (stopped : Option DocumentError) :
    Prop where
  paths_eq : paths = done.map Sorted.path ++ rest
  accepted : ∀ s ∈ done, s.Accepted files options written
  ended : stopped = none → rest = []
  refused : ∀ e, stopped = some e →
    ∃ path more, rest = path :: more ∧ Refuses files options written (.ofText path) e
  changes : files.ChangesOnly after (done.map fun s ↦ .ofText s.path)
  read_new : written = true → ∀ s ∈ done, read after (.ofText s.path) = .ok s.new
  rest_kept : ∀ path ∈ rest, files.FindsSame after (.ofText path)
  kept : written = false → after = files

namespace SortsInOrder

theorem nil (options : Options) (written : Bool) (files : FileSystem) :
    SortsInOrder options written files files [] [] [] none where
  paths_eq := rfl
  accepted := fun _ hs ↦ absurd hs List.not_mem_nil
  ended := fun _ ↦ rfl
  refused := fun _ h ↦ by cases h
  changes := .refl files _
  read_new := fun _ _ hs ↦ absurd hs List.not_mem_nil
  rest_kept := fun _ hpath ↦ absurd hpath List.not_mem_nil
  kept := fun _ ↦ rfl

/-- A document that is refused ends the run. -/
theorem stop {path : Text} {e : DocumentError}
    (h : Refuses files options written (.ofText path) e) (rest : List Text) :
    SortsInOrder options written files files (path :: rest) [] (path :: rest) (some e) where
  paths_eq := rfl
  accepted := fun _ hs ↦ absurd hs List.not_mem_nil
  ended := fun h ↦ by cases h
  refused := fun e' he ↦ ⟨path, rest, rfl, Option.some.inj he ▸ h⟩
  changes := .refl files _
  read_new := fun _ _ hs ↦ absurd hs List.not_mem_nil
  rest_kept := fun _ _ ↦ .refl files _
  kept := fun _ ↦ rfl

/-- A document that is sorted first does not meet those behind it, nor they it. -/
theorem cons {s : Sorted} (haccepted : s.Accepted files options written)
    (hstored : s.Stored written files middle)
    (hapart : ∀ other ∈ paths, files.NamesApart (.ofText s.path) (.ofText other))
    (h : SortsInOrder options written middle after paths done rest stopped) :
    SortsInOrder options written files after (s.path :: paths) (s :: done) rest stopped := by
  have hfirst {path : Text} (hpath : path ∈ paths) : files.FindsSame middle (.ofText path) := by
    refine hstored.changes.findsSame fun other hother ↦ ?_
    rw [List.mem_singleton.mp hother]
    exact hapart path hpath
  have hdone {t : Sorted} (ht : t ∈ done) : t.path ∈ paths := by
    rw [h.paths_eq]
    exact List.mem_append_left _ (List.mem_map_of_mem ht)
  have hrest {path : Text} (hpath : path ∈ rest) : path ∈ paths := by
    rw [h.paths_eq]
    exact List.mem_append_right _ hpath
  refine ⟨by rw [h.paths_eq]; rfl, ?_, h.ended, fun e he ↦ ?_, hstored.changes.trans h.changes,
    fun hwritten ↦ ?_, fun path hpath ↦ ?_, fun hwritten ↦ ?_⟩
  · refine List.forall_mem_cons.mpr ⟨haccepted, fun t ht ↦ ?_⟩
    exact (h.accepted t ht).of_findsSame (hfirst (hdone ht)).symm
  · obtain ⟨path, more, rfl, hrefuses⟩ := h.refused e he
    have hpath := hrest (List.mem_cons_self : path ∈ path :: more)
    exact ⟨path, more, rfl, hrefuses.of_findsSame (hfirst hpath).symm⟩
  · refine List.forall_mem_cons.mpr ⟨?_, h.read_new hwritten⟩
    -- What comes behind does not lead to the node of the first document.
    have hbehind : middle.FindsSame after (.ofText s.path) := by
      refine h.changes.findsSame fun other hother ↦ ?_
      obtain ⟨t, ht, rfl⟩ := List.mem_map.mp hother
      exact hstored.changes.keeps.samePlaces.namesApart_iff.mpr (hapart _ (hdone ht)).symm
    rw [read_eq_of_findsSame hbehind, hstored.read_new hwritten]
  · exact (hfirst (hrest hpath)).trans (h.rest_kept path hpath)
  · rw [h.kept hwritten, hstored.kept hwritten]

end SortsInOrder

namespace Setting

variable (setting : Setting)

end Setting

section Request

variable {setting : Setting} {arguments : List Text} {threshold : Given Log.Level} {job : Job}
  {strategy : Option Strategy} {enabled disabled : List (Given Rule)}

end Request

end CommandLine

end MemberOrder
