import MemberOrder.Document.Basic
import MemberOrder.Proofs.Files.Path
import MemberOrder.Proofs.Rearrange.Content

/-!
What rearranging a document does to the files. At most the node that its path leads to is written,
and only where it was read from; its new text has the characters of the old one but for white space,
and is read back as it was written. So no file comes or goes, and this holds over any number of
documents. A file that no path of a Java file leads to stays as it is.
-/

set_option autoImplicit false

namespace MemberOrder

open Text (withoutBlanks)

namespace Rearrange

/-- Whatever order methods are placed in, a source keeps its characters but for white space. -/
theorem perm_of_place {text result : Text} {layout : Layout} (h : movable? text = some layout)
    {order : List Method} (horder : order.Perm layout.methods)
    (hresult : place layout order = .ok result) :
    (withoutBlanks result).Perm (withoutBlanks text) := by
  obtain ⟨other, hother, -, hperm⟩ := exists_place_eq h horder
  rw [hresult, Except.ok.injEq] at hother
  rwa [hother]

theorem perm_of_sort {options : Options} {text result : Text}
    (h : sort options text = .ok result) : (withoutBlanks result).Perm (withoutBlanks text) := by
  unfold sort at h
  split at h
  · cases h
    exact List.Perm.refl _
  · rename_i layout hmovable
    split at h
    · cases h
    · rename_i order horder
      exact perm_of_place hmovable (Options.perm_of_ordered? horder) h

theorem perm_of_shuffle {source rest : IndexSource} {text result : Text}
    (h : shuffle source text = .ok (result, rest)) :
    (withoutBlanks result).Perm (withoutBlanks text) := by
  unfold shuffle at h
  split at h
  · cases h
    exact List.Perm.refl _
  · rename_i layout hmovable
    split at h
    · cases h
    · rename_i order left horder
      cases hplace : place layout order with
      | error f => simp [hplace, Except.map] at h
      | ok placed =>
        simp only [hplace, Except.map, Except.ok.injEq, Prod.mk.injEq] at h
        rw [← h.1]
        exact perm_of_place hmovable (Shuffle.from?_perm horder) hplace

theorem movable?_nil : movable? [] = none := by decide +kernel

theorem sort_nil (options : Options) : sort options [] = .ok [] := by
  rw [sort, movable?_nil]

theorem shuffle_nil (indexes : IndexSource) : shuffle indexes [] = .ok ([], indexes) := by
  rw [shuffle, movable?_nil]

end Rearrange

/-! ### Where a path leads -/

namespace Document

/-- The path leads to the node. -/
def LeadsTo (files : FileSystem) (path : RawText) (i : Inode) : Prop :=
  ∃ place, address path = .ok place ∧ files.resolve place = .ok (.found i)

variable {files files' : FileSystem} {path : RawText} {i : Inode} {old new : Text}

theorem address_eq_ok_iff {place : List UInt8} :
    address path = .ok place ↔ Path.encode path = .ok place ∧ (0 : UInt8) ∉ place := by
  unfold address
  cases hencode : Path.encode path with
  | error e => simp [Except.mapError, bind, Except.bind]
  | ok bytes =>
    simp only [Except.mapError, bind, Except.bind, Except.ok.injEq]
    split_ifs with hnull
    · rw [List.contains_iff_mem] at hnull
      simp only [false_iff, not_and, not_not]
      rintro rfl
      exact hnull
    · rw [List.contains_iff_mem] at hnull
      rw [Except.ok.injEq]
      exact ⟨fun h ↦ ⟨h, h ▸ hnull⟩, fun h ↦ h.1⟩

/-- Rewriting files leads no path elsewhere. -/
theorem leadsTo_congr (h : files.SamePlaces files') :
    LeadsTo files' path i ↔ LeadsTo files path i := by
  simp only [LeadsTo, h.resolve_eq]

theorem LeadsTo.resolve_eq {t : Text} (h : LeadsTo files (.ofText t) i) :
    files.resolve (Utf8.encode t) = .ok (.found i) := by
  obtain ⟨place, hplace, hi⟩ := h
  obtain rfl : Utf8.encode t = place :=
    Except.ok.inj ((Path.encodeFrom_ofText 0 t).symm.trans (address_eq_ok_iff.mp hplace).1)
  exact hi

/-- A path of a Java file leads to a node that is called so. -/
theorem LeadsTo.called (h : LeadsTo files path i) (hjava : Path.isJava path = true) :
    ∃ name, Path.IsJavaName name ∧ files.Called name i := by
  obtain ⟨place, hplace, hi⟩ := h
  exact FileSystem.called_of_isJava hjava (address_eq_ok_iff.mp hplace).1 hi

end Document

/-! ### Files that are kept -/

namespace FileSystem

/-- What may become of the bytes of a file: one that no path of a Java file leads to, or that cannot
be decoded, stays as it is, and any other keeps the characters of its text but for white space. -/
def Admits (fs : FileSystem) (i : Inode) (old new : List UInt8) : Prop :=
  ((∀ path, Path.isJava path = true → ¬ Document.LeadsTo fs path i) → new = old) ∧
    match Utf8.decode old with
    | .error _ => new = old
    | .ok text => ∃ text', Utf8.decode new = .ok text' ∧
        (withoutBlanks text').Perm (withoutBlanks text)

variable {fs before middle after : FileSystem} {i : Inode} {old new : List UInt8}

theorem Admits.refl (fs : FileSystem) (i : Inode) (bytes : List UInt8) :
    fs.Admits i bytes bytes := by
  refine ⟨fun _ ↦ rfl, ?_⟩
  cases hdecode : Utf8.decode bytes with
  | error e => rfl
  | ok text => exact ⟨text, rfl, List.Perm.refl _⟩

theorem Admits.trans {bytes : List UInt8} (h : fs.Admits i old bytes)
    (h' : fs.Admits i bytes new) : fs.Admits i old new := by
  refine ⟨fun hnone ↦ (h'.1 hnone).trans (h.1 hnone), ?_⟩
  have hold := h.2
  have hbytes := h'.2
  cases hdecode : Utf8.decode old with
  | error e =>
    simp only [hdecode] at hold
    subst hold
    simpa only [hdecode] using hbytes
  | ok text =>
    simp only [hdecode] at hold
    obtain ⟨text', hdecode', hperm⟩ := hold
    simp only [hdecode'] at hbytes
    obtain ⟨text'', hdecode'', hperm'⟩ := hbytes
    exact ⟨text'', hdecode'', hperm'.trans hperm⟩

theorem Admits.congr (h : fs.Admits i old new) (hsame : fs.SamePlaces after) :
    after.Admits i old new := by
  unfold Admits
  simp only [Document.leadsTo_congr hsame]
  exact h

/-- Files are kept: none comes or goes, what is no file stays, also the names that directories give
and the paths that links hold, and each file becomes what it may. -/
structure Keeps (before after : FileSystem) : Prop where
  root : after.root = before.root
  working : after.working = before.working
  node_eq : ∀ i, (∀ bytes, before.node? i ≠ some (.file bytes)) →
    after.node? i = before.node? i
  file : ∀ i old, before.node? i = some (.file old) →
    ∃ new, after.node? i = some (.file new) ∧ before.Admits i old new

theorem Keeps.refl (fs : FileSystem) : fs.Keeps fs :=
  ⟨rfl, rfl, fun _ _ ↦ rfl, fun i old h ↦ ⟨old, h, Admits.refl fs i old⟩⟩

/-- Files that are kept stay where they are. -/
theorem Keeps.samePlaces (h : before.Keeps after) : before.SamePlaces after := by
  refine ⟨h.root, h.working, fun i ↦ ?_⟩
  by_cases hfile : ∃ old, before.node? i = some (.file old)
  · obtain ⟨old, hold⟩ := hfile
    obtain ⟨new, hnew, -⟩ := h.file i old hold
    exact Or.inr ⟨old, new, hold, hnew⟩
  · exact Or.inl (h.node_eq i (not_exists.mp hfile))

theorem Keeps.trans (h : before.Keeps middle) (h' : middle.Keeps after) : before.Keeps after := by
  refine ⟨h'.root.trans h.root, h'.working.trans h.working, fun i hnone ↦ ?_, fun i old hold ↦ ?_⟩
  · have hsame := h.node_eq i hnone
    exact (h'.node_eq i fun bytes ↦ hsame ▸ hnone bytes).trans hsame
  · obtain ⟨bytes, hbytes, hadmits⟩ := h.file i old hold
    obtain ⟨new, hnew, hadmits'⟩ := h'.file i bytes hbytes
    exact ⟨new, hnew, hadmits.trans (hadmits'.congr h.samePlaces.symm)⟩

theorem Keeps.put (hnode : fs.node? i = some (.file old)) (hadmits : fs.Admits i old new) :
    fs.Keeps (fs.put i (.file new)) := by
  refine ⟨rfl, rfl, fun j hnone ↦ ?_, fun j bytes hbytes ↦ ?_⟩
  · refine node?_put_of_ne ?_ _
    rintro rfl
    exact hnone old hnode
  · by_cases hj : j = i
    · subst hj
      rw [hnode, Option.some.injEq, Node.file.injEq] at hbytes
      subst hbytes
      exact ⟨new, node?_put_self hnode _, hadmits⟩
    · exact ⟨bytes, (node?_put_of_ne hj _).trans hbytes, Admits.refl fs j bytes⟩

/-- No symbolic link has the name of a Java file. -/
def LinksPlain (fs : FileSystem) : Prop :=
  ∀ name i target, fs.Entry name i → fs.node? i = some (.link target) → ¬ Path.IsJavaName name

/-- Without links that have names of Java files, a file is written only under such a name. -/
theorem Keeps.node_eq_of_names (h : before.Keeps after) (hlinks : before.LinksPlain)
    (hnames : ∀ name, before.Entry name i → ¬ Path.IsJavaName name) :
    after.node? i = before.node? i := by
  by_cases hfile : ∃ old, before.node? i = some (.file old)
  · obtain ⟨old, hold⟩ := hfile
    obtain ⟨new, hnew, hadmits, -⟩ := h.file i old hold
    have hnone (path : RawText) (hjava : Path.isJava path = true) :
        ¬ Document.LeadsTo before path i := by
      intro hleads
      obtain ⟨name, hname, hentry | ⟨j, target, hentry, hlink⟩⟩ := hleads.called hjava
      · exact hnames name hentry hname
      · exact hlinks name j target hentry hlink hname
    rw [hnew, hold, hadmits hnone]
  · exact h.node_eq i (not_exists.mp hfile)

end FileSystem

/-! ### Documents that are read and written -/

namespace Document

variable {files : FileSystem} {path : RawText} {old new : Text}

theorem read_of_not_isJava (h : Path.isJava path = false) : read files path = .error .notJava := by
  unfold read
  rw [h]
  rfl

theorem read_of_isJava (h : Path.isJava path = true) :
    read files path = (do
      let place ← address path
      let bytes ← (files.read place).mapError fun e ↦ .unreadable path (.file e)
      (Utf8.decode bytes).mapError fun e ↦ .unreadable path (.decoding e)) := by
  unfold read
  rw [h]
  rfl

/-- A document that is read has the path of a Java file, which leads to a node with its bytes. -/
theorem read_eq_ok (h : read files path = .ok old) :
    Path.isJava path = true ∧ ∃ place i node bytes, address path = .ok place ∧
      files.resolve place = .ok (.found i) ∧ files.node? i = some node ∧
        node.contents = .ok bytes ∧ Utf8.decode bytes = .ok old := by
  cases hjava : Path.isJava path with
  | false =>
    rw [read_of_not_isJava hjava] at h
    cases h
  | true =>
    rw [read_of_isJava hjava] at h
    obtain ⟨place, hplace, h⟩ := exists_of_bind_eq_ok h
    obtain ⟨bytes, hbytes, h⟩ := exists_of_bind_eq_ok h
    rw [mapError_eq_ok_iff] at hbytes h
    obtain ⟨i, node, hi, hnode, hcontents⟩ := FileSystem.read_eq_ok hbytes
    exact ⟨rfl, place, i, node, bytes, hplace, hi, hnode, hcontents, h⟩

theorem write_of_not_isJava (h : Path.isJava path = false) (source : Text) :
    write files path source = .error .notJava := by
  unfold write
  rw [h]
  rfl

theorem write_of_isJava (h : Path.isJava path = true) (source : Text) :
    write files path source = (do
      let place ← address path
      (files.write place (Utf8.encode source)).mapError (.unwritable path)) := by
  unfold write
  rw [h]
  rfl

theorem write_of_address (h : Path.isJava path = true) {place : List UInt8}
    (hplace : address path = .ok place) (source : Text) :
    write files path source =
      (files.write place (Utf8.encode source)).mapError (.unwritable path) := by
  rw [write_of_isJava h, hplace]
  rfl

/-- What is written to a document that is read and not empty takes the place of its bytes, be it
that the system refuses. -/
theorem write_of_read (h : read files path = .ok old) (hold : old ≠ []) (new : Text) :
    (∃ i bytes, LeadsTo files path i ∧ files.node? i = some (.file bytes) ∧
      Utf8.decode bytes = .ok old ∧
        write files path new = .ok (files.put i (.file (Utf8.encode new)))) ∨
      ∃ refusal, write files path new = .error (.unwritable path refusal) := by
  obtain ⟨hjava, place, i, node, bytes, hplace, hi, hnode, hcontents, hdecode⟩ := read_eq_ok h
  rw [write_of_address hjava hplace]
  cases node with
  | file found =>
    cases hcontents
    refine Or.inl ⟨i, bytes, ⟨place, hplace, hi⟩, hnode, hdecode, ?_⟩
    rw [FileSystem.write_of_file hi hnode]
    rfl
  | directory parent entries => cases hcontents
  | link target => cases hcontents
  | sink =>
    cases hcontents
    cases hdecode
    exact absurd rfl hold
  | guarded readable refusal =>
    refine Or.inr ⟨refusal, ?_⟩
    rw [FileSystem.write_of_guarded hi hnode]
    rfl
  | barred refusal => cases hcontents

/-- Concluding with a text of the same characters keeps the files. -/
theorem keeps_conclude (hread : read files path = .ok old) (hnil : old = [] → new = [])
    (hperm : (withoutBlanks new).Perm (withoutBlanks old)) (changed unchanged : String)
    (written : Bool) :
    files.Keeps (conclude files path old new changed unchanged ⟨written, none⟩).files := by
  unfold conclude
  by_cases hsame : new = old
  · rw [if_pos hsame]
    exact FileSystem.Keeps.refl files
  rw [if_neg hsame]
  cases written with
  | false => exact FileSystem.Keeps.refl files
  | true =>
    have hold : old ≠ [] := fun hempty ↦ hsame ((hnil hempty).trans hempty.symm)
    rcases write_of_read hread hold new with ⟨i, bytes, hleads, hnode, hdecode, hwrite⟩ |
      ⟨refusal, hwrite⟩
    · simp only [Bool.not_true, Bool.false_eq_true, if_false, hwrite]
      refine FileSystem.Keeps.put hnode ⟨fun hnone ↦ ?_, ?_⟩
      · exact absurd hleads (hnone path (read_eq_ok hread).1)
      · rw [hdecode]
        exact ⟨new, Utf8.decode_encode new, hperm⟩
    · simp only [Bool.not_true, Bool.false_eq_true, if_false, hwrite]
      exact FileSystem.Keeps.refl files

theorem keeps_sort (files : FileSystem) (options : Options) (written : Bool) (path : RawText) :
    files.Keeps (sort files options ⟨written, none⟩ path).files := by
  unfold sort
  split
  · exact FileSystem.Keeps.refl files
  · rename_i old hread
    simp only
    split
    · exact FileSystem.Keeps.refl files
    · rename_i new hsort
      refine keeps_conclude hread (fun hempty ↦ ?_) (Rearrange.perm_of_sort hsort) _ _ written
      rw [hempty, Rearrange.sort_nil] at hsort
      exact (Except.ok.inj hsort).symm

/-- A shuffle keeps the files whatever indexes it draws. -/
theorem keeps_shuffle (files : FileSystem) (indexes : IndexSource) (written : Bool)
    (path : RawText) : files.Keeps (shuffle files indexes ⟨written, none⟩ path).1.files := by
  unfold shuffle
  split
  · exact FileSystem.Keeps.refl files
  · rename_i old hread
    simp only
    split
    · exact FileSystem.Keeps.refl files
    · rename_i new rest hshuffle
      refine keeps_conclude hread (fun hempty ↦ ?_) (Rearrange.perm_of_shuffle hshuffle) _ _ written
      rw [hempty, Rearrange.shuffle_nil] at hshuffle
      exact (congrArg Prod.fst (Except.ok.inj hshuffle)).symm

end Document

end MemberOrder
