import MemberOrder.Proofs.Document.Files
import MemberOrder.Tools.Server

/-!
Servers and files, over runs of any length. A server that may not write leaves all files as they
are. One that may keeps them: no file comes or goes, a file that no path of a Java file leads to
stays, and any other keeps its characters but for white space, however often it is rearranged. It is
the path that a call names which must have the extension; through a link that has it, a file of any
other name is rearranged as well.
-/

set_option autoImplicit false

namespace MemberOrder.Server

variable (server : Server) (files : FileSystem)

theorem keeps_ofReport {report : Except ToolError (Report Outcome)}
    (h : ∀ found, report = .ok found → files.Keeps found.files) :
    files.Keeps (ofReport files report).2 := by
  cases report with
  | error e => exact FileSystem.Keeps.refl files
  | ok found => exact h found rfl

/-- A file comes to be sorted where writing is allowed and the arguments are in order. -/
theorem sortFile_eq_ok_iff {value settings : Value} {report : Report Outcome} :
    server.sortFile files value settings = .ok report ↔
      server.allowWrites = true ∧ ∃ path options, pathOf value = .ok path ∧
        server.optionsFor settings = .ok options ∧
          report = Document.sort files options handling path := by
  unfold sortFile
  constructor
  · intro h
    split_ifs at h with hallow
    obtain ⟨path, hpath, h⟩ := exists_of_bind_eq_ok h
    obtain ⟨options, hoptions, h⟩ := exists_of_bind_eq_ok h
    cases h
    exact ⟨by simpa using hallow, path, options, hpath, hoptions, rfl⟩
  · rintro ⟨hallow, path, options, hpath, hoptions, rfl⟩
    rw [hallow, hpath, hoptions]
    rfl

/-- A file comes to be shuffled where writing is allowed and the arguments are in order, and the
environment. -/
theorem shuffleFile_eq_ok_iff {value seed : Value} {report : Report Outcome} :
    server.shuffleFile files value seed = .ok report ↔
      server.allowWrites = true ∧ ∃ path indexes options, pathOf value = .ok path ∧
        server.indexesFor seed = .ok indexes ∧ server.optionsFor .null = .ok options ∧
          report = (Document.shuffle files indexes handling path).1 := by
  unfold shuffleFile
  constructor
  · intro h
    split_ifs at h with hallow
    obtain ⟨path, hpath, h⟩ := exists_of_bind_eq_ok h
    obtain ⟨indexes, hindexes, h⟩ := exists_of_bind_eq_ok h
    obtain ⟨options, hoptions, h⟩ := exists_of_bind_eq_ok h
    cases h
    exact ⟨by simpa using hallow, path, indexes, options, hpath, hindexes, hoptions, rfl⟩
  · rintro ⟨hallow, path, indexes, options, hpath, hindexes, hoptions, rfl⟩
    rw [hallow, hpath, hindexes, hoptions]
    rfl

theorem keeps_sortFile {path options : Value} {report : Report Outcome}
    (h : server.sortFile files path options = .ok report) : files.Keeps report.files := by
  obtain ⟨-, path, options, -, -, rfl⟩ := (server.sortFile_eq_ok_iff files).mp h
  exact Document.keeps_sort files options true path

theorem keeps_shuffleFile {path seed : Value} {report : Report Outcome}
    (h : server.shuffleFile files path seed = .ok report) : files.Keeps report.files := by
  obtain ⟨-, path, indexes, options, -, -, -, rfl⟩ := (server.shuffleFile_eq_ok_iff files).mp h
  exact Document.keeps_shuffle files indexes true path

/-- Every call keeps the files. -/
theorem keeps_answer (call : ToolCall) : files.Keeps (server.answer files call).2 := by
  cases call with
  | parseClass source => exact FileSystem.Keeps.refl files
  | sortMethods source options => exact FileSystem.Keeps.refl files
  | shuffleMethods source seed => exact FileSystem.Keeps.refl files
  | sortFile path options => exact keeps_ofReport files fun _ h ↦ server.keeps_sortFile files h
  | shuffleFile path seed => exact keeps_ofReport files fun _ h ↦ server.keeps_shuffleFile files h

/-- A server that may not write touches no file. -/
theorem answer_of_not_allowWrites (h : server.allowWrites = false) (call : ToolCall) :
    (server.answer files call).2 = files := by
  cases call with
  | parseClass source => rfl
  | sortMethods source options => rfl
  | shuffleMethods source seed => rfl
  | sortFile path options => simp [answer, sortFile, h, ofReport]
  | shuffleFile path seed => simp [answer, shuffleFile, h, ofReport]

/-- A call as it goes: with the indexes that are drawn for it where it has no seed, and with whether
the system refuses to open or to write its file, which then stays as it is. -/
structure Attempt where
  call : ToolCall
  draws : IndexSource
  refused : Bool

/-- The files after an attempt. -/
def filesAfter (attempt : Attempt) : FileSystem :=
  if attempt.refused then files
  else ({ server with unseeded := attempt.draws }.answer files attempt.call).2

/-- The files after attempts one after the other. -/
def filesAfterAll (attempts : List Attempt) : FileSystem := attempts.foldl server.filesAfter files

theorem keeps_filesAfter (attempt : Attempt) : files.Keeps (server.filesAfter files attempt) := by
  unfold filesAfter
  split_ifs
  · exact FileSystem.Keeps.refl files
  · exact keeps_answer _ files attempt.call

theorem filesAfter_of_not_allowWrites (h : server.allowWrites = false) (attempt : Attempt) :
    server.filesAfter files attempt = files := by
  unfold filesAfter
  split_ifs
  · rfl
  · exact answer_of_not_allowWrites { server with unseeded := attempt.draws } files h attempt.call

theorem keeps_filesAfterAll (attempts : List Attempt) :
    files.Keeps (server.filesAfterAll files attempts) := by
  induction attempts generalizing files with
  | nil => exact FileSystem.Keeps.refl files
  | cons attempt rest ih => exact (server.keeps_filesAfter files attempt).trans (ih _)

theorem filesAfterAll_of_not_allowWrites (h : server.allowWrites = false)
    (attempts : List Attempt) : server.filesAfterAll files attempts = files := by
  induction attempts with
  | nil => rfl
  | cons attempt rest ih =>
    rw [filesAfterAll, List.foldl_cons, server.filesAfter_of_not_allowWrites files h attempt]
    exact ih

/-- Calls answered one after the other are attempts, drawn from one source and none refused. -/
theorem answerAll_files (calls : List ToolCall) :
    (server.answerAll files calls).2 =
      server.filesAfterAll files (calls.map fun call ↦ ⟨call, server.unseeded, false⟩) := by
  induction calls generalizing files with
  | nil => rfl
  | cons call rest ih => exact ih (server.answer files call).2

/-- Over any run of calls, whatever is drawn for each and whichever are refused, a server that may
not write leaves the files as they are, and one that may write keeps them. Where no link has the
name of a Java file, it leaves every file as it is that has no such name. -/
theorem filesAfterAll_safe (attempts : List Attempt) :
    if server.allowWrites then
      files.Keeps (server.filesAfterAll files attempts) ∧
        (files.LinksPlain → ∀ i, (∀ name, files.Entry name i → ¬ Path.IsJavaName name) →
          (server.filesAfterAll files attempts).node? i = files.node? i)
    else server.filesAfterAll files attempts = files := by
  split_ifs with hallow
  · have hkeeps := server.keeps_filesAfterAll files attempts
    exact ⟨hkeeps, fun hlinks _ hnames ↦ hkeeps.node_eq_of_names hlinks hnames⟩
  · exact server.filesAfterAll_of_not_allowWrites files (by simpa using hallow) attempts

/-- A Java file, a file of notes and a Java file that is no UTF-8. -/
def threeFiles : FileSystem :=
  ⟨[(0, .directory 0 [(Utf8.encode "A.java".toList, 1), (Utf8.encode "notes.txt".toList, 2),
      (Utf8.encode "B.java".toList, 3)]),
    (1, .file (Utf8.encode
      "class C \x7b\n  void b() \x7b\x7d\n  void a() \x7b\x7d\n\x7d\n".toList)),
    (2, .file [0x68, 0x69]), (3, .file [0xff])], 0, 0⟩

/-- Calls for each of the files. -/
def fileCalls : List ToolCall :=
  [.shuffleFile (.text (.ofString "./A.java")) .null,
    .sortFile (.text (.ofString "notes.txt")) .null, .sortFile (.text (.ofString "B.java")) .null]

/-- Where the root is the only directory, all names are those that it gives. -/
theorem mem_of_entry {entries : List (FileName × Inode)} {others : List (Inode × Node)}
    {name : FileName} {i : Inode}
    (hothers : ∀ directory parent found, (directory, Node.directory parent found) ∉ others)
    (h : FileSystem.Entry ⟨(0, .directory 0 entries) :: others, 0, 0⟩ name i) :
    (name, i) ∈ entries := by
  obtain ⟨directory, parent, found, hnode, hentry⟩ := h
  rcases List.mem_cons.mp (FileSystem.mem_of_lookup_eq_some hnode) with hroot | hother
  · cases hroot
    exact hentry
  · exact absurd hother (hothers directory parent found)

theorem not_isJavaName_notes : ¬ Path.IsJavaName (Utf8.encode "notes.txt".toList) := by
  rintro ⟨stem, hname, -⟩
  have hsuffix : Utf8.encode Path.javaExtension.toList <:+ Utf8.encode "notes.txt".toList :=
    ⟨stem, hname.symm⟩
  revert hsuffix
  decide +kernel

theorem linksPlain_threeFiles : threeFiles.LinksPlain := by
  intro name i target _ hnode
  have hmem := FileSystem.mem_of_lookup_eq_some hnode
  simp [threeFiles] at hmem

theorem not_isJavaName_of_entry_threeFiles {name : FileName} (h : threeFiles.Entry name 2) :
    ¬ Path.IsJavaName name := by
  have hentry := mem_of_entry (by simp) h
  obtain rfl : name = Utf8.encode "notes.txt".toList := by simpa using hentry
  exact not_isJavaName_notes

/-- The calls change the first file, keep all three, and leave the notes as they are. -/
theorem threeFiles_kept :
    ((⟨true, [], .listed [], .standard⟩ : Server).answerAll threeFiles fileCalls).2 ≠ threeFiles ∧
      threeFiles.Keeps
        ((⟨true, [], .listed [], .standard⟩ : Server).answerAll threeFiles fileCalls).2 ∧
      ((⟨true, [], .listed [], .standard⟩ : Server).answerAll threeFiles fileCalls).2.node? 2 =
        threeFiles.node? 2 := by
  refine ⟨by decide +kernel, ?_⟩
  rw [answerAll_files]
  obtain ⟨hkeeps, hplain⟩ := filesAfterAll_safe ⟨true, [], .listed [], .standard⟩ threeFiles
    (fileCalls.map fun call ↦ ⟨call, .listed [], false⟩)
  exact ⟨hkeeps, hplain linksPlain_threeFiles 2 fun _ ↦ not_isJavaName_of_entry_threeFiles⟩

/-- A file of notes, and a link to it that has the name of a Java file. -/
def linkedFiles : FileSystem :=
  ⟨[(0, .directory 0 [(Utf8.encode "notes.txt".toList, 1), (Utf8.encode "link.java".toList, 2)]),
    (1, .file (Utf8.encode
      "class C \x7b\n  void b() \x7b\x7d\n  void a() \x7b\x7d\n\x7d\n".toList)),
    (2, .link (Utf8.encode "notes.txt".toList))], 0, 0⟩

theorem not_isJavaName_of_entry_linkedFiles {name : FileName} (h : linkedFiles.Entry name 1) :
    ¬ Path.IsJavaName name := by
  have hentry := mem_of_entry (by simp) h
  obtain rfl : name = Utf8.encode "notes.txt".toList := by simpa using hentry
  exact not_isJavaName_notes

/-- Through the link, a call rearranges a file that has no name of a Java file. -/
theorem linkedFiles_written :
    (∀ name, linkedFiles.Entry name 1 → ¬ Path.IsJavaName name) ∧
      ((⟨true, [], .listed [], .standard⟩ : Server).answerAll linkedFiles
        [.shuffleFile (.text (.ofString "link.java")) .null]).2.node? 1 ≠ linkedFiles.node? 1 :=
  ⟨fun _ ↦ not_isJavaName_of_entry_linkedFiles, by decide +kernel⟩

end MemberOrder.Server
