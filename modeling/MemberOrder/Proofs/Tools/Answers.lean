import MemberOrder.Proofs.Document.Reports
import MemberOrder.Proofs.Rearrange.Raw
import MemberOrder.Proofs.Settings.Showing
import MemberOrder.Proofs.Tools.Files

/-!
Which calls of tools are answered. Whatever the arguments, the environment and the files are, a call
succeeds or its caller is told what is wrong, with two exceptions. Settings whose first fault is a
strategy with a number too long to be written out cannot be reported. And where everything else is
in order, a path of a Java file is opened and not refused before; if it has U+0000 in it, or a
surrogate that stands for no byte, what comes of that is told to nobody. Nothing else goes wrong
untold: sources can always be rearranged, and a document that was read has a path that can be
written to, if the system lets it.
-/

set_option autoImplicit false

namespace MemberOrder

theorem IndexSource.inRange_listed_nil (place : Nat) : InRange place (.listed []) := by
  induction place with
  | zero => trivial
  | succ place ih => exact ⟨Int.le_refl 0, Int.natCast_pos.mpr (Nat.succ_pos _), ih⟩

namespace Server

/-! ### Arguments -/

variable {limit : DigitLimit}

theorem told_textOf (argument : String) (value : Value) :
    Told (ToolError.isReported limit) (textOf argument value) := by
  cases value with
  | text t => exact told_ok t
  | _ => rfl

theorem told_pathOf (value : Value) : Told (ToolError.isReported limit) (pathOf value) := by
  refine told_bind_iff.mpr ⟨told_textOf "path" value, ?_⟩
  intro path _
  dsimp only
  split_ifs
  · rfl
  · exact told_ok _

variable (server : Server)

/-- What is wrong with settings is told, unless a number in them is too long. -/
theorem told_optionsFor_iff (settings : Value) :
    Told (ToolError.isReported server.limit) (server.optionsFor settings) ↔
      ∀ e, server.optionsFor settings = .error (.settings e) → ¬ e.Overlong server.limit := by
  unfold optionsFor
  rw [told_mapError_iff]
  generalize (do (← Options.default.mergeEnvironment server.environment).mergeValue settings :
    Except SettingsError Options) = merged
  cases merged with
  | ok options => exact iff_of_true (told_ok options) fun e he ↦ nomatch he
  | error e =>
    simp only [told_error_iff, ToolError.isReported, SettingsError.isReported_iff]
    refine ⟨fun h other hother ↦ ?_, fun h ↦ h e rfl⟩
    cases hother
    exact h

theorem told_indexesFor (value : Value) :
    Told (ToolError.isReported limit) (server.indexesFor value) := by
  refine (told_map_iff _ _).mpr ?_
  cases value with
  | null => exact told_ok none
  | int n => exact told_ok (some n)
  | _ => rfl

/-- A seeded generator draws indexes in range, so those for a call are if the ones are that are
drawn without a seed. -/
theorem inRange_of_indexesFor {seed : Value} {indexes : IndexSource} {place : Nat}
    (h : server.indexesFor seed = .ok indexes)
    (hunseeded : seed = .null → server.unseeded.InRange place) : indexes.InRange place := by
  cases seed with
  | null =>
    cases h
    exact hunseeded rfl
  | int n =>
    cases h
    exact IndexSource.inRange_seeded _ place
  | _ => cases h

/-- A call comes to look at settings: all that is looked at before is in order. A shuffle looks at
those of the environment alone. -/
inductive Consults : ToolCall → Value → Prop
  | sortMethods {source settings : Value} {text : RawText}
      (htext : textOf "source" source = .ok text) : Consults (.sortMethods source settings) settings
  | shuffleMethods {source seed : Value} {text : RawText} {indexes : IndexSource}
      (htext : textOf "source" source = .ok text)
      (hindexes : server.indexesFor seed = .ok indexes) :
      Consults (.shuffleMethods source seed) .null
  | sortFile {value settings : Value} {path : RawText} (hallow : server.allowWrites = true)
      (hpath : pathOf value = .ok path) : Consults (.sortFile value settings) settings
  | shuffleFile {value seed : Value} {path : RawText} {indexes : IndexSource}
      (hallow : server.allowWrites = true) (hpath : pathOf value = .ok path)
      (hindexes : server.indexesFor seed = .ok indexes) :
      Consults (.shuffleFile value seed) .null

/-- The settings that a call comes to look at can be reported where they are wrong. -/
def Reportable (call : ToolCall) : Prop :=
  ∀ settings e, server.Consults call settings → server.optionsFor settings = .error (.settings e) →
    ¬ e.Overlong server.limit

/-- A call comes to open the document of a path: it is for a tool that works on files, the server
may write, and all that is looked at before is in order. -/
inductive Opens : ToolCall → RawText → Prop
  | sortFile {value settings : Value} {path : RawText} {options : Options}
      (hallow : server.allowWrites = true) (hpath : pathOf value = .ok path)
      (hoptions : server.optionsFor settings = .ok options) :
      Opens (.sortFile value settings) path
  | shuffleFile {value seed : Value} {path : RawText} {indexes : IndexSource} {options : Options}
      (hallow : server.allowWrites = true) (hpath : pathOf value = .ok path)
      (hindexes : server.indexesFor seed = .ok indexes)
      (hoptions : server.optionsFor .null = .ok options) :
      Opens (.shuffleFile value seed) path

/-- Where a call has no seed, the indexes that are drawn for it are in range for the methods that it
shuffles. -/
def DrawsInRange (files : FileSystem) : ToolCall → Prop
  | .shuffleMethods source seed => seed = .null → ∀ text, textOf "source" source = .ok text →
      server.unseeded.InRange ((Reading.ofText text.shadow).methods.length - 1)
  | .shuffleFile path seed => seed = .null → ∀ place text, pathOf path = .ok place →
      Document.read files place = .ok text →
        server.unseeded.InRange ((Reading.ofText text).methods.length - 1)
  | _ => True

variable {server} {files : FileSystem}

/-! ### Sources -/

theorem told_parseClass (source : Value) :
    Told (ToolError.isReported limit) (parseClass source) := by
  refine told_bind_iff.mpr ⟨told_textOf "source" source, ?_⟩
  intro text _
  cases (Reading.ofText text.shadow).layout? with
  | none => rfl
  | some layout => exact told_ok _

theorem told_sortMethods_iff (source settings : Value) :
    Told (ToolError.isReported server.limit) (server.sortMethods source settings) ↔
      server.Reportable (.sortMethods source settings) := by
  unfold sortMethods
  rw [told_bind_iff, and_iff_right (told_textOf "source" source)]
  constructor
  · intro h _ e hconsults hoptions
    cases hconsults with
    | sortMethods htext =>
      exact (server.told_optionsFor_iff settings).mp (told_bind_iff.mp (h _ htext)).1 e hoptions
  · intro h text htext
    refine told_bind_iff.mpr ⟨(server.told_optionsFor_iff settings).mpr fun e he ↦
      h settings e (.sortMethods htext) he, fun options _ ↦ ?_⟩
    obtain ⟨new, hsort⟩ := Rearrange.exists_sortRaw_eq options text
    simp only [hsort]
    exact told_ok _

theorem told_shuffleMethods_iff {source seed : Value}
    (hdraws : server.DrawsInRange files (.shuffleMethods source seed)) :
    Told (ToolError.isReported server.limit) (server.shuffleMethods source seed) ↔
      server.Reportable (.shuffleMethods source seed) := by
  unfold shuffleMethods
  rw [told_bind_iff, and_iff_right (told_textOf "source" source)]
  constructor
  · intro h _ e hconsults hoptions
    cases hconsults with
    | shuffleMethods htext hindexes =>
      have htold := (told_bind_iff.mp (h _ htext)).2 _ hindexes
      exact (server.told_optionsFor_iff .null).mp (told_bind_iff.mp htold).1 e hoptions
  · intro h text htext
    refine told_bind_iff.mpr ⟨server.told_indexesFor seed, fun indexes hindexes ↦ ?_⟩
    refine told_bind_iff.mpr ⟨(server.told_optionsFor_iff .null).mpr fun e he ↦
      h .null e (.shuffleMethods htext hindexes) he, fun options _ ↦ ?_⟩
    obtain ⟨new, hshuffle⟩ := Rearrange.exists_shuffleRaw_eq
      (server.inRange_of_indexesFor hindexes fun hseed ↦ hdraws hseed text htext)
    simp only [hshuffle]
    exact told_ok _

/-! ### Files -/

theorem told_ofReport_iff {found : Except ToolError (Report Outcome)} :
    Told (ToolError.isReported limit) (ofReport files found).1 ↔
      Told (ToolError.isReported limit) found ∧
        ∀ report, found = .ok report → Told DocumentError.isReported report.result := by
  have hanswer : (ofReport files found).1 =
      found >>= fun report ↦ (report.result.map fileAnswer).mapError .document := by
    cases found <;> rfl
  rw [hanswer, told_bind_iff]
  simp only [told_mapError_iff, told_map_iff]
  exact Iff.rfl

theorem told_sortFile_iff (value settings : Value) :
    Told (ToolError.isReported server.limit) (server.sortFile files value settings) ↔
      server.Reportable (.sortFile value settings) := by
  unfold sortFile
  cases hallow : server.allowWrites with
  | false =>
    refine iff_of_true rfl fun _ e hconsults ↦ ?_
    cases hconsults with
    | sortFile hallow' _ => exact absurd (hallow.symm.trans hallow') Bool.false_ne_true
  | true =>
    rw [Bool.not_true, if_neg Bool.false_ne_true, told_bind_iff, and_iff_right (told_pathOf value)]
    constructor
    · intro h _ e hconsults hoptions
      cases hconsults with
      | sortFile _ hpath =>
        exact (server.told_optionsFor_iff settings).mp (told_bind_iff.mp (h _ hpath)).1 e hoptions
    · intro h path hpath
      exact told_bind_iff.mpr ⟨(server.told_optionsFor_iff settings).mpr fun e he ↦
        h settings e (.sortFile hallow hpath) he, fun options _ ↦ told_ok _⟩

theorem told_shuffleFile_iff (value seed : Value) :
    Told (ToolError.isReported server.limit) (server.shuffleFile files value seed) ↔
      server.Reportable (.shuffleFile value seed) := by
  unfold shuffleFile
  cases hallow : server.allowWrites with
  | false =>
    refine iff_of_true rfl fun _ e hconsults ↦ ?_
    cases hconsults with
    | shuffleFile hallow' _ _ => exact absurd (hallow.symm.trans hallow') Bool.false_ne_true
  | true =>
    rw [Bool.not_true, if_neg Bool.false_ne_true, told_bind_iff, and_iff_right (told_pathOf value)]
    constructor
    · intro h _ e hconsults hoptions
      cases hconsults with
      | shuffleFile _ hpath hindexes =>
        have htold := (told_bind_iff.mp (h _ hpath)).2 _ hindexes
        exact (server.told_optionsFor_iff .null).mp (told_bind_iff.mp htold).1 e hoptions
    · intro h path hpath
      refine told_bind_iff.mpr ⟨server.told_indexesFor seed, fun indexes hindexes ↦ ?_⟩
      exact told_bind_iff.mpr ⟨(server.told_optionsFor_iff .null).mpr fun e he ↦
        h .null e (.shuffleFile hallow hpath hindexes) he, fun options _ ↦ told_ok _⟩

theorem told_answer_sortFile_iff (value settings : Value) :
    Told (ToolError.isReported server.limit) (server.answer files (.sortFile value settings)).1 ↔
      server.Reportable (.sortFile value settings) ∧
        ∀ path, server.Opens (.sortFile value settings) path →
          Path.isJava path = true → Document.Addressable path := by
  refine (told_ofReport_iff.trans (and_congr_left' (told_sortFile_iff value settings))).trans
    (and_congr_right' ?_)
  constructor
  · intro htold path hopens
    cases hopens with
    | @sortFile _ _ _ options hallow hpath hoptions =>
      refine (Document.told_sort_iff options true).mp (htold (Document.sort files options _ _) ?_)
      exact (server.sortFile_eq_ok_iff files).mpr ⟨hallow, path, options, hpath, hoptions, rfl⟩
  · intro h report hreport
    obtain ⟨hallow, path, options, hpath, hoptions, rfl⟩ :=
      (server.sortFile_eq_ok_iff files).mp hreport
    exact (Document.told_sort_iff options true).mpr (h path (.sortFile hallow hpath hoptions))

theorem told_answer_shuffleFile_iff {value seed : Value}
    (hdraws : server.DrawsInRange files (.shuffleFile value seed)) :
    Told (ToolError.isReported server.limit) (server.answer files (.shuffleFile value seed)).1 ↔
      server.Reportable (.shuffleFile value seed) ∧
        ∀ path, server.Opens (.shuffleFile value seed) path →
          Path.isJava path = true → Document.Addressable path := by
  have hdocument : ∀ {path indexes}, pathOf value = .ok path →
      server.indexesFor seed = .ok indexes →
        (Told DocumentError.isReported (Document.shuffle files indexes handling path).1.result ↔
          (Path.isJava path = true → Document.Addressable path)) := by
    intro path indexes hpath hindexes
    refine Document.told_shuffle_iff true ?_
    intro old hread
    exact server.inRange_of_indexesFor hindexes fun hseed ↦ hdraws hseed path old hpath hread
  refine (told_ofReport_iff.trans (and_congr_left' (told_shuffleFile_iff value seed))).trans
    (and_congr_right' ?_)
  constructor
  · intro htold path hopens
    cases hopens with
    | @shuffleFile _ _ _ indexes options hallow hpath hindexes hoptions =>
      refine (hdocument hpath hindexes).mp (htold _ ?_)
      exact (server.shuffleFile_eq_ok_iff files).mpr
        ⟨hallow, path, indexes, options, hpath, hindexes, hoptions, rfl⟩
  · intro h report hreport
    obtain ⟨hallow, path, indexes, options, hpath, hindexes, hoptions, rfl⟩ :=
      (server.shuffleFile_eq_ok_iff files).mp hreport
    exact (hdocument hpath hindexes).mpr (h path (.shuffleFile hallow hpath hindexes hoptions))

/-- Whatever the call, the environment and the files are, the call succeeds or its caller is told
what is wrong, unless the settings that it looks at have a number in them that is too long for the
report, or it comes to open a path of a Java file that the system cannot be asked for. -/
theorem told_answer_iff {call : ToolCall} (hdraws : server.DrawsInRange files call) :
    Told (ToolError.isReported server.limit) (server.answer files call).1 ↔
      (∀ settings e, server.Consults call settings →
        server.optionsFor settings = .error (.settings e) → ¬ e.Overlong server.limit) ∧
      ∀ path, server.Opens call path → Path.isJava path = true → Document.Addressable path := by
  have hsource {call : ToolCall} (h : ∀ path, ¬ server.Opens call path) :
      ∀ path, server.Opens call path → Path.isJava path = true → Document.Addressable path :=
    fun path hopens ↦ absurd hopens (h path)
  cases call with
  | parseClass source =>
    refine iff_of_true (told_parseClass source) ⟨?_, hsource ?_⟩
    · rintro settings e ⟨⟩
    · rintro path ⟨⟩
  | sortMethods source settings =>
    refine (told_sortMethods_iff source settings).trans (and_iff_left (hsource ?_)).symm
    rintro path ⟨⟩
  | shuffleMethods source seed =>
    refine (told_shuffleMethods_iff hdraws).trans (and_iff_left (hsource ?_)).symm
    rintro path ⟨⟩
  | sortFile value settings => exact told_answer_sortFile_iff value settings
  | shuffleFile value seed => exact told_answer_shuffleFile_iff hdraws

/-- A Java file that may be read and not written. -/
def readOnlyFile : FileSystem :=
  ⟨[(0, .directory 0 [(Utf8.encode "A.java".toList, 1)]),
    (1, .guarded (some (Utf8.encode
      "class C \x7b\n  void b() \x7b\x7d\n  void a() \x7b\x7d\n\x7d\n".toList)) .denied)], 0, 0⟩

/-- A server that may write, in an empty environment; without a seed it draws zeros. -/
def writer : Server := ⟨true, [], .listed [], .standard⟩

def shuffleCall : ToolCall := .shuffleFile (.text (.ofString "./A.java")) .null

/-- The file is shuffled, and the caller is told that it cannot be written. -/
theorem readOnlyFile_told :
    writer.DrawsInRange readOnlyFile shuffleCall ∧
      (writer.answer readOnlyFile shuffleCall).1.isOk = false ∧
      Told (ToolError.isReported writer.limit) (writer.answer readOnlyFile shuffleCall).1 := by
  have hrefused : (writer.answer readOnlyFile shuffleCall).1.isOk = false := by decide +kernel
  have hdraws : writer.DrawsInRange readOnlyFile shuffleCall := by
    intro _ place text _ _
    exact IndexSource.inRange_listed_nil _
  refine ⟨hdraws, hrefused, ?_⟩
  rw [told_answer_iff hdraws]
  refine ⟨?_, ?_⟩
  · intro settings e hconsults hoptions
    have hvalid : (writer.optionsFor .null).isOk = true := by decide +kernel
    obtain rfl : settings = .null := by
      cases hconsults with
      | shuffleFile => rfl
    rw [hoptions] at hvalid
    cases hvalid
  · rintro path (_ | ⟨-, hpath, -, -⟩) -
    have hplain : (pathOf (.text (.ofString "./A.java"))).toOption =
        some (.ofString "./A.java") := by
      decide +kernel
    rw [hpath] at hplain
    cases hplain
    decide +kernel

/-- Nobody is told of a path with U+0000 in it, of one with a surrogate that stands for no byte, and
of a strategy that is a number of more digits than are written out. -/
theorem untold_calls :
    ¬ Told (ToolError.isReported writer.limit)
        (writer.answer readOnlyFile (.sortFile (.text (.ofString "a\x00.java")) .null)).1 ∧
      ¬ Told (ToolError.isReported writer.limit)
        (writer.answer readOnlyFile
          (.sortFile (.text (.surrogate 0 :: RawText.ofString ".java")) .null)).1 ∧
      ¬ Told (ToolError.isReported writer.limit)
        (writer.answer readOnlyFile (.sortMethods (.text [])
          (.mapping [(.ofString "sorting_strategy", .int (.ofNat (Nat.pow 10 4300)))]))).1 := by
  decide +kernel

end Server

end MemberOrder
