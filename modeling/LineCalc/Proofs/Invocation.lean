import LineCalc.CommandLine
import LineCalc.Service
import LineCalc.Proofs.Layout

/-!
The program called with the path of a file. Such a path is a name among the arguments and no
switch (`Options.interpret_name`), so the program runs what is read of the file
(`CommandLine.run_name`), with its line ends unified, which leaves its lines as they are
(`Lines.ofText_unifyLineEnds`).
-/
namespace LineCalc

/-! ## Arguments -/

namespace Options

variable {path : Text} (named : path.head? ≠ some '-')
include named

theorem classify_name : classify [path] = .ok [.name path] := by
  have noMark : path ≠ ['-', '-'] := by
    rintro rfl
    exact named rfl
  have one : classifyOne path = .ok (.name path) := by
    rw [classifyOne, decide_eq_false named, Bool.false_and, if_neg Bool.false_ne_true]
  rw [classify, if_neg noMark, one]
  rfl

theorem interpret_name : interpret [path] = .run ⟨path, false, false, false⟩ := by
  rw [interpret, classify_name named]
  rfl

end Options

/-! ## Line ends -/

namespace CommandLine
open Options

/-- The program writes the output of the answer, and ends with 0 if this tells of a success and with
    1 if not. -/
def Outcome.Shows (outcome : Outcome) (answer : Service.ExecuteAnswer) : Prop :=
  outcome.output = answer.output ∧ outcome.ending = .exit (if answer.success then 0 else 1)

theorem runBytes_undecodable (settings : Settings) {bytes : ByteArray} (noText : ∀ source, bytes ≠ Text.encodeUtf8 source) :
    runBytes settings bytes = ⟨[], [], [], .crash .undecodable⟩ := by
  have refused : Text.decodeUtf8? bytes = none :=
    Option.eq_none_iff_forall_ne_some.mpr fun source => mt Text.decodeUtf8?_eq_some_iff.mp (noText source)
  rw [runBytes, refused]

/-- A path with a null character is not looked up. -/
theorem run_of_interpret {arguments : List Text} {settings : Settings} (asked : interpret arguments = .run settings)
    (noHelp : settings.languageHelp = false) (named : settings.source.head? ≠ some '-') (standardInput : ByteArray)
    (files : Files) :
    run arguments standardInput files =
      if settings.source.contains '\x00' then ⟨[], [], [], .crash .nullInPath⟩
      else runFile settings settings.source (files.read settings.source) := by
  have notStandard : settings.source ≠ ['-'] := by
    intro standard
    exact named (by rw [standard]; rfl)
  rw [run, plan, asked]
  simp only [noHelp, Bool.false_eq_true, if_false, if_neg notStandard]
  cases settings.source.contains '\x00' <;> rfl

theorem run_name {path : Text} (named : path.head? ≠ some '-') (standardInput : ByteArray) (files : Files) :
    run [path] standardInput files =
      if path.contains '\x00' then ⟨[], [], [], .crash .nullInPath⟩
      else runFile ⟨path, false, false, false⟩ path (files.read path) :=
  run_of_interpret (interpret_name named) rfl named standardInput files

theorem noNull_of_read {files : Files} {path : Text} {bytes : ByteArray} (found : files.read path = .ok bytes) :
    path.contains '\x00' = false := by
  rw [Files.read] at found
  split at found
  · cases found
  next isPath =>
    simp only [Files.isPath, Bool.not_eq_true', Bool.not_eq_false, Bool.and_eq_true] at isPath
    exact isPath.2

theorem readComplaint_begins (path : Text) (error : ReadError) :
    "Failed to read ".toList ++ path <+: readComplaint path error := by
  have begins : ∀ number message quoted : Text, "Failed to read ".toList ++ path <+:
      "Failed to read ".toList ++ path ++ ": [Errno ".toList ++ number ++ "] ".toList ++ message ++ ": ".toList ++
        quoted ++ ['\n'] := by
    -- The words are hidden, as a search for an appendix would spell them out.
    generalize "Failed to read ".toList ++ path = front
    generalize ": [Errno ".toList = mark
    intro number message quoted
    simp only [List.append_assoc, List.prefix_append]
  exact begins _ _ _

variable {path : Text} {files : Files}

/-- For a file that holds no text, nothing is written to the output. If it cannot be read at all,
    the program complains and ends with 1; but where bytes are read that are no text, or the path
    has a null character, it ends without a complaint of its own. -/
theorem run_unreadable (named : path.head? ≠ some '-')
    (noText : ∀ source, files.read path ≠ .ok (Text.encodeUtf8 source)) (standardInput : ByteArray) :
    (∀ error, files.read path = .error error → '\x00' ∉ path →
      ∃ complaint, "Failed to read ".toList ++ path <+: complaint ∧
        run [path] standardInput files = ⟨[], [], complaint, .exit 1⟩) ∧
    (∀ bytes, files.read path = .ok bytes → run [path] standardInput files = ⟨[], [], [], .crash .undecodable⟩) ∧
    ('\x00' ∈ path → run [path] standardInput files = ⟨[], [], [], .crash .nullInPath⟩) := by
  rw [run_name named]
  refine ⟨fun error unread noNull => ?_, fun bytes found => ?_, fun null => ?_⟩
  · refine ⟨readComplaint path error, readComplaint_begins path error, ?_⟩
    rw [if_neg (by simpa using noNull), unread, runFile]
  · rw [noNull_of_read found, if_neg Bool.false_ne_true, found, runFile]
    refine runBytes_undecodable _ ?_
    rintro source rfl
    exact noText source found
  · rw [if_pos (by simpa using null)]

theorem lone_ne_encodeUtf8 (source : Text) : (⟨#[255]⟩ : ByteArray) ≠ Text.encodeUtf8 source := by
  have refused : Text.decodeUtf8? ⟨#[255]⟩ = none := by decide +kernel
  intro encoded
  cases refused.symm.trans (Text.decodeUtf8?_eq_some_iff.mpr encoded)

theorem run_unreadable_directory :
    (∃ complaint, "Failed to read sub".toList <+: complaint ∧
      run ["sub".toList] .empty ⟨[("sub".toList, .directory)]⟩ = ⟨[], [], complaint, .exit 1⟩) ∧
    run ["lone".toList] .empty ⟨[("lone".toList, .bytes ⟨#[255]⟩)]⟩ = ⟨[], [], [], .crash .undecodable⟩ := by
  have unread : Files.read ⟨[("sub".toList, .directory)]⟩ "sub".toList = .error .isADirectory := rfl
  have found : Files.read ⟨[("lone".toList, .bytes ⟨#[255]⟩)]⟩ "lone".toList = .ok ⟨#[255]⟩ := rfl
  constructor
  · have noText : ∀ source, Files.read ⟨[("sub".toList, .directory)]⟩ "sub".toList ≠ .ok (Text.encodeUtf8 source) := by
      intro source stored
      cases unread.symm.trans stored
    exact (run_unreadable (by decide) noText .empty).1 _ unread (by decide)
  · have noText : ∀ source, Files.read ⟨[("lone".toList, .bytes ⟨#[255]⟩)]⟩ "lone".toList ≠ .ok (Text.encodeUtf8 source) := by
      intro source stored
      exact lone_ne_encodeUtf8 source (Except.ok.inj (found.symm.trans stored))
    exact (run_unreadable (by decide) noText .empty).2.1 _ found

/-- Not every file that holds no text makes the program complain. -/
theorem undecodable_uncaught :
    ¬ ∀ (path : Text) (files : Files), path.head? ≠ some '-' → '\x00' ∉ path →
      (∀ source, files.read path ≠ .ok (Text.encodeUtf8 source)) →
      ∃ complaint, "Failed to read ".toList ++ path <+: complaint ∧
        run [path] .empty files = ⟨[], [], complaint, .exit 1⟩ := by
  intro complains
  have named : "lone".toList.head? ≠ some '-' := by decide
  have found : Files.read ⟨[("lone".toList, .bytes ⟨#[255]⟩)]⟩ "lone".toList = .ok ⟨#[255]⟩ := rfl
  obtain ⟨complaint, -, ended⟩ := complains "lone".toList ⟨[("lone".toList, .bytes ⟨#[255]⟩)]⟩ named (by decide)
    fun source stored => lone_ne_encodeUtf8 source (Except.ok.inj (found.symm.trans stored))
  rw [run_name named, noNull_of_read found, if_neg Bool.false_ne_true, found, runFile,
    runBytes_undecodable _ lone_ne_encodeUtf8] at ended
  cases ended

end CommandLine
end LineCalc
