import Scriptlet.Command.Run
import Scriptlet.Files.Tree
import Scriptlet.Proofs.Diagnostic.Renderer
import Scriptlet.Proofs.Files.Path
import Scriptlet.Proofs.Termination

namespace Scriptlet

/-- An error of a source is placed in the source. -/
theorem Source.rejected_in_source {limit : Nat} {source : Source} {entry : Entry} {error : ParseError}
    (h : source.parseWithin limit entry = .error (.rejected error)) :
    error.span.file = source.filename := by
  obtain ⟨_, _, _, _, _, hOutcome⟩ := exists_parseOutcome h
  cases hOutcome with
  | rejected => rfl
  | tooDeep => rfl

namespace Command

/-- What a report says on the channel for errors. -/
def Report.errors (report : Report) : List String :=
  report.said.filterMap fun (goal, message) => if goal = .errors then some message else none

/-- Messages as they are shown, one after the other. -/
def shownAll (terminal : Bool) (messages : List String) : String :=
  String.join (messages.map (Report.shown terminal))

theorem Report.text_errors (report : Report) (terminal : Bool) :
    report.text terminal .errors = shownAll terminal report.errors := by
  rw [text, errors, shownAll, List.map_filterMap]
  congr 2
  funext said
  obtain ⟨goal, message⟩ := said
  by_cases hGoal : goal = .errors <;> simp [hGoal]

theorem shownAll_flatMap {α : Type} (terminal : Bool) (said : α → List String) (items : List α) :
    shownAll terminal (items.flatMap said) =
      String.join (items.map fun item => shownAll terminal (said item)) := by
  induction items with
  | nil => rfl
  | cons item items ih =>
      rw [List.flatMap_cons, List.map_cons, String.join_cons, ← ih, shownAll, List.map_append,
        String.join_append]
      rfl

/-- All that there is to say about a file: nothing if its text is accepted, one
diagnostic if it is rejected, and one complaint if there is no text. -/
def fileReport (disk : Disk Id) (entry : Entry) (color : Bool) (path : Path) : List String :=
  match disk.readText path with
  | .error error => [cannotRead path.text error]
  | .ok text =>
    match (Source.mk path.text text).parse entry with
    | .ok _ => []
    | .error (.halted _) => []
    | .error (.rejected error) =>
      [((Renderer.new color).addSource path.text text).layout error.diagnostic]

variable {disk : Disk Id} {entry : Entry} {renderer : Renderer} {path : Path} {text : List Char}

theorem linesOf_of_text (hPath : path.anchor ≠ .workingDirectory)
    (hRead : disk.readText path = pure (.ok text)) :
    disk.linesOf path.text = Text.splitLines text := by
  rw [Disk.linesOf, Path.ofText_text hPath, hRead, pure_bind]
  rfl

/-- One file of a check: its report, whatever files were looked at before. -/
theorem checkFile_report (entry : Entry) (hPath : path.anchor ≠ .workingDirectory)
    (h : renderer.Honest disk.linesOf) :
    ∃ message looked, checkFile disk entry renderer path = pure (.ok (message, looked)) ∧
      message.toList = fileReport disk entry renderer.color path ∧
      looked.Honest disk.linesOf ∧ looked.color = renderer.color := by
  obtain ⟨answer, hRead⟩ : ∃ answer, disk.readText path = pure answer := ⟨_, rfl⟩
  cases answer with
  | error error =>
      refine ⟨some (cannotRead path.text error), renderer, ?_, ?_, h, rfl⟩
      · rw [checkFile, hRead, pure_bind]
      · rw [fileReport, hRead]
        rfl
  | ok text =>
      have hLines : disk.linesOf path.text = Text.splitLines text := linesOf_of_text hPath hRead
      rcases Source.parseWithin_ok_or_rejected Parser.nestingLimit ⟨path.text, text⟩ entry with
        ⟨node, hNode⟩ | ⟨error, hError⟩
      · have hParse : Source.parse ⟨path.text, text⟩ entry = .ok node := hNode
        refine ⟨none, renderer, ?_, ?_, h, rfl⟩
        · simp only [checkFile, hRead, pure_bind, hParse]
        · rw [fileReport, hRead]
          simp only [pure, hParse, Option.toList_none]
      · have hParse : Source.parse ⟨path.text, text⟩ entry = .error (.rejected error) := hError
        have hFile : error.span.file = path.text := Source.rejected_in_source hError
        rw [← hFile] at hLines
        obtain ⟨looked, hRender, hHonest, hColor⟩ := h.render error.pointers_diagnostic hLines
        rw [hFile] at hRender
        refine ⟨some (((Renderer.new renderer.color).addSource path.text text).layout error.diagnostic),
          looked, ?_, ?_, hHonest, hColor⟩
        · simp only [checkFile, hRead, pure_bind, hParse, hRender]
        · rw [fileReport, hRead]
          simp only [pure, hParse, Option.toList_some]

/-- A check goes through all files, whatever it has to say about each of them. -/
theorem checkFiles_reports {paths : List Path} (entry : Entry)
    (hPaths : ∀ path ∈ paths, path.anchor ≠ .workingDirectory) (h : renderer.Honest disk.linesOf) :
    checkFiles disk entry renderer paths =
      pure ⟨paths.flatMap (fileReport disk entry renderer.color), none⟩ := by
  induction paths generalizing renderer with
  | nil => rfl
  | cons path paths ih =>
      obtain ⟨message, looked, hFile, hReport, hHonest, hColor⟩ :=
        checkFile_report entry (hPaths path List.mem_cons_self) h
      have hLater := ih (fun other hOther => hPaths other (List.mem_cons_of_mem path hOther)) hHonest
      simp only [checkFiles, hFile, hLater, pure_bind, hReport, hColor, List.flatMap_cons]

/-- What is shown of a file goes to the other channel when it is a tree. -/
theorem viewFile_report (disk : Disk Id) (entry : Entry) (color : Bool)
    (hPath : path.anchor ≠ .workingDirectory) :
    ∃ report, viewFile disk path.text entry color = pure report ∧
      report.errors = fileReport disk entry color path := by
  obtain ⟨answer, hRead⟩ : ∃ answer, disk.readText path = pure answer := ⟨_, rfl⟩
  rw [viewFile, Path.ofText_text hPath, fileReport, hRead, pure_bind]
  cases answer with
  | error error => exact ⟨_, rfl, rfl⟩
  | ok text =>
      refine ⟨_, rfl, ?_⟩
      simp only [viewSource, pure]
      cases Source.parse ⟨path.text, text⟩ entry with
      | ok node =>
          simp only [Report.errors, List.filterMap_map]
          exact List.filterMap_eq_nil_iff.mpr fun _ _ => rfl
      | error fault =>
          cases fault with
          | rejected error => rfl
          | halted cause => rfl

/-- The command line lets a file be viewed by the text of its path. -/
theorem runView_report {name : FileName} (input : Id (List Char)) (entry : Entry) (color : Bool)
    (hPath : path.anchor ≠ .workingDirectory) (hLast : path.steps.getLast? = some (.down name))
    (hFile : disk.kind? path = pure (.ok (some .file))) (hMay : disk.mayRead path = pure true)
    (hNull : '\x00' ∉ path.text.toList) :
    ∃ report, runView disk input ⟨some path.text, entry, false, color, []⟩ = pure report ∧
      report.errors = fileReport disk entry color path := by
  obtain ⟨report, hView, hErrors⟩ := viewFile_report disk entry color hPath
  refine ⟨report, ?_, hErrors⟩
  have hSome : path.text ≠ "" := by
    intro hEmpty
    have hBack := Path.ofText_text hPath
    rw [hEmpty] at hBack
    exact hPath (hBack ▸ rfl)
  have hProblem : fileProblem disk (some path.text) = pure none := by
    simp [fileProblem, lookUp, Disk.kindOfText?, hNull, hSome, Path.ofText_text hPath, hFile, hMay,
      Path.demandsDirectory_text hPath hLast]
  simp [runView, hProblem, hView]

/-! Projects. -/

/-- Whether a setting is this text. -/
def isText (text : String) : Toml.Value → Bool
  | .string found => found = text
  | _ => false

theorem eq_of_isText {text : String} {value : Toml.Value} (h : isText text value = true) :
    value = .string text := by
  cases value with
  | string found =>
      rw [isText, decide_eq_true_eq] at h
      rw [h]
  | boolean | integer | real | moment | array | table => cases h

section Project

variable {directory : Location} {sources : String} {config : Config} {kind : Option EntryKind}
  {root : Path} {entries : List Location}

/-- The path at which the sources are looked for first. -/
theorem anchor_join (directory : Location) (sources : String) :
    ((Path.ofLocation directory).join (.ofText sources)).anchor ≠ .workingDirectory := by
  rw [Path.join]
  cases hAnchor : (Path.ofText sources).anchor <;> simp [Path.ofLocation, hAnchor]

theorem sourceDirectory_of_kind
    (hKind : disk.kind? ((Path.ofLocation directory).join (.ofText sources)) = pure (.ok kind)) :
    sourceDirectory disk directory sources =
      pure (.ok (if kind = some .directory then (Path.ofLocation directory).join (.ofText sources)
        else .ofLocation directory)) := by
  simp only [sourceDirectory, hKind, pure_bind]
  cases kind with
  | none => rfl
  | some kind => cases kind <;> rfl

/-- The sources of a project are found by paths from the root. -/
theorem anchor_of_sourceDirectory (h : sourceDirectory disk directory sources = pure (.ok root)) :
    root.anchor ≠ .workingDirectory := by
  obtain ⟨answer, hKind⟩ : ∃ answer,
      disk.kind? ((Path.ofLocation directory).join (.ofText sources)) = pure answer := ⟨_, rfl⟩
  cases answer with
  | error error =>
      simp only [sourceDirectory, hKind, pure_bind] at h
      cases h
  | ok kind =>
      rw [sourceDirectory_of_kind hKind] at h
      obtain rfl := Except.ok.inj h
      split
      · exact anchor_join directory sources
      · simp [Path.ofLocation]

theorem projectFiles_of_entries (hRoot : sourceDirectory disk directory sources = pure (.ok root))
    (hBelow : disk.below root = pure (.ok entries)) :
    projectFiles disk directory sources = pure (.ok ((sourcesAmong entries).map root.descend)) := by
  simp only [projectFiles, hRoot, hBelow, pure_bind]

/-- The files of a project are found by paths from the root, too. -/
theorem anchor_of_projectFiles {paths : List Path}
    (h : projectFiles disk directory sources = pure (.ok paths)) :
    ∀ path ∈ paths, path.anchor ≠ .workingDirectory := by
  obtain ⟨answer, hRoot⟩ : ∃ answer, sourceDirectory disk directory sources = pure answer := ⟨_, rfl⟩
  cases answer with
  | error error =>
      simp only [projectFiles, hRoot, pure_bind] at h
      cases h
  | ok root =>
      obtain ⟨answer, hBelow⟩ : ∃ answer, disk.below root = pure answer := ⟨_, rfl⟩
      cases answer with
      | error error =>
          simp only [projectFiles, hRoot, hBelow, pure_bind] at h
          cases h
      | ok entries =>
          rw [projectFiles_of_entries hRoot hBelow] at h
          obtain rfl := Except.ok.inj h
          have hAnchor := anchor_of_sourceDirectory hRoot
          intro path hPath
          obtain ⟨file, _, rfl⟩ := List.mem_map.mp hPath
          exact hAnchor

theorem errors_of_messages (messages : List String) (ending : Ending) :
    Report.errors ⟨messages.map fun message => (.errors, message), ending⟩ = messages := by
  rw [Report.errors, List.filterMap_map]
  exact List.filterMap_some

/-- What the check of a project says, and how it ends. -/
theorem checkProject_reports {paths : List Path}
    (hFiles : projectFiles disk directory sources = pure (.ok paths)) :
    ∃ report, checkProject disk directory sources config = pure report ∧
      (paths = [] → report.errors = ["warning: no .mvs files found"]) ∧
      (paths ≠ [] →
        report.errors = paths.flatMap (fileReport disk config.entry config.color.isTrue) ∧
        (report.exitCode = 0 ↔
          ∀ path ∈ paths, fileReport disk config.entry config.color.isTrue path = [])) := by
  have hFindings : checkFiles disk config.entry (.new config.color.isTrue) paths =
      pure ⟨paths.flatMap (fileReport disk config.entry config.color.isTrue), none⟩ :=
    checkFiles_reports config.entry (anchor_of_projectFiles hFiles)
      (Renderer.honest_new disk.linesOf config.color.isTrue)
  rw [← List.flatMap_eq_nil_iff, checkProject, hFiles, pure_bind]
  cases paths with
  | nil => exact ⟨_, rfl, fun _ => rfl, fun hSome => absurd rfl hSome⟩
  | cons path paths =>
      generalize (path :: paths).flatMap (fileReport disk config.entry config.color.isTrue) = messages
        at hFindings
      simp only [hFindings, pure_bind]
      have hNone : path :: paths ≠ [] := List.cons_ne_nil path paths
      cases messages with
      | nil =>
          exact ⟨_, rfl, fun hNil => absurd hNil hNone,
            fun _ => ⟨rfl, by simp [Report.exitCode, Report.only]⟩⟩
      | cons message messages =>
          exact ⟨_, rfl, fun hNil => absurd hNil hNone,
            fun _ => ⟨errors_of_messages (message :: messages) _, by simp [Report.exitCode]⟩⟩

/-- With settings that can be used the check is that of the project. The first
line of its output says nothing about errors. -/
theorem check_of_config {start : Path} {report : Report}
    (hFind : Config.find? disk start = pure (.ok (some directory)))
    (hLoad : Config.load disk (.ofLocation (directory ++ [Config.fileName])) = pure (.ok config))
    (hSources : config.sources = .string sources)
    (hName : config.name.obstacle? disk.limits.writing = none)
    (hProject : checkProject disk directory sources config = pure report) :
    ∃ full, check disk start = pure full ∧ full.errors = report.errors ∧
      full.exitCode = report.exitCode := by
  refine ⟨report.after .output ("checking " ++ config.name.text ++ "..."), ?_, rfl, rfl⟩
  simp [check, hFind, hLoad, checkWith, hName, hSources, hProject]

/-- With a name that cannot be written out the check breaks off before it looks at
any file. -/
theorem check_of_unwritable {start : Path} {obstacle : Toml.Obstacle}
    (hFind : Config.find? disk start = pure (.ok (some directory)))
    (hLoad : Config.load disk (.ofLocation (directory ++ [Config.fileName])) = pure (.ok config))
    (hName : config.name.obstacle? disk.limits.writing = some obstacle) :
    check disk start = pure ⟨[], .broken (.unwritable obstacle)⟩ := by
  simp [check, hFind, hLoad, checkWith, hName]

/-- The files of a project are those whose names end like those of sources, in the
order of their locations. -/
theorem sourcesAmong_spec (entries : List Location) :
    (sourcesAmong entries).Perm (entries.filter fun file =>
        file.getLast?.any fun name => ".mvs".toList.isSuffixOf name.text.toList) ∧
      (sourcesAmong entries).Pairwise fun a b =>
        a = b ∨ List.Lex (· < ·) (a.map FileName.text) (b.map FileName.text) := by
  have hSorted : (sourcesAmong entries).Pairwise fun a b => Location.le a b = true :=
    List.pairwise_mergeSort Location.le_trans Location.le_total _
  have hSource : isSource = fun file =>
      file.getLast?.any fun name => ".mvs".toList.isSuffixOf name.text.toList := by
    funext file
    rw [isSource]
    cases file.getLast? <;> rfl
  rw [← hSource]
  exact ⟨List.mergeSort_perm _ _, hSorted.imp fun h => (Location.le_iff _ _).mp h⟩

/-- A regular file that is named like a source can be viewed. -/
theorem runView_source {file : Location} (input : Id (List Char)) (entry : Entry) (color : Bool)
    (hRoot : root.anchor ≠ .workingDirectory)
    (hSource : (file.getLast?.any fun name => ".mvs".toList.isSuffixOf name.text.toList) = true)
    (hFile : disk.kind? (root.descend file) = pure (.ok (some .file)))
    (hMay : disk.mayRead (root.descend file) = pure true)
    (hNull : '\x00' ∉ (root.descend file).text.toList) :
    ∃ report, runView disk input ⟨some (root.descend file).text, entry, false, color, []⟩ =
        pure report ∧
      report.errors = fileReport disk entry color (root.descend file) := by
  obtain ⟨name, hName⟩ : ∃ name, file.getLast? = some name := by
    cases hLast : file.getLast? with
    | none => simp [hLast] at hSource
    | some name => exact ⟨name, rfl⟩
  have hStep : (root.descend file).steps.getLast? = some (.down name) := by
    simp [Path.descend, List.getLast?_append, hName]
  have hStart : (root.descend file).anchor ≠ .workingDirectory := hRoot
  exact runView_report input entry color hStart hStep hFile hMay hNull

end Project

end Command

end Scriptlet
