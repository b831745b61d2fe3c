import Scriptlet.Proofs.ProjectCheck
import Scriptlet.Proofs.Text.Escape

namespace Scriptlet

/-- Erasing control sequences leaves the end of the last line. -/
theorem Text.eraseEscapes_line_ne_nil (text : List Char) : eraseEscapes (text ++ ['\n']) ≠ [] := by
  rw [eraseEscapes_cons_outside rfl]
  simp

namespace Command

open Report

/-- A message is shown as one line at least. -/
theorem Report.shown_ne_empty (terminal : Bool) (message : String) : shown terminal message ≠ "" := by
  intro hEmpty
  have hChars := congrArg String.toList hEmpty
  cases terminal with
  | true => simp [shown] at hChars
  | false =>
      rw [shown, if_neg Bool.false_ne_true, String.toList_ofList] at hChars
      exact Text.eraseEscapes_line_ne_nil _ hChars

/-- The command ends by itself: with success, or with status one after it has
said what is wrong. -/
def Report.Orderly (report : Report) : Prop :=
  report.ending = .exit 0 ∨
    report.ending = .exit 1 ∧ ∀ terminal, report.text terminal .errors ≠ ""

/-- The command breaks off instead of ending by itself. -/
def Report.BreaksOff (report : Report) : Prop := ∃ cause, report.ending = .broken cause

theorem Report.orderly_of_errors {report : Report} (hEnding : report.ending = .exit 1)
    (hErrors : report.errors ≠ []) : report.Orderly := by
  refine .inr ⟨hEnding, fun terminal hEmpty => ?_⟩
  obtain ⟨message, messages, hSaid⟩ := List.exists_cons_of_ne_nil hErrors
  rw [text_errors, hSaid, shownAll, List.map_cons, String.join_cons] at hEmpty
  exact shown_ne_empty terminal message (String.append_eq_empty_iff.mp hEmpty).1

theorem Report.Orderly.not_breaksOff {report : Report} (h : report.Orderly) : ¬ report.BreaksOff := by
  rintro ⟨cause, hBroken⟩
  rcases h with hExit | ⟨hExit, _⟩ <;> simp [hBroken] at hExit

/-- A message on the other channel changes nothing about errors. -/
theorem Report.Orderly.after {report : Report} (h : report.Orderly) (message : String) :
    (report.after .output message).Orderly := by
  refine h.imp_right fun ⟨hExit, hSaid⟩ => ⟨hExit, fun terminal => ?_⟩
  rw [text_errors]
  have hErrors : (report.after .output message).errors = report.errors := rfl
  rw [hErrors, ← text_errors]
  exact hSaid terminal

/-- The report breaks off where something unforeseen is met, and only there. -/
def Report.Answers (report : Report) (unforeseen : Prop) : Prop :=
  report.Orderly ∧ ¬ unforeseen ∨ report.BreaksOff ∧ unforeseen

theorem Report.Answers.ends {report : Report} {unforeseen : Prop} (h : report.Answers unforeseen) :
    report.Orderly ∨ report.BreaksOff :=
  h.imp And.left And.left

theorem Report.Answers.breaksOff_iff {report : Report} {unforeseen : Prop}
    (h : report.Answers unforeseen) : report.BreaksOff ↔ unforeseen := by
  rcases h with ⟨hOrderly, hForeseen⟩ | ⟨hBreaks, hUnforeseen⟩
  · exact iff_of_false hOrderly.not_breaksOff hForeseen
  · exact iff_of_true hBreaks hUnforeseen

theorem Report.Answers.of_iff {report : Report} {unforeseen other : Prop}
    (h : report.Answers unforeseen) (hSame : unforeseen ↔ other) : report.Answers other := by
  rwa [← hSame]

/-- A message on the other channel does not change how a report ends. -/
theorem Report.Answers.after {report : Report} {unforeseen : Prop} (h : report.Answers unforeseen)
    (message : String) : (report.after .output message).Answers unforeseen := by
  rcases h with ⟨hOrderly, hForeseen⟩ | ⟨⟨cause, hEnding⟩, hUnforeseen⟩
  · exact .inl ⟨hOrderly.after message, hForeseen⟩
  · exact .inr ⟨⟨cause, hEnding⟩, hUnforeseen⟩

end Command

/-- What keeps settings from being had without a check being prepared for it: the
file is there and cannot be read, as when it is a directory; values are too far
within each other, for the reader or for the complaint that has to write them out;
what should be a section is another value. -/
inductive Config.Fault.Unforeseen : Config.Fault → Prop where
  | unreadable {error : ReadError} (hThere : ∀ path, error ≠ .missing path) :
      Unforeseen (.unreadable error)
  | tooDeep : Unforeseen (.malformed .tooDeep)
  | noTable (name : String) : Unforeseen (.noTable name)
  | entryTooDeep : Unforeseen (.unwritableEntry .tooDeep)

namespace Command

open Report

variable {disk : Disk Id} {directory : Location} {sources : String} {config : Config}

/-- What a check is not prepared for once it has found a settings file: the
settings cannot be had; the name cannot be written out; the directory of the sources
is not a text; or the file system does not say what this directory is, or what is
below it. -/
inductive Unprepared (disk : Disk Id) (directory : Location) : Except Config.Fault Config → Prop where
  | settings {fault : Config.Fault} (h : fault.Unforeseen) : Unprepared disk directory (.error fault)
  | name {config : Config} {obstacle : Toml.Obstacle}
      (h : config.name.obstacle? disk.limits.writing = some obstacle) :
      Unprepared disk directory (.ok config)
  | noText {config : Config} (h : ∀ text, config.sources ≠ .string text) :
      Unprepared disk directory (.ok config)
  | noKind {config : Config} {sources : String} {error : DiskError}
      (hSources : config.sources = .string sources)
      (h : disk.kind? ((Path.ofLocation directory).join (.ofText sources)) = pure (.error error)) :
      Unprepared disk directory (.ok config)
  | noEntries {config : Config} {sources : String} {kind : Option EntryKind} {error : DiskError}
      (hSources : config.sources = .string sources)
      (hKind : disk.kind? ((Path.ofLocation directory).join (.ofText sources)) = pure (.ok kind))
      (h : disk.below (if kind = some .directory then (Path.ofLocation directory).join (.ofText sources)
        else .ofLocation directory) = pure (.error error)) :
      Unprepared disk directory (.ok config)

/-- What a check of a path is not prepared for: the file system does not answer in
the search for settings, or something is wrong with those that are found. -/
inductive Unforeseen (disk : Disk Id) (start : Path) : Prop where
  | search {error : DiskError} (h : Config.find? disk start = pure (.error error)) :
      Unforeseen disk start
  | project {directory : Location} {settings : Except Config.Fault Config}
      (hFind : Config.find? disk start = pure (.ok (some directory)))
      (hLoad : Config.load disk (.ofLocation (directory ++ [Config.fileName])) = pure settings)
      (h : Unprepared disk directory settings) : Unforeseen disk start

theorem unforeseen_iff {fault : Config.Fault} :
    fault.Unforeseen ↔ Unprepared disk directory (.error fault) := by
  refine ⟨.settings, fun h => ?_⟩
  cases h with
  | settings h => exact h

/-- Where there are settings, nothing else counts. -/
theorem unprepared_iff {start : Path} {settings : Except Config.Fault Config}
    (hFind : Config.find? disk start = pure (.ok (some directory)))
    (hLoad : Config.load disk (.ofLocation (directory ++ [Config.fileName])) = pure settings) :
    Unprepared disk directory settings ↔ Unforeseen disk start := by
  refine ⟨.project hFind hLoad, fun h => ?_⟩
  cases h with
  | search h => cases hFind.symm.trans h
  | project hFound hLoaded h =>
      cases hFind.symm.trans hFound
      cases hLoad.symm.trans hLoaded
      exact h

/-- Nothing in the files of a project is in the way of an orderly end. -/
theorem checkProject_orderly {paths : List Path} (config : Config)
    (hFiles : projectFiles disk directory sources = pure (.ok paths)) :
    ∃ report, checkProject disk directory sources config = pure report ∧ report.Orderly := by
  have hFindings := checkFiles_reports config.entry (anchor_of_projectFiles hFiles)
    (Renderer.honest_new disk.linesOf config.color.isTrue)
  rw [checkProject, hFiles, pure_bind]
  cases paths with
  | nil => exact ⟨_, rfl, .inl rfl⟩
  | cons path paths =>
      simp only [hFindings, pure_bind]
      generalize (path :: paths).flatMap _ = messages
      cases messages with
      | nil => exact ⟨_, rfl, .inl rfl⟩
      | cons message messages =>
          refine ⟨_, rfl, orderly_of_errors rfl ?_⟩
          rw [errors_of_messages]
          exact List.cons_ne_nil message messages

/-- Finding the files of a project is. -/
theorem checkProject_answers (disk : Disk Id) (directory : Location) (sources : String)
    (config : Config) :
    ∃ report, checkProject disk directory sources config = pure report ∧
      report.Answers (∃ error, projectFiles disk directory sources = pure (.error error)) := by
  obtain ⟨answer, hFiles⟩ : ∃ answer, projectFiles disk directory sources = pure answer := ⟨_, rfl⟩
  cases answer with
  | error error =>
      refine ⟨⟨[], .broken (.disk error)⟩, ?_, .inr ⟨⟨_, rfl⟩, error, hFiles⟩⟩
      rw [checkProject, hFiles, pure_bind]
  | ok paths =>
      obtain ⟨report, hProject, hOrderly⟩ := checkProject_orderly config hFiles
      refine ⟨report, hProject, .inl ⟨hOrderly, ?_⟩⟩
      rintro ⟨error, hError⟩
      cases hFiles.symm.trans hError

/-- The files of a project cannot be found if one of two questions has no answer. -/
theorem projectFiles_error_iff (hSources : config.sources = .string sources)
    (hName : config.name.obstacle? disk.limits.writing = none) :
    (∃ error, projectFiles disk directory sources = pure (.error error)) ↔
      Unprepared disk directory (.ok config) := by
  constructor
  · rintro ⟨error, hFiles⟩
    obtain ⟨answer, hKind⟩ : ∃ answer,
        disk.kind? ((Path.ofLocation directory).join (.ofText sources)) = pure answer := ⟨_, rfl⟩
    cases answer with
    | error error => exact .noKind hSources hKind
    | ok kind =>
        have hRoot := sourceDirectory_of_kind hKind
        obtain ⟨answer, hBelow⟩ : ∃ answer, disk.below (if kind = some .directory
          then (Path.ofLocation directory).join (.ofText sources) else .ofLocation directory) =
            pure answer := ⟨_, rfl⟩
        cases answer with
        | error error => exact .noEntries hSources hKind hBelow
        | ok entries => cases hFiles.symm.trans (projectFiles_of_entries hRoot hBelow)
  · intro h
    cases h with
    | name h => cases hName.symm.trans h
    | noText h => exact absurd hSources (h sources)
    | @noKind _ _ error hText h =>
        obtain rfl := Toml.Value.string.inj (hSources.symm.trans hText)
        refine ⟨error, ?_⟩
        simp only [projectFiles, sourceDirectory, h, pure_bind]
    | @noEntries _ _ _ error hText hKind h =>
        obtain rfl := Toml.Value.string.inj (hSources.symm.trans hText)
        refine ⟨error, ?_⟩
        simp only [projectFiles, sourceDirectory_of_kind hKind, h, pure_bind]

/-- Settings that cannot be had are complained about, or else break the check off. -/
theorem refuse_answers (fault : Config.Fault) : (refuse fault).Answers fault.Unforeseen := by
  have hComplaint (message : String) : (Report.only .errors message 1).Orderly :=
    orderly_of_errors rfl (List.cons_ne_nil message [])
  cases fault with
  | unreadable error =>
      cases error with
      | missing path =>
          refine .inl ⟨hComplaint _, fun h => ?_⟩
          cases h with
          | unreadable hThere => exact hThere path rfl
      | isDirectory path => exact .inr ⟨⟨_, rfl⟩, .unreadable fun _ h => by cases h⟩
      | other description => exact .inr ⟨⟨_, rfl⟩, .unreadable fun _ h => by cases h⟩
  | malformed error =>
      cases error with
      | tooDeep => exact .inr ⟨⟨_, rfl⟩, .tooDeep⟩
      | malformed description => exact .inl ⟨hComplaint _, fun h => by cases h⟩
      | longInteger digits => exact .inl ⟨hComplaint _, fun h => by cases h⟩
  | noTable name => exact .inr ⟨⟨_, rfl⟩, .noTable name⟩
  | undecodable error => exact .inl ⟨hComplaint _, fun h => by cases h⟩
  | unknownEntry path found => exact .inl ⟨hComplaint _, fun h => by cases h⟩
  | unwritableEntry obstacle =>
      cases obstacle with
      | tooDeep => exact .inr ⟨⟨_, rfl⟩, .entryTooDeep⟩
      | longInteger => exact .inl ⟨hComplaint _, fun h => by cases h⟩

/-- Settings that are there lead to an orderly end if they can be used. -/
theorem checkWith_answers (disk : Disk Id) (directory : Location) (config : Config) :
    ∃ report, checkWith disk directory config = pure report ∧
      report.Answers (Unprepared disk directory (.ok config)) := by
  cases hName : config.name.obstacle? disk.limits.writing with
  | some obstacle =>
      refine ⟨⟨[], .broken (.unwritable obstacle)⟩, ?_, .inr ⟨⟨_, rfl⟩, .name hName⟩⟩
      rw [checkWith, hName]
  | none =>
      rw [checkWith, hName]
      cases hSources : config.sources with
      | string text =>
          obtain ⟨report, hProject, hAnswers⟩ := checkProject_answers disk directory text config
          refine ⟨report.after .output ("checking " ++ config.name.text ++ "..."), ?_,
            (hAnswers.of_iff (projectFiles_error_iff hSources hName)).after _⟩
          simp only [hProject, pure_bind]
      | boolean | integer | real | moment | array | table =>
          refine ⟨_, rfl, .inr ⟨⟨.sourcesNotText, rfl⟩, .noText fun text h => ?_⟩⟩
          rw [hSources] at h
          cases h

/-- How a check ends is up to the nearest settings. -/
theorem check_answers (disk : Disk Id) (start : Path) :
    ∃ report, check disk start = pure report ∧ report.Answers (Unforeseen disk start) := by
  obtain ⟨found, hFind⟩ : ∃ found, Config.find? disk start = pure found := ⟨_, rfl⟩
  rw [check, hFind, pure_bind]
  cases found with
  | error error => exact ⟨_, rfl, .inr ⟨⟨_, rfl⟩, .search hFind⟩⟩
  | ok nearest =>
      cases nearest with
      | none =>
          refine ⟨_, rfl, .inl ⟨orderly_of_errors rfl (List.cons_ne_nil _ []), fun h => ?_⟩⟩
          cases h with
          | search h => cases hFind.symm.trans h
          | project h => cases hFind.symm.trans h
      | some directory =>
          obtain ⟨settings, hLoad⟩ : ∃ settings,
              Config.load disk (.ofLocation (directory ++ [Config.fileName])) = pure settings :=
            ⟨_, rfl⟩
          have hProject := unprepared_iff hFind hLoad
          simp only [hLoad, pure_bind]
          cases settings with
          | error fault =>
              exact ⟨_, rfl, (refuse_answers fault).of_iff (unforeseen_iff.trans hProject)⟩
          | ok config =>
              obtain ⟨report, hReport, hAnswers⟩ := checkWith_answers disk directory config
              exact ⟨report, hReport, hAnswers.of_iff hProject⟩

end Command

end Scriptlet
