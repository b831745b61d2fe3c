import Mathlib.Data.List.Induction
import Scriptlet.Proofs.Diagnostic.Renderer
import Scriptlet.Proofs.Files.Tree

namespace Scriptlet

open Text

/-- What can happen while a renderer is in use: a text is registered for a file,
a diagnostic is shown, a file is written, or removed where no bytes are given, or
there are other files and directories altogether. -/
inductive Event where
  | register (file : String) (text : List Char)
  | display (diagnostic : Diagnostic)
  | setFile (directory : Location) (name : FileName) (bytes : Option (List UInt8))
  | replaceAll (files : FileTree)

namespace Event

/-- The text that is registered for a file, if one is. -/
def textFor? (file : String) : Event → Option (List Char)
  | register other text => if other = file then some text else none
  | _ => none

/-- Whether a diagnostic is shown that points into a file. -/
def pointsInto (file : String) : Event → Bool
  | display diagnostic => diagnostic.pointers.any fun pointer => pointer.span.file = file
  | _ => false

/-- Whether something is done to the place that the name of a file leads to. -/
def touches (workingDirectory : Location) (file : String) : Event → Bool
  | setFile directory name _ => directory ++ [name] = (Path.ofText file).target workingDirectory
  | replaceAll _ => true
  | _ => false

/-- Whether the event is about a file. -/
def concerns (workingDirectory : Location) (file : String) (event : Event) : Bool :=
  (event.textFor? file).isSome || event.pointsInto file || event.touches workingDirectory file

/-- The text that was registered last for a file. -/
def registered? (file : String) (events : List Event) : Option (List Char) :=
  events.reverse.findSome? (textFor? file)

theorem registered?_snoc (file : String) (events : List Event) (event : Event) :
    registered? file (events ++ [event]) = (event.textFor? file).or (registered? file events) := by
  rw [registered?, List.reverse_append]
  cases h : event.textFor? file <;> simp [registered?, h]

end Event

/-- The files on the disk and a renderer. -/
structure Session where
  files : FileTree
  renderer : Renderer

namespace Session

/-- The start with a renderer that knows no file. -/
def start (color : Bool) (files : FileTree) : Session := ⟨files, Renderer.new color⟩

section

variable (workingDirectory : Location)

/-- Shows a diagnostic. -/
def display (session : Session) (diagnostic : Diagnostic) : String × Session :=
  let shown := (session.renderer.render (session.files.disk workingDirectory).linesOf diagnostic).run
  (shown.1, { session with renderer := shown.2 })

/-- What an event makes of a session. -/
def next (session : Session) : Event → Session
  | .register file text => { session with renderer := session.renderer.addSource file text }
  | .display diagnostic => (session.display workingDirectory diagnostic).2
  | .setFile directory name bytes => { session with files := session.files.setFile directory name bytes }
  | .replaceAll files => { session with files }

/-- What events make of a session, one after the other. -/
def run (session : Session) (events : List Event) : Session :=
  events.foldl (next workingDirectory) session

/-- The lines that a diagnostic would be shown with if it pointed into a file. -/
def linesFor (session : Session) (file : String) : List String :=
  session.renderer.linesFor (session.files.disk workingDirectory).linesOf file

/-- The files on the disk when a diagnostic is shown for the first time that
points into a file. -/
def filesAtFirst? (file : String) : Session → List Event → Option FileTree
  | _, [] => none
  | session, event :: events =>
    if event.pointsInto file then some session.files
    else filesAtFirst? file (session.next workingDirectory event) events

end

variable {workingDirectory : Location} {file : String} {session other : Session} {event : Event}

theorem run_snoc (session : Session) (events : List Event) (event : Event) :
    session.run workingDirectory (events ++ [event]) =
      (session.run workingDirectory events).next workingDirectory event := by
  simp [run]

theorem filesAtFirst?_snoc (session : Session) (events : List Event) (event : Event) :
    filesAtFirst? workingDirectory file session (events ++ [event]) =
      (filesAtFirst? workingDirectory file session events).or
        (if event.pointsInto file then some (session.run workingDirectory events).files else none) := by
  induction events generalizing session with
  | nil => simp [filesAtFirst?, run]
  | cons first events ih =>
      rw [List.cons_append, filesAtFirst?, filesAtFirst?, ih]
      cases first.pointsInto file <;> rfl

/-! One event. -/

theorem color_next (session : Session) (event : Event) :
    (session.next workingDirectory event).renderer.color = session.renderer.color := by
  cases event with
  | register file text => rfl
  | display diagnostic => rw [next, display, Renderer.render_run, Renderer.color_rememberAll]
  | setFile directory name bytes => rfl
  | replaceAll files => rfl

/-- The lines of a file become recorded when a text is registered for it, and
when a diagnostic is shown that points into it. -/
theorem lookup_next (session : Session) (event : Event) (file : String) :
    (session.next workingDirectory event).renderer.recorded.lookup file =
      ((event.textFor? file).map splitLines).or
        (if event.pointsInto file then some (session.linesFor workingDirectory file)
          else session.renderer.recorded.lookup file) := by
  cases event with
  | register registered text =>
      have hPoints : (Event.register registered text).pointsInto file = false := rfl
      rw [next, Renderer.addSource, Renderer.lookup_record, Event.textFor?, hPoints]
      by_cases hSame : file = registered
      · rw [if_pos hSame, if_pos hSame.symm]
        rfl
      · rw [if_neg hSame, if_neg (Ne.symm hSame)]
        rfl
  | display diagnostic =>
      rw [next, display, Renderer.render_run, Renderer.lookup_rememberAll]
      rfl
  | setFile directory name bytes => rfl
  | replaceAll files => rfl

/-! All events. -/

theorem color_run (session : Session) (events : List Event) :
    (session.run workingDirectory events).renderer.color = session.renderer.color := by
  induction events generalizing session with
  | nil => rfl
  | cons event events ih => exact (ih _).trans (color_next session event)

/-- What is recorded for a file: the text registered last or else the lines that
the file had when it was first pointed into. -/
theorem lookup_run (color : Bool) (files : FileTree) (events : List Event) (file : String) :
    ((start color files).run workingDirectory events).renderer.recorded.lookup file =
      ((Event.registered? file events).map splitLines).or
        ((filesAtFirst? workingDirectory file (start color files) events).map fun files =>
          files.linesFrom workingDirectory file) := by
  -- From the end, since a later text takes the place of all that was settled before.
  induction events using List.reverseRecOn with
  | nil => rfl
  | append_singleton events event ih =>
      rw [run_snoc, lookup_next, Event.registered?_snoc, filesAtFirst?_snoc]
      cases event.textFor? file with
      | some text => rfl
      | none =>
          cases hPoints : event.pointsInto file with
          | false => simpa using ih
          | true =>
              -- The files are looked at only if neither a text nor an earlier look settled it.
              rw [linesFor, Renderer.linesFor, ih, FileTree.linesOf_disk]
              cases Event.registered? file events <;>
                cases filesAtFirst? workingDirectory file (start color files) events <;> rfl

/-- What counts in a session for one file. -/
structure AgreeOn (workingDirectory : Location) (file : String) (session other : Session) : Prop where
  recorded : session.renderer.recorded.lookup file = other.renderer.recorded.lookup file
  files : session.files.AgreeAt other.files ((Path.ofText file).target workingDirectory)

namespace AgreeOn

theorem refl (session : Session) : AgreeOn workingDirectory file session session :=
  ⟨rfl, FileTree.AgreeAt.refl session.files _⟩

theorem linesFor (h : AgreeOn workingDirectory file session other) :
    session.linesFor workingDirectory file = other.linesFor workingDirectory file := by
  rw [Session.linesFor, Session.linesFor, Renderer.linesFor, Renderer.linesFor, h.recorded,
    FileTree.linesOf_disk, FileTree.linesOf_disk, h.files.linesFrom]

/-- An event keeps two sessions alike that were alike. -/
theorem next (h : AgreeOn workingDirectory file session other) (event : Event) :
    AgreeOn workingDirectory file (session.next workingDirectory event)
      (other.next workingDirectory event) where
  recorded := by rw [lookup_next, lookup_next, h.linesFor, h.recorded]
  files := by
    cases event with
    | register registered text => exact h.files
    | display diagnostic => exact h.files
    | setFile directory name bytes => exact h.files.setFile directory name bytes
    | replaceAll files => exact FileTree.AgreeAt.refl files _

/-- An event that is not about the file might as well not happen. -/
theorem next_left (h : AgreeOn workingDirectory file session other)
    (hOther : event.concerns workingDirectory file = false) :
    AgreeOn workingDirectory file (session.next workingDirectory event) other := by
  simp only [Event.concerns, Bool.or_eq_false_iff, Option.isSome_eq_false_iff, Option.isNone_iff_eq_none]
    at hOther
  obtain ⟨⟨hText, hPoints⟩, hTouches⟩ := hOther
  refine ⟨?_, ?_⟩
  · rw [lookup_next, hText, hPoints]
    exact h.recorded
  · cases event with
    | register registered text => exact h.files
    | display diagnostic => exact h.files
    | setFile directory name bytes => exact h.files.setFile_left (of_decide_eq_false hTouches) bytes
    | replaceAll files => cases hTouches

/-- The events that are about the file do the same without the others. -/
theorem run (h : AgreeOn workingDirectory file session other) (events : List Event) :
    AgreeOn workingDirectory file (session.run workingDirectory events)
      (other.run workingDirectory (events.filter (Event.concerns workingDirectory file))) := by
  induction events generalizing session other with
  | nil => exact h
  | cons event events ih =>
      cases hConcerns : event.concerns workingDirectory file with
      | true =>
          rw [List.filter_cons_of_pos hConcerns]
          exact ih (h.next event)
      | false =>
          rw [List.filter_cons_of_neg (by simp [hConcerns])]
          exact ih (h.next_left hConcerns)

end AgreeOn

end Session

open Session in
/-- The lines of source that a renderer shows, after any events since it knew no
file. A diagnostic is shown with the lines for the files it points into, and with
no others. Those of a file are the ones of the text that was registered last for
it. Where there is none, they are those that the file had when it was first
pointed into, which is now if it has not been. Only the events that are about the
file have a part in that. -/
theorem lines_shown (workingDirectory : Location) (color : Bool) (files : FileTree) (events : List Event) :
    let session := (start color files).run workingDirectory events
    (∀ diagnostic, (session.display workingDirectory diagnostic).1 =
      Renderer.layout ⟨color, diagnostic.pointers.map fun pointer =>
        (pointer.span.file, session.linesFor workingDirectory pointer.span.file)⟩ diagnostic) ∧
    ∀ file,
      session.linesFor workingDirectory file =
        (match Event.registered? file events with
        | some text => splitLines text
        | none => ((filesAtFirst? workingDirectory file (start color files) events).getD
            session.files).linesFrom workingDirectory file) ∧
      session.linesFor workingDirectory file =
        ((start color files).run workingDirectory
          (events.filter (Event.concerns workingDirectory file))).linesFor workingDirectory file := by
  refine ⟨fun diagnostic => ?_, fun file => ⟨?_, ((AgreeOn.refl _).run events).linesFor⟩⟩
  · rw [display, Renderer.render_run, color_run]
    rfl
  · rw [linesFor, Renderer.linesFor, lookup_run, FileTree.linesOf_disk]
    cases Event.registered? file events with
    | some text => rfl
    | none => cases filesAtFirst? workingDirectory file (start color files) events <;> rfl

/-- A file that was missing when it was first pointed into has no lines after it
was made. -/
example :
    let missing : Diagnostic := ⟨"E100", "", [⟨⟨"a", 1, 1, 1, 1⟩, ""⟩], []⟩
    let events := [.display missing, .setFile [] ⟨"a", by decide⟩ (some [49])]
    ((Session.start false .empty).run [] events).linesFor [] "a" = [] := by
  decide

end Scriptlet
