import Scriptlet.Command.Run
import Scriptlet.Proofs.Diagnostic.Colors

namespace Scriptlet

open Text

namespace Command

/-- What a report shows where there is no terminal. -/
def Report.plain (report : Report) (channel : Channel) : String := report.text false channel

open Report

theorem Report.shown_uncolored {message other : String} (h : uncolored message = uncolored other) :
    shown false message = shown false other := by
  have hShown (message : String) : shown false message = String.ofList (uncolored message ++ ['\n']) := by
    rw [shown, if_neg Bool.false_ne_true, eraseEscapes_cons_outside isOutside_lineFeed]
    rfl
  rw [hShown, hShown, h]

theorem plain_viewSource (source : Source) (entry : Entry) (color other : Bool) :
    (viewSource source entry color).plain = (viewSource source entry other).plain := by
  funext channel
  rw [viewSource, viewSource]
  cases source.parse entry with
  | ok node => rfl
  | error fault =>
      cases fault with
      | halted cause => rfl
      | rejected error =>
          have hShown := shown_uncolored (Renderer.uncolored_layout
            ((Renderer.new color).addSource source.filename source.text)
            ((Renderer.new other).addSource source.filename source.text) rfl error.diagnostic)
          simp only [plain, text, only, List.filterMap_cons, hShown]

variable {m : Type → Type} [Monad m] [LawfulMonad m]

/-- A request for a tree is answered alike with colours and without. -/
theorem plain_runView (disk : Disk m) (input : m (List Char)) (request : ViewRequest) (color : Bool) :
    plain <$> runView disk input { request with color := color } =
      plain <$> runView disk input request := by
  have hSource (source : Source) : (viewSource source request.entry color).plain =
      (viewSource source request.entry request.color).plain := plain_viewSource _ _ _ _
  have hInput : plain <$> viewInput input request.entry color =
      plain <$> viewInput input request.entry request.color := by
    simp only [viewInput, map_bind, map_pure, hSource]
  have hFile (name : String) : plain <$> viewFile disk name request.entry color =
      plain <$> viewFile disk name request.entry request.color := by
    simp only [viewFile, map_bind]
    congr 1
    funext answer
    cases answer with
    | error error => rfl
    | ok text => simp only [map_pure, hSource]
  simp only [runView, map_bind]
  congr 1
  funext problem
  cases problem with
  | some problem => rfl
  | none =>
      simp only
      split
      · rfl
      · split
        · exact hInput
        · split
          · exact hFile _
          · rfl

/-! The colour option on a command line. -/

/-- The same words with options in front of their own. -/
def Words.behind (words : Words) (options : List (String × String)) : Words :=
  { words with options := options ++ words.options }

theorem Words.addOption_behind (words : Words) (options : List (String × String)) (name value : String) :
    (words.behind options).addOption name value = (words.addOption name value).behind options := by
  simp [behind, addOption]

theorem takeApart_behind (scope : Scope) (found : Words) (options : List (String × String))
    (arguments : List String) :
    takeApart scope (found.behind options) arguments =
      (takeApart scope found arguments).map fun words => words.behind options := by
  fun_induction takeApart scope found arguments with
  | case1 found => rfl
  | case2 found later => simp [takeApart, Words.behind, Except.map]
  | case3 found word later hMark hOption name value hSplit hUnknown =>
      simp [takeApart, hMark, hOption, hSplit, hUnknown, Except.map]
  | case4 found word later hMark hOption name hPlain value hSplit =>
      simp [takeApart, hMark, hOption, hSplit, hPlain, Except.map]
  | case5 found word later hMark hOption name hPlain hSplit ih =>
      simp [takeApart, hMark, hOption, hSplit, hPlain, Words.addOption_behind, ih]
  | case6 found word later hMark hOption name hValued value hSplit ih =>
      simp [takeApart, hMark, hOption, hSplit, hValued, Words.addOption_behind, ih]
  | case7 found word hMark hOption name hValued hSplit =>
      simp [takeApart, hMark, hOption, hSplit, hValued, Except.map]
  | case8 found word hMark hOption name hValued value later hSplit ih =>
      simp [takeApart, hMark, hOption, hSplit, hValued, Words.addOption_behind, ih]
  | case9 found word later hMark hOption hMixed ih =>
      rw [takeApart, if_neg hMark, if_neg hOption, if_pos hMixed, ← ih]
      rfl
  | case10 found word later hMark hOption hMixed =>
      rw [takeApart, if_neg hMark, if_neg hOption, if_neg hMixed]
      rfl

/-- The same request, for a tree with or without colours. -/
def Request.inColor (color : Bool) : Request → Request
  | .view request => .view { request with color := color }
  | request => request

theorem immediate?_behind (scope : Scope) (words : Words) {name : String} (hHelp : name ≠ "--help")
    (hVersion : name ≠ "--version") :
    Request.immediate? scope (words.behind [(name, "")]) = Request.immediate? scope words := by
  simp [Request.immediate?, Words.behind, hHelp, hVersion]

theorem inColor_of_immediate {scope : Scope} {words : Words} {request : Request}
    (h : Request.immediate? scope words = some request) (color : Bool) :
    request.inColor color = request := by
  obtain ⟨⟨name, _⟩, _, hAsked⟩ := List.exists_of_findSome?_eq_some h
  simp only at hAsked
  split at hAsked
  · cases hAsked
    rfl
  · split at hAsked
    · cases hAsked
      rfl
    · cases hAsked

theorem value?_behind (words : Words) {name option : String} (h : option ≠ name) :
    (words.behind [(name, "")]).value? option = words.value? option := by
  have hOther : (option == name) = false := by simp [h]
  simp [Words.value?, Words.behind, List.lookup_append, List.lookup_cons, hOther]

/-- An option that asks for none of the other things only bears on the colours. -/
theorem ofViewWords_behind (words : Words) {name : String} (hEntry : "--entry" ≠ name)
    (hInput : "--stdin" ≠ name) :
    ∃ color, Request.ofViewWords (words.behind [(name, "")]) =
      (Request.ofViewWords words).map (Request.inColor color) := by
  refine ⟨Request.colorOf (words.behind [(name, "")]), ?_⟩
  have hOthers : (words.behind [(name, "")]).others = words.others := rfl
  simp only [Request.ofViewWords, Words.has, value?_behind words hEntry, value?_behind words hInput,
    hOthers]
  cases Entry.ofName? ((words.value? "--entry").getD Entry.program.name) <;> rfl

/-- A colour option behind the name of the command only bears on the colours. -/
theorem ofArguments_color {name : String} (hName : name = "--color" ∨ name = "--no-color")
    (arguments : List String) :
    ∃ color, Request.ofArguments ("view" :: name :: arguments) =
      (Request.ofArguments ("view" :: arguments)).map (Request.inColor color) := by
  have hView (rest : List String) :
      Request.ofArguments ("view" :: rest) = Request.ofCommand .view rest := rfl
  have hWords : takeApart .view ⟨[], []⟩ (name :: arguments) =
      (takeApart .view ⟨[], []⟩ arguments).map fun words => words.behind [(name, "")] := by
    rw [← takeApart_behind]
    rcases hName with rfl | rfl <;> rfl
  have hOther : "--entry" ≠ name ∧ "--stdin" ≠ name ∧ name ≠ "--help" ∧ name ≠ "--version" := by
    rcases hName with rfl | rfl <;> decide
  obtain ⟨hEntry, hInput, hHelp, hVersion⟩ := hOther
  rw [hView, hView, Request.ofCommand, Request.ofCommand, hWords]
  cases takeApart .view ⟨[], []⟩ arguments with
  | error misuse => exact ⟨true, rfl⟩
  | ok words =>
      obtain ⟨color, hAsked⟩ := ofViewWords_behind words hEntry hInput
      refine ⟨color, ?_⟩
      simp only [Except.map, bind, Except.bind, immediate?_behind .view words hHelp hVersion, hAsked]
      cases hShort : Request.immediate? .view words with
      | some request => exact congrArg Except.ok (inColor_of_immediate hShort color).symm
      | none => cases Request.ofViewWords words <;> rfl

/-- Requests that differ in the colours alone are answered alike where there is no
terminal. -/
theorem plain_run (disk : Disk m) (input : m (List Char)) {arguments others : List String} {color : Bool}
    (h : Request.ofArguments arguments = (Request.ofArguments others).map (Request.inColor color)) :
    plain <$> run disk input arguments = plain <$> run disk input others := by
  rw [run, run, h]
  cases Request.ofArguments others with
  | error error => rfl
  | ok request =>
      cases request with
      | view request => exact plain_runView disk input request color
      | version | help | check => rfl

end Command

open Command in
/-- Colours are nothing but control sequences. What is erased of a text are the
control sequences in it. A diagnostic that is shown with colours and one that is
shown without them come to the same when these are erased, whatever the texts in
the diagnostic and the lines of the files hold of such sequences. So the command
line for a tree gives the same output and the same errors with either option for
the colours, unless they go to a terminal. -/
theorem colors_erased {m : Type → Type} [Monad m] [LawfulMonad m] :
    (∀ text left, Erased text left ↔ left = eraseEscapes text) ∧
    (∀ (linesOf : String → m (List String)) (recorded : List (String × List String))
      (diagnostic : Diagnostic),
      (fun shown => eraseEscapes shown.1.toList) <$>
          Renderer.render linesOf ⟨true, recorded⟩ diagnostic =
        (fun shown => eraseEscapes shown.1.toList) <$>
          Renderer.render linesOf ⟨false, recorded⟩ diagnostic) ∧
    ∀ (disk : Disk m) (input : m (List Char)) (arguments : List String),
      (fun report => report.text false) <$> run disk input ("view" :: "--color" :: arguments) =
        (fun report => report.text false) <$>
          run disk input ("view" :: "--no-color" :: arguments) := by
  refine ⟨fun text left => erased_iff, fun linesOf recorded diagnostic => ?_,
    fun disk input arguments => ?_⟩
  · exact Renderer.uncolored_render ⟨false, recorded⟩ linesOf true diagnostic
  · obtain ⟨_, hColor⟩ := ofArguments_color (.inl rfl) arguments
    obtain ⟨_, hNoColor⟩ := ofArguments_color (.inr rfl) arguments
    exact (plain_run disk input hColor).trans (plain_run disk input hNoColor).symm

/-- A message that ends with the beginning of a sequence, in front of a colour and
of a note that could end it. -/
theorem colors_erased_unfinished :
    let diagnostic : Diagnostic := ⟨"E1", "a\x1b[", [], ["1m"]⟩
    let linesOf : String → Id (List String) := fun _ => pure []
    let shown (color : Bool) := (Renderer.render linesOf (.new color) diagnostic).1.toList
    shown true ≠ shown false ∧ eraseEscapes (shown true) = "error[E1]: a\x1b[\n  = note: 1m".toList := by
  intro diagnostic linesOf shown
  have hSame : eraseEscapes (shown true) = eraseEscapes (shown false) :=
    (@colors_erased Id _ _).2.1 linesOf [] diagnostic
  refine ⟨by decide, hSame.trans ?_⟩
  decide

end Scriptlet
