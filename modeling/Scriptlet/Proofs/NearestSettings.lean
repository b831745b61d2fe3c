import Mathlib.Data.List.Induction
import Scriptlet.Project.Config
import Scriptlet.Proofs.Files.Tree

/-! The settings that apply at a path are those in the nearest directory that has
any. They are sought by going up from directory to directory, in a tree of files
and directories whose names may have any length. -/

namespace Scriptlet

namespace Config

/-- Where the search for settings begins: where the path leads, or in the directory
of the file if it leads to one. -/
def origin (tree : FileTree) (workingDirectory : Location) (start : Path) : Location :=
  match tree.content (start.target workingDirectory) with
  | .file _ => (start.target workingDirectory).dropLast
  | _ => start.target workingDirectory

/-- Something has the name of the settings file in the directory. -/
def HasSettings (tree : FileTree) (directory : Location) : Prop :=
  tree.content (directory ++ [fileName]) ≠ .nothing

/-- Of the place and what is above it, up to the root, the directory is the deepest
one with settings. -/
structure IsNearest (tree : FileTree) (place directory : Location) : Prop where
  above : directory <+: place
  settings : HasSettings tree directory
  deepest : ∀ other, other <+: place → HasSettings tree other → other <+: directory

/-- The search as a loop. A round looks into one place and goes on with the parent,
until the place is its own parent. -/
inductive Search (tree : FileTree) : Location → Option Location → Prop where
  | found {place : Location} (h : HasSettings tree place) : Search tree place (some place)
  | top {place : Location} (h : ¬ HasSettings tree place) (hTop : place.dropLast = place) :
    Search tree place none
  | up {place : Location} {answer : Option Location} (h : ¬ HasSettings tree place)
    (hBelow : place.dropLast ≠ place) (others : Search tree place.dropLast answer) :
    Search tree place answer

variable {tree : FileTree} {workingDirectory place directory other : Location}
  {answer : Option Location}

theorem dropLast_eq_self_iff : place.dropLast = place ↔ place = [] := by
  constructor
  · intro h
    have hLength := congrArg List.length h
    rw [List.length_dropLast] at hLength
    exact List.length_eq_zero_iff.mp (by omega)
  · rintro rfl
    rfl

theorem IsNearest.unique (h : IsNearest tree place directory) (hOther : IsNearest tree place other) :
    directory = other := by
  have hBelow := hOther.deepest directory h.above h.settings
  have hAbove := h.deepest other hOther.above hOther.settings
  exact hBelow.eq_of_length (Nat.le_antisymm hBelow.length_le hAbove.length_le)

/-- A place without settings leaves the search to its parent. -/
theorem prefix_parent_iff (h : ¬ HasSettings tree place) (hSettings : HasSettings tree other) :
    other <+: place ↔ other <+: place.dropLast := by
  refine ⟨fun hAbove => ?_, fun hAbove => hAbove.trans (List.dropLast_prefix place)⟩
  induction place using List.reverseRecOn with
  | nil => exact hAbove
  | append_singleton parent name =>
      rw [List.dropLast_concat]
      rcases List.prefix_concat_iff.mp hAbove with rfl | hParent
      · exact absurd hSettings h
      · exact hParent

/-- What a search from a place has to answer. -/
def IsAnswer (tree : FileTree) (place : Location) : Option Location → Prop
  | some directory => IsNearest tree place directory
  | none => ∀ other, other <+: place → ¬ HasSettings tree other

theorem IsAnswer.of_parent (h : IsAnswer tree place.dropLast answer) (hNone : ¬ HasSettings tree place) :
    IsAnswer tree place answer := by
  cases answer with
  | some directory =>
      refine ⟨h.above.trans (List.dropLast_prefix place), h.settings, fun other hAbove hSettings => ?_⟩
      exact h.deepest other ((prefix_parent_iff hNone hSettings).mp hAbove) hSettings
  | none =>
      intro other hAbove hSettings
      exact h other ((prefix_parent_iff hNone hSettings).mp hAbove) hSettings

/-- A right answer names the nearest directory if there is one. -/
theorem IsAnswer.eq_some_iff (h : IsAnswer tree place answer) :
    answer = some directory ↔ IsNearest tree place directory := by
  cases answer with
  | some found =>
      rw [Option.some.injEq]
      refine ⟨fun hSame => hSame ▸ h, fun hNearest => ?_⟩
      exact IsNearest.unique h hNearest
  | none =>
      have hOther : ¬ IsNearest tree place directory :=
        fun hNearest => h directory hNearest.above hNearest.settings
      exact iff_of_false (Option.some_ne_none directory).symm hOther

theorem IsAnswer.eq_none_iff (h : IsAnswer tree place answer) :
    answer = none ↔ ∀ other, other <+: place → ¬ HasSettings tree other := by
  cases answer with
  | some found =>
      exact iff_of_false (Option.some_ne_none found) fun hAll => hAll found h.above h.settings
  | none => exact iff_of_true rfl h

/-- The loop ends with the right answer, by the rounds that it takes. -/
theorem Search.isAnswer (h : Search tree place answer) : IsAnswer tree place answer := by
  induction h with
  | found h => exact ⟨List.prefix_rfl, h, fun other hAbove _ => hAbove⟩
  | top h hTop =>
      intro other hAbove hSettings
      rw [dropLast_eq_self_iff.mp hTop] at hAbove h
      exact h (List.prefix_nil.mp hAbove ▸ hSettings)
  | up h _ _ ih => exact ih.of_parent h

/-! The search that runs. -/

theorem ancestors_concat (parent : Location) (name : FileName) :
    ancestors (parent ++ [name]) = (parent ++ [name]) :: ancestors parent := by
  rw [ancestors, List.length_append, List.length_singleton, List.range_succ_eq_map, List.map_cons,
    List.map_map, Nat.sub_zero, List.take_of_length_le (by simp), ancestors]
  congr 1
  refine List.map_congr_left fun up _ => ?_
  simp only [Function.comp_apply, Nat.succ_eq_add_one, Nat.add_sub_add_right,
    List.take_append_of_le_length (Nat.sub_le _ _)]

theorem kind?_disk (tree : FileTree) (workingDirectory place : Location) :
    (tree.disk workingDirectory).kind? (.ofLocation place) =
      pure (.ok ((tree.at? place).map FileTree.kind)) := by
  simp only [FileTree.disk, FileTree.diskWithin, FileTree.find?_ofLocation, pure]

theorem hasSettings_iff :
    HasSettings tree directory ↔ ∃ found, tree.at? (directory ++ [fileName]) = some found := by
  rw [HasSettings, FileTree.content]
  rcases tree.at? (directory ++ [fileName]) with _ | ⟨bytes⟩ | ⟨children⟩ <;> simp [FileTree.contentOf]

theorem firstWith_of_settings (h : HasSettings tree directory) (others : List Location) :
    firstWith (tree.disk workingDirectory) (directory :: others) =
      pure (.ok (some directory)) := by
  obtain ⟨found, hFound⟩ := hasSettings_iff.mp h
  simp [firstWith, kind?_disk, hFound]

theorem firstWith_of_none (h : ¬ HasSettings tree directory) (others : List Location) :
    firstWith (tree.disk workingDirectory) (directory :: others) =
      firstWith (tree.disk workingDirectory) others := by
  have hNone : tree.at? (directory ++ [fileName]) = none := by
    simpa [hasSettings_iff, Option.eq_none_iff_forall_ne_some] using h
  simp [firstWith, kind?_disk, hNone]

/-- The places are looked into in the order of the loop, which so comes to an end. -/
theorem search_firstWith (tree : FileTree) (workingDirectory place : Location) :
    ∃ answer, firstWith (tree.disk workingDirectory) (ancestors place) = pure (.ok answer) ∧
      Search tree place answer := by
  -- From the root on: the rounds above a place are those of its parent.
  induction place using List.reverseRecOn with
  | nil =>
      by_cases h : HasSettings tree []
      · exact ⟨_, firstWith_of_settings h [], .found h⟩
      · exact ⟨_, firstWith_of_none h [], .top h rfl⟩
  | append_singleton parent name ih =>
      rw [ancestors_concat]
      by_cases h : HasSettings tree (parent ++ [name])
      · exact ⟨_, firstWith_of_settings h _, .found h⟩
      · obtain ⟨answer, hAnswer, hSearch⟩ := ih
        rw [firstWith_of_none h]
        exact ⟨answer, hAnswer, .up h (by simp) (by rwa [List.dropLast_concat])⟩

/-- A path to a file stands for the directory of the file. -/
theorem find?_eq_firstWith (tree : FileTree) (workingDirectory : Location) (start : Path) :
    find? (tree.disk workingDirectory) start =
      firstWith (tree.disk workingDirectory) (ancestors (origin tree workingDirectory start)) := by
  have hWorking : (tree.disk workingDirectory).workingDirectory = pure workingDirectory := rfl
  simp only [find?, hWorking, kind?_disk, pure_bind, origin, FileTree.content]
  rcases tree.at? (start.target workingDirectory) with _ | ⟨bytes⟩ | ⟨children⟩ <;> rfl

end Config

open Config

/-- The settings that apply at a path are the nearest ones. The search begins where
the path leads, which for a path that can be followed is where its steps do, or in the
directory of the file that is there. It goes up and comes to an end; it finds the file
in a directory exactly if that is the deepest one with settings on the way to the root,
and nothing exactly if there are none on this way, in the root neither. -/
theorem nearest_settings (tree : FileTree) (workingDirectory : Location) (start : Path) :
    (∀ found, tree.find? workingDirectory start = some found →
      tree.at? (start.target workingDirectory) = some found) ∧
    (∃ answer, Config.find? (tree.disk workingDirectory) start = pure (.ok answer) ∧
      Search tree (origin tree workingDirectory start) answer) ∧
    (∀ directory, Config.find? (tree.disk workingDirectory) start = pure (.ok (some directory)) ↔
      IsNearest tree (origin tree workingDirectory start) directory) ∧
    (Config.find? (tree.disk workingDirectory) start = pure (.ok none) ↔
      ∀ directory, directory <+: origin tree workingDirectory start →
        ¬ HasSettings tree directory) := by
  obtain ⟨answer, hFirst, hSearch⟩ :=
    search_firstWith tree workingDirectory (origin tree workingDirectory start)
  have hFind : Config.find? (tree.disk workingDirectory) start = pure (.ok answer) :=
    (find?_eq_firstWith tree workingDirectory start).trans hFirst
  have hAnswer := hSearch.isAnswer
  have hSame (other : Option Location) :
      Config.find? (tree.disk workingDirectory) start = pure (.ok other) ↔ answer = other := by
    rw [hFind]
    exact ⟨fun h => Except.ok.inj h, fun h => h ▸ rfl⟩
  exact ⟨fun found => FileTree.at?_target, ⟨answer, hFind, hSearch⟩,
    fun directory => (hSame _).trans hAnswer.eq_some_iff, (hSame _).trans hAnswer.eq_none_iff⟩

/-- A step up from a directory with settings leads past them, also on the way to a
file that is not there. -/
example :
    let source : FileName := ⟨"src", by decide⟩
    let tree : FileTree := .directory
      [(Config.fileName, .file []), (source, .directory [(Config.fileName, .directory [])])]
    Config.find? (tree.disk [source]) (.ofText "lib/a.mvs") = pure (.ok (some [source])) ∧
      Config.find? (tree.disk [source]) (.ofText "../lib/a.mvs") = pure (.ok (some [])) :=
  ⟨rfl, rfl⟩

end Scriptlet
