import Scriptlet.Files.Tree
import Scriptlet.Text.Lines

namespace Scriptlet

/-- What there can be at a place. -/
inductive Content where
  | nothing
  | directory
  | file (bytes : List UInt8)
  deriving DecidableEq

namespace FileTree

def contentOf : Option FileTree → Content
  | none => .nothing
  | some (.directory _) => .directory
  | some (.file bytes) => .file bytes

/-- What there is at a place. -/
def content (tree : FileTree) (place : Location) : Content := contentOf (tree.at? place)

variable {tree other child new : FileTree} {name : FileName} {directory place rest : Location}
  {children : List (FileName × FileTree)} {found : Content}

theorem content_file (bytes : List UInt8) (rest : Location) :
    (file bytes).content rest = if rest = [] then .file bytes else .nothing := by
  cases rest <;> rfl

theorem content_below : (FileTree.directory children).content (name :: rest) =
    (children.lookup name).elim .nothing fun child => child.content rest := by
  rw [content, at?, child?]
  cases children.lookup name <;> rfl

theorem content_below_of_lookup (h : children.lookup name = some child) (rest : Location) :
    (FileTree.directory children).content (name :: rest) = child.content rest := by
  rw [content_below, h]
  rfl

theorem content_eq_directory_iff :
    tree.content place = .directory ↔ ∃ children, tree.at? place = some (.directory children) := by
  rw [content]
  rcases tree.at? place with _ | ⟨bytes⟩ | ⟨children⟩ <;> simp [contentOf]

/-- The way to a directory begins in a directory. -/
theorem exists_child (h : tree.content (name :: rest) = .directory) :
    ∃ children child, tree = .directory children ∧ children.lookup name = some child ∧
      child.content rest = .directory := by
  cases tree with
  | file bytes => cases h
  | directory children =>
      cases hChild : children.lookup name with
      | none =>
          rw [content_below, hChild] at h
          cases h
      | some child => exact ⟨children, child, rfl, hChild, content_below_of_lookup hChild rest ▸ h⟩

/-- There is nothing below what is not a directory. -/
theorem content_eq_nothing (h : (FileTree.directory children).content [name] ≠ .directory)
    (hRest : rest ≠ []) : (FileTree.directory children).content (name :: rest) = .nothing := by
  rw [content_below] at h ⊢
  cases hChild : children.lookup name with
  | none => rfl
  | some child =>
      rw [hChild] at h
      cases child with
      | file bytes => exact (content_file bytes rest).trans (if_neg hRest)
      | directory below => exact absurd rfl h

theorem lookup_without (children : List (FileName × FileTree)) (name key : FileName) :
    (children.filter fun c => c.1 ≠ name).lookup key = if key = name then none else children.lookup key := by
  induction children with
  | nil => simp
  | cons c children ih =>
      obtain ⟨own, tree⟩ := c
      rw [List.filter_cons]
      by_cases hOwn : own = name
      · rw [if_neg (by simp [hOwn]), ih, hOwn]
        by_cases hKey : key = name
        · rw [if_pos hKey, if_pos hKey]
        · rw [if_neg hKey, if_neg hKey, List.lookup_cons, beq_false_of_ne hKey]
      · rw [if_pos (by simp [hOwn]), List.lookup_cons, List.lookup_cons, ih]
        by_cases hKey : key = own
        · simp only [hKey, hOwn, beq_self_eq_true, if_false]
        · simp only [beq_false_of_ne hKey]

/-! What a change in a directory leaves as it was. -/

theorem content_setChild (key : FileName) (rest : Location) :
    ((FileTree.directory children).setChild name new).content (key :: rest) =
      if key = name then new.content rest else (FileTree.directory children).content (key :: rest) := by
  rw [setChild, content_below, content_below, List.lookup_cons, lookup_without]
  by_cases hKey : key = name
  · simp only [hKey, beq_self_eq_true, if_true, Option.elim_some]
  · simp only [hKey, beq_false_of_ne hKey, if_false]

theorem content_erase (key : FileName) (rest : Location) :
    ((FileTree.directory children).erase [name]).content (key :: rest) =
      if key = name then .nothing else (FileTree.directory children).content (key :: rest) := by
  rw [erase, content_below, content_below, lookup_without]
  by_cases hKey : key = name
  · rw [if_pos hKey, if_pos hKey]
    rfl
  · rw [if_neg hKey, if_neg hKey]

/-- In the second tree the given content is at one place, and everywhere else
what is there in the first one. -/
def ChangedAt (tree other : FileTree) (place : Location) (found : Content) : Prop :=
  ∀ p, other.content p = if p = place then found else tree.content p

/-- A name that stood for no directory, and stands for none then, is all that
changes. -/
theorem changedAt_name (hFree : (FileTree.directory children).content [name] ≠ .directory)
    (hRoot : other.content [] = .directory)
    (h : ∀ key rest, other.content (key :: rest) =
      if key = name then if rest = [] then found else .nothing
      else (FileTree.directory children).content (key :: rest)) :
    ChangedAt (.directory children) other [name] found := by
  intro p
  cases p with
  | nil => exact hRoot
  | cons key rest =>
      rw [h key rest]
      by_cases hKey : key = name
      · subst hKey
        by_cases hRest : rest = []
        · simp only [hRest, if_true]
        · rw [if_pos rfl, if_neg hRest, if_neg (by simp [hRest]), content_eq_nothing hFree hRest]
      · rw [if_neg hKey, if_neg (by simp [hKey])]

/-- A change in a child is one in the directory. -/
theorem ChangedAt.setChild (h : ChangedAt child new place found) (hChild : children.lookup name = some child) :
    ChangedAt (.directory children) ((FileTree.directory children).setChild name new) (name :: place)
      found := by
  intro p
  cases p with
  | nil => rfl
  | cons key rest =>
      rw [content_setChild]
      by_cases hKey : key = name
      · subst hKey
        rw [if_pos rfl, h rest, content_below_of_lookup hChild]
        simp only [List.cons.injEq, true_and]
      · rw [if_neg hKey, if_neg (by simp [hKey])]

/-- An edit of a name in a directory is made along the way to the directory. -/
theorem changedAt_of_edit (edit : FileTree → Location → FileTree)
    (hName : ∀ children, (FileTree.directory children).content [name] ≠ .directory →
      ChangedAt (.directory children) (edit (.directory children) [name]) [name] found)
    (hBelow : ∀ {children first child rest}, children.lookup first = some child → rest ≠ [] →
      edit (.directory children) (first :: rest) =
        (FileTree.directory children).setChild first (edit child rest))
    (hDirectory : tree.content directory = .directory)
    (hFree : tree.content (directory ++ [name]) ≠ .directory) :
    ChangedAt tree (edit tree (directory ++ [name])) (directory ++ [name]) found := by
  -- From the root on: what is free below a child is free below the directory.
  induction directory generalizing tree with
  | nil =>
      obtain ⟨children, hTree⟩ := content_eq_directory_iff.mp hDirectory
      obtain rfl : tree = .directory children := Option.some.inj hTree
      exact hName children hFree
  | cons first directory ih =>
      obtain ⟨children, child, rfl, hChild, hThere⟩ := exists_child hDirectory
      have hFreeBelow : child.content (directory ++ [name]) ≠ .directory :=
        content_below_of_lookup hChild _ ▸ hFree
      rw [List.cons_append, hBelow hChild (by simp)]
      exact (ih hThere hFreeBelow).setChild hChild

/-- A file put into a directory is there then, and nothing else changes. -/
theorem changedAt_insert (hDirectory : tree.content directory = .directory)
    (hFree : tree.content (directory ++ [name]) ≠ .directory) (bytes : List UInt8) :
    ChangedAt tree (tree.insert (.file bytes) (directory ++ [name])) (directory ++ [name]) (.file bytes) := by
  refine changedAt_of_edit (fun t => t.insert (.file bytes)) ?_ ?_ hDirectory hFree
  · intro children hName
    refine changedAt_name hName rfl fun key rest => ?_
    rw [insert, insert, content_setChild, content_file]
  · intro children first child rest hChild _
    rw [insert, child?, hChild]
    rfl

/-- A file taken out of a directory is gone then, and nothing else changes. -/
theorem changedAt_erase (hDirectory : tree.content directory = .directory)
    (hFree : tree.content (directory ++ [name]) ≠ .directory) :
    ChangedAt tree (tree.erase (directory ++ [name])) (directory ++ [name]) .nothing := by
  refine changedAt_of_edit erase ?_ ?_ hDirectory hFree
  · intro children hName
    refine changedAt_name hName rfl fun key rest => ?_
    rw [content_erase, ite_self]
  · intro children first child rest hChild hRest
    cases rest with
    | nil => exact absurd rfl hRest
    | cons next rest => simp [erase, child?, hChild]

/-- Writes a file, or removes it where no bytes are given. Without the directory,
or with a directory of that name in it, nothing changes. -/
def setFile (tree : FileTree) (directory : Location) (name : FileName) (bytes : Option (List UInt8)) :
    FileTree :=
  if tree.content directory = .directory ∧ tree.content (directory ++ [name]) ≠ .directory then
    match bytes with
    | some bytes => tree.insert (.file bytes) (directory ++ [name])
    | none => tree.erase (directory ++ [name])
  else tree

theorem content_setFile (tree : FileTree) (directory : Location) (name : FileName)
    (bytes : Option (List UInt8)) (place : Location) :
    (tree.setFile directory name bytes).content place =
      if place = directory ++ [name] ∧ tree.content directory = .directory ∧
        tree.content (directory ++ [name]) ≠ .directory
      then bytes.elim .nothing .file else tree.content place := by
  by_cases hPossible : tree.content directory = .directory ∧ tree.content (directory ++ [name]) ≠ .directory
  · have hChanged : ChangedAt tree (tree.setFile directory name bytes) (directory ++ [name])
        (bytes.elim .nothing .file) := by
      rw [setFile.eq_def, if_pos hPossible]
      cases bytes with
      | some bytes => exact changedAt_insert hPossible.1 hPossible.2 bytes
      | none => exact changedAt_erase hPossible.1 hPossible.2
    rw [hChanged place]
    simp only [hPossible.1, ne_eq, hPossible.2, not_false_eq_true, and_true]
  · rw [setFile.eq_def, if_neg hPossible, if_neg fun h => hPossible h.2]

/-- Files come and go, directories stay. -/
theorem content_setFile_eq_directory_iff (tree : FileTree) (directory : Location) (name : FileName)
    (bytes : Option (List UInt8)) (place : Location) :
    (tree.setFile directory name bytes).content place = .directory ↔ tree.content place = .directory := by
  rw [content_setFile]
  split
  · next h =>
      rw [h.1]
      cases bytes <;> simp [h.2.2]
  · exact Iff.rfl

/-- The same directories in two trees, and the same at one place. -/
structure AgreeAt (tree other : FileTree) (place : Location) : Prop where
  directories : ∀ p, tree.content p = .directory ↔ other.content p = .directory
  content : tree.content place = other.content place

theorem AgreeAt.refl (tree : FileTree) (place : Location) : AgreeAt tree tree place :=
  ⟨fun _ => Iff.rfl, rfl⟩

/-- A file somewhere else does not count. -/
theorem AgreeAt.setFile_left (h : AgreeAt tree other place) (hPlace : directory ++ [name] ≠ place)
    (bytes : Option (List UInt8)) : AgreeAt (tree.setFile directory name bytes) other place where
  directories p := (content_setFile_eq_directory_iff tree directory name bytes p).trans (h.directories p)
  content := by
    rw [content_setFile, if_neg fun hSame => hPlace hSame.1.symm]
    exact h.content

/-- Whether a file can be set is a matter of the directories. -/
theorem AgreeAt.setFile (h : AgreeAt tree other place) (directory : Location) (name : FileName)
    (bytes : Option (List UInt8)) :
    AgreeAt (tree.setFile directory name bytes) (other.setFile directory name bytes) place where
  directories p := by
    rw [content_setFile_eq_directory_iff, content_setFile_eq_directory_iff]
    exact h.directories p
  content := by
    simp only [content_setFile, ne_eq, h.directories, h.content]

/-! Ways through the tree. -/

/-- Where one step leads from a location. -/
def advance (place : Location) : Step → Location
  | .up => place.dropLast
  | .down name => place ++ [name]

theorem target_eq (path : Path) (workingDirectory : Location) :
    path.target workingDirectory =
      path.steps.foldl advance (if path.anchor = .workingDirectory then workingDirectory else []) := rfl

theorem follow_cons (tree : FileTree) (place : Location) (step : Step) (steps : List Step) :
    tree.follow place (step :: steps) =
      if tree.content place = .directory then tree.follow (advance place step) steps else none := by
  match hAt : tree.at? place with
  | none => simp [FileTree.follow.eq_def tree place (step :: steps), content, contentOf, hAt]
  | some (file bytes) => simp [FileTree.follow.eq_def tree place (step :: steps), content, contentOf, hAt]
  | some (.directory children) =>
      cases step <;> simp [FileTree.follow, content, contentOf, advance, hAt]

theorem follow_nil (tree : FileTree) (place : Location) :
    (tree.follow place []).bind tree.at? = tree.at? place := by
  rw [FileTree.follow]
  cases hAt : tree.at? place <;> simp [hAt]

/-- What is found on a way is decided by the directories and by what is at the
end of the way. -/
theorem AgreeAt.follow {steps : List Step} (h : AgreeAt tree other (steps.foldl advance place)) :
    contentOf ((tree.follow place steps).bind tree.at?) =
      contentOf ((other.follow place steps).bind other.at?) := by
  induction steps generalizing place with
  | nil =>
      rw [follow_nil, follow_nil]
      exact h.content
  | cons step steps ih =>
      rw [follow_cons, follow_cons]
      by_cases hDirectory : tree.content place = .directory
      · rw [if_pos hDirectory, if_pos ((h.directories place).mp hDirectory)]
        exact ih h
      · rw [if_neg hDirectory, if_neg fun hOther => hDirectory ((h.directories place).mpr hOther)]
        rfl

/-- Steps that can be taken lead where the path says, whatever steps up there are. -/
theorem eq_of_follow {reached : Location} {steps : List Step}
    (h : tree.follow place steps = some reached) : reached = steps.foldl advance place := by
  induction steps generalizing place with
  | nil =>
      rw [FileTree.follow] at h
      split at h
      · exact (Option.some.inj h).symm
      · cases h
  | cons step steps ih =>
      rw [follow_cons] at h
      split at h
      · exact ih h
      · cases h

/-- A path that leads somewhere leads to its target. -/
theorem at?_target {workingDirectory : Location} {path : Path}
    (h : tree.find? workingDirectory path = some other) :
    tree.at? (path.target workingDirectory) = some other := by
  obtain ⟨reached, hFollow, hAt⟩ := Option.bind_eq_some_iff.mp h
  rw [target_eq, ← eq_of_follow hFollow]
  exact hAt

theorem at?_append (tree : FileTree) (place rest : Location) :
    tree.at? (place ++ rest) = (tree.at? place).bind fun found => found.at? rest := by
  induction place generalizing tree with
  | nil => rfl
  | cons name place ih =>
      rw [List.cons_append, at?, at?]
      cases tree.child? name with
      | none => rfl
      | some child => exact ih child

theorem at?_below_eq_none (h : tree.content place ≠ .directory) (name : FileName) (rest : Location) :
    tree.at? (place ++ name :: rest) = none := by
  rw [content] at h
  rw [at?_append]
  match hAt : tree.at? place with
  | none => rfl
  | some (.file bytes) => rfl
  | some (.directory children) => exact absurd (congrArg contentOf hAt) h

/-- The way down from a place leads to what is below it. -/
theorem follow_down (tree : FileTree) (place rest : Location) :
    (tree.follow place (rest.map .down)).bind tree.at? = tree.at? (place ++ rest) := by
  induction rest generalizing place with
  | nil => rw [List.map_nil, follow_nil, List.append_nil]
  | cons name rest ih =>
      rw [List.map_cons, follow_cons]
      by_cases hDirectory : tree.content place = .directory
      · rw [if_pos hDirectory, advance, ih, List.append_assoc, List.singleton_append]
      · rw [if_neg hDirectory, at?_below_eq_none hDirectory]
        rfl

/-- The direct path to a location leads to what is there. -/
theorem find?_ofLocation (tree : FileTree) (workingDirectory place : Location) :
    tree.find? workingDirectory (.ofLocation place) = tree.at? place :=
  tree.follow_down [] place

/-! The lines of files. -/

/-- The lines of a text in a file. There are none where nothing is, where a
directory is, and where the bytes of the file are no text. -/
def linesOfContent : Content → List String
  | .file bytes =>
    match Text.decodeUtf8 bytes with
    | .ok text => Text.splitLines (Text.unifyLineEnds text)
    | .error _ => []
  | .directory => []
  | .nothing => []

/-- The lines of what the name of a file leads to. -/
def linesFrom (tree : FileTree) (workingDirectory : Location) (file : String) : List String :=
  linesOfContent (contentOf (tree.find? workingDirectory (Path.ofText file)))

theorem linesOf_disk (tree : FileTree) (workingDirectory : Location) (file : String) :
    (tree.disk workingDirectory).linesOf file = tree.linesFrom workingDirectory file := by
  simp only [Disk.linesOf, Disk.readText, disk, diskWithin, linesFrom]
  rcases tree.find? workingDirectory (Path.ofText file) with _ | ⟨bytes⟩ | ⟨children⟩
  · rfl
  · cases hText : Text.decodeUtf8 bytes <;> simp [bind, pure, contentOf, linesOfContent, hText]
  · rfl

/-- The lines of a file depend on the directories and on what is at its place. -/
theorem AgreeAt.linesFrom {workingDirectory : Location} {file : String}
    (h : AgreeAt tree other ((Path.ofText file).target workingDirectory)) :
    tree.linesFrom workingDirectory file = other.linesFrom workingDirectory file := by
  rw [target_eq] at h
  exact congrArg linesOfContent h.follow

end FileTree

end Scriptlet
