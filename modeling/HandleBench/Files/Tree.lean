import HandleBench.Files.Path
import HandleBench.Text.Utf8

/-!
# File trees

Files and directories by their places. A path is walked part by part, and each step starts in a
directory: where nothing is, or a file, a walk ends, whatever the part. The walk may end at a place
that holds nothing yet, which is where a file or a directory can be made. Names and paths are
limited in size, as they are for the operating system.

A file that has been written is read back by the same path.
-/

namespace HandleBench

/-- Why nothing can be done at the end of a path. -/
inductive FileFault where
  /-- Nothing has the name. -/
  | missing
  /-- A part of the path other than its end is a file. -/
  | notDirectory
  /-- The path ends at a directory. -/
  | isDirectory
  /-- The path, or a name in it, is too long. -/
  | tooLong
  deriving DecidableEq, Repr

namespace FileFault

/-- Every fault. -/
def all : List FileFault := [missing, notDirectory, isDirectory, tooLong]

/-- The number that the operating system gives a fault. -/
def number : FileFault → UInt32
  | missing => 2
  | notDirectory => 20
  | isDirectory => 21
  | tooLong => 36

/-- What a fault is called. -/
def name : FileFault → String
  | missing => "No such file or directory"
  | notDirectory => "Not a directory"
  | isDirectory => "Is a directory"
  | tooLong => "File name too long"

/-- A fault by its name and its number. -/
def message (f : FileFault) : String := s!"{f.name} (os error {f.number})"

end FileFault

/-- A place in a tree: the names on the way to it, the last one first. The root has none. -/
abbrev Place := List String

/-- What a place holds. -/
inductive Entry where
  /-- A directory. -/
  | directory
  /-- A file with its contents. -/
  | file (contents : Octets)
  deriving DecidableEq, Repr

/-- A tree of files and directories. -/
structure FileTree where
  /-- What is at the places below the root; the first entry of a place counts. -/
  entries : List (Place × Entry)
  /-- The directory in which a path starts that does not start at the root. -/
  current : Place
  deriving DecidableEq, Repr

namespace FileTree

/-- The size of the longest name, in octets. -/
def maxName : Nat := 255

/-- The size of the longest path, in octets. -/
def maxPath : Nat := 4095

/-- What is at a place. The root is a directory. -/
def at? (t : FileTree) : Place → Option Entry
  | [] => some .directory
  | place => t.entries.lookup place

/-- The tree with an entry at a place. -/
def insert (t : FileTree) (place : Place) (entry : Entry) : FileTree :=
  { t with entries := (place, entry) :: t.entries }

/-! ### Walking -/

/-- The place to which a part leads from a place. -/
def step (t : FileTree) (here : Place) (part : String) : Except FileFault Place :=
  match t.at? here with
  | none => .error .missing
  | some (.file _) => .error .notDirectory
  | some .directory =>
    if Path.isIdle part then .ok here
    else if part = ".." then .ok here.tail
    else if maxName < part.utf8ByteSize then .error .tooLong
    else .ok (part :: here)

/-- Where a path starts, and the parts that lead on from there. -/
def route (t : FileTree) (path : String) : Except FileFault (Place × List String) :=
  if path = "" then .error .missing
  else if maxPath < path.utf8ByteSize then .error .tooLong
  else
    match Path.parts path with
    | "" :: below => .ok ([], below)
    | below => .ok (t.current, below)

/-- The place at the end of a path. -/
def walk (t : FileTree) (path : String) : Except FileFault Place :=
  match t.route path with
  | .error fault => .error fault
  | .ok (start, parts) => parts.foldlM t.step start

/-! ### Reading and making -/

/-- The contents of the file at the end of a path. -/
def read (t : FileTree) (path : String) : Except FileFault Octets :=
  match t.walk path with
  | .error fault => .error fault
  | .ok place =>
    match t.at? place with
    | none => .error .missing
    | some .directory => .error .isDirectory
    | some (.file contents) => .ok contents

/-- The tree after a file has been written at the end of a path, a new one or over an old one. -/
def write (t : FileTree) (path : String) (contents : Octets) : Except FileFault FileTree :=
  match t.walk path with
  | .error fault => .error fault
  | .ok place =>
    if t.at? place = some .directory then .error .isDirectory
    else .ok (t.insert place (.file contents))

/-- One step in a tree, after which a directory is made where nothing was. -/
def stepMaking : FileTree × Place → String → Except FileFault (FileTree × Place)
  | (t, here), part =>
    match t.step here part with
    | .error fault => .error fault
    | .ok there =>
      match t.at? there with
      | none => .ok (t.insert there .directory, there)
      | some .directory => .ok (t, there)
      | some (.file _) => .error .notDirectory

/-- The tree after the directories on the way along a path have been made, those that it lacks. -/
def makeDirectories (t : FileTree) (path : String) : Except FileFault FileTree :=
  match t.route path with
  | .error fault => .error fault
  | .ok (start, parts) => (parts.foldlM stepMaking (t, start)).map (·.1)

/-! ### Reading what was written -/

/-- A place holds what has been inserted there. -/
theorem at?_insert_self (t : FileTree) {place : Place} (entry : Entry) (h : place ≠ []) :
    (t.insert place entry).at? place = some entry := by
  cases place with
  | nil => exact absurd rfl h
  | cons => simp [at?, insert]

/-- Another place holds what it held before. -/
theorem at?_insert_of_ne (t : FileTree) {place other : Place} (entry : Entry) (h : other ≠ place) :
    (t.insert place entry).at? other = t.at? other := by
  cases other with
  | nil => rfl
  | cons name rest =>
    have differs : ((name :: rest) == place) = false := by simpa using h
    simp [at?, insert, List.lookup_cons, differs]

/-- A step starts in a directory. -/
theorem at?_of_step {t : FileTree} {here there : Place} {part : String}
    (h : t.step here part = .ok there) : t.at? here = some .directory := by
  unfold step at h
  split at h
  · cases h
  · cases h
  · assumption

/-- A step is not changed by an entry at a place that is not a directory. -/
theorem step_insert {t : FileTree} {place here there : Place} {part : String} (entry : Entry)
    (hplace : t.at? place ≠ some .directory) (h : t.step here part = .ok there) :
    (t.insert place entry).step here part = .ok there := by
  have apart : here ≠ place := by
    rintro rfl
    exact hplace (at?_of_step h)
  rw [← h]
  unfold step
  rw [at?_insert_of_ne t entry apart]

/-- A walk is not changed by an entry at a place that is not a directory. -/
theorem walk_insert {t : FileTree} {place there : Place} {path : String} (entry : Entry)
    (hplace : t.at? place ≠ some .directory) (h : t.walk path = .ok there) :
    (t.insert place entry).walk path = .ok there := by
  have along : ∀ (parts : List String) (here : Place), parts.foldlM t.step here = .ok there →
      parts.foldlM (t.insert place entry).step here = .ok there := by
    intro parts
    induction parts with
    | nil => exact fun _ h => h
    | cons part parts ih =>
      intro here h
      rw [List.foldlM_cons] at h ⊢
      cases hs : t.step here part with
      | error => rw [hs] at h; cases h
      | ok next =>
        rw [hs] at h
        rw [step_insert entry hplace hs]
        exact ih next h
  have same : (t.insert place entry).route path = t.route path := rfl
  unfold walk at h ⊢
  rw [same]
  split at h
  · cases h
  · exact along _ _ h

/-- A file that has been written is read back by the same path. -/
theorem read_of_write {t u : FileTree} {path : String} {contents : Octets}
    (h : t.write path contents = .ok u) : u.read path = .ok contents := by
  unfold write at h
  cases hw : t.walk path with
  | error => rw [hw] at h; cases h
  | ok place =>
    rw [hw] at h
    simp only at h
    split at h
    · cases h
    · rename_i free
      obtain rfl := Except.ok.inj h
      have below : place ≠ [] := by
        rintro rfl
        exact free rfl
      unfold read
      rw [walk_insert _ free hw]
      simp only [at?_insert_self t _ below]

end FileTree

end HandleBench
