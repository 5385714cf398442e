import HandleBench.Text.Blank

/-!
# Paths

A path names a file or a directory by parts between slashes. A part is *idle* if it is empty or a
single dot: it leads nowhere. Two dots lead up, any other part leads down to what has that name. A
path that begins with a slash starts at the root, and a single dot in front stands for the
directory in which the path starts; both belong to the path even where nothing is below them.
-/

namespace HandleBench.Path

/-- The parts of a path, between its slashes. -/
def parts (path : String) : List String := (Text.splitAt '/' path.toList).map String.ofList

/-- The path with the given parts. -/
def ofParts (parts : List String) : String := "/".intercalate parts

/-- The part leads nowhere. -/
def isIdle (part : String) : Bool := part == "" || part == "."

/-- The parts without the idle ones at their end. -/
def trimIdle (parts : List String) : List String := (parts.reverse.dropWhile isIdle).reverse

/-- The parts in front of the last one that is not idle, without idle parts at their end; nothing
if all are idle. -/
def above? (parts : List String) : Option (List String) :=
  match trimIdle parts with
  | [] => none
  | leading => some (trimIdle leading.dropLast)

/-- The directory of what a path names: the path without its last part and without idle parts at
its end. A path with a single part has none, nor has one that names only where it starts. -/
def directory? (path : String) : Option String :=
  match parts path with
  | "" :: below => (above? below).map fun kept => if kept = [] then "/" else ofParts ("" :: kept)
  | "." :: below => (above? below).map fun kept => ofParts ("." :: kept)
  | below =>
    match above? below with
    | none | some [] => none
    | some kept => some (ofParts kept)

end HandleBench.Path
