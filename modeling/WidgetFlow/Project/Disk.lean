import WidgetFlow.Project.Path

/-!
# Disks

A disk is what a run asks for files. What the questions cost is left open, so that the same run
works on the real disk and on a tree of files in memory.
-/

namespace WidgetFlow

/-- What is at a place on a disk. -/
inductive PlaceKind where
  | file
  | directory
  deriving DecidableEq, Repr, Inhabited

/-- The questions that are asked of a disk. -/
structure Disk (m : Type → Type) where
  /-- The text of a file; none if it cannot be read. -/
  read? : String → m (Option String)
  /-- What is at a path, if anything is. -/
  kind? : String → m (Option PlaceKind)
  /-- The files that a search below a path comes upon, in any order. What it passes over is left to
  the disk. -/
  files : String → m (List String)
  /-- Writes a text to a file, and says whether that was possible. -/
  write : String → String → m Bool

/-- A search for the files below a path that are at most so deep. It passes over names that begin
with a dot. -/
def filesWithin {m : Type → Type} [Monad m] (kind? : String → m (Option PlaceKind))
    (names : String → m (List String)) : Nat → String → m (List String)
  | depth, path => do
    match ← kind? path, depth with
    | some .file, _ => pure [path]
    | some .directory, depth + 1 =>
      let shown := (← names path).filter fun name => name.toList.head? ≠ some '.'
      let found ← shown.mapM fun name => filesWithin kind? names depth (Path.join path name)
      pure found.flatten
    | _, _ => pure []

/-- Files in memory, each with the steps from the root to it. A directory is there for the files in
it. -/
structure FileTree where
  files : List (List String × String) := []
  deriving Repr, Inhabited

namespace FileTree

def ofList (files : List (String × String)) : FileTree where
  files := files.map fun file => (Path.steps file.1, file.2)

def text? (tree : FileTree) (place : List String) : Option String := tree.files.lookup place

def isDirectory (tree : FileTree) (place : List String) : Bool :=
  place.isEmpty ||
    tree.files.any fun file => place.isPrefixOf file.1 && place.length < file.1.length

/-- The place that some parts of a path lead to from a place. Every step starts in a directory, and
no step leads above the root. -/
def walk? (tree : FileTree) : List String → List String → Option (List String)
  | place, [] => some place
  | place, part :: rest =>
    if !tree.isDirectory place then none
    else if part = "" ∨ part = "." then walk? tree place rest
    else if part = ".." then
      if place.isEmpty then none else walk? tree place.dropLast rest
    else walk? tree (place ++ [part]) rest

def place? (tree : FileTree) (path : String) : Option (List String) :=
  if Path.isAbsolute path then none else tree.walk? [] (Path.parts path)

def kind? (tree : FileTree) (path : String) : Option PlaceKind := do
  let place ← tree.place? path
  if (tree.text? place).isSome then some .file
  else if tree.isDirectory place then some .directory
  else none

def names (tree : FileTree) (path : String) : List String :=
  match tree.place? path with
  | some place =>
    (tree.files.filterMap fun file =>
      if place.isPrefixOf file.1 then file.1[place.length]? else none).eraseDups
  | none => []

def write? (tree : FileTree) (path text : String) : Option FileTree := do
  let place ← tree.place? path
  if tree.isDirectory place then none
  else some { files := (place, text) :: tree.files }

/-- The disk that holds a tree and is not written to. -/
def frozen (tree : FileTree) : Disk Id where
  read? path := (tree.place? path).bind tree.text?
  kind? := tree.kind?
  files := filesWithin (m := Id) tree.kind? tree.names 2
  write path text := (tree.write? path text).isSome

/-- The disk that holds the tree of a state. -/
def disk : Disk (StateM FileTree) where
  read? path := do pure ((← get).frozen.read? path)
  kind? path := do pure ((← get).frozen.kind? path)
  files path := do pure ((← get).frozen.files path)
  write path text := do
    match (← get).write? path text with
    | some tree =>
      set tree
      pure true
    | none => pure false

end FileTree

end WidgetFlow
