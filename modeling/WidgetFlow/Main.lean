import WidgetFlow.CommandLine

/-!
# The program

Runs the analysis on the real disk, prints what it has to say and ends with its exit code.
-/

namespace WidgetFlow.RealDisk

/-- What a question to the disk gives, or the default if it fails. -/
def orElse {α : Type} (default : α) (question : IO α) : IO α := do
  try question catch _ => pure default

def kind? (path : String) : IO (Option PlaceKind) :=
  orElse none do
    let place ← IO.FS.realPath path
    let data ← place.metadata
    match data.type with
    | .file => pure (some .file)
    | .dir => pure (some .directory)
    | _ => pure none

/-- The names in a directory. Links are not followed. -/
def names (path : String) : IO (List String) :=
  orElse [] do
    let place ← IO.FS.realPath path
    let found ← place.readDir
    let kept ← found.filterM fun child => do
      match (← child.path.symlinkMetadata).type with
      | .symlink => pure false
      | _ => pure true
    pure (kept.toList.map fun child => child.fileName)

def disk : Disk IO where
  read? path := orElse none (some <$> IO.FS.readFile path)
  kind? := kind?
  files := filesWithin kind? names 2
  write path text := orElse false do
    IO.FS.writeFile path text
    pure true

end WidgetFlow.RealDisk

def main (arguments : List String) : IO UInt32 := do
  let start ← IO.monoNanosNow
  let ending ← WidgetFlow.CommandLine.run WidgetFlow.RealDisk.disk arguments
  IO.print ending.output
  if ending.timed then
    IO.print (WidgetFlow.CommandLine.timeLine ((← IO.monoNanosNow) - start))
  match ending.complaint with
  | some complaint => IO.eprintln complaint
  | none => pure ()
  pure ending.exitCode
