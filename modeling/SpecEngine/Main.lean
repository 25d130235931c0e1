import SpecEngine.CommandLine

/-!
# The program

Reads the files that the arguments name, leaves the rest to `CommandLine.execute`, prints, and
ends.
-/

namespace SpecEngine

/-- What a path leads to in the file system.  A path that is there but cannot be read is taken for
a directory. -/
def findFile (path : String) : IO (Option Found) := do
  try
    return some (.file (← IO.FS.readFile path))
  catch
    | .noFileOrDirectory .. => return none
    | _ => return some .directory

/-- The paths that arguments name. -/
def Arguments.paths (a : Arguments) : List String :=
  a.configPath :: a.files

/-- The files at the paths that arguments name. -/
def readFiles (arguments : List String) : IO Files := do
  match Arguments.read arguments with
  | .error _ => return fun _ => none
  | .ok a =>
    let found ← a.paths.mapM fun path => return (path, ← findFile path)
    return fun path => (Table.find? found path).join

end SpecEngine

open SpecEngine

/-- Reads the files that the arguments name, runs them, and writes what there is to say. -/
def main (arguments : List String) : IO UInt32 := do
  let out := CommandLine.execute arguments (← readFiles arguments)
  IO.print out.stdout
  IO.eprint out.stderr
  return out.exit.toUInt32
