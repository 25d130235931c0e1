import SpecEngine.Table

/-!
# Where spec files come from

Sources lie in memory by path, or are files.  In memory, two spellings of a path are one path when
they have the same parts.  Files are found by a function, so that a session needs no file system;
`Directory.find?` is such a function for a directory that is held as a value.
-/

namespace SpecEngine

/-- The parts of a path between its slashes. -/
def pathParts (path : String) : List String :=
  path.splitOn "/"

/-- The parts by which paths are compared: no empty ones but for the root, and `.` only at the
front. -/
def pathKey (path : String) : List String :=
  match pathParts path with
  | [] | [""] => []
  | first :: rest => first :: rest.filter fun part => part ≠ "" && part ≠ "."

/-- What a path leads to among files. -/
inductive Found
  | file (text : String)
  | directory
  deriving DecidableEq

/-- Files, or nothing, by path. -/
abbrev Files := String → Option Found

/-! ### Directories -/

/-- Files below a directory, by the parts of their paths. -/
abbrev Directory := Table (List String) String

namespace Directory

/-- The directory of files with given paths; of two at one place the later one stays. -/
def ofList (files : List (String × String)) : Directory :=
  Table.ofList (files.map fun f => ((pathParts f.1).filter fun p => p ≠ "" && p ≠ ".", f.2))

/-- Whether there are files below a place. -/
def isDirectory (d : Directory) (place : List String) : Bool :=
  place.isEmpty || d.any fun f => place.isPrefixOf f.1 && place ≠ f.1

/-- Goes on from a directory by the parts of a path; `..` leads back, but not out of the whole. -/
def walk (d : Directory) (place : List String) : List String → Option Found
  | [] => some .directory
  | part :: rest =>
    if part = "" || part = "." then walk d place rest
    else if part = ".." then if place.isEmpty then none else walk d place.dropLast rest
    else
      match rest, Table.find? d (place ++ [part]) with
      | [], some text => some (.file text)
      | _, _ => if d.isDirectory (place ++ [part]) then walk d (place ++ [part]) rest else none

/-- What a path leads to. -/
def find? (d : Directory) : Files := fun path =>
  if path = "" || path.startsWith "/" then none else d.walk [] (pathParts path)

end Directory

/-! ### Sources -/

/-- Why a source cannot be had. -/
inductive LoadError
  | notFound (path : String)
  | unreadable (path : String)
  deriving DecidableEq

/-- What to say of an error. -/
def LoadError.message : LoadError → String
  | .notFound path => "no source registered for '" ++ path ++ "'"
  | .unreadable path => "failed to read '" ++ path ++ "'"

/-- Where sources come from. -/
inductive Sources
  | memory (sources : Table (List String) String)
  | files (find : Files)

/-- Sources in memory. -/
def Sources.ofList (sources : List (String × String)) : Sources :=
  .memory (Table.ofList (sources.map fun s => (pathKey s.1, s.2)))

/-- The source at a path. -/
def Sources.load (s : Sources) (path : String) : Except LoadError String :=
  match s with
  | .memory sources =>
    match Table.find? sources (pathKey path) with
    | some text => .ok text
    | none => .error (.notFound path)
  | .files find =>
    match find path with
    | some (.file text) => .ok text
    | _ => .error (.unreadable path)

end SpecEngine
