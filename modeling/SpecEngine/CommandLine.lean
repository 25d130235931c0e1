import SpecEngine.Session

/-!
# The command line

The program takes options and spec files: it loads the files, runs all suites or one of them, and
prints the report.

* `Arguments`: what the arguments say.  An option has its value behind an equals sign, right behind
  its letter, or in the next argument, which then must not look like an option.  No option may be
  there twice;
* `CommandLine.execute`: what the program prints and how it ends, given its arguments and the
  files it can see.
-/

namespace SpecEngine

/-- Options that take a value. -/
inductive Setting
  | config
  | format
  | suite
  deriving DecidableEq

namespace Setting

/-- The name of a setting behind two hyphens. -/
def text : Setting → String
  | .config => "config"
  | .format => "format"
  | .suite => "suite"

/-- The letter of a setting behind one hyphen. -/
def letter : Setting → Char
  | .config => 'c'
  | .format => 'f'
  | .suite => 's'

/-- All settings. -/
def all : List Setting := [.config, .format, .suite]

/-- The setting of a name. -/
def ofText? (s : String) : Option Setting := all.find? fun o => o.text = s

/-- The setting of a letter. -/
def ofLetter? (c : Char) : Option Setting := all.find? fun o => o.letter = c

end Setting

/-- What the arguments say. -/
structure Arguments where
  files : List String := []
  settings : Table Setting String := []
  verbose : Bool := false

/-- Why arguments lead to no run: they are wrong, or they ask about the program itself. -/
inductive Refusal
  | usage
  | information
  deriving DecidableEq

namespace Arguments

/-- What was read so far: the arguments, an option that waits for its value, and whether only files
may follow. -/
structure Draft where
  arguments : Arguments := {}
  waiting : Option Setting := none
  filesOnly : Bool := false

namespace Draft

/-- Adds a file. -/
def addFile (d : Draft) (path : String) : Except Refusal Draft :=
  if path = "" then .error .usage
  else .ok { d with arguments := { d.arguments with files := d.arguments.files ++ [path] } }

/-- Gives an option its value, which may be empty unless it is a path. -/
def set (d : Draft) (o : Setting) (value : String) : Except Refusal Draft :=
  if Table.contains d.arguments.settings o || (o = .config && value = "") then .error .usage
  else
    .ok { d with
      arguments := { d.arguments with settings := Table.set d.arguments.settings o value }
      waiting := none }

/-- Takes the flag for more output, which is given once at most. -/
def setVerbose (d : Draft) : Except Refusal Draft :=
  if d.arguments.verbose then .error .usage
  else .ok { d with arguments := { d.arguments with verbose := true } }

/-- Reads an option by its name, behind the two hyphens. -/
def readLong (d : Draft) (s : List Char) : Except Refusal Draft :=
  let name := String.ofList (s.takeWhile (· ≠ '='))
  match Setting.ofText? name, s.dropWhile (· ≠ '=') with
  | some o, [] => .ok { d with waiting := some o }
  | some o, _ :: value => d.set o (String.ofList value)
  | none, [] =>
    if name = "verbose" then d.setVerbose
    else if name = "help" || name = "version" then .error .information
    else .error .usage
  | none, _ :: _ => .error .usage

/-- Reads options by their letters, behind the hyphen. -/
def readShort (d : Draft) : List Char → Except Refusal Draft
  | [] => .ok d
  | c :: s =>
    match Setting.ofLetter? c, s with
    | some o, [] => .ok { d with waiting := some o }
    | some o, '=' :: value => d.set o (String.ofList value)
    | some o, value => d.set o (String.ofList value)
    | none, s =>
      if c = 'v' then
        match d.setVerbose with
        | .ok d => readShort d s
        | .error e => .error e
      else if c = 'h' || c = 'V' then .error .information
      else .error .usage

/-- Reads one argument. -/
def read (d : Draft) (argument : String) : Except Refusal Draft :=
  if d.filesOnly then d.addFile argument
  else
    match argument.toList, d.waiting with
    | ['-', '-'], none => .ok { d with filesOnly := true }
    | '-' :: '-' :: s, none => d.readLong s
    | '-' :: c :: s, none => d.readShort (c :: s)
    -- an option that waits does not take what looks like an option
    | '-' :: _ :: _, some _ => .error .usage
    | _, some o => d.set o argument
    | _, none => d.addFile argument

/-- Reads arguments. -/
def readAll (d : Draft) : List String → Except Refusal Draft
  | [] => .ok d
  | a :: rest =>
    match d.read a with
    | .ok d => readAll d rest
    | .error e => .error e

end Draft

/-- What arguments say.  There must be a file. -/
def read (arguments : List String) : Except Refusal Arguments :=
  match Draft.readAll {} arguments with
  | .error e => .error e
  | .ok d =>
    if d.waiting.isSome || d.arguments.files.isEmpty then .error .usage else .ok d.arguments

end Arguments

/-- The path of the configuration. -/
def Arguments.configPath (a : Arguments) : String :=
  (Table.find? a.settings .config).getD "speckle.json"

namespace CommandLine

/-- What the program prints and how it ends. -/
structure Outcome where
  exit : Nat
  stdout : String := ""
  stderr : String := ""
  failure? : Option SessionError := none

/-- The end of a program that failed. -/
def Outcome.failed (e : SessionError) : Outcome where
  exit := 1
  stderr := "Error: " ++ e.message ++ "\n"
  failure? := some e

/-- The configuration with the format that the arguments ask for. -/
def withFormat (c : Config) : Option String → Except SessionError Config
  | none => .ok c
  | some name =>
    match Format.ofText? name with
    | some format => .ok { c with format }
    | none => .error (.format name)

/-- A session with all files loaded. -/
def prepare (a : Arguments) (find : Files) : Except SessionError Session :=
  match Config.loadOrDefault find a.configPath with
  | .error e => .error (.config e)
  | .ok c =>
    match withFormat c (Table.find? a.settings .format) with
    | .error e => .error e
    | .ok c =>
      match Session.start c (.files find) with
      | .error e => .error e
      | .ok s => s.loadAll a.files

/-- Runs what the arguments ask for. -/
def runSession (a : Arguments) (s : Session) : Session × Option SessionError :=
  match Table.find? a.settings .suite with
  | none => s.run
  | some description => s.runSuite description

/-- What the program does for its arguments, among files.  It succeeds when no assertion failed. -/
def execute (arguments : List String) (find : Files) : Outcome :=
  match Arguments.read arguments with
  | .error .usage => { exit := 2 }
  | .error .information => { exit := 0 }
  | .ok a =>
    match prepare a find with
    | .error e => .failed e
    | .ok s =>
      match runSession a s with
      | (_, some e) => .failed e
      | (s, none) =>
        { exit := if s.stats.failures = 0 then 0 else 1
          stdout := s.render ++ "\n" }

end CommandLine

end SpecEngine
