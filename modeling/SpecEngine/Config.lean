import SpecEngine.Json.Reader
import SpecEngine.Report.Format
import SpecEngine.Source

/-!
# Configuration

What a session starts with.  It is written as a JSON object with any of the four fields, or as an
array of their values; what is missing has its default.  Other fields are passed over, but none of
the four may be there twice, and every value must be of its kind.
-/

namespace SpecEngine

open Json

/-- The configuration of a session. -/
structure Config where
  format : Format := .terminal
  matchers : Table String String := []
  showPasses : Bool := true
  logFilter : String := "info"

namespace Config

/-- A format is named by a text, or by the only field of an object. -/
def formatOf? : Tree → Option Format
  | .string (some name) | .object [(some name, .null)] => Format.ofText? name
  | _ => none

/-- The definition in a field. -/
def matcherOf? (f : Option String × Tree) : Option (String × String) :=
  match f with
  | (some name, .string (some source)) => some (name, source)
  | _ => none

/-- The definitions in an object, by the names of its fields. -/
def matchersOf? : Tree → Option (Table String String)
  | .object fields => (fields.mapM matcherOf?).map Table.ofList
  | _ => none

/-- The truth value that a tree is, if it is one. -/
def boolOf? : Tree → Option Bool
  | .bool b => some b
  | _ => none

/-- The text that a tree is, if it is one. -/
def textOf? : Tree → Option String
  | .string s => s
  | _ => none

/-- The fields of a configuration, in the order of the array form. -/
def fieldNames : List String := ["formatter", "matchers", "show_passes", "log_filter"]

/-- Sets a field. -/
def setField? (c : Config) (name : String) (value : Tree) : Option Config :=
  match name with
  | "formatter" => (formatOf? value).map fun format => { c with format }
  | "matchers" => (matchersOf? value).map fun matchers => { c with matchers }
  | "show_passes" => (boolOf? value).map fun showPasses => { c with showPasses }
  | "log_filter" => (textOf? value).map fun logFilter => { c with logFilter }
  | _ => some c

/-- Sets fields, none of the known ones twice. -/
def setFields? (seen : List String) (c : Config) : List (Option String × Tree) → Option Config
  | [] => some c
  | (none, _) :: _ => none
  | (some name, value) :: rest =>
    if name ∈ seen then none
    else
      match c.setField? name value with
      | none => none
      | some c => setFields? (if name ∈ fieldNames then name :: seen else seen) c rest

/-- The configuration that a tree is. -/
def ofTree? : Tree → Option Config
  | .object fields => setFields? [] {} fields
  | .array items =>
    if items.length ≤ fieldNames.length then
      setFields? [] {} ((fieldNames.map some).zip items)
    else none
  | _ => none

/-- The configuration that a text is. -/
def read (s : String) : Option Config :=
  (Json.read s).bind ofTree?

end Config

/-- Why there is no configuration. -/
inductive ConfigError
  | missing
  | malformed
  deriving DecidableEq

namespace Config

/-- The configuration in a file. -/
def load (find : Files) (path : String) : Except ConfigError Config :=
  match find path with
  | none => .error .missing
  | some .directory => .error .malformed
  | some (.file text) =>
    match read text with
    | some c => .ok c
    | none => .error .malformed

/-- The configuration in a file, or the default one when there is no such file. -/
def loadOrDefault (find : Files) (path : String) : Except ConfigError Config :=
  match load find path with
  | .error .missing => .ok {}
  | c => c

end Config

end SpecEngine
