import SpecEngine.Number.Display
import SpecEngine.Text.Quoted
import SpecEngine.Value.Basic

/-!
# Values as texts

* `text`: what a value turns into where a text is asked for; a list is its items between commas;
* `printed`: what messages of assertions show;
* `inspected`: a text that shows how a value is built;
* `content?`: the text by which composite values are compared.  It runs through the fields in the
  order of enumeration, names scalar fields by key and text, leaves out the keys of nested
  composites, and passes over callables.
-/

namespace SpecEngine.Value

mutual

/-- The text of a value. -/
def text : Value → String
  | .undefined => "undefined"
  | .null => "null"
  | .bool true => "true"
  | .bool false => "false"
  | .number x => Double.displayText x
  | .string s => s
  | .list _ items => ",".intercalate (itemTexts items)
  | .object .. => "[object Object]"
  | .boxed v => v.text
  | .type t => t.text
  | .callable _ source _ _ => source

/-- The texts of items; absent ones are empty. -/
def itemTexts : List Value → List String
  | [] => []
  | .undefined :: vs => "" :: itemTexts vs
  | .null :: vs => "" :: itemTexts vs
  | v :: vs => v.text :: itemTexts vs

end

/-- A value as messages show it. -/
def printed : Value → String
  | .undefined => ""
  | .null => "null"
  | .string s => "'" ++ s ++ "'"
  | .list id items => "[" ++ text (.list id items) ++ "]"
  | v => v.text

mutual

/-- A value with its constructors. -/
def inspected : Value → String
  | .undefined => "Undefined"
  | .null => "Null"
  | .bool b => "Bool(" ++ (if b then "true" else "false") ++ ")"
  | .number x => "Number(" ++ Double.exactText x ++ ")"
  | .string s => "String(" ++ Text.quoted s ++ ")"
  | .list _ items => "[" ++ ", ".intercalate (inspectedItems items) ++ "]"
  | .object _ fs => "\x7b" ++ ", ".intercalate (inspectedFields fs) ++ "\x7d"
  | .boxed v => "Boxed(" ++ v.inspected ++ ")"
  | .type t => "Type(" ++ t.text ++ ")"
  | .callable _ source _ _ => "Callable(" ++ source ++ ")"

/-- The items of a list as they are shown. -/
def inspectedItems : List Value → List String
  | [] => []
  | v :: vs => v.inspected :: inspectedItems vs

/-- The fields of an object as they are shown, with their keys. -/
def inspectedFields : List (String × Value) → List String
  | [] => []
  | (k, v) :: fs => (Text.quoted k ++ ": " ++ v.inspected) :: inspectedFields fs

end

mutual

/-- What a field adds to the content of a composite. -/
def contentOf (key : String) : Value → String
  | .list _ items => contentOfItems 0 items
  | .object _ fs => contentOfFields fs
  | .type _ | .callable .. => ""
  | v => key ++ v.text

/-- What items add to it, the first of them under the key `start`. -/
def contentOfItems (start : Nat) : List Value → String
  | [] => ""
  | v :: vs => v.contentOf (toString start) ++ contentOfItems (start + 1) vs

/-- What fields add to it. -/
def contentOfFields : List (String × Value) → String
  | [] => ""
  | (k, v) :: fs => v.contentOf k ++ contentOfFields fs

end

/-- The content of a composite. -/
def content? : Value → Option String
  | .list _ items => some (contentOfItems 0 items)
  | .object _ fs => some (contentOfFields fs)
  | _ => none

end SpecEngine.Value
