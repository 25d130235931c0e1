import SpecEngine.Text.Property

/-!
# Quoted text

A text between double quotes in which every character can be seen: quotes and backslashes are
escaped, some controls have a letter, and what cannot be printed or would attach to the character
before it is named by its code point.
-/

namespace SpecEngine.Text

/-- A character named by its code point. -/
def codeEscape (c : Char) : List Char :=
  "\\u\x7b".toList ++ Nat.toDigits 16 c.toNat ++ ['\x7d']

/-- How a character is written between quotes. -/
def escaped (c : Char) : List Char :=
  match c with
  | '"' => ['\\', '"']
  | '\\' => ['\\', '\\']
  | '\n' => ['\\', 'n']
  | '\r' => ['\\', 'r']
  | '\t' => ['\\', 't']
  | '\x00' => ['\\', '0']
  | c => if isPrintable c && !extendsCluster c then [c] else codeEscape c

/-- A text between quotes. -/
def quoted (s : String) : String :=
  String.ofList ('"' :: (s.toList.flatMap escaped ++ ['"']))

end SpecEngine.Text
