import SpecEngine.Text.Folding
import SpecEngine.Text.Script

/-!
# Sets of characters

What one place of a pattern may hold: characters from a range, characters with a property, and
sets built from these.

* `CharSet`, `CharSet.contains`;
* `ofClassName?`: the classes written `[:name:]`;
* `ofPropertyName?`: the properties written `\p` with a name, which is read without regard to
  case, blanks, hyphens and underscores.
-/

namespace SpecEngine.Pattern

/-- Sets of characters.  `folded` adds to a set what differs from its members only in case,
`foldedAscii` does so for basic letters alone. -/
inductive CharSet
  | empty
  | range (first last : Char)
  | property (holds : Char → Bool)
  | union (a b : CharSet)
  | inter (a b : CharSet)
  | compl (a : CharSet)
  | folded (a : CharSet)
  | foldedAscii (a : CharSet)

namespace CharSet

/-- Whether a character is in a set. -/
def contains : CharSet → Char → Bool
  | .empty, _ => false
  | .range first last, c => first ≤ c && c ≤ last
  | .property holds, c => holds c
  | .union a b, c => a.contains c || b.contains c
  | .inter a b, c => a.contains c && b.contains c
  | .compl a, c => !a.contains c
  | .folded a, c => (Text.caseVariants c.toNat).any fun v => a.contains (Char.ofNat v)
  | .foldedAscii a, c => a.contains c || a.contains c.toLower || a.contains c.toUpper

/-- The set of one character. -/
def one (c : Char) : CharSet := .range c c

/-- The set of all characters. -/
def any : CharSet := .compl .empty

/-- The characters of `a` that are not in `b`. -/
def diff (a b : CharSet) : CharSet := .inter a (.compl b)

/-- The characters in exactly one of two sets. -/
def symDiff (a b : CharSet) : CharSet := .union (diff a b) (diff b a)

/-- The set, or its complement. -/
def complIf (negate : Bool) (a : CharSet) : CharSet := if negate then .compl a else a

/-- The characters whose numbers lie in one of the ranges. -/
def ofRanges (ranges : List (Nat × Nat)) : CharSet :=
  .property fun c => Text.inRanges c.toNat ranges

/-- The characters of given categories. -/
def ofCategories (categories : List Text.Category) : CharSet :=
  .property fun c => categories.contains (Text.category c)

/-- Whether only basic characters are in a set, as far as one byte can tell. -/
def isBasic (a : CharSet) : Bool :=
  (List.range 128).all fun i => !a.contains (Char.ofNat (128 + i))

/-! ### Classes by name -/

/-- The class written `[:name:]`; it holds basic characters only. -/
def ofClassName? (name : String) : Option CharSet :=
  let ranges : Option (List (Nat × Nat)) :=
    match name with
    | "alnum" => some [(0x30, 0x39), (0x41, 0x5A), (0x61, 0x7A)]
    | "alpha" => some [(0x41, 0x5A), (0x61, 0x7A)]
    | "ascii" => some [(0, 0x7F)]
    | "blank" => some [(0x9, 0x9), (0x20, 0x20)]
    | "cntrl" => some [(0, 0x1F), (0x7F, 0x7F)]
    | "digit" => some [(0x30, 0x39)]
    | "graph" => some [(0x21, 0x7E)]
    | "lower" => some [(0x61, 0x7A)]
    | "print" => some [(0x20, 0x7E)]
    | "punct" => some [(0x21, 0x2F), (0x3A, 0x40), (0x5B, 0x60), (0x7B, 0x7E)]
    | "space" => some [(0x9, 0xD), (0x20, 0x20)]
    | "upper" => some [(0x41, 0x5A)]
    | "word" => some [(0x30, 0x39), (0x41, 0x5A), (0x5F, 0x5F), (0x61, 0x7A)]
    | "xdigit" => some [(0x30, 0x39), (0x41, 0x46), (0x61, 0x66)]
    | _ => none
  ranges.map ofRanges

/-! ### Properties by name -/

/-- The name of a property without what does not matter in it. -/
def normalized (name : List Char) : String :=
  let plain := (name.filter fun c => c.toNat < 128 && !(c = ' ' || c = '_' || c = '-')).map
    Char.toLower
  let bare := if plain.take 2 = ['i', 's'] then plain.drop 2 else plain
  String.ofList (if bare.isEmpty then plain else bare)

/-- The general categories that a name stands for. -/
def categoriesOfName? (name : String) : Option (List Text.Category) :=
  match name with
  | "l" | "letter" => some [.lu, .ll, .lt, .lm, .lo]
  | "lc" | "casedletter" => some [.lu, .ll, .lt]
  | "lu" | "uppercaseletter" => some [.lu]
  | "ll" | "lowercaseletter" => some [.ll]
  | "lt" | "titlecaseletter" => some [.lt]
  | "lm" | "modifierletter" => some [.lm]
  | "lo" | "otherletter" => some [.lo]
  | "m" | "mark" | "combiningmark" => some [.mn, .mc, .me]
  | "mn" | "nonspacingmark" => some [.mn]
  | "mc" | "spacingmark" => some [.mc]
  | "me" | "enclosingmark" => some [.me]
  | "n" | "number" => some [.nd, .nl, .no]
  | "nd" | "decimalnumber" | "digit" => some [.nd]
  | "nl" | "letternumber" => some [.nl]
  | "no" | "othernumber" => some [.no]
  | "p" | "punctuation" | "punct" => some [.pc, .pd, .ps, .pe, .pi, .pf, .po]
  | "pc" | "connectorpunctuation" => some [.pc]
  | "pd" | "dashpunctuation" => some [.pd]
  | "ps" | "openpunctuation" => some [.ps]
  | "pe" | "closepunctuation" => some [.pe]
  | "pi" | "initialpunctuation" => some [.pi]
  | "pf" | "finalpunctuation" => some [.pf]
  | "po" | "otherpunctuation" => some [.po]
  | "s" | "symbol" => some [.sm, .sc, .sk, .so]
  | "sm" | "mathsymbol" => some [.sm]
  | "sc" | "currencysymbol" => some [.sc]
  | "sk" | "modifiersymbol" => some [.sk]
  | "so" | "othersymbol" => some [.so]
  | "z" | "separator" => some [.zs, .zl, .zp]
  | "zs" | "spaceseparator" => some [.zs]
  | "zl" | "lineseparator" => some [.zl]
  | "zp" | "paragraphseparator" => some [.zp]
  | "c" | "other" => some [.cc, .cf, .cs, .co, .cn]
  | "cc" | "control" | "cntrl" => some [.cc]
  | "cf" | "format" => some [.cf]
  | "co" | "privateuse" => some [.co]
  | "cn" | "unassigned" => some [.cn]
  | _ => none

/-- The general category that a name stands for, or one of the names that cover more. -/
def ofCategoryName? (name : String) : Option CharSet :=
  match name with
  | "any" => some any
  | "assigned" => some (.compl (ofCategories [.cn]))
  | "ascii" => some (ofRanges [(0, 0x7F)])
  | _ => (categoriesOfName? name).map ofCategories

/-- The script that a name stands for. -/
def ofScriptName? (name : String) : Option CharSet :=
  let ranges : Option (List (Nat × Nat)) :=
    match name with
    | "latin" | "latn" => some Text.latinScript
    | "greek" | "grek" => some Text.greekScript
    | "cyrillic" | "cyrl" => some Text.cyrillicScript
    | "han" | "hani" => some Text.hanScript
    | "hiragana" | "hira" => some Text.hiraganaScript
    | "katakana" | "kana" => some Text.katakanaScript
    | "hangul" | "hang" => some Text.hangulScript
    | "arabic" | "arab" => some Text.arabicScript
    | "hebrew" | "hebr" => some Text.hebrewScript
    | "thai" => some Text.thaiScript
    | "devanagari" | "deva" => some Text.devanagariScript
    | _ => none
  ranges.map ofRanges

/-- The property of its own that a name stands for. -/
def ofBinaryName? (name : String) : Option CharSet :=
  match name with
  | "alphabetic" | "alpha" => some (.property Text.isAlphabetic)
  | "whitespace" | "wspace" | "space" => some (.property Text.isBlank)
  | "uppercase" | "upper" => some (.property Text.isUpper)
  | "lowercase" | "lower" => some (.property Text.isLower)
  | "asciihexdigit" | "ahex" => some (ofRanges [(0x30, 0x39), (0x41, 0x46), (0x61, 0x66)])
  | _ => none

/-- The property that a name stands for.  A name may say what kind of property it means before an
equals sign or a colon, and with `!=` it stands for all other characters. -/
def ofPropertyName? (text : List Char) : Option CharSet :=
  let isMark (c : Char) : Bool := c = '=' || c = ':'
  match text.dropWhile fun c => !isMark c with
  | [] =>
    let name := normalized text
    (ofBinaryName? name).or ((ofCategoryName? name).or (ofScriptName? name))
  | _ :: value =>
    let kind := text.takeWhile fun c => !isMark c
    let negate := kind.getLast? = some '!'
    let value := normalized value
    let found :=
      match normalized (if negate then kind.dropLast else kind) with
      | "gc" | "generalcategory" => ofCategoryName? value
      | "sc" | "script" | "scx" | "scriptextensions" => ofScriptName? value
      | _ => none
    found.map (complIf negate)

end CharSet

end SpecEngine.Pattern
