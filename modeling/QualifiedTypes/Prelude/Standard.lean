import QualifiedTypes.Prelude.Build

/-!
# The standard prelude

The declarations for live coding with patterns: literal and numeric classes, patterns of values, and the
names that play them.

* `Config.standardToml` (in Conch, `STANDARD_PRELUDE`) declares them in a document, which is read as
  `Config.standard`.
* `Prelude.standard` (`standard_prelude`) is built from them.
-/

namespace QualifiedTypes

namespace Config

/-- Signatures of the names that schedule a pattern on one of twelve channels. -/
def channels : List (String × String) :=
  (List.range 12).map fun i => ("d" ++ toString (i + 1), "Pattern Controls -> IO Unit")

/-- Signatures of the operators that combine two patterns of numbers. -/
def patternOperators : List (String × String) :=
  ["|+", "|+|", "+|", "|-", "|-|", "-|", "|*", "|*|", "*|"].map fun op =>
    (op, "Num a => Pattern a -> Pattern a -> Pattern a")

/-- The declarations of the standard prelude. -/
def standard : Config where
  defaults := ["Number"]
  types := .ofList
    [("Number", 0), ("String", 0), ("Bool", 0), ("Unit", 0), ("ID", 0), ("Controls", 0),
      ("Pattern", 1), ("IO", 1)]
  classes :=
    [⟨"FromNumber", []⟩, ⟨"FromString", []⟩, ⟨"Eq", []⟩, ⟨"Ord", ["Eq"]⟩, ⟨"Num", []⟩,
      ⟨"Fractional", ["Num"]⟩, ⟨"Show", []⟩]
  instances :=
    ["FromNumber Number", "FromNumber ID", "FromNumber a => FromNumber (Pattern a)",
      "FromString String", "FromString ID", "FromString a => FromString (Pattern a)",
      "Eq Number", "Eq String", "Eq Bool", "Eq a => Eq [a]",
      "Ord Number", "Ord String", "Ord a => Ord [a]",
      "Num Number", "Num a => Num (Pattern a)",
      "Fractional Number", "Fractional a => Fractional (Pattern a)",
      "Show Number", "Show String", "Show Bool"]
  bindings := .ofList <|
    [("+", "Num a => a -> a -> a"), ("-", "Num a => a -> a -> a"), ("*", "Num a => a -> a -> a"),
      ("/", "Fractional a => a -> a -> a"), ("==", "Eq a => a -> a -> Bool"),
      ("<", "Ord a => a -> a -> Bool"), (">", "Ord a => a -> a -> Bool")] ++
    patternOperators ++
    [("#", "Pattern Controls -> Pattern Controls -> Pattern Controls"),
      ("show", "Show a => a -> String"), ("p", "ID -> Pattern Controls -> IO Unit")] ++
    channels ++
    [("hush", "IO Unit"), ("s", "Pattern String -> Pattern Controls"),
      ("n", "Pattern Number -> Pattern Controls"),
      ("fast", "Pattern Number -> Pattern a -> Pattern a"),
      ("slow", "Pattern Number -> Pattern a -> Pattern a"), ("rev", "Pattern a -> Pattern a"),
      ("silence", "Pattern a")]

/-- The document with the declarations of the standard prelude. -/
def standardToml : String := r##"
  defaults = ["Number"]

  [types]
  Number = 0
  String = 0
  Bool = 0
  Unit = 0
  ID = 0
  Controls = 0
  Pattern = 1
  IO = 1

  [[classes]]
  name = "FromNumber"

  [[classes]]
  name = "FromString"

  [[classes]]
  name = "Eq"

  [[classes]]
  name = "Ord"
  supers = ["Eq"]

  [[classes]]
  name = "Num"

  [[classes]]
  name = "Fractional"
  supers = ["Num"]

  [[classes]]
  name = "Show"

  [[instances]]
  instance = "FromNumber Number"

  [[instances]]
  instance = "FromNumber ID"

  [[instances]]
  instance = "FromNumber a => FromNumber (Pattern a)"

  [[instances]]
  instance = "FromString String"

  [[instances]]
  instance = "FromString ID"

  [[instances]]
  instance = "FromString a => FromString (Pattern a)"

  [[instances]]
  instance = "Eq Number"

  [[instances]]
  instance = "Eq String"

  [[instances]]
  instance = "Eq Bool"

  [[instances]]
  instance = "Eq a => Eq [a]"

  [[instances]]
  instance = "Ord Number"

  [[instances]]
  instance = "Ord String"

  [[instances]]
  instance = "Ord a => Ord [a]"

  [[instances]]
  instance = "Num Number"

  [[instances]]
  instance = "Num a => Num (Pattern a)"

  [[instances]]
  instance = "Fractional Number"

  [[instances]]
  instance = "Fractional a => Fractional (Pattern a)"

  [[instances]]
  instance = "Show Number"

  [[instances]]
  instance = "Show String"

  [[instances]]
  instance = "Show Bool"

  [bindings]
  "+" = "Num a => a -> a -> a"
  "-" = "Num a => a -> a -> a"
  "*" = "Num a => a -> a -> a"
  "/" = "Fractional a => a -> a -> a"
  "==" = "Eq a => a -> a -> Bool"
  "<" = "Ord a => a -> a -> Bool"
  ">" = "Ord a => a -> a -> Bool"
  "|+" = "Num a => Pattern a -> Pattern a -> Pattern a"
  "|+|" = "Num a => Pattern a -> Pattern a -> Pattern a"
  "+|" = "Num a => Pattern a -> Pattern a -> Pattern a"
  "|-" = "Num a => Pattern a -> Pattern a -> Pattern a"
  "|-|" = "Num a => Pattern a -> Pattern a -> Pattern a"
  "-|" = "Num a => Pattern a -> Pattern a -> Pattern a"
  "|*" = "Num a => Pattern a -> Pattern a -> Pattern a"
  "|*|" = "Num a => Pattern a -> Pattern a -> Pattern a"
  "*|" = "Num a => Pattern a -> Pattern a -> Pattern a"
  "#" = "Pattern Controls -> Pattern Controls -> Pattern Controls"
  show = "Show a => a -> String"
  p = "ID -> Pattern Controls -> IO Unit"
  d1 = "Pattern Controls -> IO Unit"
  d2 = "Pattern Controls -> IO Unit"
  d3 = "Pattern Controls -> IO Unit"
  d4 = "Pattern Controls -> IO Unit"
  d5 = "Pattern Controls -> IO Unit"
  d6 = "Pattern Controls -> IO Unit"
  d7 = "Pattern Controls -> IO Unit"
  d8 = "Pattern Controls -> IO Unit"
  d9 = "Pattern Controls -> IO Unit"
  d10 = "Pattern Controls -> IO Unit"
  d11 = "Pattern Controls -> IO Unit"
  d12 = "Pattern Controls -> IO Unit"
  hush = "IO Unit"
  s = "Pattern String -> Pattern Controls"
  n = "Pattern Number -> Pattern Controls"
  fast = "Pattern Number -> Pattern a -> Pattern a"
  slow = "Pattern Number -> Pattern a -> Pattern a"
  rev = "Pattern a -> Pattern a"
  silence = "Pattern a"
"##

set_option maxRecDepth 20000 in
example : ofToml? standardToml = some standard := by
  -- Decoding a literal is slow, but it was made from a list of characters.
  have hchars : standardToml.toList = _ := String.toList_ofList
  rw [ofToml?, Toml.Document.ofString?, hchars]
  decide +kernel

end Config

/-- The standard prelude. -/
def Prelude.standard : Except PreludeError Prelude := Config.standard.build

end QualifiedTypes
