import QualifiedTypes.Toml.Number

/-!
# TOML documents

A document is a sequence of lines: headers of tables, headers of elements of arrays of tables, and
assignments to dotted keys.  The tables are built up line by line.

* `Document.ofString?` reads a document and gives its top-level table.
-/

namespace QualifiedTypes.Toml

namespace Reader

/-- How deep arrays and inline tables may be nested, and how many parts a dotted key may have. -/
def maxDepth : Nat := 79

/-- Read one part of a key. -/
def keyPart : Reader String := do
  skipBlanks
  let part ← basicString <|> literalString <|>
    (String.ofList <$> run₁ fun c => c.isAlphanum || c == '-' || c == '_')
  skipBlanks
  return part

/-- Read a dotted key: the parts before the last, and the last. -/
def key : Reader (List String × String) := do
  let first ← keyPart
  let rest ← many (do char '.'; keyPart)
  let parts := first :: rest
  if parts.length ≤ maxDepth then return (parts.dropLast, parts.getLastD first) else failure

/-- Read an array, given a reader for its items. -/
def array (item : Reader Value) : Reader Value := do
  let spaced : Reader Value := do
    skipGap
    let v ← item
    skipGap
    return v
  char '['
  let items ←
    (do
      let first ← spaced
      let rest ← many (do char ','; spaced)
      let _ ← maybe (char ',')
      return first :: rest) <|> pure []
  skipGap
  char ']'
  return .array .inline items

/-- Read an assignment, given a reader for its value. -/
def assignment (value : Reader Value) : Reader ((List String × String) × Value) := do
  let k ← key
  char '='
  skipBlanks
  return (k, ← value)

/-- Read an inline table, given a reader for its values. -/
def inlineTable (value : Reader Value) : Reader Value := do
  let pair : Reader ((List String × String) × Value) := do
    let p ← assignment value
    skipBlanks
    return p
  char '\x7b'
  let pairs ←
    (do
      let first ← pair
      let rest ← many (do char ','; pair)
      return first :: rest) <|> pure []
  skipBlanks
  char '\x7d'
  match Entries.ofPairs pairs with
  | some entries => return .table .inline entries
  | none => failure

/-- Read a value without parts. -/
def scalar : Reader Value := (.string <$> string) <|> datetime <|> float <|> integer <|> boolean

/-- Read a value, with at most `depth` levels of arrays and inline tables. -/
def value : (depth : Nat) → Reader Value
  | 0 => scalar
  | depth + 1 => array (value depth) <|> inlineTable (value depth) <|> scalar

end Reader

/-- A line of a document. -/
inductive Line where
  | blank
  | table (path : List String) (key : String)
  | tableArray (path : List String) (key : String)
  | assign (path : List String) (key : String) (value : Value)

namespace Reader

/-- Read a header in double brackets. -/
def tableArrayHeader : Reader Line := do
  text "[["
  let (path, key) ← key
  text "]]"
  lineRest
  return .tableArray path key

/-- Read a header. -/
def tableHeader : Reader Line := do
  char '['
  let (path, key) ← key
  char ']'
  lineRest
  return .table path key

/-- Read a line with an assignment. -/
def assignmentLine : Reader Line := do
  let ((path, key), v) ← assignment (value maxDepth)
  lineRest
  return .assign path key v

/-- Read a line that holds at most a comment. -/
def blankLine : Reader Line := do
  (do comment; newline <|> atEnd) <|> newline
  return .blank

/-- Read one line. -/
def line : Reader Line := do
  skipBlanks
  blankLine <|> tableArrayHeader <|> tableHeader <|> assignmentLine

/-- Read a whole document, after a byte order mark if there is one. -/
def lines : Reader (List Line) := do
  let _ ← maybe (char '\uFEFF')
  let ls ← many line
  skipBlanks
  atEnd
  return ls

end Reader

/-- The tables built so far, and the path of the last header. -/
structure Document where
  current : List String
  root : Entries

namespace Document

/-- The document without lines. -/
def empty : Document := ⟨[], []⟩

/-- Add a line to a document. -/
def addLine (doc : Document) : Line → Option Document
  | .blank => some doc
  | .table path key => do
    return ⟨path ++ [key], ← doc.root.modifyAt (Entries.define key) path⟩
  | .tableArray path key => do
    return ⟨path ++ [key], ← doc.root.modifyAt (Entries.append key) path⟩
  | .assign path key value => do
    return { doc with root := ← doc.root.modifyAt (Entries.insertDotted key value path) doc.current }

/-- The top-level table of a document. -/
def ofString? (src : String) : Option Entries := do
  let (ls, _) ← Reader.lines src.toList
  return (← ls.foldlM addLine empty).root

end Document

end QualifiedTypes.Toml
