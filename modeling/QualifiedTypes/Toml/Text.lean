import QualifiedTypes.Toml.Reader

/-!
# TOML strings

Strings come in four forms: between double quotes with escapes, between single quotes as they stand, and
both over several lines between triple quotes.
-/

namespace QualifiedTypes.Toml.Reader

/-- The value of a hexadecimal digit. -/
def hexValue (c : Char) : Nat :=
  if c.isDigit then c.toNat - '0'.toNat
  else if 'a' ≤ c then c.toNat - 'a'.toNat + 10
  else c.toNat - 'A'.toNat + 10

/-- Whether a character is a hexadecimal digit. -/
def isHexDigit (c : Char) : Bool := c.isDigit || ('a' ≤ c && c ≤ 'f') || ('A' ≤ c && c ≤ 'F')

/-- The number that some digits spell. -/
def ofDigits (base : Nat) (digits : List Char) : Nat :=
  digits.foldl (fun n c => base * n + hexValue c) 0

/-- Read a number of hexadecimal digits as a code point.  Surrogates are no characters. -/
def codePoint (digits : Nat) : Reader Char := do
  let n := ofDigits 16 (← exactly isHexDigit digits)
  if n.isValidChar then return Char.ofNat n else failure

/-- Read what follows the backslash of an escape. -/
def escaped : Reader Char := do
  match ← satisfying fun _ => true with
  | 'b' => return '\x08'
  | 't' => return '\t'
  | 'n' => return '\n'
  | 'f' => return '\x0c'
  | 'r' => return '\r'
  | '"' => return '"'
  | '\\' => return '\\'
  | 'u' => codePoint 4
  | 'U' => codePoint 8
  | _ => failure

/-- Read an escape. -/
def escape : Reader (List Char) := do
  char '\\'
  return [← escaped]

/-- Whether a character stands for itself between double quotes. -/
def isBasicPlain (c : Char) : Bool := isPrintable c && c ≠ '"' && c ≠ '\\'

/-- Whether a character stands for itself between single quotes. -/
def isLiteralPlain (c : Char) : Bool := isPrintable c && c ≠ '\''

/-- Read a string between double quotes. -/
def basicString : Reader String := do
  char '"'
  let parts ← many (run₁ isBasicPlain <|> escape)
  char '"'
  return String.ofList parts.flatten

/-- Read a string between single quotes. -/
def literalString : Reader String := do
  char '\''
  let cs ← run isLiteralPlain
  char '\''
  return String.ofList cs

/-- Read a line end as a line feed. -/
def lineFeed : Reader (List Char) := do
  newline
  return ['\n']

/-- Skip a backslash at the end of a line, with the line end and all blanks and line ends that follow. -/
def lineContinuation : Reader (List Char) := do
  char '\\'
  skipBlanks
  newline
  let _ ← many ((do let _ ← run₁ fun c => c == ' ' || c == '\t') <|> newline)
  return []

/-- Read one or two quotes that do not close a string. -/
def loneQuotes (quote : Char) : Reader (List Char) := do
  let quotes ← run₁ (· == quote)
  if quotes.length < 3 then return quotes else failure

/-- Read the three quotes that close a string, and up to two quotes before them that belong to it. -/
def closingQuotes (quote : Char) : Reader (List Char) := do
  let quotes ← run (· == quote)
  if 3 ≤ quotes.length ∧ quotes.length ≤ 5 then return quotes.drop 3 else failure

/-- Read a string over several lines, given what may stand in it. -/
def multiline (quote : Char) (part : Reader (List Char)) : Reader String := do
  text (String.ofList [quote, quote, quote])
  let _ ← maybe newline
  let parts ← many (part <|> loneQuotes quote)
  let last ← closingQuotes quote
  return String.ofList (parts.flatten ++ last)

/-- Read a string between triple double quotes. -/
def multilineBasic : Reader String :=
  multiline '"' (run₁ isBasicPlain <|> lineContinuation <|> escape <|> lineFeed)

/-- Read a string between triple single quotes. -/
def multilineLiteral : Reader String := multiline '\'' (run₁ isLiteralPlain <|> lineFeed)

/-- Read a string of any form. -/
def string : Reader String := multilineBasic <|> basicString <|> multilineLiteral <|> literalString

end QualifiedTypes.Toml.Reader
