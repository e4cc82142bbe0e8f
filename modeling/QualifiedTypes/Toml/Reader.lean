/-!
# Reading characters

Readers take what they need from the front of a text and return the rest, or fail.  Failing readers leave
the text alone, so alternatives can be tried in order.
-/

namespace QualifiedTypes.Toml

/-- A reader of values of type `α`. -/
abbrev Reader (α : Type) := StateT (List Char) Option α

namespace Reader

variable {α : Type}

/-- Read one given character. -/
def char (c : Char) : Reader Unit
  | [] => none
  | d :: rest => if c = d then some ((), rest) else none

/-- Read one character of a class. -/
def satisfying (p : Char → Bool) : Reader Char
  | [] => none
  | c :: rest => if p c then some (c, rest) else none

/-- Read a given text. -/
def text (s : String) : Reader Unit := s.toList.forM char

/-- Read as many characters of a class as there are. -/
def run (p : Char → Bool) : Reader (List Char) := fun cs => some (cs.takeWhile p, cs.dropWhile p)

/-- Read as many characters of a class as there are, and at least one. -/
def run₁ (p : Char → Bool) : Reader (List Char) := do
  let c ← satisfying p
  return c :: (← run p)

/-- Read a number of characters of a class. -/
def exactly (p : Char → Bool) (n : Nat) : Reader (List Char) :=
  (List.replicate n ()).mapM fun _ => satisfying p

/-- The next character, which stays in the text. -/
def peek? : Reader (Option Char) := fun cs => some (cs.head?, cs)

/-- Succeed at the end of the text. -/
def atEnd : Reader Unit
  | [] => some ((), [])
  | _ :: _ => none

/-- Try a reader. -/
def maybe (p : Reader α) : Reader (Option α) := (some <$> p) <|> pure none

/-- Repeat a reader until it fails, a limited number of times. -/
def upTo (p : Reader α) : Nat → List Char → List α × List Char
  | 0, cs => ([], cs)
  | n + 1, cs =>
    match p cs with
    | none => ([], cs)
    | some (a, rest) =>
      let (as, rest) := upTo p n rest
      (a :: as, rest)

/-- Repeat a reader until it fails.  Each time it has to read something, so the length of the text bounds
the number of times. -/
def many (p : Reader α) : Reader (List α) := fun cs => some (upTo p cs.length cs)

/-! ## Blanks and line ends -/

/-- Skip spaces and tabs. -/
def skipBlanks : Reader Unit := do
  let _ ← run fun c => c == ' ' || c == '\t'

/-- Read a line feed, or a carriage return and a line feed. -/
def newline : Reader Unit := char '\n' <|> text "\r\n"

/-- Whether a character may stand in a comment or, but for the delimiters, in a string. -/
def isPrintable (c : Char) : Bool := c == '\t' || (' ' ≤ c && c ≠ '\x7f')

/-- Read a comment up to the end of its line. -/
def comment : Reader Unit := do
  char '#'
  let _ ← run isPrintable

/-- Read the rest of a line: blanks, a comment, and the line end or the end of the text. -/
def lineRest : Reader Unit := do
  skipBlanks
  let _ ← maybe comment
  newline <|> atEnd

/-- Skip blanks, comments and line ends. -/
def skipGap : Reader Unit := do
  let _ ← many ((do let _ ← run₁ fun c => c == ' ' || c == '\t') <|> newline <|> comment)

end Reader

end QualifiedTypes.Toml
