import QualifiedTypes.Signature.Error
import QualifiedTypes.Text.CharClass

/-!
# Lexemes of signatures

A signature is split into names, arrows, parentheses, brackets and commas.  White space separates
lexemes and is dropped.  Each lexeme remembers the byte offset of its first character.  In Conch, `Lexeme.scan` is
`lex`.
-/

namespace QualifiedTypes

/-- The tokens of signatures. -/
inductive SignatureToken where
  | name (s : String)
  | arrow
  | fatArrow
  | openParen
  | closeParen
  | openBracket
  | closeBracket
  | comma
  deriving DecidableEq

/-- A token and its byte offset. -/
structure Lexeme where
  token : SignatureToken
  offset : Nat
  deriving DecidableEq

namespace Lexeme

/-- The tokens of one character. -/
def punctuation? : Char → Option SignatureToken
  | '(' => some .openParen
  | ')' => some .closeParen
  | '[' => some .openBracket
  | ']' => some .closeBracket
  | ',' => some .comma
  | _ => none

/-- The arrow that a character begins. -/
def arrow? : Char → Option SignatureToken
  | '-' => some .arrow
  | '=' => some .fatArrow
  | _ => none

/-- Whether a name can begin with a character. -/
def isNameStart (c : Char) : Bool := Text.isAlphabetic c || c == '_'

/-- Whether a name can go on with a character. -/
def isNameRest (c : Char) : Bool := Text.isAlphanumeric c || c == '_' || c == '\''

/-- The number of bytes of a text. -/
def byteLength : List Char → Nat
  | [] => 0
  | c :: rest => c.utf8Size + byteLength rest

/-- The lexemes of a text that begins at a byte offset. -/
def scanFrom (offset : Nat) (cs : List Char) : Except SignatureError (List Lexeme) :=
  match cs with
  | [] => .ok []
  | c :: rest =>
    if Text.isBlank c then scanFrom (offset + c.utf8Size) rest
    else match punctuation? c with
      | some token => do
        return ⟨token, offset⟩ :: (← scanFrom (offset + c.utf8Size) rest)
      | none => match arrow? c with
        | some token => match rest with
          | '>' :: rest => do
            return ⟨token, offset⟩ :: (← scanFrom (offset + c.utf8Size + 1) rest)
          | _ => .error ⟨.brokenArrow c, offset⟩
        | none =>
          if isNameStart c then do
            let name := c :: rest.takeWhile isNameRest
            return ⟨.name (String.ofList name), offset⟩ ::
              (← scanFrom (offset + byteLength name) (rest.dropWhile isNameRest))
          else .error ⟨.unexpectedChar c, offset⟩
termination_by cs.length
decreasing_by
  · simp
  · simp
  · simp only [List.length_cons]
    omega
  · have := (List.dropWhile_sublist isNameRest (l := rest)).length_le
    simp only [List.length_cons]
    omega

/-- The lexemes of a signature. -/
def scan (src : String) : Except SignatureError (List Lexeme) := scanFrom 0 src.toList

end Lexeme

end QualifiedTypes
