import QualifiedTypes.Signature.Lexeme

/-!
# Trees of signatures

The reader of signatures follows the grammar

    qual  := type "=>" type | type
    type  := btype ["->" type]
    btype := atype {atype}
    atype := name | "(" type {"," type} ")" | "[" type "]"

by recursive descent.  Every reader returns what is left of the lexemes, with a proof that something was
read: that is why reading ends.

* `SignatureTree.read`, `SignatureTree.readApplied`, `SignatureTree.readAtom` (in Conch, `ty`, `btype` and `atype` of
  `SigParser`) read one type.
* `SignaturePhrase.ofLexemes` (`qual`) reads a whole signature.
-/

namespace QualifiedTypes

/-- A type as it is spelled.  Names, lists and tuples carry the offset of their first lexeme. -/
inductive SignatureTree where
  | name (s : String) (offset : Nat)
  | app (fn arg : SignatureTree)
  | arrow (domain codomain : SignatureTree)
  | list (elem : SignatureTree) (offset : Nat)
  | tuple (items : List SignatureTree) (offset : Nat)

namespace SignatureTree

/-- The offset that a message about a tree points at. -/
def offset : SignatureTree → Nat
  | .name _ offset => offset
  | .app fn _ => fn.offset
  | .arrow domain _ => domain.offset
  | .list _ offset => offset
  | .tuple _ offset => offset

/-- The offset of the next lexeme, or of the end of the text. -/
def nextOffset (stop : Nat) : List Lexeme → Nat
  | [] => stop
  | l :: _ => l.offset

/-- Whether an argument comes next. -/
def startsAtom : List Lexeme → Bool
  | [] => false
  | l :: _ => match l.token with
    | .name _ | .openParen | .openBracket => true
    | _ => false

/-- The lexemes after a token, if that token comes next. -/
def eat? (token : SignatureToken) : List Lexeme → Option (List Lexeme)
  | [] => none
  | l :: rest => if l.token = token then some rest else none

theorem length_of_eat? {token : SignatureToken} {ts rest : List Lexeme}
    (h : eat? token ts = some rest) : rest.length < ts.length := by
  unfold eat? at h
  split at h
  · cases h
  · split at h
    · cases h
      simp
    · cases h

/-- What was read from a list of lexemes, and the lexemes left over. -/
abbrev Reading (α : Type) (ts : List Lexeme) :=
  Except SignatureError { r : α × List Lexeme // r.2.length < ts.length }

mutual

/-- Read a type. -/
def read (stop : Nat) (ts : List Lexeme) : Reading SignatureTree ts :=
  match readApplied stop ts with
  | .error e => .error e
  | .ok ⟨(left, rest), h⟩ =>
    match ha : eat? .arrow rest with
    | none => .ok ⟨(left, rest), h⟩
    | some rest₁ =>
      match read stop rest₁ with
      | .error e => .error e
      | .ok ⟨(right, rest₂), h₂⟩ =>
        .ok ⟨(.arrow left right, rest₂), by have := length_of_eat? ha; simp at h h₂ ⊢; omega⟩
termination_by (ts.length, 3)
decreasing_by
  · exact Prod.Lex.right _ (by omega)
  · exact Prod.Lex.left _ _ (by have := length_of_eat? ha; simp at h; omega)

/-- Read a type without an arrow at the top. -/
def readApplied (stop : Nat) (ts : List Lexeme) : Reading SignatureTree ts :=
  match readAtom stop ts with
  | .error e => .error e
  | .ok ⟨(head, rest), h⟩ =>
    match readArgs stop head rest with
    | .error e => .error e
    | .ok ⟨r, h'⟩ => .ok ⟨r, Nat.lt_of_le_of_lt h' h⟩
termination_by (ts.length, 2)
decreasing_by
  · exact Prod.Lex.right _ (by omega)
  · exact Prod.Lex.left _ _ h

/-- Read the arguments that follow a head. -/
def readArgs (stop : Nat) (head : SignatureTree) (ts : List Lexeme) :
    Except SignatureError { r : SignatureTree × List Lexeme // r.2.length ≤ ts.length } :=
  if startsAtom ts then
    match readAtom stop ts with
    | .error e => .error e
    | .ok ⟨(arg, rest), h⟩ =>
      match readArgs stop (.app head arg) rest with
      | .error e => .error e
      | .ok ⟨r, h'⟩ => .ok ⟨r, Nat.le_of_lt (Nat.lt_of_le_of_lt h' h)⟩
  else .ok ⟨(head, ts), Nat.le_refl _⟩
termination_by (ts.length, 1)
decreasing_by
  · exact Prod.Lex.right _ (by omega)
  · exact Prod.Lex.left _ _ h

/-- Read a name, a group, a tuple or a list. -/
def readAtom (stop : Nat) (ts : List Lexeme) : Reading SignatureTree ts :=
  match ts with
  | [] => .error ⟨.expectedType, stop⟩
  | ⟨token, offset⟩ :: rest =>
    match token with
    | .name s => .ok ⟨(.name s offset, rest), by simp⟩
    | .openParen =>
      match read stop rest with
      | .error e => .error e
      | .ok ⟨(first, rest₁), h₁⟩ =>
        match hc : eat? .comma rest₁ with
        | some rest₂ =>
          match readItems stop rest₂ with
          | .error e => .error e
          | .ok ⟨(items, rest₃), h₃⟩ =>
            .ok ⟨(.tuple (first :: items) offset, rest₃), by
              have := length_of_eat? hc; simp at h₁ h₃ ⊢; omega⟩
        | none =>
          match hp : eat? .closeParen rest₁ with
          | some rest₂ => .ok ⟨(first, rest₂), by have := length_of_eat? hp; simp at h₁ ⊢; omega⟩
          | none => .error ⟨.expectedClosing ')', nextOffset stop rest₁⟩
    | .openBracket =>
      match read stop rest with
      | .error e => .error e
      | .ok ⟨(elem, rest₁), h₁⟩ =>
        match hb : eat? .closeBracket rest₁ with
        | some rest₂ =>
          .ok ⟨(.list elem offset, rest₂), by have := length_of_eat? hb; simp at h₁ ⊢; omega⟩
        | none => .error ⟨.expectedClosing ']', nextOffset stop rest₁⟩
    | _ => .error ⟨.expectedType, offset⟩
termination_by (ts.length, 0)
decreasing_by
  · exact Prod.Lex.left _ _ (by simp)
  · exact Prod.Lex.left _ _ (by have := length_of_eat? hc; simp at h₁ ⊢; omega)
  · exact Prod.Lex.left _ _ (by simp)

/-- Read the items of a tuple after its first comma, and the closing parenthesis. -/
def readItems (stop : Nat) (ts : List Lexeme) : Reading (List SignatureTree) ts :=
  match read stop ts with
  | .error e => .error e
  | .ok ⟨(item, rest), h⟩ =>
    match hc : eat? .comma rest with
    | some rest₁ =>
      match readItems stop rest₁ with
      | .error e => .error e
      | .ok ⟨(items, rest₂), h₂⟩ =>
        .ok ⟨(item :: items, rest₂), by have := length_of_eat? hc; simp at h h₂ ⊢; omega⟩
    | none =>
      match hp : eat? .closeParen rest with
      | some rest₁ => .ok ⟨([item], rest₁), by have := length_of_eat? hp; simp at h ⊢; omega⟩
      | none => .error ⟨.expectedClosing ')', nextOffset stop rest⟩
termination_by (ts.length, 4)
decreasing_by
  · exact Prod.Lex.right _ (by omega)
  · exact Prod.Lex.left _ _ (by have := length_of_eat? hc; simp at h; omega)

end

end SignatureTree

/-- A signature as it is spelled: a context of constraints, and what stands under it. -/
structure SignaturePhrase where
  context : List SignatureTree
  head : SignatureTree

namespace SignaturePhrase

/-- The constraints that a tree in front of `=>` spells: the items of a tuple, or the tree itself. -/
def constraints : SignatureTree → List SignatureTree
  | .tuple items _ => items
  | single => [single]

/-- Accept a phrase if nothing is left over. -/
def finish (stop : Nat) (phrase : SignaturePhrase) (rest : List Lexeme) :
    Except SignatureError SignaturePhrase :=
  if rest.isEmpty then .ok phrase
  else .error ⟨.trailingInput, SignatureTree.nextOffset stop rest⟩

/-- Read all lexemes of a signature that ends at the offset `stop`. -/
def ofLexemes (stop : Nat) (ts : List Lexeme) : Except SignatureError SignaturePhrase := do
  let ⟨(first, rest), _⟩ ← SignatureTree.read stop ts
  match SignatureTree.eat? .fatArrow rest with
  | some rest =>
    let ⟨(head, rest), _⟩ ← SignatureTree.read stop rest
    finish stop ⟨constraints first, head⟩ rest
  | none => match first with
    | .tuple _ offset => .error ⟨.tupleType, offset⟩
    | head => finish stop ⟨[], head⟩ rest

/-- Read the text of a signature. -/
def ofString (src : String) : Except SignatureError SignaturePhrase := do
  ofLexemes src.utf8ByteSize (← Lexeme.scan src)

end SignaturePhrase

end QualifiedTypes
