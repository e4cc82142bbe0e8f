import QualifiedTypes.Display

/-!
# Why two types have no common instance

The causes for which unification and matching fail, and their wording: `UnifyError` and `MatchError` of Conch.
-/

namespace QualifiedTypes

/-- Why two types or predicates could not be made equal. -/
inductive UnifyError where
  /-- A variable would stand for a type that contains it. -/
  | occursCheck (v : TyVar) (t : Ty)
  /-- A variable would stand for a type of another kind. -/
  | kindMismatch (v : TyVar) (t : Ty)
  /-- Two constructors differ. -/
  | constructorMismatch (left right : TyCon)
  /-- An application faces a constructor. -/
  | shapeMismatch (left right : Ty)
  /-- Two predicates are about different classes. -/
  | classMismatch (left right : String)
  /-- A slot of a scheme was not filled in. -/
  | uninstantiated (index : Nat)
  deriving DecidableEq

/-- The wording of a unification failure. -/
def UnifyError.message : UnifyError → String
  | .occursCheck v t => "infinite type: `" ++ v.id ++ "` occurs in `" ++ t.text ++ "`"
  | .kindMismatch v t =>
    "kind mismatch: `" ++ v.id ++ "` has kind `" ++ v.kind.text ++ "` but `" ++ t.text ++
      "` has kind `" ++ t.kind.text ++ "`"
  | .constructorMismatch left right =>
    "type mismatch: `" ++ left.id ++ "` is not `" ++ right.id ++ "`"
  | .shapeMismatch left right =>
    "type mismatch: `" ++ left.text ++ "` does not fit `" ++ right.text ++ "`"
  | .classMismatch left right => "class mismatch: `" ++ left ++ "` is not `" ++ right ++ "`"
  | .uninstantiated index => "uninstantiated scheme variable #" ++ toString index

/-- Why a type or predicate is no instance of a pattern. -/
inductive MatchError where
  /-- The shapes differ. -/
  | mismatch (pattern target : Ty)
  /-- One variable of the pattern faces two different types. -/
  | conflict (v : TyVar)
  /-- Two predicates are about different classes. -/
  | classMismatch (pattern target : String)
  deriving DecidableEq

/-- The wording of a matching failure. -/
def MatchError.message : MatchError → String
  | .mismatch pattern target =>
    "`" ++ target.text ++ "` is not an instance of `" ++ pattern.text ++ "`"
  | .conflict v => "`" ++ v.id ++ "` would have to match two different types"
  | .classMismatch pattern target => "class mismatch: `" ++ target ++ "` is not `" ++ pattern ++ "`"

end QualifiedTypes
