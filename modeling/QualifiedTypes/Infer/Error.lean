import QualifiedTypes.Source.Expr
import QualifiedTypes.Unify.Error

/-!
# Type errors

What can be wrong with an expression, with the place that is to blame and the wording: `TypeError` and `Origin` of
Conch.
-/

namespace QualifiedTypes

/-- What asked for two types to be equal. -/
inductive Origin where
  /-- A function applied to an argument. -/
  | application (func arg : Span)
  /-- An operator applied to one of its operands. -/
  | operator (name : String) (span : Span)
  deriving DecidableEq

/-- The text of the whole expression that asked. -/
def Origin.span : Origin → Span
  | .application func arg => func.merge arg
  | .operator _ span => span

/-- Two types that could not be made equal. -/
structure Clash where
  /-- The types as they were asked for. -/
  expected : Ty
  found : Ty
  /-- The same types with all that was known about them. -/
  left : Ty
  right : Ty
  cause : UnifyError
  origin : Origin
  deriving DecidableEq

/-- Why an expression has no type. -/
inductive TypeError where
  | unification (clash : Clash)
  | unboundVariable (name : String) (span : Span)
  | unsupportedForm (form : String) (span : Span)
  | noMatchingInstance (pred : Pred) (span : Span)
  deriving DecidableEq

namespace TypeError

/-- The text to blame. -/
def span : TypeError → Span
  | .unification clash => clash.origin.span
  | .unboundVariable _ span => span
  | .unsupportedForm _ span => span
  | .noMatchingInstance _ span => span

/-- The wording of a type error. -/
def message : TypeError → String
  | .unification clash => clash.cause.message
  | .unboundVariable name _ => "unbound variable `" ++ name ++ "`"
  | .unsupportedForm form _ => "no inference rule for " ++ form ++ " expressions"
  | .noMatchingInstance pred _ => "no instance for `" ++ pred.text ++ "`"

end TypeError

end QualifiedTypes
