import QualifiedTypes.Infer.State
import QualifiedTypes.Infer.TypedExpr
import QualifiedTypes.NameMap

/-!
# The rules of inference

Literals are overloaded, names are instances of their schemes, and both operands of a binary operator are
passed to it one after the other.  Each rule returns the predicates that the expression needs, in order,
and the typed expression.

In Conch, `Infer.expr` is `infer_expr` with `infer_binary`, `Infer.literal` is `infer_lit`, `Infer.name` is
`infer_var` and `Infer.applyTo` is `apply_to`.
-/

namespace QualifiedTypes

/-- The schemes of the names in scope. -/
abbrev TypeEnv := NameMap Scheme

/-- The class of the types that a literal can have. -/
def literalClass : TokenKind → String
  | .string => "FromString"
  | _ => "FromNumber"

namespace Infer

/-- The type of the result when a function is applied to an argument. -/
def applyTo (func arg : Ty) (origin : Origin) : Infer Ty := do
  let result ← freshVar .star
  unify func (.fn arg result) origin
  return result

/-- A literal may have any type of its class. -/
def literal (token : Token) : Infer (List Pred × TypedExpr) := do
  let ty ← freshVar .star
  return ([⟨literalClass token.kind, ty⟩], .literal token ty)

/-- A name has every instance of its scheme. -/
def name (env : TypeEnv) (token : Token) : Infer (Qual Ty) :=
  match env.find? token.lexeme with
  | some scheme => instantiate scheme
  | none => throw (.unboundVariable token.lexeme token.span)

/-- The predicates that an expression needs, and the expression with its types. -/
def expr (env : TypeEnv) : Expr → Infer (List Pred × TypedExpr)
  | .literal token => literal token
  | .name token => do
    let q ← name env token
    return (q.context, .name token q.head)
  | .grouping inner span => do
    let (preds, typed) ← expr env inner
    return (preds, .grouping typed span)
  | .application func arg => do
    let (funcPreds, typedFunc) ← expr env func
    let (argPreds, typedArg) ← expr env arg
    let ty ← applyTo typedFunc.ty typedArg.ty (.application func.span arg.span)
    return (funcPreds ++ argPreds, .application typedFunc typedArg ty)
  | .binary left operator right => do
    let origin := Origin.operator operator.lexeme (left.span.merge right.span)
    let op ← name env operator
    let (leftPreds, typedLeft) ← expr env left
    let applied ← applyTo op.head typedLeft.ty origin
    let (rightPreds, typedRight) ← expr env right
    let ty ← applyTo applied typedRight.ty origin
    return (op.context ++ leftPreds ++ rightPreds,
      .binary typedLeft operator op.head typedRight ty)
  | .assignment target value =>
    let e := Expr.assignment target value
    throw (.unsupportedForm e.form e.span)

end Infer

end QualifiedTypes
