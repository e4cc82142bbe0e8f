import QualifiedTypes.Classes.Reduce
import QualifiedTypes.Prelude.Build

/-!
# Checking expressions

Conch is a language of patterns, and this is its type checker.  An expression is checked in two steps: its types are
inferred, and the context of predicates that it needs is reduced.  The answer is `none` only if a search through the
instances went beyond its depth.

* `Prelude.check` (in Conch, `check_expr`) checks an expression.
* `Prelude.checkProgram` (`check_program`) checks the statements of a program, each on its own.
-/

namespace QualifiedTypes

/-- What is known about an expression that has a type. -/
structure CheckResult where
  /-- The expression with the types as they were recorded. -/
  typed : TypedExpr
  /-- All that inference found out about its variables. -/
  subst : Subst
  /-- The predicates that the expression needs, before reduction. -/
  predicates : List Pred
  /-- The type under the reduced context. -/
  qualType : Qual Ty
  deriving DecidableEq

/-- The typed expression with all that is known filled in. -/
def CheckResult.resolved (r : CheckResult) : TypedExpr := r.subst.apply r.typed

namespace Prelude

/-- Check one expression. -/
def check (prelude : Prelude) (e : Expr) : Option (Except TypeError CheckResult) :=
  match (Infer.expr prelude.typeEnv e).runFrom .initial with
  | (.error err, _) => some (.error err)
  | (.ok (preds, typed), state) =>
    let predicates := state.subst.apply preds
    match prelude.classEnv.reduce predicates with
    | .done context =>
      some (.ok ⟨typed, state.subst, predicates, ⟨context, state.subst.apply typed.ty⟩⟩)
    | .missing missing => some (.error (.noMatchingInstance missing.pred e.span))
    | .exhausted => none

/-- Check the statements of a program, each on its own. -/
def checkProgram (prelude : Prelude) (p : Program) : List (Option (Except TypeError CheckResult)) :=
  p.statements.map prelude.check

end Prelude

end QualifiedTypes
