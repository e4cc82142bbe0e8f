import QualifiedTypes.Unify.Error

/-!
# One-way matching

`matchTy pattern target` finds the substitution that turns the pattern into the target, which is left
alone.  Every variable of the pattern is bound, to itself if need be.  In Conch, `matchTy` is `match_type` and
`matchPred` is `match_pred`.
-/

namespace QualifiedTypes

/-- The substitution that turns a pattern into a target. -/
def matchTy : Ty → Ty → Except MatchError Subst
  | .app l₁ r₁, .app l₂ r₂ => do
    let sl ← matchTy l₁ l₂
    let sr ← matchTy r₁ r₂
    (sl.merge sr).mapError .conflict
  | .var v, target =>
    if v.kind = target.kind ∧ target.firstGen? = none then .ok (.singleton v target)
    else .error (.mismatch (.var v) target)
  | .con c₁, .con c₂ =>
    if c₁.id = c₂.id then .ok .empty else .error (.mismatch (.con c₁) (.con c₂))
  | pattern, target => .error (.mismatch pattern target)

/-- The substitution that turns one predicate into another of the same class. -/
def matchPred (pattern target : Pred) : Except MatchError Subst :=
  if pattern.className = target.className then matchTy pattern.ty target.ty
  else .error (.classMismatch pattern.className target.className)

end QualifiedTypes
