import QualifiedTypes.HasTypes
import QualifiedTypes.Source.Expr

/-!
# Typed expressions

Expressions with a type at every node but groups, which have the type of what they enclose.  The types
are those known when the node was visited; `Subst.apply` brings them up to date.  In Conch this is `TypedExpr`, and
`resolved` brings it up to date.
-/

namespace QualifiedTypes

/-- An expression with its types. -/
inductive TypedExpr where
  | literal (token : Token) (ty : Ty)
  | name (token : Token) (ty : Ty)
  | grouping (inner : TypedExpr) (span : Span)
  | application (func arg : TypedExpr) (ty : Ty)
  | binary (left : TypedExpr) (operator : Token) (operatorTy : Ty) (right : TypedExpr) (ty : Ty)
  deriving DecidableEq

namespace TypedExpr

/-- The type of the whole expression. -/
def ty : TypedExpr → Ty
  | .literal _ ty => ty
  | .name _ ty => ty
  | .grouping inner _ => inner.ty
  | .application _ _ ty => ty
  | .binary _ _ _ _ ty => ty

/-- The text that an expression covers. -/
def span : TypedExpr → Span
  | .literal token _ => token.span
  | .name token _ => token.span
  | .grouping _ span => span
  | .application func arg _ => func.span.merge arg.span
  | .binary left _ _ right _ => left.span.merge right.span

/-- The types of all nodes, from left to right and each node after its parts. -/
def annotations : TypedExpr → List Ty
  | .literal _ ty => [ty]
  | .name _ ty => [ty]
  | .grouping inner _ => inner.annotations
  | .application func arg ty => func.annotations ++ arg.annotations ++ [ty]
  | .binary left _ operatorTy right ty =>
    left.annotations ++ [operatorTy] ++ right.annotations ++ [ty]

/-- The same expression with every type replaced. -/
def mapAnnotations (f : Ty → Ty) : TypedExpr → TypedExpr
  | .literal token ty => .literal token (f ty)
  | .name token ty => .name token (f ty)
  | .grouping inner span => .grouping (inner.mapAnnotations f) span
  | .application func arg ty =>
    .application (func.mapAnnotations f) (arg.mapAnnotations f) (f ty)
  | .binary left operator operatorTy right ty =>
    .binary (left.mapAnnotations f) operator (f operatorTy) (right.mapAnnotations f) (f ty)

instance : HasTypes TypedExpr where
  types := annotations
  mapTypes := mapAnnotations
  types_mapTypes f e := by
    induction e with
    | literal token ty => rfl
    | name token ty => rfl
    | grouping inner span ih => exact ih
    | application func arg ty ihf iha => simp [annotations, mapAnnotations, ihf, iha]
    | binary left operator operatorTy right ty ihl ihr =>
      simp [annotations, mapAnnotations, ihl, ihr]
  mapTypes_congr {f g e} h := by
    induction e with
    | literal token ty => simp [mapAnnotations, h ty (by simp [annotations])]
    | name token ty => simp [mapAnnotations, h ty (by simp [annotations])]
    | grouping inner span ih => simp [mapAnnotations, ih h]
    | application func arg ty ihf iha =>
      simp only [mapAnnotations]
      rw [ihf fun t ht => h t (by simp [annotations, ht]),
        iha fun t ht => h t (by simp [annotations, ht]), h ty (by simp [annotations])]
    | binary left operator operatorTy right ty ihl ihr =>
      simp only [mapAnnotations]
      rw [ihl fun t ht => h t (by simp [annotations, ht]),
        ihr fun t ht => h t (by simp [annotations, ht]), h ty (by simp [annotations]),
        h operatorTy (by simp [annotations])]
  mapTypes_mapTypes f g e := by
    induction e with
    | literal token ty => rfl
    | name token ty => rfl
    | grouping inner span ih => simp [mapAnnotations, ih]
    | application func arg ty ihf iha => simp [mapAnnotations, ihf, iha]
    | binary left operator operatorTy right ty ihl ihr => simp [mapAnnotations, ihl, ihr]
  mapTypes_id e := by
    induction e with
    | literal token ty => rfl
    | name token ty => rfl
    | grouping inner span ih => simp [mapAnnotations, ih]
    | application func arg ty ihf iha => simp [mapAnnotations, ihf, iha]
    | binary left operator operatorTy right ty ihl ihr => simp [mapAnnotations, ihl, ihr]

end TypedExpr

end QualifiedTypes
