import QualifiedTypes.Pred
import QualifiedTypes.Subst

/-!
# Type schemes

A scheme is a qualified type whose slots stand for the bound variables.  The list `kinds` holds the
kind of each slot.  In Conch, `Scheme.quantify` is `quantify`, `Scheme.quantifyAll` is `quantify_all` and
`Scheme.ofTy` is `mono`.
-/

namespace QualifiedTypes

/-- A qualified type with bound variables. -/
structure Scheme where
  kinds : List Kind
  body : Qual Ty
  deriving DecidableEq

namespace Scheme

/-- The substitution that sends the variables of a list to the slots 0, 1, … -/
def slotsFor (vs : List TyVar) : Subst := ⟨vs.mapIdx fun i v => (v, .gen i)⟩

/-- Bind those variables of a qualified type whose ids are listed, in order of first occurrence. -/
def quantify (vars : List TyVar) (q : Qual Ty) : Scheme :=
  let bound := (freeVars q).filter fun v => vars.any fun w => w.id == v.id
  ⟨bound.map TyVar.kind, (slotsFor bound).apply q⟩

/-- Bind every variable of a qualified type. -/
def quantifyAll (q : Qual Ty) : Scheme := quantify (freeVars q) q

/-- The scheme of a type without bound variables. -/
def ofTy (t : Ty) : Scheme := ⟨[], [], t⟩

end Scheme

instance : HasTypes Scheme where
  types s := types s.body
  mapTypes f s := { s with body := mapTypes f s.body }
  types_mapTypes f s := types_mapTypes f s.body
  mapTypes_congr h := by rw [mapTypes_congr h]
  mapTypes_mapTypes f g s := by rw [mapTypes_mapTypes]
  mapTypes_id s := by rw [mapTypes_id]

end QualifiedTypes
