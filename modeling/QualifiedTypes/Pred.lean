import QualifiedTypes.HasTypes

/-!
# Predicates and qualified types

A predicate `C t` says that the type `t` belongs to the class `C`.  A phrase under a context of
predicates is qualified: `Qual Ty` is a qualified type and `Qual Pred` an instance declaration.
-/

namespace QualifiedTypes

/-- Membership of a type in a class. -/
structure Pred where
  className : String
  ty : Ty
  deriving DecidableEq

/-- A phrase under a context. -/
structure Qual (α : Type) where
  context : List Pred
  head : α
  deriving DecidableEq

/-- An instance declaration: the head holds wherever the context does. -/
abbrev Instance := Qual Pred

namespace Ty

/-- Whether the leftmost leaf is a variable. -/
def headedByVar : Ty → Bool
  | .var _ => true
  | .app f _ => f.headedByVar
  | _ => false

end Ty

namespace Pred

/-- Whether a predicate is in head-normal form: no instance for a constructor applies to it. -/
def inHnf (p : Pred) : Bool := p.ty.headedByVar

end Pred

instance : HasTypes Pred where
  types p := [p.ty]
  mapTypes f p := { p with ty := f p.ty }
  types_mapTypes _ _ := rfl
  mapTypes_congr h := by simp [h _ List.mem_cons_self]
  mapTypes_mapTypes _ _ _ := rfl
  mapTypes_id _ := rfl

instance {α : Type} [HasTypes α] : HasTypes (Qual α) where
  types q := types q.context ++ types q.head
  mapTypes f q := ⟨mapTypes f q.context, mapTypes f q.head⟩
  types_mapTypes f q := by rw [types_mapTypes, types_mapTypes, List.map_append]
  mapTypes_congr h := by
    rw [mapTypes_congr fun t ht => h t (List.mem_append_left _ ht),
      mapTypes_congr fun t ht => h t (List.mem_append_right _ ht)]
  mapTypes_mapTypes f g q := by rw [mapTypes_mapTypes, mapTypes_mapTypes]
  mapTypes_id q := by rw [mapTypes_id, mapTypes_id]

end QualifiedTypes
