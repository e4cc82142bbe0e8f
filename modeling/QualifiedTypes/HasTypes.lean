import QualifiedTypes.Distinct
import QualifiedTypes.Ty

/-!
# Phrases built from types

Predicates, qualified types, schemes, typed expressions and lists of them all hold types at fixed
places.  `HasTypes` lists what stands there, in order, and says how to replace it, with the laws that tie
the two together.  Substitution, instantiation and the list of free variables are then defined once,
for every such phrase.

* `freeVars` (in Conch, `tv`) lists the variables of a phrase by first occurrence, one for each id.
* `inst` (`inst`) fills the numbered slots of a phrase.
-/

namespace QualifiedTypes

/-- A phrase with types at fixed places. -/
class HasTypes (α : Type) where
  /-- The types held, in order. -/
  types : α → List Ty
  /-- The same phrase with every type replaced. -/
  mapTypes : (Ty → Ty) → α → α
  types_mapTypes (f : Ty → Ty) (x : α) : types (mapTypes f x) = (types x).map f
  mapTypes_congr {f g : Ty → Ty} {x : α} (h : ∀ t ∈ types x, f t = g t) : mapTypes f x = mapTypes g x
  mapTypes_mapTypes (f g : Ty → Ty) (x : α) : mapTypes f (mapTypes g x) = mapTypes (fun t => f (g t)) x
  mapTypes_id (x : α) : mapTypes (fun t => t) x = x

export HasTypes (types mapTypes types_mapTypes mapTypes_congr mapTypes_mapTypes mapTypes_id)

attribute [simp] types_mapTypes mapTypes_id

instance : HasTypes Ty where
  types t := [t]
  mapTypes f t := f t
  types_mapTypes _ _ := rfl
  mapTypes_congr h := h _ List.mem_cons_self
  mapTypes_mapTypes _ _ _ := rfl
  mapTypes_id _ := rfl

instance {α : Type} [HasTypes α] : HasTypes (List α) where
  types xs := xs.flatMap types
  mapTypes f xs := xs.map (mapTypes f)
  types_mapTypes f xs := by
    induction xs with
    | nil => rfl
    | cons x xs ih => simp only [List.map_cons, List.flatMap_cons, types_mapTypes, ih, List.map_append]
  mapTypes_congr h := List.map_congr_left fun x hx =>
    mapTypes_congr fun t ht => h t (List.mem_flatMap.2 ⟨x, hx, ht⟩)
  mapTypes_mapTypes f g xs := by simp [List.map_map, Function.comp_def, mapTypes_mapTypes]
  mapTypes_id xs := (List.map_congr_left fun x _ => mapTypes_id x).trans (List.map_id' xs)

@[simp] theorem types_ty (t : Ty) : types t = [t] := rfl

@[simp] theorem mapTypes_ty (f : Ty → Ty) (t : Ty) : mapTypes f t = f t := rfl

@[simp] theorem mapTypes_list {α : Type} [HasTypes α] (f : Ty → Ty) (xs : List α) :
    mapTypes f xs = xs.map (mapTypes f) := rfl

@[simp] theorem types_list {α : Type} [HasTypes α] (xs : List α) :
    types xs = xs.flatMap types := rfl

section

variable {α : Type} [HasTypes α]

/-- Every occurrence of a variable in a phrase, from left to right. -/
def occurrences (x : α) : List TyVar := (types x).flatMap Ty.occurrences

/-- The variables of a phrase in order of first occurrence, one for each id. -/
def freeVars (x : α) : List TyVar := distinctOn TyVar.id (occurrences x)

end

namespace Ty

/-- Fill each slot with the type at its place in the list.  A slot past the end stays. -/
def inst (ts : List Ty) : Ty → Ty
  | .app f x => .app (f.inst ts) (x.inst ts)
  | .gen n => ts[n]?.getD (.gen n)
  | t => t

end Ty

/-- Fill the slots of a phrase. -/
def inst {α : Type} [HasTypes α] (ts : List Ty) (x : α) : α := mapTypes (Ty.inst ts) x

@[simp] theorem inst_ty (ts : List Ty) (t : Ty) : inst ts t = t.inst ts := rfl

end QualifiedTypes
