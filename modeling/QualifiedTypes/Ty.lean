import QualifiedTypes.Kind

/-!
# Type expressions

A type is a variable, a constructor, an application of one type to another, or a numbered slot of a
type scheme.  Functions and lists are ordinary applications of the constructors `->` and `List`.

* `Ty.kind` reads the kind of a type off its leftmost leaf.
* `Ty.head` and `Ty.args` are the two parts of the spine `head arg₁ … argₙ`.
* `Ty.asFun?` recognises exactly what `Ty.fn` builds, whatever kind its arrow carries.
-/

namespace QualifiedTypes

/-- A type variable. -/
structure TyVar where
  id : String
  kind : Kind
  deriving DecidableEq

/-- A type constructor. -/
structure TyCon where
  id : String
  kind : Kind
  deriving DecidableEq

namespace TyCon

/-- The constructor of function types. -/
def arrow : TyCon := ⟨"->", .ofArity 2⟩

/-- The constructor of list types. -/
def list : TyCon := ⟨"List", .ofArity 1⟩

end TyCon

/-- Type expressions. -/
inductive Ty where
  | var (v : TyVar)
  | con (c : TyCon)
  | app (fn arg : Ty)
  | gen (index : Nat)
  deriving DecidableEq

namespace Ty

/-- The type of functions from `domain` to `codomain`. -/
def fn (domain codomain : Ty) : Ty := .app (.app (.con .arrow) domain) codomain

/-- The type of lists of `elem`. -/
def list (elem : Ty) : Ty := .app (.con .list) elem

/-- The kind of a type.  A slot stands for a proper type. -/
def kind : Ty → Kind
  | .var v => v.kind
  | .con c => c.kind
  | .app f _ => f.kind.result
  | .gen _ => .star

/-- The leftmost leaf. -/
def head : Ty → Ty
  | .app f _ => f.head
  | t => t

/-- The arguments that the leftmost leaf is applied to, in order. -/
def args : Ty → List Ty
  | .app f x => f.args ++ [x]
  | _ => []

/-- The domain and codomain of a saturated application of the arrow. -/
def asFun? : Ty → Option (Ty × Ty)
  | .app (.app (.con c) domain) codomain =>
    if c.id = TyCon.arrow.id then some (domain, codomain) else none
  | _ => none

/-- The number of nodes. -/
def size : Ty → Nat
  | .app f x => f.size + x.size + 1
  | _ => 1

/-- The leftmost slot. -/
def firstGen? : Ty → Option Nat
  | .app f x => f.firstGen?.or x.firstGen?
  | .gen n => some n
  | _ => none

/-- Whether a type is a variable with this id. -/
def isVar (id : String) : Ty → Bool
  | .var v => v.id == id
  | _ => false

/-- Whether a variable with this id occurs. -/
def occurs (id : String) : Ty → Bool
  | .var v => v.id == id
  | .app f x => f.occurs id || x.occurs id
  | _ => false

/-- Every occurrence of a variable, from left to right. -/
def occurrences : Ty → List TyVar
  | .var v => [v]
  | .app f x => f.occurrences ++ x.occurrences
  | _ => []

@[simp] theorem kind_fn (domain codomain : Ty) : (fn domain codomain).kind = .star := rfl

@[simp] theorem kind_list (elem : Ty) : (list elem).kind = .star := rfl

@[simp] theorem asFun?_fn (domain codomain : Ty) :
    (fn domain codomain).asFun? = some (domain, codomain) := rfl

theorem size_pos (t : Ty) : 0 < t.size := by
  cases t <;> simp [size]

theorem occurs_iff (id : String) (t : Ty) :
    t.occurs id = true ↔ id ∈ t.occurrences.map TyVar.id := by
  induction t with
  | var v => simpa [occurs, occurrences] using eq_comm
  | con c => simp [occurs, occurrences]
  | gen n => simp [occurs, occurrences]
  | app f x ihf ihx => simp only [occurs, occurrences, Bool.or_eq_true, ihf, ihx, List.map_append,
      List.mem_append]

end Ty

end QualifiedTypes
