import QualifiedTypes.Classes.Env
import QualifiedTypes.Classes.Explore
import QualifiedTypes.Unify.Match

/-!
# Entailment

A predicate follows from a list of givens if a given implies it through superclasses, or if it is an
instance of an instance head and every predicate of the context follows.

* `ClassEnv.bySuper` (in Conch, `by_super`) lists all that a predicate implies through superclasses.
* `ClassEnv.byInst` (`by_inst`) is one step through the instances.
* `ClassEnv.entail` (`entail`) is the decision.
-/

namespace QualifiedTypes

/-- A class and all its superclasses, by first occurrence from left to right, given the declarations
from the newest to the oldest.  Superclasses are declared earlier, so they are sought in the rest. -/
def superclasses : List ClassDecl → String → List String
  | [], c => [c]
  | d :: older, c =>
    if d.name = c then distinctOn id (c :: d.supers.flatMap (superclasses older))
    else superclasses older c

/-- The margin that a search has beyond the size of its type.  Where each context is smaller than its
head the size alone is enough; the margin is for instances whose contexts grow before they shrink, and
is only there to stop a search that has no end. -/
def searchMargin : Nat := 10000000

/-- The depth to which instances are followed from a predicate. -/
def Pred.searchDepth (p : Pred) : Nat := searchMargin + p.ty.size

/-- The wording for a predicate without an instance. -/
def MissingInstance.message (e : MissingInstance) : String := "no instance for `" ++ e.pred.text ++ "`"

namespace ClassEnv

/-- A predicate and all that it implies through superclasses. -/
def bySuper (env : ClassEnv) (p : Pred) : List Pred :=
  (superclasses env.classes p.className).map fun c => ⟨c, p.ty⟩

/-- The context of the newest instance whose head matches, instantiated. -/
def byInst (env : ClassEnv) (p : Pred) : Except MissingInstance (List Pred) :=
  match env.instances.findSome? fun i => (matchPred i.head p).toOption.map fun s => s.apply i.context with
  | some context => .ok context
  | none => .error ⟨p⟩

/-- Whether a given implies a predicate through superclasses. -/
def givenImplies (env : ClassEnv) (given : List Pred) (p : Pred) : Bool :=
  given.any fun q => (env.bySuper q).contains p

/-- One step towards the givens: what they imply is settled, and leaves nothing to be shown. -/
def entailStep (env : ClassEnv) (given : List Pred) (p : Pred) : Step :=
  if env.givenImplies given p then .settled []
  else match env.byInst p with
    | .ok context => .replaced context
    | .error e => .stuck e

/-- Whether a predicate follows from the givens. -/
def entail (env : ClassEnv) (given : List Pred) (p : Pred) : Search Bool :=
  (exploreAll (env.entailStep given) [(p.searchDepth, p)] []).succeeds

theorem entail_eq (env : ClassEnv) (given : List Pred) (p : Pred) :
    env.entail given p = (explore (env.entailStep given) p.searchDepth p).succeeds := by
  rw [entail, exploreAll_eq]
  cases h : explore (env.entailStep given) p.searchDepth p <;> simp [h, Search.succeeds]

end ClassEnv

end QualifiedTypes
