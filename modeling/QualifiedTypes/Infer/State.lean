import QualifiedTypes.Infer.Error
import QualifiedTypes.Scheme
import QualifiedTypes.Unify

/-!
# The state of inference

Inference draws fresh variables `t0`, `t1`, … from a counter and collects what it learns about them in
one substitution.  The state is kept when a step fails.  In Conch it is `InferCtx`, and `freshName` is `enum_id`.

* `Infer.freshVar` (in Conch, `new_tvar`) and `Infer.instantiate` (`fresh_inst`) only move the counter.
* `Infer.unify` (`unify`) only extends the substitution, and leaves it alone if the types clash.
-/

namespace QualifiedTypes

/-- The number of variables drawn, and what is known about them.  The number has no bound; a counter of 32 bits, as in
Conch, agrees with it as long as fewer than `2 ^ 32` variables are drawn. -/
structure InferState where
  varCount : Nat
  subst : Subst
  deriving DecidableEq

/-- The state before anything was inferred. -/
def InferState.initial : InferState := ⟨0, .empty⟩

/-- Steps of inference: they change the state, and may fail. -/
abbrev Infer (α : Type) := ExceptT TypeError (StateM InferState) α

/-- The name of the `n`th fresh variable. -/
def freshName (n : Nat) : String := "t" ++ toString n

namespace Infer

/-- The result of a step and the state after it. -/
def runFrom {α : Type} (x : Infer α) (state : InferState) : Except TypeError α × InferState :=
  (x.run.run state).run

/-- Draw a fresh variable. -/
def freshVar (kind : Kind) : Infer Ty := do
  let state ← get
  set { state with varCount := state.varCount + 1 }
  return .var ⟨freshName state.varCount, kind⟩

/-- The body of a scheme with fresh variables in its slots. -/
def instantiate (scheme : Scheme) : Infer (Qual Ty) := do
  let fresh ← scheme.kinds.mapM freshVar
  return inst fresh scheme.body

/-- Make two types equal, given all that is known about them. -/
def unify (expected found : Ty) (origin : Origin) : Infer Unit := do
  let state ← get
  let left := state.subst.apply expected
  let right := state.subst.apply found
  match QualifiedTypes.unify left right with
  | .ok u => set { state with subst := u.compose state.subst }
  | .error cause => throw (.unification { expected, found, left, right, cause, origin })

end Infer

end QualifiedTypes
