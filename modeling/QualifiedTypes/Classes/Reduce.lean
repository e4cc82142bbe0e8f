import QualifiedTypes.Classes.Entail

/-!
# Context reduction

A context is reduced in two steps: every predicate is replaced by what its instances ask for, down to
predicates in head-normal form; then every predicate that the others entail is dropped.

* `ClassEnv.toHnf`, `ClassEnv.toHnfs` (in Conch, `to_hnf` and `to_hnfs`) are the first step.
* `ClassEnv.simplify` (`simplify`) is the second one.
* `ClassEnv.reduce` (`reduce`) takes both.
-/

namespace QualifiedTypes

namespace ClassEnv

/-- One step towards head-normal form. -/
def hnfStep (env : ClassEnv) (p : Pred) : Step :=
  if p.inHnf then .settled [p]
  else match env.byInst p with
    | .ok context => .replaced context
    | .error e => .stuck e

/-- The predicates in head-normal form that a list of predicates comes down to, in order. -/
def toHnfs (env : ClassEnv) (ps : List Pred) : Search (List Pred) :=
  exploreAll env.hnfStep (ps.map fun p => (p.searchDepth, p)) []

/-- The predicates in head-normal form that a predicate comes down to. -/
def toHnf (env : ClassEnv) (p : Pred) : Search (List Pred) := env.toHnfs [p]

theorem toHnf_eq (env : ClassEnv) (p : Pred) :
    env.toHnf p = explore env.hnfStep p.searchDepth p := by
  rw [toHnf, toHnfs, exploreAll_eq]
  cases h : explore env.hnfStep p.searchDepth p <;> simp [h]

theorem toHnfs_eq (env : ClassEnv) (ps : List Pred) :
    env.toHnfs ps = ps.mapM env.toHnf >>= fun parts => pure parts.flatten := by
  have h : env.toHnf = fun p => explore env.hnfStep p.searchDepth p := funext env.toHnf_eq
  rw [toHnfs, exploreAll_eq, List.mapM_map, h]
  rfl

/-- Drop from the second list what the rest of it and the first list entail. -/
def simplifyAfter (env : ClassEnv) (kept : List Pred) : List Pred → Search (List Pred)
  | [] => .done kept
  | p :: rest => do
    if ← env.entail (kept ++ rest) p then env.simplifyAfter kept rest
    else env.simplifyAfter (kept ++ [p]) rest

/-- Drop every predicate that the others entail. -/
def simplify (env : ClassEnv) (ps : List Pred) : Search (List Pred) := env.simplifyAfter [] ps

/-- Reduce a context. -/
def reduce (env : ClassEnv) (ps : List Pred) : Search (List Pred) := do
  let hnf ← env.toHnfs ps
  env.simplify hnf

end ClassEnv

end QualifiedTypes
