import QualifiedTypes.Pred

/-!
# Outcomes of a search through instances

Following instances from a predicate to the predicates of their contexts need not end: an instance may
ask for more than it gives.  A search therefore has a depth that it may not exceed, and three outcomes.  In Conch,
`entail` and `to_hnf` recurse without such a depth, and `MissingInstance` is `NoMatchingInstance`.
-/

namespace QualifiedTypes

/-- The predicate for which no instance was found. -/
structure MissingInstance where
  pred : Pred
  deriving DecidableEq

/-- The outcome of a search. -/
inductive Search (α : Type) where
  /-- The search ended with a value. -/
  | done (a : α)
  /-- The search ended at a predicate without an instance. -/
  | missing (e : MissingInstance)
  /-- The search did not end within its depth. -/
  | exhausted
  deriving DecidableEq

namespace Search

variable {α β : Type}

/-- Continue a search from its value. -/
def bind (x : Search α) (f : α → Search β) : Search β :=
  match x with
  | .done a => f a
  | .missing e => .missing e
  | .exhausted => .exhausted

instance : Monad Search where
  pure := .done
  bind := bind

instance : LawfulMonad Search :=
  .mk' Search (fun x => by cases x <;> rfl) (fun _ _ => rfl) (fun x _ _ => by cases x <;> rfl)

@[simp] theorem pure_eq (a : α) : (pure a : Search α) = .done a := rfl

@[simp] theorem done_bind (a : α) (f : α → Search β) : (Search.done a >>= f) = f a := rfl

@[simp] theorem missing_bind (e : MissingInstance) (f : α → Search β) :
    (Search.missing e >>= f) = .missing e := rfl

@[simp] theorem exhausted_bind (f : α → Search β) : (Search.exhausted >>= f) = .exhausted := rfl

/-- Whether a search ends with a value. -/
def succeeds : Search α → Search Bool
  | .done _ => .done true
  | .missing _ => .done false
  | .exhausted => .exhausted

end Search

end QualifiedTypes
