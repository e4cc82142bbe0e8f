import QualifiedTypes.Proofs.Runs

/-!
# Operators are functions of two arguments

`l op r` means `(op l) r`, and parentheses mean nothing.  The rule for operators is written out on its own,
with another order of the parts of the expression and other places to blame.  Here it is compared with the
rule for applications, step by step, from every state and whether or not a step fails.

* `Expr.desugar`: the expression without groups and operators.
* `Infer.EndAlike`: two runs end in one state, with related results or with errors of one cause.
* `Infer.Alike.bind`: steps that end alike from every state can be put one after the other.
* `Infer.expr_desugar`: inference does not tell an expression from its desugaring.
-/

namespace QualifiedTypes

/-- The expression without groups, in which operators are applied to one operand after the other. -/
def Expr.desugar : Expr → Expr
  | .literal token => .literal token
  | .name token => .name token
  | .grouping inner _ => inner.desugar
  | .application func arg => .application func.desugar arg.desugar
  | .binary left operator right =>
    .application (.application (.name operator) left.desugar) right.desugar
  | .assignment target value => .assignment target value

/-- Two errors that differ at most in the places that they blame. -/
inductive TypeError.SameCause : TypeError → TypeError → Prop where
  | unification (expected found left right : Ty) (cause : UnifyError) (origin origin' : Origin) :
      SameCause (.unification ⟨expected, found, left, right, cause, origin⟩)
        (.unification ⟨expected, found, left, right, cause, origin'⟩)
  | unboundVariable (name : String) (span span' : Span) :
      SameCause (.unboundVariable name span) (.unboundVariable name span')
  | unsupportedForm (form : String) (span span' : Span) :
      SameCause (.unsupportedForm form span) (.unsupportedForm form span')
  | noMatchingInstance (pred : Pred) (span span' : Span) :
      SameCause (.noMatchingInstance pred span) (.noMatchingInstance pred span')

theorem TypeError.SameCause.refl (e : TypeError) : e.SameCause e := by
  cases e with
  | unification clash => exact .unification ..
  | unboundVariable name span => exact .unboundVariable ..
  | unsupportedForm form span => exact .unsupportedForm ..
  | noMatchingInstance pred span => exact .noMatchingInstance ..

namespace Infer

variable {α β γ δ : Type} {R : α → β → Prop} {S : γ → δ → Prop}

/-- Two runs end in one state, both with results that are related or both with errors of one cause. -/
inductive EndAlike (R : α → β → Prop) :
    Except TypeError α × InferState → Except TypeError β × InferState → Prop where
  | ok {a : α} {b : β} (st : InferState) (h : R a b) : EndAlike R (.ok a, st) (.ok b, st)
  | error {e e' : TypeError} (st : InferState) (h : e.SameCause e') :
      EndAlike R (.error e, st) (.error e', st)

/-- From every state, two steps end alike. -/
def Alike (R : α → β → Prop) (x : Infer α) (y : Infer β) : Prop :=
  ∀ st, EndAlike R (x.runFrom st) (y.runFrom st)

namespace Alike

theorem refl {R : α → α → Prop} (hR : ∀ a, R a a) (x : Infer α) : Alike R x x := by
  intro st
  rcases x.runFrom st with ⟨e | a, st'⟩
  · exact .error st' (.refl e)
  · exact .ok st' (hR a)

theorem pure {a : α} {b : β} (h : R a b) : Alike R (Pure.pure a) (Pure.pure b) := fun st => .ok st h

/-- Sequences end alike if their steps do.  The second steps start in one state, since the first ones end
in one. -/
theorem bind {x : Infer α} {y : Infer β} {f : α → Infer γ} {g : β → Infer δ} (hxy : Alike R x y)
    (hfg : ∀ a b, R a b → Alike S (f a) (g b)) : Alike S (x >>= f) (y >>= g) := by
  intro st
  have h := hxy st
  rw [runFrom_bind, runFrom_bind]
  revert h
  generalize x.runFrom st = p
  generalize y.runFrom st = q
  intro h
  cases h with
  | ok st' h => exact hfg _ _ h st'
  | error st' h => exact .error st' h

end Alike

/-! ## Rules -/

theorem unify_alike (expected found : Ty) (origin origin' : Origin) :
    Alike Eq (unify expected found origin) (unify expected found origin') := by
  intro st
  rw [runFrom_unify, runFrom_unify]
  cases QualifiedTypes.unify (expected.subst st.subst) (found.subst st.subst) with
  | ok u => exact .ok _ rfl
  | error cause => exact .error st (.unification ..)

theorem applyTo_alike (func arg : Ty) (origin origin' : Origin) :
    Alike Eq (applyTo func arg origin) (applyTo func arg origin') := by
  refine (Alike.refl Eq.refl (freshVar .star)).bind ?_
  rintro result _ rfl
  exact (unify_alike func (.fn arg result) origin origin').bind fun _ _ _ => .pure rfl

/-- The same predicates in the same order, and the same type for the whole expression. -/
def SameType (r r' : List Pred × TypedExpr) : Prop := r.1 = r'.1 ∧ r.2.ty = r'.2.ty

variable (env : TypeEnv)

theorem application_alike {func arg func' arg' : Expr} (hfunc : Alike SameType (expr env func) (expr env func'))
    (harg : Alike SameType (expr env arg) (expr env arg')) :
    Alike SameType (expr env (.application func arg)) (expr env (.application func' arg')) := by
  refine hfunc.bind ?_
  rintro ⟨ps, typedFunc⟩ ⟨ps', typedFunc'⟩ ⟨rfl, hfuncTy⟩
  refine harg.bind ?_
  rintro ⟨qs, typedArg⟩ ⟨qs', typedArg'⟩ ⟨rfl, hargTy⟩
  dsimp only at hfuncTy hargTy ⊢
  rw [hfuncTy, hargTy]
  refine (applyTo_alike _ _ _ _).bind ?_
  rintro ty _ rfl
  exact .pure ⟨rfl, rfl⟩

/-- An application of a name to two arguments, as one sequence of steps. -/
theorem expr_curried (operator : Token) (left right : Expr) :
    expr env (.application (.application (.name operator) left) right) = (do
      let q ← name env operator
      let l ← expr env left
      let applied ← applyTo q.head l.2.ty (.application operator.span left.span)
      let r ← expr env right
      let ty ← applyTo applied r.2.ty (.application (operator.span.merge left.span) right.span)
      return (q.context ++ l.1 ++ r.1,
        .application (.application (.name operator q.head) l.2 applied) r.2 ty)) := by
  simp only [expr, bind_assoc, pure_bind]
  rfl

/-- The rule for operators is the rule for applications, used twice. -/
theorem binary_alike (operator : Token) {left right left' right' : Expr}
    (hleft : Alike SameType (expr env left) (expr env left'))
    (hright : Alike SameType (expr env right) (expr env right')) :
    Alike SameType (expr env (.binary left operator right))
      (expr env (.application (.application (.name operator) left') right')) := by
  rw [expr_curried]
  refine (Alike.refl Eq.refl (name env operator)).bind ?_
  rintro q _ rfl
  refine hleft.bind ?_
  rintro ⟨ps, typedLeft⟩ ⟨ps', typedLeft'⟩ ⟨rfl, hleftTy⟩
  dsimp only at hleftTy ⊢
  rw [hleftTy]
  refine (applyTo_alike _ _ _ _).bind ?_
  rintro applied _ rfl
  refine hright.bind ?_
  rintro ⟨qs, typedRight⟩ ⟨qs', typedRight'⟩ ⟨rfl, hrightTy⟩
  dsimp only at hrightTy ⊢
  rw [hrightTy]
  refine (applyTo_alike _ _ _ _).bind ?_
  rintro ty _ rfl
  exact .pure ⟨rfl, rfl⟩

theorem grouping_alike (span : Span) {inner inner' : Expr}
    (hinner : Alike SameType (expr env inner) (expr env inner')) :
    Alike SameType (expr env (.grouping inner span)) (expr env inner') := by
  rw [← bind_pure (expr env inner')]
  exact hinner.bind fun _ _ h => .pure h

/-- **Inference does not tell an expression from its desugaring.**  From every state both runs end in the same
state.  Both succeed, with the same predicates in the same order and the same type, or both fail, with errors
that differ at most in the places that they blame. -/
theorem expr_desugar (e : Expr) (st : InferState) :
    EndAlike SameType ((expr env e).runFrom st) ((expr env e.desugar).runFrom st) := by
  have hrefl : ∀ r, SameType r r := fun _ => ⟨rfl, rfl⟩
  revert st
  show Alike SameType (expr env e) (expr env e.desugar)
  induction e with
  | literal token => exact .refl hrefl _
  | name token => exact .refl hrefl _
  | grouping inner span ih => exact grouping_alike env span ih
  | application func arg ihf iha => exact application_alike env ihf iha
  | binary left operator right ihl ihr => exact binary_alike env operator ihl ihr
  | assignment target value => exact .refl hrefl _

end Infer

end QualifiedTypes
