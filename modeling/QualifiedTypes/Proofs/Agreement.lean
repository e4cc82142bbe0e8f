import QualifiedTypes.Proofs.Reduction

/-!
# Environments that take the same steps

Entailment and reduction look at instances only through single steps.  Two environments with the same
classes that take the same steps from predicates of a sort, and do not leave that sort, therefore give the
same answers about it, successes and failures alike.

* `ClassEnv.AgreesOn`: the same classes, and the same steps at types of a sort.
* `explore_congr`: searches that take the same steps have the same outcome.
* `ClassEnv.AgreesOn.entail_eq`, `ClassEnv.AgreesOn.reduce_eq`: the same entailment and reduction.
* `Prelude.check_congr`: the same outcome of checking an expression.
-/

namespace QualifiedTypes

/-- Searches have the same outcome if their steps agree wherever they get to. -/
theorem explore_congr {step step' : Pred → Step} {sort : Ty → Prop}
    (hsame : ∀ p, sort p.ty → step p = step' p)
    (hclosed : ∀ p parts, sort p.ty → step p = .replaced parts → ∀ q ∈ parts, sort q.ty) (depth : Nat)
    {p : Pred} (hp : sort p.ty) : explore step depth p = explore step' depth p := by
  induction depth generalizing p with
  | zero => rfl
  | succ depth ih =>
    have hsame' : step' p = step p := (hsame p hp).symm
    cases hstep : step p with
    | settled found => rw [explore, explore, hsame', hstep]
    | stuck e => rw [explore, explore, hsame', hstep]
    | replaced parts =>
      rw [explore_replaced hstep, explore_replaced (hsame'.trans hstep),
        Search.mapM_congr fun q hq => ih (hclosed p parts hp hstep q hq)]

namespace ClassEnv

/-- Two environments have the same classes and take the same steps at types of a sort, which steps do not
leave. -/
structure AgreesOn (sort : Ty → Prop) (env env' : ClassEnv) : Prop where
  classes : env.classes = env'.classes
  byInst : ∀ p, sort p.ty → env.byInst p = env'.byInst p
  closed : ∀ p context, sort p.ty → env.byInst p = .ok context → ∀ q ∈ context, sort q.ty

namespace AgreesOn

variable {sort : Ty → Prop} {env env' : ClassEnv} {p : Pred} {ps kept rest : List Pred}

theorem givenImplies_eq (h : env.AgreesOn sort env') (given : List Pred) (p : Pred) :
    env.givenImplies given p = env'.givenImplies given p := by
  unfold givenImplies bySuper
  rw [h.classes]

/-- **The same is entailed.** -/
theorem entail_eq (h : env.AgreesOn sort env') (given : List Pred) (hp : sort p.ty) :
    env.entail given p = env'.entail given p := by
  rw [ClassEnv.entail_eq, ClassEnv.entail_eq]
  congr 1
  refine explore_congr (fun q hq => ?_) (fun q parts hq hstep => ?_) _ hp
  · rw [entailStep, entailStep, h.givenImplies_eq, h.byInst q hq]
  · exact h.closed q parts hq (entailStep_eq_replaced hstep)

theorem toHnfs_eq (h : env.AgreesOn sort env') (hps : ∀ p ∈ ps, sort p.ty) :
    env.toHnfs ps = env'.toHnfs ps := by
  have hone : ∀ p ∈ ps, env.toHnf p = env'.toHnf p := by
    intro p hp
    rw [toHnf_eq, toHnf_eq]
    refine explore_congr (fun q hq => ?_) (fun q parts hq hstep => ?_) _ (hps p hp)
    · rw [hnfStep, hnfStep, h.byInst q hq]
    · exact h.closed q parts hq (hnfStep_eq_replaced hstep)
  rw [ClassEnv.toHnfs_eq, ClassEnv.toHnfs_eq, Search.mapM_congr hone]

theorem sort_of_stepsTo (h : env.AgreesOn sort env') {q : Pred} (hsteps : env.StepsTo p q)
    (hp : sort p.ty) : sort q.ty := by
  induction hsteps with
  | refl => exact hp
  | tail _ hstep ih =>
    obtain ⟨context, hcontext, hq⟩ := hstep
    exact h.closed _ context ih hcontext _ hq

theorem simplifyAfter_eq (h : env.AgreesOn sort env') (hrest : ∀ p ∈ rest, sort p.ty) :
    env.simplifyAfter kept rest = env'.simplifyAfter kept rest := by
  induction rest generalizing kept with
  | nil => rfl
  | cons p rest ih =>
    have hrest' : ∀ q ∈ rest, sort q.ty := fun q hq => hrest q (List.mem_cons_of_mem _ hq)
    rw [simplifyAfter, simplifyAfter, h.entail_eq _ (hrest p List.mem_cons_self), ih hrest', ih hrest']

/-- **The same is left after reduction.** -/
theorem reduce_eq (h : env.AgreesOn sort env') (hps : ∀ p ∈ ps, sort p.ty) :
    env.reduce ps = env'.reduce ps := by
  rw [reduce, reduce, ← h.toHnfs_eq hps]
  cases hnf : env.toHnfs ps with
  | missing e => rfl
  | exhausted => rfl
  | done qs =>
    rw [Search.done_bind, Search.done_bind]
    refine h.simplifyAfter_eq fun q hq => ?_
    obtain ⟨_, p, hp, hsteps⟩ := (toHnfs_proves [] hnf).1 q hq
    exact h.sort_of_stepsTo hsteps (hps p hp)

end AgreesOn

end ClassEnv

/-- **Preludes that agree check alike**: they have the same schemes, and take the same steps wherever there
are no slots and only constructors of the prelude. -/
theorem Prelude.check_congr {prelude prelude' : Prelude} (hprelude : prelude.Sound)
    (htypes : prelude.typeEnv = prelude'.typeEnv)
    (hclasses : prelude.classEnv.AgreesOn
      (fun t => t.firstGen? = none ∧ t.ConsFit prelude.constructors.find?) prelude'.classEnv) (e : Expr) :
    prelude.check e = prelude'.check e := by
  unfold Prelude.check
  rw [← htypes]
  rcases hrun : (Infer.expr prelude.typeEnv e).runFrom .initial with ⟨err | ⟨preds, typed⟩, state⟩
  · rfl
  · dsimp only
    rw [hclasses.reduce_eq (infer_predicates_fit hprelude hrun)]

end QualifiedTypes
