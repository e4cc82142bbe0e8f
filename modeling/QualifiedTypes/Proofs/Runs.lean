import QualifiedTypes.Infer.Rules
import QualifiedTypes.Proofs.Typing

/-!
# Successful runs of inference

What each step of inference does to the state when it succeeds, and which variables a run has drawn.

* `runFrom_bind_iff`: a sequence of steps succeeds iff each step does, from where the last one ended.
* `runFrom_applyTo_iff`, `runFrom_name_iff`, `runFrom_application_iff`, `runFrom_binary_iff`: when the rules
  succeed, and with what.
* `drawnTable`: the names drawn so far with their kinds.  `drawnTable_mono` says that drawing more
  forgets nothing, `drawnTable_new` that the next name is a new one.
* `Expr.drawn`: the kinds of the variables that inference draws for an expression.
-/

namespace QualifiedTypes

namespace Infer

variable {α β : Type} {st st' : InferState}

/-! ## Steps -/

@[simp] theorem runFrom_pure (a : α) : (pure a : Infer α).runFrom st = (.ok a, st) := rfl

theorem runFrom_get : (get : Infer InferState).runFrom st = (.ok st, st) := rfl

theorem runFrom_bind (x : Infer α) (f : α → Infer β) (st : InferState) :
    (x >>= f).runFrom st = match x.runFrom st with
      | (.ok a, st₁) => (f a).runFrom st₁
      | (.error e, st₁) => (.error e, st₁) := by
  cases h : x.runFrom st with
  | mk r st₁ =>
    unfold runFrom at h ⊢
    rw [ExceptT.run_bind, StateT.run_bind, Id.run_bind, h]
    cases r <;> rfl

/-- A sequence of two steps succeeds iff both do, the second from where the first ended. -/
theorem runFrom_bind_iff {x : Infer α} {f : α → Infer β} {b : β} :
    (x >>= f).runFrom st = (.ok b, st') ↔
      ∃ a st₁, x.runFrom st = (.ok a, st₁) ∧ (f a).runFrom st₁ = (.ok b, st') := by
  rw [runFrom_bind]
  constructor
  · intro h
    split at h
    · exact ⟨_, _, ‹_›, h⟩
    · cases h
  · rintro ⟨a, st₁, hx, hf⟩
    rw [hx]
    exact hf

theorem runFrom_freshVar (k : Kind) :
    (freshVar k).runFrom st =
      (.ok (.var ⟨freshName st.varCount, k⟩), { st with varCount := st.varCount + 1 }) := rfl

/-- The variables of these kinds that are drawn when `n` were drawn before. -/
def freshVars : Nat → List Kind → List Ty
  | _, [] => []
  | n, k :: kinds => .var ⟨freshName n, k⟩ :: freshVars (n + 1) kinds

@[simp] theorem length_freshVars (n : Nat) (kinds : List Kind) :
    (freshVars n kinds).length = kinds.length := by
  induction kinds generalizing n with
  | nil => rfl
  | cons k kinds ih => rw [freshVars, List.length_cons, List.length_cons, ih]

@[simp] theorem map_kind_freshVars (n : Nat) (kinds : List Kind) :
    (freshVars n kinds).map Ty.kind = kinds := by
  induction kinds generalizing n with
  | nil => rfl
  | cons k kinds ih => rw [freshVars, List.map_cons, ih, Ty.kind]

theorem runFrom_mapM_freshVar (kinds : List Kind) :
    (kinds.mapM freshVar).runFrom st =
      (.ok (freshVars st.varCount kinds), { st with varCount := st.varCount + kinds.length }) := by
  induction kinds generalizing st with
  | nil => rfl
  | cons k kinds ih =>
    rw [List.mapM_cons, runFrom_bind_iff]
    refine ⟨_, _, runFrom_freshVar k, ?_⟩
    rw [runFrom_bind_iff]
    refine ⟨_, _, ih, ?_⟩
    rw [runFrom_pure, freshVars, List.length_cons, Nat.add_right_comm, Nat.add_assoc]

theorem runFrom_instantiate (scheme : Scheme) :
    (instantiate scheme).runFrom st = (.ok (inst (freshVars st.varCount scheme.kinds) scheme.body),
      { st with varCount := st.varCount + scheme.kinds.length }) := by
  unfold instantiate
  rw [runFrom_bind_iff]
  exact ⟨_, _, runFrom_mapM_freshVar _, rfl⟩

theorem runFrom_unify (expected found : Ty) (origin : Origin) (st : InferState) :
    (unify expected found origin).runFrom st =
      match QualifiedTypes.unify (expected.subst st.subst) (found.subst st.subst) with
      | .ok u => (.ok (), { st with subst := u.compose st.subst })
      | .error cause => (.error (.unification
          ⟨expected, found, expected.subst st.subst, found.subst st.subst, cause, origin⟩), st) := by
  unfold unify
  rw [runFrom_bind, runFrom_get]
  dsimp only [Subst.apply_ty]
  cases QualifiedTypes.unify (expected.subst st.subst) (found.subst st.subst) <;> rfl

theorem runFrom_unify_iff {expected found : Ty} {origin : Origin} :
    (unify expected found origin).runFrom st = (.ok (), st') ↔
      ∃ u, QualifiedTypes.unify (expected.subst st.subst) (found.subst st.subst) = .ok u ∧
        st' = { st with subst := u.compose st.subst } := by
  rw [runFrom_unify]
  cases QualifiedTypes.unify (expected.subst st.subst) (found.subst st.subst) with
  | error cause => simp
  | ok u => simp [eq_comm]

/-! ## Rules -/

/-- The result of an application is a fresh variable, and the function is a function to it. -/
theorem runFrom_applyTo_iff {func arg ty : Ty} {origin : Origin} :
    (applyTo func arg origin).runFrom st = (.ok ty, st') ↔
      ty = .var ⟨freshName st.varCount, .star⟩ ∧
        ∃ u, QualifiedTypes.unify (func.subst st.subst) ((Ty.fn arg ty).subst st.subst) = .ok u ∧
          st' = ⟨st.varCount + 1, u.compose st.subst⟩ := by
  unfold applyTo
  rw [runFrom_bind_iff]
  constructor
  · rintro ⟨result, st₁, hfresh, h⟩
    rw [runFrom_freshVar] at hfresh
    cases hfresh
    obtain ⟨_, st₂, hunify, h⟩ := runFrom_bind_iff.1 h
    obtain ⟨u, hu, rfl⟩ := runFrom_unify_iff.1 hunify
    cases h
    exact ⟨rfl, u, hu, rfl⟩
  · rintro ⟨rfl, u, hu, rfl⟩
    refine ⟨_, _, runFrom_freshVar _, runFrom_bind_iff.2 ⟨(), _, ?_, rfl⟩⟩
    exact runFrom_unify_iff.2 ⟨u, hu, rfl⟩

/-- A name in scope is instantiated. -/
theorem runFrom_name_iff {env : TypeEnv} {token : Token} {q : Qual Ty} :
    (name env token).runFrom st = (.ok q, st') ↔
      ∃ scheme, env.find? token.lexeme = some scheme ∧
        q = inst (freshVars st.varCount scheme.kinds) scheme.body ∧
        st' = { st with varCount := st.varCount + scheme.kinds.length } := by
  unfold name
  cases env.find? token.lexeme with
  | none =>
    constructor
    · intro h
      cases h
    · rintro ⟨scheme, h, _⟩
      cases h
  | some scheme =>
    dsimp only
    rw [runFrom_instantiate]
    constructor
    · intro h
      cases h
      exact ⟨scheme, rfl, rfl, rfl⟩
    · rintro ⟨_, h, rfl, rfl⟩
      cases h
      rfl

variable {env : TypeEnv} {preds : List Pred} {typed : TypedExpr}

theorem runFrom_literal_iff {token : Token} :
    (expr env (.literal token)).runFrom st = (.ok (preds, typed), st') ↔
      preds = [⟨literalClass token.kind, .var ⟨freshName st.varCount, .star⟩⟩] ∧
        typed = .literal token (.var ⟨freshName st.varCount, .star⟩) ∧
        st' = { st with varCount := st.varCount + 1 } := by
  have hrun : (expr env (.literal token)).runFrom st =
      (.ok ([⟨literalClass token.kind, .var ⟨freshName st.varCount, .star⟩⟩],
        .literal token (.var ⟨freshName st.varCount, .star⟩)),
        { st with varCount := st.varCount + 1 }) := rfl
  rw [hrun]
  constructor
  · intro h
    cases h
    exact ⟨rfl, rfl, rfl⟩
  · rintro ⟨rfl, rfl, rfl⟩
    rfl

theorem runFrom_exprName_iff {token : Token} :
    (expr env (.name token)).runFrom st = (.ok (preds, typed), st') ↔
      ∃ q, (name env token).runFrom st = (.ok q, st') ∧ preds = q.context ∧
        typed = .name token q.head := by
  rw [expr, runFrom_bind_iff]
  constructor
  · rintro ⟨q, st₁, hq, h⟩
    cases h
    exact ⟨q, hq, rfl, rfl⟩
  · rintro ⟨q, hq, rfl, rfl⟩
    exact ⟨q, _, hq, rfl⟩

theorem runFrom_grouping_iff {inner : Expr} {span : Span} :
    (expr env (.grouping inner span)).runFrom st = (.ok (preds, typed), st') ↔
      ∃ typedInner, (expr env inner).runFrom st = (.ok (preds, typedInner), st') ∧
        typed = .grouping typedInner span := by
  rw [expr, runFrom_bind_iff]
  constructor
  · rintro ⟨⟨ps, t⟩, st₁, hinner, h⟩
    cases h
    exact ⟨t, hinner, rfl⟩
  · rintro ⟨t, hinner, rfl⟩
    exact ⟨(preds, t), _, hinner, rfl⟩

/-- An application succeeds iff function, argument and the step that joins them do, in this order. -/
theorem runFrom_application_iff {func arg : Expr} :
    (expr env (.application func arg)).runFrom st = (.ok (preds, typed), st') ↔
      ∃ ps typedFunc st₁ qs typedArg st₂ ty,
        (expr env func).runFrom st = (.ok (ps, typedFunc), st₁) ∧
        (expr env arg).runFrom st₁ = (.ok (qs, typedArg), st₂) ∧
        (applyTo typedFunc.ty typedArg.ty (.application func.span arg.span)).runFrom st₂ =
          (.ok ty, st') ∧
        preds = ps ++ qs ∧ typed = .application typedFunc typedArg ty := by
  rw [expr, runFrom_bind_iff]
  constructor
  · rintro ⟨⟨ps, tf⟩, st₁, hf, h⟩
    obtain ⟨⟨qs, ta⟩, st₂, ha, h⟩ := runFrom_bind_iff.1 h
    obtain ⟨ty, st₃, hty, h⟩ := runFrom_bind_iff.1 h
    cases h
    exact ⟨ps, tf, st₁, qs, ta, st₂, ty, hf, ha, hty, rfl, rfl⟩
  · rintro ⟨ps, tf, st₁, qs, ta, st₂, ty, hf, ha, hty, rfl, rfl⟩
    refine ⟨(ps, tf), st₁, hf, runFrom_bind_iff.2 ⟨(qs, ta), st₂, ha, ?_⟩⟩
    exact runFrom_bind_iff.2 ⟨ty, st', hty, rfl⟩

/-- An operator is applied to its left operand before the right one is looked at. -/
theorem runFrom_binary_iff {left right : Expr} {operator : Token} :
    (expr env (.binary left operator right)).runFrom st = (.ok (preds, typed), st') ↔
      ∃ q st₁ ps typedLeft st₂ applied st₃ qs typedRight st₄ ty,
        (name env operator).runFrom st = (.ok q, st₁) ∧
        (expr env left).runFrom st₁ = (.ok (ps, typedLeft), st₂) ∧
        (applyTo q.head typedLeft.ty
          (.operator operator.lexeme (left.span.merge right.span))).runFrom st₂ = (.ok applied, st₃) ∧
        (expr env right).runFrom st₃ = (.ok (qs, typedRight), st₄) ∧
        (applyTo applied typedRight.ty
          (.operator operator.lexeme (left.span.merge right.span))).runFrom st₄ = (.ok ty, st') ∧
        preds = q.context ++ ps ++ qs ∧ typed = .binary typedLeft operator q.head typedRight ty := by
  rw [expr, runFrom_bind_iff]
  constructor
  · rintro ⟨q, st₁, hq, h⟩
    obtain ⟨⟨ps, tl⟩, st₂, hl, h⟩ := runFrom_bind_iff.1 h
    obtain ⟨applied, st₃, happ, h⟩ := runFrom_bind_iff.1 h
    obtain ⟨⟨qs, tr⟩, st₄, hr, h⟩ := runFrom_bind_iff.1 h
    obtain ⟨ty, st₅, hty, h⟩ := runFrom_bind_iff.1 h
    cases h
    exact ⟨q, st₁, ps, tl, st₂, applied, st₃, qs, tr, st₄, ty, hq, hl, happ, hr, hty, rfl, rfl⟩
  · rintro ⟨q, st₁, ps, tl, st₂, applied, st₃, qs, tr, st₄, ty, hq, hl, happ, hr, hty, rfl, rfl⟩
    refine ⟨q, st₁, hq, runFrom_bind_iff.2 ⟨(ps, tl), st₂, hl, ?_⟩⟩
    refine runFrom_bind_iff.2 ⟨applied, st₃, happ, runFrom_bind_iff.2 ⟨(qs, tr), st₄, hr, ?_⟩⟩
    exact runFrom_bind_iff.2 ⟨ty, st', hty, rfl⟩

theorem runFrom_assignment {target : Token} {value : Expr} :
    (expr env (.assignment target value)).runFrom st ≠ (.ok (preds, typed), st') := by
  intro h
  cases h

end Infer

/-! ## Drawn variables -/

/-- The kind of a name among those drawn from `n` on. -/
def drawnKind? : Nat → List Kind → String → Option Kind
  | _, [], _ => none
  | n, k :: kinds, id => if id = freshName n then some k else drawnKind? (n + 1) kinds id

/-- The table of the variables drawn so far, from their kinds, beside a table of constructors. -/
def drawnTable (con : String → Option Kind) (kinds : List Kind) : KindTable :=
  ⟨drawnKind? 0 kinds, con⟩

theorem drawnKind?_append (n : Nat) (kinds more : List Kind) (id : String) :
    drawnKind? n (kinds ++ more) id =
      (drawnKind? n kinds id).or (drawnKind? (n + kinds.length) more id) := by
  induction kinds generalizing n with
  | nil => rfl
  | cons k kinds ih =>
    rw [List.cons_append, drawnKind?, drawnKind?, ih, List.length_cons]
    split
    · rfl
    · rw [Nat.add_right_comm, Nat.add_assoc]

theorem drawnKind?_eq_none {n m : Nat} {kinds : List Kind} (h : n + kinds.length ≤ m) :
    drawnKind? n kinds (freshName m) = none := by
  induction kinds generalizing n with
  | nil => rfl
  | cons k kinds ih =>
    rw [List.length_cons] at h
    have hne : freshName m ≠ freshName n := fun he => by
      have := append_toString_injective he
      omega
    rw [drawnKind?, if_neg hne]
    exact ih (by omega)

/-- Drawing more variables forgets nothing. -/
theorem drawnTable_mono (con : String → Option Kind) {kinds kinds' : List Kind} (h : kinds <+: kinds') :
    drawnTable con kinds ≤ drawnTable con kinds' := by
  obtain ⟨more, rfl⟩ := h
  refine ⟨fun id k h => ?_, fun _ _ h => h⟩
  show drawnKind? 0 (kinds ++ more) id = some k
  rw [drawnKind?_append, show drawnKind? 0 kinds id = some k from h]
  rfl

/-- The next name is not among those drawn so far. -/
theorem drawnTable_new (con : String → Option Kind) (kinds : List Kind) :
    (drawnTable con kinds).var (freshName kinds.length) = none :=
  drawnKind?_eq_none (by omega)

/-- The variable just drawn is listed. -/
theorem fits_drawn (con : String → Option Kind) (kinds : List Kind) (k : Kind) :
    (Ty.var ⟨freshName kinds.length, k⟩).Fits (drawnTable con (kinds ++ [k])) := by
  rw [Ty.fits_var]
  show drawnKind? 0 (kinds ++ [k]) (freshName kinds.length) = some k
  rw [drawnKind?_append, drawnKind?_eq_none (by omega), Nat.zero_add, Option.none_or, drawnKind?,
    if_pos rfl]

theorem fits_freshVars (con : String → Option Kind) (kinds more : List Kind) :
    ∀ t ∈ Infer.freshVars kinds.length more, t.Fits (drawnTable con (kinds ++ more)) := by
  induction more generalizing kinds with
  | nil =>
    intro t ht
    cases ht
  | cons k more ih =>
    intro t ht
    rcases List.mem_cons.1 ht with rfl | ht
    · exact (fits_drawn con kinds k).mono (drawnTable_mono con (by simp))
    · have := ih (kinds ++ [k]) t (by rwa [List.length_append])
      rwa [List.append_assoc] at this

/-- The kinds of the slots of a name. -/
def TypeEnv.slotKinds (env : TypeEnv) (token : Token) : List Kind :=
  ((env.find? token.lexeme).map Scheme.kinds).getD []

theorem TypeEnv.slotKinds_of_find? {env : TypeEnv} {token : Token} {scheme : Scheme}
    (h : env.find? token.lexeme = some scheme) : env.slotKinds token = scheme.kinds := by
  rw [slotKinds, h, Option.map_some, Option.getD_some]

/-- The kinds of the variables that inference draws for an expression, in order. -/
def Expr.drawn (env : TypeEnv) : Expr → List Kind
  | .literal _ => [.star]
  | .name token => env.slotKinds token
  | .grouping inner _ => inner.drawn env
  | .application func arg => func.drawn env ++ arg.drawn env ++ [.star]
  | .binary left operator right =>
    env.slotKinds operator ++ left.drawn env ++ [.star] ++ right.drawn env ++ [.star]
  | .assignment _ _ => []

end QualifiedTypes
