import QualifiedTypes.Proofs.Soundness

/-!
# Every derivation is an instance of what inference returns

A derivation tells what each fresh variable has to stand for.  Along a run these choices are collected in a
substitution `θ`, which solves all equations met so far and so does not notice the substitution of the
state.  Unification cannot fail where `θ` is a solution, and stays more general than it.

* `Solves θ K s`: `θ` keeps the kinds of the table `K` and absorbs `s`.
* `Solves.draw`, `Solves.drawAll`: fresh variables may be sent wherever a derivation needs them.
* `Infer.applyTo_complete`, `Infer.expr_complete`: runs that a derivation leads through succeed.
-/

namespace QualifiedTypes

variable {con : String → Option Kind} {kinds more : List Kind} {θ θ' s : Subst} {st : InferState}

/-- Two substitutions act alike on types over the variables of a table. -/
def Subst.AgreesOn (K : KindTable) (θ θ' : Subst) : Prop :=
  ∀ r : Ty, r.VarsFit K.var → r.subst θ' = r.subst θ

namespace Subst.AgreesOn

theorem trans {K K' : KindTable} {θ₁ θ₂ θ₃ : Subst} (h₁ : AgreesOn K θ₁ θ₂) (h₂ : AgreesOn K' θ₂ θ₃)
    (h : K ≤ K') : AgreesOn K θ₁ θ₃ :=
  fun r hr => (h₂ r (hr.mono h)).trans (h₁ r hr)

theorem apply {α : Type} [HasTypes α] {K : KindTable} (h : AgreesOn K θ θ') {x : α}
    (hx : ∀ t ∈ types x, t.Fits K) : θ'.apply x = θ.apply x :=
  Subst.apply_congr fun t ht => h t (hx t ht).vars

end Subst.AgreesOn

/-- `θ` keeps the kinds of a table, and acting as `s` before it makes no difference. -/
structure Solves (θ : Subst) (K : KindTable) (s : Subst) : Prop where
  keeps : θ.KeepsKinds K.var
  absorbs : ∀ r : Ty, r.VarsFit K.var → (r.subst s).subst θ = r.subst θ

theorem Solves.apply {α : Type} [HasTypes α] {K : KindTable} (h : Solves θ K s) {x : α}
    (hx : ∀ t ∈ types x, t.Fits K) : θ.apply (s.apply x) = θ.apply x := by
  rw [← Subst.apply_compose]
  refine Subst.apply_congr fun t ht => ?_
  rw [Ty.subst_compose]
  exact h.absorbs t (hx t ht).vars

/-! ## Fresh variables -/

/-- `θ`, with one variable sent to a type of our choice. -/
def Subst.update (θ : Subst) (v : TyVar) (t : Ty) : Subst := ⟨(v, t) :: θ.bindings⟩

theorem Subst.lookup_update (θ : Subst) (v : TyVar) (t : Ty) (id : String) :
    (θ.update v t).lookup id = if v.id = id then some t else θ.lookup id := by
  unfold lookup update
  by_cases h : v.id = id
  · simp [h]
  · simp [h]

theorem Subst.agreesOn_update {K : KindTable} {v : TyVar} (h : K.var v.id = none) (t : Ty) :
    AgreesOn K θ (θ.update v t) := by
  intro r hr
  refine Ty.subst_congr fun w hw => ?_
  have hne : v.id ≠ w.id := fun he => by
    have := hr w hw
    rw [← he, h] at this
    cases this
  rw [Ty.subst, Ty.subst, lookup_update, if_neg hne]

theorem drawnTable_var_append (con : String → Option Kind) (kinds : List Kind) (k : Kind) (id : String) :
    (drawnTable con (kinds ++ [k])).var id =
      if freshName kinds.length = id then some k else (drawnTable con kinds).var id := by
  show drawnKind? 0 (kinds ++ [k]) id = _
  rw [drawnKind?_append, Nat.zero_add]
  by_cases hid : freshName kinds.length = id
  · rw [if_pos hid, ← hid, drawnKind?_eq_none (by omega), Option.none_or, drawnKind?, if_pos rfl]
  · rw [if_neg hid, drawnKind?, if_neg (Ne.symm hid), drawnKind?, Option.or_none]
    rfl

namespace Solves

theorem initial : Solves .empty (drawnTable con []) InferState.initial.subst :=
  ⟨fun _ _ _ _ h => (nomatch h), fun r _ => congrArg (Ty.subst .empty) r.subst_empty⟩

/-- The next variable may stand for any type of its kind. -/
theorem draw (h : Solves θ (drawnTable con kinds) s) (hs : s.Fits (drawnTable con kinds)) {k : Kind}
    {t : Ty} (hk : t.kind = k) :
    Solves (θ.update ⟨freshName kinds.length, k⟩ t) (drawnTable con (kinds ++ [k])) s := by
  have hagree : Subst.AgreesOn _ θ (θ.update ⟨freshName kinds.length, k⟩ t) :=
    Subst.agreesOn_update (drawnTable_new con kinds) t
  constructor
  · intro id k' u hid hu
    rw [drawnTable_var_append] at hid
    rw [Subst.lookup_update] at hu
    by_cases hnew : freshName kinds.length = id
    · rw [if_pos hnew] at hid hu
      cases hid
      cases hu
      exact hk
    · rw [if_neg hnew] at hid hu
      exact h.keeps id k' u hid hu
  · intro r hr
    rw [← Ty.subst_compose]
    refine Ty.subst_congr fun v hv => ?_
    have hvar := hr v hv
    rw [drawnTable_var_append] at hvar
    rw [Ty.subst_compose]
    by_cases hnew : freshName kinds.length = v.id
    · -- the substitution of the state does not know the new variable
      rw [Ty.subst_var_of_notMem (hs.notMem_ids (hnew ▸ drawnTable_new con kinds))]
    · rw [if_neg hnew] at hvar
      have hfit : (Ty.var v).VarsFit (drawnTable con kinds).var := Ty.varsFit_var.2 hvar
      rw [hagree _ (hfit.subst hs), hagree _ hfit, h.absorbs _ hfit]

/-- Several fresh variables may stand for any types of their kinds. -/
theorem drawAll (h : Solves θ (drawnTable con kinds) s) (hs : s.Fits (drawnTable con kinds))
    (ts : List Ty) (hts : ts.map Ty.kind = more) :
    ∃ θ', Subst.AgreesOn (drawnTable con kinds) θ θ' ∧
      (Infer.freshVars kinds.length more).map (Ty.subst θ') = ts ∧
      Solves θ' (drawnTable con (kinds ++ more)) s := by
  induction ts generalizing kinds more θ with
  | nil =>
    cases hts
    exact ⟨θ, fun _ _ => rfl, rfl, by rwa [List.map_nil, List.append_nil]⟩
  | cons t ts ih =>
    cases hts
    have hnext := h.draw hs (k := t.kind) rfl
    have hle := drawnTable_mono con (List.prefix_append kinds [t.kind])
    obtain ⟨θ', hagree, hmap, hsolves⟩ := ih hnext (hs.mono hle) rfl
    refine ⟨θ', (Subst.agreesOn_update (drawnTable_new con kinds) t).trans hagree hle, ?_, ?_⟩
    · rw [List.length_append, List.length_singleton] at hmap
      rw [List.map_cons, Infer.freshVars, List.map_cons, hmap,
        hagree _ (fits_drawn con kinds t.kind).vars,
        Ty.subst_var_of_lookup (t := t) (by rw [Subst.lookup_update, if_pos rfl])]
    · rwa [List.append_assoc] at hsolves

/-- Solutions absorb the unifier of what they make equal. -/
theorem unify {K : KindTable} {t₁ t₂ : Ty} (h : Solves θ K s) (hs : s.Fits K) (h₁ : t₁.Fits K)
    (h₂ : t₂.Fits K) (heq : t₁.subst θ = t₂.subst θ) :
    ∃ u, QualifiedTypes.unify (t₁.subst s) (t₂.subst s) = .ok u ∧ Solves θ K (u.compose s) := by
  have heq' : (t₁.subst s).subst θ = (t₂.subst s).subst θ := by
    rw [h.absorbs t₁ h₁.vars, h.absorbs t₂ h₂.vars, heq]
  obtain ⟨u, hu, habs⟩ := unify_complete (h₁.subst hs) (h₂.subst hs) h.keeps heq'
  refine ⟨u, hu, h.keeps, fun r hr => ?_⟩
  rw [Ty.subst_compose, habs _ (hr.subst hs), h.absorbs r hr]

end Solves

/-! ## Runs -/

namespace Infer

variable {env : TypeEnv}

/-- A function can be joined to an argument where a solution makes it a function of that argument. -/
theorem applyTo_complete (harrow : con TyCon.arrow.id = some TyCon.arrow.kind) {func arg t : Ty}
    (origin : Origin) (hst : st.Valid con kinds) (hθ : Solves θ (drawnTable con kinds) st.subst)
    (hfunc : func.Fits (drawnTable con kinds)) (harg : arg.Fits (drawnTable con kinds))
    (heq : func.subst θ = .fn (arg.subst θ) t) (hkind : t.kind = .star) :
    ∃ ty st' θ', (applyTo func arg origin).runFrom st = (.ok ty, st') ∧
      Applied con kinds st func arg ty st' ∧ Subst.AgreesOn (drawnTable con kinds) θ θ' ∧
      ty.subst θ' = t ∧ Solves θ' (drawnTable con (kinds ++ [.star])) st'.subst := by
  have hle := drawnTable_mono con (List.prefix_append kinds [.star])
  have hvar := fits_drawn con kinds .star
  obtain ⟨θ', hagree, hmap, hθ'⟩ := hθ.drawAll hst.fits [t] (by rw [List.map_singleton, hkind])
  have hty : (Ty.var ⟨freshName kinds.length, .star⟩).subst θ' = t := (List.cons.inj hmap).1
  have heq' : func.subst θ' = (Ty.fn arg (.var ⟨freshName kinds.length, .star⟩)).subst θ' := by
    rw [Ty.subst_fn, hagree func hfunc.vars, hagree arg harg.vars, hty, heq]
  obtain ⟨u, hu, hsolves⟩ := hθ'.unify (hst.fits.mono hle) (hfunc.mono hle)
    (Ty.Fits.fn harrow (harg.mono hle) hvar) heq'
  have hrun : (applyTo func arg origin).runFrom st =
      (.ok (.var ⟨freshName kinds.length, .star⟩), ⟨st.varCount + 1, u.compose st.subst⟩) :=
    runFrom_applyTo_iff.2 ⟨by rw [hst.count], u, hu, rfl⟩
  exact ⟨_, _, θ', hrun, applyTo_valid harrow hst hfunc harg hrun, hagree, hty, hsolves⟩

/-- An instance of a scheme comes from its instance with fresh variables. -/
theorem name_complete (henv : env.Closed con) (hst : st.Valid con kinds)
    (hθ : Solves θ (drawnTable con kinds) st.subst) {token : Token} {scheme : Scheme} {ts : List Ty}
    (hfound : env.find? token.lexeme = some scheme) (hfilled : scheme.FilledBy ts) :
    ∃ q st' θ', (name env token).runFrom st = (.ok q, st') ∧
      Subst.AgreesOn (drawnTable con kinds) θ θ' ∧ θ'.apply q = inst ts scheme.body ∧
      Solves θ' (drawnTable con (kinds ++ env.slotKinds token)) st'.subst := by
  obtain ⟨θ', hagree, hmap, hθ'⟩ := hθ.drawAll hst.fits ts hfilled.kinds
  refine ⟨_, _, θ', runFrom_name_iff.2 ⟨scheme, hfound, rfl, rfl⟩, hagree, ?_, ?_⟩
  · rw [inst_apply (henv _ _ hfound).vars, hst.count, hmap]
  · rwa [env.slotKinds_of_find? hfound]

/-- From every valid state and solution, inference succeeds on the expression of a derivation, and the
solution goes on to one that turns what was recorded into the derivation. -/
def Completes (con : String → Option Kind) (env : TypeEnv) (typed : TypedExpr) (preds : List Pred) : Prop :=
  ∀ {kinds : List Kind} {st : InferState} {θ : Subst}, st.Valid con kinds →
    Solves θ (drawnTable con kinds) st.subst →
    ∃ preds₀ typed₀ st' θ', (expr env typed.erase).runFrom st = (.ok (preds₀, typed₀), st') ∧
      Subst.AgreesOn (drawnTable con kinds) θ θ' ∧ θ'.apply typed₀ = typed ∧ θ'.apply preds₀ = preds ∧
      Solves θ' (drawnTable con (kinds ++ typed.erase.drawn env)) st'.subst

theorem literal_complete {token : Token} {className : String} (hclass : literalClass token.kind = className) {ty : Ty}
    (hkind : ty.kind = .star) : Completes con env (.literal token ty) [⟨className, ty⟩] := by
  intro kinds st θ hst hθ
  obtain ⟨θ', hagree, hmap, hθ'⟩ := hθ.drawAll hst.fits [ty] (by rw [List.map_singleton, hkind])
  have hty : (Ty.var ⟨freshName kinds.length, .star⟩).subst θ' = ty := (List.cons.inj hmap).1
  rw [← hst.count] at hty
  refine ⟨_, _, _, θ', runFrom_literal_iff.2 ⟨rfl, rfl, rfl⟩, hagree, ?_, ?_, hθ'⟩
  · rw [Subst.apply_literal, hty]
  · rw [Subst.apply_list, List.map_singleton, Subst.apply_pred, hty, hclass]

theorem application_complete (harrow : con TyCon.arrow.id = some TyCon.arrow.kind) (henv : env.Closed con)
    {func arg : TypedExpr} {ty : Ty} {ps qs : List Pred} (hf : Completes con env func ps)
    (ha : Completes con env arg qs) (heq : func.ty = .fn arg.ty ty) (hkind : ty.kind = .star) :
    Completes con env (.application func arg ty) (ps ++ qs) := by
  intro kinds st θ hst hθ
  obtain ⟨ps₀, func₀, st₁, θ₁, hrunf, hagree₁, rfl, rfl, hθ₁⟩ := hf hst hθ
  have hl := expr_recorded harrow henv hst hrunf
  obtain ⟨qs₀, arg₀, st₂, θ₂, hruna, hagree₂, rfl, rfl, hθ₂⟩ := ha hl.advances.valid hθ₁
  have hr := expr_recorded harrow henv hl.advances.valid hruna
  rw [List.append_assoc] at hθ₂
  rw [TypedExpr.ty_apply, TypedExpr.ty_apply, ← hagree₂ _ hl.tyFits.vars] at heq
  obtain ⟨ty₀, st₃, θ₃, hrunapp, _, hagree₃, rfl, hθ₃⟩ := applyTo_complete harrow
    (.application (θ₁.apply func₀).erase.span (θ₂.apply arg₀).erase.span)
    (hl.advances.trans hr.advances).valid hθ₂ (hl.tyFits.mono (drawnTable_mono con (by simp)))
    (hr.tyFits.mono (drawnTable_mono con (by simp))) heq hkind
  rw [← List.append_assoc] at hagree₃
  -- the last solution still agrees with the earlier ones on what they were made for
  have hfunc := hagree₂.trans hagree₃ (drawnTable_mono con (List.prefix_append _ _))
  refine ⟨ps₀ ++ qs₀, .application func₀ arg₀ ty₀, st₃, θ₃, runFrom_application_iff.2
    ⟨ps₀, func₀, st₁, qs₀, arg₀, st₂, ty₀, hrunf, hruna, hrunapp, rfl, rfl⟩,
    hagree₁.trans hfunc (drawnTable_mono con (List.prefix_append _ _)), ?_, ?_, ?_⟩
  · rw [Subst.apply_application, hfunc.apply hl.typesFit, hagree₃.apply hr.typesFit]
  · rw [Subst.apply_append, hfunc.apply (forall_mem_types_preds.2 hl.predsFit),
      hagree₃.apply (forall_mem_types_preds.2 hr.predsFit)]
  · rwa [List.append_assoc] at hθ₃

theorem binary_complete (harrow : con TyCon.arrow.id = some TyCon.arrow.kind) (henv : env.Closed con)
    {left right : TypedExpr} {operator : Token} {scheme : Scheme} {ts : List Ty} {ty : Ty}
    {ps qs : List Pred} (hfound : env.find? operator.lexeme = some scheme) (hfilled : scheme.FilledBy ts)
    (hl : Completes con env left ps) (hr : Completes con env right qs)
    (heq : (inst ts scheme.body).head = .fn left.ty (.fn right.ty ty)) (hkind : ty.kind = .star) :
    Completes con env (.binary left operator (inst ts scheme.body).head right ty)
      ((inst ts scheme.body).context ++ ps ++ qs) := by
  intro kinds st θ hst hθ
  obtain ⟨q, st₁, θ₁, hrunq, hagree₁, hinst, hθ₁⟩ := name_complete henv hst hθ hfound hfilled
  rw [← hinst] at heq ⊢
  obtain ⟨hadv, hcontext, hhead⟩ := name_fits henv hst hrunq
  obtain ⟨ps₀, left₀, st₂, θ₂, hrunl, hagree₂, rfl, rfl, hθ₂⟩ := hl hadv.valid hθ₁
  have hleft := expr_recorded harrow henv hadv.valid hrunl
  have hadv₂ := hadv.trans hleft.advances
  rw [List.append_assoc] at hθ₂
  rw [Subst.apply_qual, Subst.apply_ty, TypedExpr.ty_apply, ← hagree₂ _ hhead.vars] at heq
  obtain ⟨applied, st₃, θ₃, hrun₁, h₁, hagree₃, happlied, hθ₃⟩ := applyTo_complete harrow
    (.operator operator.lexeme ((θ₂.apply left₀).erase.span.merge right.erase.span)) hadv₂.valid hθ₂
    (hhead.mono (drawnTable_mono con (by simp))) (hleft.tyFits.mono (drawnTable_mono con (by simp)))
    heq rfl
  have hadv₃ := hadv₂.trans h₁.advances
  rw [List.append_assoc] at hθ₃
  obtain ⟨qs₀, right₀, st₄, θ₄, hrunr, hagree₄, rfl, rfl, hθ₄⟩ := hr hadv₃.valid hθ₃
  have hright := expr_recorded harrow henv hadv₃.valid hrunr
  have happliedFits : applied.Fits (drawnTable con (kinds ++ (env.slotKinds operator ++
      (θ₂.apply left₀).erase.drawn env ++ [.star]))) := h₁.fits.mono (drawnTable_mono con (by simp))
  rw [List.append_assoc] at hθ₄
  rw [TypedExpr.ty_apply, ← hagree₄ _ happliedFits.vars] at happlied
  obtain ⟨ty₀, st₅, θ₅, hrun₂, _, hagree₅, rfl, hθ₅⟩ := applyTo_complete harrow
    (.operator operator.lexeme ((θ₂.apply left₀).erase.span.merge (θ₄.apply right₀).erase.span))
    (hadv₃.trans hright.advances).valid hθ₄ (happliedFits.mono (drawnTable_mono con (by simp)))
    (hright.tyFits.mono (drawnTable_mono con (by simp))) happlied hkind
  rw [← List.append_assoc] at hagree₃ hagree₅
  have hagreeLeft := hagree₃.trans (hagree₄.trans hagree₅ (drawnTable_mono con (by simp)))
    (drawnTable_mono con (by simp))
  have hagreeOp := hagree₂.trans hagreeLeft (drawnTable_mono con (by simp))
  refine ⟨q.context ++ ps₀ ++ qs₀, .binary left₀ operator q.head right₀ ty₀, st₅, θ₅,
    runFrom_binary_iff.2 ⟨q, st₁, ps₀, left₀, st₂, applied, st₃, qs₀, right₀, st₄, ty₀, hrunq, hrunl, hrun₁,
      hrunr, hrun₂, rfl, rfl⟩, hagree₁.trans hagreeOp (drawnTable_mono con (by simp)), ?_, ?_, ?_⟩
  · rw [Subst.apply_binary, hagreeLeft.apply hleft.typesFit, hagree₅.apply hright.typesFit,
      hagreeOp _ hhead.vars]
    rfl
  · rw [Subst.apply_append, Subst.apply_append, hagreeOp.apply (forall_mem_types_preds.2 hcontext),
      hagreeLeft.apply (forall_mem_types_preds.2 hleft.predsFit),
      hagree₅.apply (forall_mem_types_preds.2 hright.predsFit)]
    rfl
  · rwa [List.append_assoc] at hθ₅

/-- **Inference succeeds wherever there is a derivation, and returns nothing more special.** -/
theorem expr_complete (harrow : con TyCon.arrow.id = some TyCon.arrow.kind) (henv : env.Closed con)
    {typed : TypedExpr} {preds : List Pred} (h : Typing env typed preds) : Completes con env typed preds := by
  induction h with
  | stringLiteral string _ kind => exact literal_complete (literalClass_string string) kind
  | numberLiteral number _ kind => exact literal_complete (literalClass_number number) kind
  | name found filled =>
    intro kinds st θ hst hθ
    obtain ⟨q, st', θ', hrun, hagree, hinst, hθ'⟩ := name_complete henv hst hθ found filled
    rw [← hinst]
    exact ⟨_, _, st', θ', runFrom_exprName_iff.2 ⟨q, hrun, rfl, rfl⟩, hagree, rfl, rfl, hθ'⟩
  | grouping span _ ih =>
    intro kinds st θ hst hθ
    obtain ⟨preds₀, typed₀, st', θ', hrun, hagree, rfl, rfl, hθ'⟩ := ih hst hθ
    exact ⟨preds₀, _, st', θ', runFrom_grouping_iff.2 ⟨typed₀, hrun, rfl⟩, hagree, rfl, rfl, hθ'⟩
  | application _ _ fits kind ihf iha => exact application_complete harrow henv ihf iha fits kind
  | binary found filled _ _ fits kind ihl ihr =>
    exact binary_complete harrow henv found filled ihl ihr fits kind

/-- From the beginning, what is returned has every derivation as an instance. -/
theorem expr_principal (harrow : con TyCon.arrow.id = some TyCon.arrow.kind) (henv : env.Closed con)
    {typed : TypedExpr} {preds : List Pred} (h : Typing env typed preds) :
    ∃ preds₀ typed₀ state, ∃ u : Subst,
      (expr env typed.erase).runFrom .initial = (.ok (preds₀, typed₀), state) ∧
      u.apply (state.subst.apply typed₀) = typed ∧ u.apply (state.subst.apply preds₀) = preds := by
  obtain ⟨preds₀, typed₀, state, u, hrun, _, htyped, hpreds, hu⟩ :=
    expr_complete harrow henv h InferState.valid_initial Solves.initial
  have hrec := expr_recorded harrow henv InferState.valid_initial hrun
  refine ⟨preds₀, typed₀, state, u, hrun, ?_, ?_⟩
  · rw [hu.apply hrec.typesFit, htyped]
  · rw [hu.apply (forall_mem_types_preds.2 hrec.predsFit), hpreds]

end Infer

/-- **Inference is complete and principal**: if an expression has a derivation, inference succeeds on it and
one substitution turns what it returns into the derivation; so it fails only where there is none. -/
theorem Prelude.infer_principal {config : Config} {prelude : Prelude} (hbuild : config.build = .ok prelude)
    (e : Expr) :
    (∀ typed preds, typed.erase = e → Typing prelude.typeEnv typed preds →
      ∃ preds₀ typed₀ state, ∃ u : Subst,
        (Infer.expr prelude.typeEnv e).runFrom .initial = (.ok (preds₀, typed₀), state) ∧
        u.apply (state.subst.apply typed₀) = typed ∧ u.apply (state.subst.apply preds₀) = preds) ∧
    ∀ err state, (Infer.expr prelude.typeEnv e).runFrom .initial = (.error err, state) →
      ¬ ∃ typed preds, typed.erase = e ∧ Typing prelude.typeEnv typed preds := by
  have hprelude := Config.build_sound hbuild
  constructor
  · rintro typed preds rfl htyping
    exact Infer.expr_principal hprelude.base.arrow hprelude.schemes htyping
  · rintro err state hrun ⟨typed, preds, rfl, htyping⟩
    obtain ⟨preds₀, typed₀, state', u, hrun', _⟩ :=
      Infer.expr_principal hprelude.base.arrow hprelude.schemes htyping
    rw [hrun] at hrun'
    cases hrun'

namespace Prelude

/-- The type of the items in a derivation for `one 1 ++ (one "a")` that is not the most general one. -/
def smallItem : Ty := .list (.var ⟨"x", .star⟩)

/-- The expression `one 1 ++ (one "a")` with its types in that derivation. -/
def smallTyped : TypedExpr :=
  let one : TypedExpr := .name ⟨.identifier, "one", .zero⟩ (.fn smallItem (.list smallItem))
  .binary (.application one (.literal ⟨.number, "1", .zero⟩ smallItem) (.list smallItem))
    ⟨.operator, "++", .zero⟩
    (.fn (.list smallItem) (.fn (.list smallItem) (.list smallItem)))
    (.grouping (.application one (.literal ⟨.string, "a", .zero⟩ smallItem) (.list smallItem)) .zero)
    (.list smallItem)

/-- The predicates that the derivation rests on. -/
def smallPreds : List Pred :=
  [⟨"Ord", .list smallItem⟩, ⟨"FromNumber", smallItem⟩, ⟨"FromString", smallItem⟩]

theorem typing_smallTyped : Typing small.typeEnv smallTyped smallPreds := by
  have hone : small.typeEnv.find? "one" = some listScheme := by decide
  have hplus : small.typeEnv.find? "++" = some ordScheme := by decide
  have hlist : listScheme.FilledBy [smallItem] := ⟨rfl, by simp [smallItem, Ty.list, Ty.firstGen?]⟩
  have hord : ordScheme.FilledBy [.list smallItem] := ⟨rfl, by simp [smallItem, Ty.list, Ty.firstGen?]⟩
  have hnumber : Typing small.typeEnv (.literal ⟨.number, "1", .zero⟩ smallItem) [⟨"FromNumber", smallItem⟩] :=
    .numberLiteral (by decide) rfl rfl
  have hstring : Typing small.typeEnv (.literal ⟨.string, "a", .zero⟩ smallItem) [⟨"FromString", smallItem⟩] :=
    .stringLiteral rfl rfl rfl
  exact .binary hplus hord (.application (.name hone hlist) hnumber rfl rfl)
    (.grouping .zero (.application (.name hone hlist) hstring rfl rfl)) rfl rfl

/-- The expression `one 1 2`. -/
def illTyped : Expr :=
  .application (.application (.name ⟨.identifier, "one", .zero⟩) (.literal ⟨.number, "1", .zero⟩))
    (.literal ⟨.number, "2", .zero⟩)

theorem exists_run_illTyped :
    ∃ err state, (Infer.expr small.typeEnv illTyped).runFrom .initial = (.error err, state) := by
  have herr : ((Infer.expr small.typeEnv illTyped).runFrom .initial).1.toBool = false := by cbv
  cases h : (Infer.expr small.typeEnv illTyped).runFrom .initial with
  | mk result state =>
    rw [h] at herr
    cases result with
    | error err => exact ⟨err, state, rfl⟩
    | ok r => cases herr

theorem infer_principal_small :
    (∃ preds₀ typed₀ state, ∃ u : Subst,
      (Infer.expr small.typeEnv smallExpr).runFrom .initial = (.ok (preds₀, typed₀), state) ∧
      u.apply (state.subst.apply typed₀) = smallTyped ∧ u.apply (state.subst.apply preds₀) = smallPreds) ∧
    ¬ ∃ typed preds, typed.erase = illTyped ∧ Typing small.typeEnv typed preds := by
  obtain ⟨err, state, hrun⟩ := exists_run_illTyped
  exact ⟨(infer_principal Config.build_small smallExpr).1 smallTyped smallPreds rfl typing_smallTyped,
    (infer_principal Config.build_small illTyped).2 err state hrun⟩

end Prelude

end QualifiedTypes
