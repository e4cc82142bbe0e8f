import QualifiedTypes.Check
import QualifiedTypes.Proofs.Preludes
import QualifiedTypes.Proofs.Runs
import QualifiedTypes.Proofs.Unification

/-!
# What inference returns is a derivation

Types are recorded before all is known about them.  A step that makes two types equal under the
substitution of its time keeps them equal under every later one, since later substitutions only refine
earlier ones.

* `InferState.Valid`: the counter agrees with the variables drawn, and the substitution with their kinds.
* `Infer.Applied`, `Infer.applyTo_valid`: what it means that a function was joined to an argument.
* `Infer.Recorded`: what a run has recorded for an expression.  Under every refinement of the last
  substitution the recorded types are a derivation.
* `Infer.expr_recorded`: every successful run records in this sense, from every valid state.
-/

namespace QualifiedTypes

/-! ## Refinement -/

/-- What `s` has found out, `s'` knows too. -/
def Subst.RefinedBy (s s' : Subst) : Prop := ∃ u : Subst, ∀ t : Ty, t.subst s' = (t.subst s).subst u

namespace Subst.RefinedBy

theorem refl (s : Subst) : s.RefinedBy s := ⟨.empty, fun t => by rw [Ty.subst_empty]⟩

theorem trans {s₁ s₂ s₃ : Subst} (h₁ : s₁.RefinedBy s₂) (h₂ : s₂.RefinedBy s₃) : s₁.RefinedBy s₃ := by
  obtain ⟨u₁, h₁⟩ := h₁
  obtain ⟨u₂, h₂⟩ := h₂
  exact ⟨u₂.compose u₁, fun t => by rw [h₂, h₁, Ty.subst_compose]⟩

theorem compose (u s : Subst) : s.RefinedBy (u.compose s) := ⟨u, fun t => t.subst_compose u s⟩

/-- Types that were made equal stay equal. -/
theorem eq {s s' : Subst} (h : s.RefinedBy s') {t₁ t₂ : Ty} (he : t₁.subst s = t₂.subst s) :
    t₁.subst s' = t₂.subst s' := by
  obtain ⟨u, h⟩ := h
  rw [h, h, he]

end Subst.RefinedBy

/-! ## What a run keeps -/

variable {con : String → Option Kind} {env : TypeEnv} {kinds more : List Kind} {st st' : InferState}

/-- Variables of these kinds were drawn, and the substitution binds them to types of their kinds. -/
structure InferState.Valid (con : String → Option Kind) (kinds : List Kind) (st : InferState) : Prop where
  count : st.varCount = kinds.length
  fits : st.subst.Fits (drawnTable con kinds)

theorem InferState.valid_initial : InferState.initial.Valid con [] := ⟨rfl, Subst.fits_empty _⟩

/-- From a valid state, `more` variables were drawn and the substitution was refined. -/
structure InferState.Advances (con : String → Option Kind) (kinds more : List Kind) (st st' : InferState) :
    Prop where
  valid : st'.Valid con (kinds ++ more)
  refines : st.subst.RefinedBy st'.subst

namespace InferState.Advances

theorem trans {st₁ st₂ : InferState} {kinds₁ kinds₂ : List Kind} (h₁ : st.Advances con kinds kinds₁ st₁)
    (h₂ : st₁.Advances con (kinds ++ kinds₁) kinds₂ st₂) : st.Advances con kinds (kinds₁ ++ kinds₂) st₂ :=
  ⟨List.append_assoc .. ▸ h₂.valid, h₁.refines.trans h₂.refines⟩

/-- Drawing alone changes no substitution. -/
theorem of_draw (h : st.Valid con kinds) (more : List Kind) :
    st.Advances con kinds more { st with varCount := st.varCount + more.length } :=
  ⟨⟨by rw [h.count, List.length_append], h.fits.mono (drawnTable_mono con (List.prefix_append ..))⟩, .refl _⟩

end InferState.Advances

namespace Infer

/-- A function was joined to an argument: the result has a type of its own, and the function is one from the
argument to it. -/
structure Applied (con : String → Option Kind) (kinds : List Kind) (st : InferState) (func arg ty : Ty)
    (st' : InferState) : Prop where
  advances : st.Advances con kinds [.star] st'
  fits : ty.Fits (drawnTable con (kinds ++ [.star]))
  kind : ty.kind = .star
  eq : func.subst st'.subst = (Ty.fn arg ty).subst st'.subst

theorem applyTo_valid (harrow : con TyCon.arrow.id = some TyCon.arrow.kind) {func arg ty : Ty}
    {origin : Origin} (hst : st.Valid con kinds) (hfunc : func.Fits (drawnTable con kinds))
    (harg : arg.Fits (drawnTable con kinds))
    (hrun : (applyTo func arg origin).runFrom st = (.ok ty, st')) :
    Applied con kinds st func arg ty st' := by
  obtain ⟨rfl, u, hu, rfl⟩ := runFrom_applyTo_iff.1 hrun
  rw [hst.count] at hu ⊢
  have hle := drawnTable_mono con (List.prefix_append kinds [.star])
  have hs := hst.fits.mono hle
  have hvar := fits_drawn con kinds .star
  have hfn := Ty.Fits.fn harrow (harg.mono hle) hvar
  obtain ⟨hfits, heq⟩ := unify_sound ((hfunc.mono hle).subst hs) (hfn.subst hs) hu
  refine ⟨⟨⟨?_, hfits.compose hs⟩, .compose u st.subst⟩, hvar, rfl, ?_⟩
  · rw [List.length_append, List.length_singleton]
  · rw [Ty.subst_compose, heq, Ty.subst_compose]

theorem name_valid (hst : st.Valid con kinds) {token : Token} {q : Qual Ty}
    (hrun : (name env token).runFrom st = (.ok q, st')) :
    ∃ scheme, env.find? token.lexeme = some scheme ∧
      q = inst (freshVars kinds.length scheme.kinds) scheme.body ∧
      st.Advances con kinds (env.slotKinds token) st' := by
  obtain ⟨scheme, hfound, rfl, rfl⟩ := runFrom_name_iff.1 hrun
  rw [← hst.count, env.slotKinds_of_find? hfound]
  exact ⟨scheme, hfound, rfl, .of_draw hst _⟩

/-- An instance of a scheme with fresh variables is over the variables drawn. -/
theorem fits_instance (henv : env.Closed con) {token : Token} {scheme : Scheme}
    (hfound : env.find? token.lexeme = some scheme) (kinds : List Kind) :
    (∀ p ∈ (inst (freshVars kinds.length scheme.kinds) scheme.body).context,
      p.ty.Fits (drawnTable con (kinds ++ env.slotKinds token))) ∧
    (inst (freshVars kinds.length scheme.kinds) scheme.body).head.Fits
      (drawnTable con (kinds ++ env.slotKinds token)) := by
  rw [env.slotKinds_of_find? hfound]
  have hall := (henv _ _ hfound).fits (length_freshVars ..) (fits_freshVars con kinds scheme.kinds)
  obtain ⟨hcontext, hhead⟩ := forall_mem_types_qual.1 hall
  exact ⟨hcontext, hhead _ List.mem_cons_self⟩

theorem name_fits (henv : env.Closed con) (hst : st.Valid con kinds) {token : Token} {q : Qual Ty}
    (hrun : (name env token).runFrom st = (.ok q, st')) :
    st.Advances con kinds (env.slotKinds token) st' ∧
      (∀ p ∈ q.context, p.ty.Fits (drawnTable con (kinds ++ env.slotKinds token))) ∧
      q.head.Fits (drawnTable con (kinds ++ env.slotKinds token)) := by
  obtain ⟨scheme, hfound, rfl, hadv⟩ := name_valid hst hrun
  exact ⟨hadv, fits_instance henv hfound kinds⟩

/-- An instance of a scheme with fresh variables stays an instance of the scheme. -/
theorem instance_apply (henv : env.Closed con) {token : Token} {scheme : Scheme}
    (hfound : env.find? token.lexeme = some scheme) {K : KindTable} {s : Subst}
    (hK : drawnTable con (kinds ++ env.slotKinds token) ≤ K) (hs : s.Fits K) :
    ∃ ts, scheme.FilledBy ts ∧
      s.apply (inst (freshVars kinds.length scheme.kinds) scheme.body) = inst ts scheme.body := by
  rw [env.slotKinds_of_find? hfound] at hK
  have hfresh : ∀ t ∈ freshVars kinds.length scheme.kinds, t.Fits K :=
    fun t ht => (fits_freshVars con kinds scheme.kinds t ht).mono hK
  refine ⟨_, ⟨?_, fun t ht => ?_⟩, inst_apply (henv _ _ hfound).vars⟩
  · conv => rhs; rw [← map_kind_freshVars kinds.length scheme.kinds]
    rw [List.map_map]
    exact List.map_congr_left fun t ht => (hfresh t ht).kind_subst hs
  · obtain ⟨u, hu, rfl⟩ := List.mem_map.1 ht
    exact ((hfresh u hu).subst hs).slotFree

/-- What a run from `st` to `st'` has recorded for an expression. -/
structure Recorded (con : String → Option Kind) (env : TypeEnv) (kinds : List Kind) (st : InferState)
    (e : Expr) (preds : List Pred) (typed : TypedExpr) (st' : InferState) : Prop where
  advances : st.Advances con kinds (e.drawn env) st'
  erase : typed.erase = e
  typesFit : ∀ t ∈ types typed, t.Fits (drawnTable con (kinds ++ e.drawn env))
  predsFit : ∀ p ∈ preds, p.ty.Fits (drawnTable con (kinds ++ e.drawn env))
  typing : ∀ {K : KindTable} {s : Subst}, drawnTable con (kinds ++ e.drawn env) ≤ K → s.Fits K →
    st'.subst.RefinedBy s → Typing env (s.apply typed) (s.apply preds)

namespace Recorded

variable {preds ps qs : List Pred} {typed typedLeft typedRight : TypedExpr}

theorem tyFits {e : Expr} (h : Recorded con env kinds st e preds typed st') :
    typed.ty.Fits (drawnTable con (kinds ++ e.drawn env)) :=
  h.typesFit _ typed.ty_mem_types

/-- With all that is known filled in, predicates are still over the variables drawn. -/
theorem resolvedFit {e : Expr} (h : Recorded con env kinds st e preds typed st') :
    ∀ p ∈ st'.subst.apply preds, p.ty.Fits (drawnTable con (kinds ++ e.drawn env)) := by
  intro p hp
  obtain ⟨q, hq, rfl⟩ := List.mem_map.1 hp
  exact (h.predsFit q hq).subst h.advances.valid.fits

theorem literal (hst : st.Valid con kinds) {token : Token}
    (hrun : (expr env (.literal token)).runFrom st = (.ok (preds, typed), st')) :
    Recorded con env kinds st (.literal token) preds typed st' := by
  obtain ⟨rfl, rfl, rfl⟩ := runFrom_literal_iff.1 hrun
  rw [hst.count]
  have hvar := fits_drawn con kinds .star
  refine ⟨hst.count ▸ .of_draw hst [.star], rfl, fun t ht => ?_, fun p hp => ?_, fun hK hs _ => ?_⟩
  · exact List.mem_singleton.1 ht ▸ hvar
  · exact List.mem_singleton.1 hp ▸ hvar
  · exact .literal token ((hvar.mono hK).subst hs).slotFree ((hvar.mono hK).kind_subst hs)

theorem name (henv : env.Closed con) (hst : st.Valid con kinds) {token : Token}
    (hrun : (expr env (.name token)).runFrom st = (.ok (preds, typed), st')) :
    Recorded con env kinds st (.name token) preds typed st' := by
  obtain ⟨q, hname, rfl, rfl⟩ := runFrom_exprName_iff.1 hrun
  obtain ⟨scheme, hfound, rfl, hadv⟩ := name_valid hst hname
  obtain ⟨hcontext, hhead⟩ := fits_instance henv hfound kinds
  refine ⟨hadv, rfl, fun t ht => List.mem_singleton.1 ht ▸ hhead, hcontext, fun hK hs _ => ?_⟩
  obtain ⟨ts, hfilled, hinst⟩ := instance_apply henv hfound hK hs
  rw [Subst.apply_name, ← Subst.apply_ty, ← Subst.apply_head, ← Subst.apply_context, hinst]
  exact .name hfound hfilled

theorem grouping {inner : Expr} (span : Span) (h : Recorded con env kinds st inner preds typed st') :
    Recorded con env kinds st (.grouping inner span) preds (.grouping typed span) st' :=
  ⟨h.advances, by rw [TypedExpr.erase, h.erase], h.typesFit, h.predsFit,
    fun hK hs href => .grouping span (h.typing hK hs href)⟩

theorem application {func arg : Expr} {st₁ st₂ : InferState} {ty : Ty}
    (hl : Recorded con env kinds st func ps typedLeft st₁)
    (hr : Recorded con env (kinds ++ func.drawn env) st₁ arg qs typedRight st₂)
    (h : Applied con (kinds ++ (func.drawn env ++ arg.drawn env)) st₂ typedLeft.ty typedRight.ty ty st') :
    Recorded con env kinds st (.application func arg) (ps ++ qs)
      (.application typedLeft typedRight ty) st' := by
  have hleft : drawnTable con (kinds ++ func.drawn env) ≤
      drawnTable con (kinds ++ (Expr.application func arg).drawn env) :=
    drawnTable_mono con (by simp [Expr.drawn])
  have hright : drawnTable con (kinds ++ func.drawn env ++ arg.drawn env) ≤
      drawnTable con (kinds ++ (Expr.application func arg).drawn env) :=
    drawnTable_mono con (by simp [Expr.drawn])
  have hty := h.fits
  rw [List.append_assoc] at hty
  refine ⟨(hl.advances.trans hr.advances).trans h.advances,
    by rw [TypedExpr.erase, hl.erase, hr.erase], fun t ht => ?_, fun p hp => ?_, fun hK hs href => ?_⟩
  · rcases List.mem_append.1 ht with ht | ht
    · rcases List.mem_append.1 ht with ht | ht
      · exact (hl.typesFit t ht).mono hleft
      · exact (hr.typesFit t ht).mono hright
    · exact List.mem_singleton.1 ht ▸ hty
  · rcases List.mem_append.1 hp with hp | hp
    · exact (hl.predsFit p hp).mono hleft
    · exact (hr.predsFit p hp).mono hright
  · have hlater := h.advances.refines.trans href
    rw [Subst.apply_application, Subst.apply_append]
    refine .application (hl.typing (KindTable.le_trans hleft hK) hs (hr.advances.refines.trans hlater))
      (hr.typing (KindTable.le_trans hright hK) hs hlater) ?_ (((hty.mono hK).kind_subst hs).trans h.kind)
    rw [TypedExpr.ty_apply, TypedExpr.ty_apply, href.eq h.eq, Ty.subst_fn]

/-- The equation of the first operand was solved before the second operand was looked at. -/
theorem binary (henv : env.Closed con) {left right : Expr} {operator : Token} {scheme : Scheme}
    {st₁ st₂ st₃ st₄ : InferState} {operatorTy applied ty : Ty} {context : List Pred}
    (hfound : env.find? operator.lexeme = some scheme)
    (hop : inst (freshVars kinds.length scheme.kinds) scheme.body = ⟨context, operatorTy⟩)
    (hadv : st.Advances con kinds (env.slotKinds operator) st₁)
    (hl : Recorded con env (kinds ++ env.slotKinds operator) st₁ left ps typedLeft st₂)
    (h₁ : Applied con (kinds ++ (env.slotKinds operator ++ left.drawn env)) st₂ operatorTy typedLeft.ty
      applied st₃)
    (hr : Recorded con env (kinds ++ (env.slotKinds operator ++ left.drawn env ++ [.star])) st₃ right qs
      typedRight st₄)
    (h₂ : Applied con (kinds ++ (env.slotKinds operator ++ left.drawn env ++ [.star] ++ right.drawn env))
      st₄ applied typedRight.ty ty st') :
    Recorded con env kinds st (.binary left operator right) (context ++ ps ++ qs)
      (.binary typedLeft operator operatorTy typedRight ty) st' := by
  have hopTable : drawnTable con (kinds ++ env.slotKinds operator) ≤
      drawnTable con (kinds ++ (Expr.binary left operator right).drawn env) :=
    drawnTable_mono con (by simp [Expr.drawn])
  have hleft : drawnTable con (kinds ++ env.slotKinds operator ++ left.drawn env) ≤
      drawnTable con (kinds ++ (Expr.binary left operator right).drawn env) :=
    drawnTable_mono con (by simp [Expr.drawn])
  have hright : drawnTable con
        (kinds ++ (env.slotKinds operator ++ left.drawn env ++ [.star]) ++ right.drawn env) ≤
      drawnTable con (kinds ++ (Expr.binary left operator right).drawn env) :=
    drawnTable_mono con (by simp [Expr.drawn])
  have hty := h₂.fits
  rw [List.append_assoc] at hty
  obtain ⟨hcontext, hhead⟩ := fits_instance henv hfound kinds
  rw [hop] at hcontext hhead
  refine ⟨(((hadv.trans hl.advances).trans h₁.advances).trans hr.advances).trans h₂.advances,
    by rw [TypedExpr.erase, hl.erase, hr.erase], fun t ht => ?_, fun p hp => ?_,
    fun {K s} hK hs href => ?_⟩
  · rcases List.mem_append.1 ht with ht | ht
    · rcases List.mem_append.1 ht with ht | ht
      · rcases List.mem_append.1 ht with ht | ht
        · exact (hl.typesFit t ht).mono hleft
        · exact List.mem_singleton.1 ht ▸ hhead.mono hopTable
      · exact (hr.typesFit t ht).mono hright
    · exact List.mem_singleton.1 ht ▸ hty
  · rcases List.mem_append.1 hp with hp | hp
    · rcases List.mem_append.1 hp with hp | hp
      · exact (hcontext p hp).mono hopTable
      · exact (hl.predsFit p hp).mono hleft
    · exact (hr.predsFit p hp).mono hright
  · have hlater := h₂.advances.refines.trans href
    have hearlier := hr.advances.refines.trans hlater
    obtain ⟨ts, hfilled, hinst⟩ := instance_apply henv hfound (KindTable.le_trans hopTable hK) hs
    rw [hop, Subst.apply_qual] at hinst
    have hopContext : s.apply context = (inst ts scheme.body).context := congrArg Qual.context hinst
    have hopHead : operatorTy.subst s = (inst ts scheme.body).head := congrArg Qual.head hinst
    rw [Subst.apply_binary, Subst.apply_append, Subst.apply_append, hopContext, hopHead]
    refine .binary hfound hfilled
      (hl.typing (KindTable.le_trans hleft hK) hs (h₁.advances.refines.trans hearlier))
      (hr.typing (KindTable.le_trans hright hK) hs hlater) ?_
      (((hty.mono hK).kind_subst hs).trans h₂.kind)
    rw [← hopHead, TypedExpr.ty_apply, TypedExpr.ty_apply, hearlier.eq h₁.eq, Ty.subst_fn,
      href.eq h₂.eq, Ty.subst_fn]

end Recorded

/-- **Every successful run records a derivation.** -/
theorem expr_recorded (harrow : con TyCon.arrow.id = some TyCon.arrow.kind) (henv : env.Closed con)
    {e : Expr} {preds : List Pred} {typed : TypedExpr} (hst : st.Valid con kinds)
    (hrun : (expr env e).runFrom st = (.ok (preds, typed), st')) :
    Recorded con env kinds st e preds typed st' := by
  induction e generalizing kinds st st' preds typed with
  | literal token => exact .literal hst hrun
  | name token => exact .name henv hst hrun
  | grouping inner span ih =>
    obtain ⟨typedInner, hinner, rfl⟩ := runFrom_grouping_iff.1 hrun
    exact .grouping span (ih hst hinner)
  | application func arg ihf iha =>
    obtain ⟨ps, typedFunc, st₁, qs, typedArg, st₂, ty, hf, ha, happ, rfl, rfl⟩ :=
      runFrom_application_iff.1 hrun
    have hl := ihf hst hf
    have hr := iha hl.advances.valid ha
    refine .application hl hr (applyTo_valid harrow (hl.advances.trans hr.advances).valid ?_ ?_ happ)
    · exact hl.tyFits.mono (drawnTable_mono con (by simp))
    · exact hr.tyFits.mono (drawnTable_mono con (by simp))
  | binary left operator right ihl ihr =>
    obtain ⟨q, st₁, ps, typedLeft, st₂, applied, st₃, qs, typedRight, st₄, ty, hq, hleft, happ₁, hright,
      happ₂, rfl, rfl⟩ := runFrom_binary_iff.1 hrun
    obtain ⟨scheme, hfound, rfl, hadv⟩ := name_valid hst hq
    have hl := ihl hadv.valid hleft
    have hadv₂ := hadv.trans hl.advances
    have h₁ := applyTo_valid harrow hadv₂.valid
      ((fits_instance henv hfound kinds).2.mono (drawnTable_mono con (by simp)))
      (hl.tyFits.mono (drawnTable_mono con (by simp))) happ₁
    have hadv₃ := hadv₂.trans h₁.advances
    have hr := ihr hadv₃.valid hright
    refine .binary henv hfound rfl hadv hl h₁ hr
      (applyTo_valid harrow (hadv₃.trans hr.advances).valid ?_ ?_ happ₂)
    · exact h₁.fits.mono (drawnTable_mono con (by simp))
    · exact hr.tyFits.mono (drawnTable_mono con (by simp))
  | assignment target value ih => exact absurd hrun runFrom_assignment

end Infer

/-! ## Checking -/

namespace Prelude

/-- When a check succeeds, and with what. -/
theorem check_eq_ok {prelude : Prelude} {e : Expr} {r : CheckResult}
    (h : prelude.check e = some (.ok r)) :
    ∃ preds state, (Infer.expr prelude.typeEnv e).runFrom .initial = (.ok (preds, r.typed), state) ∧
      r.subst = state.subst ∧ r.predicates = state.subst.apply preds ∧
      r.qualType.head = r.typed.ty.subst state.subst ∧
      prelude.classEnv.reduce r.predicates = .done r.qualType.context := by
  unfold check at h
  split at h
  · cases h
  · rename_i preds typed state hrun
    dsimp only at h
    split at h
    · rename_i context hreduce
      cases h
      exact ⟨preds, state, hrun, rfl, rfl, rfl, hreduce⟩
    · cases h
    · cases h

/-- **Inference is sound**: the resolved types of a checked expression are a derivation for it, which rests
on the predicates that the check returns. -/
theorem check_sound {config : Config} {prelude : Prelude} (hbuild : config.build = .ok prelude) {e : Expr}
    {r : CheckResult} (hcheck : prelude.check e = some (.ok r)) :
    r.resolved.erase = e ∧ Typing prelude.typeEnv r.resolved r.predicates := by
  have hprelude := Config.build_sound hbuild
  obtain ⟨preds, state, hrun, hsubst, hpreds, _⟩ := check_eq_ok hcheck
  have h := Infer.expr_recorded hprelude.base.arrow hprelude.schemes InferState.valid_initial hrun
  rw [CheckResult.resolved, hsubst, hpreds, TypedExpr.erase_apply]
  exact ⟨h.erase, h.typing (KindTable.le_refl _) h.advances.valid.fits (.refl _)⟩

/-- A check succeeds if inference does and what it asks for can be reduced. -/
theorem exists_check {prelude : Prelude} {e : Expr} {ps qs : List Pred}
    (hrun : (match (Infer.expr prelude.typeEnv e).runFrom .initial with
      | (.ok (preds, _), state) => some (state.subst.apply preds)
      | _ => none) = some ps)
    (hreduce : prelude.classEnv.reduce ps = .done qs) : ∃ r, prelude.check e = some (.ok r) := by
  unfold check
  split at hrun
  · rename_i preds typed state hok
    rw [hok]
    dsimp only
    rw [Option.some.inj hrun, hreduce]
    exact ⟨_, rfl⟩
  · cases hrun

/-- The expression `one 1 ++ (one "a")`. -/
def smallExpr : Expr :=
  let one : Expr := .name ⟨.identifier, "one", .zero⟩
  .binary (.application one (.literal ⟨.number, "1", .zero⟩)) ⟨.operator, "++", .zero⟩
    (.grouping (.application one (.literal ⟨.string, "a", .zero⟩)) .zero)

/-- The predicates that `one 1 ++ (one "a")` needs. -/
theorem predicates_smallExpr :
    (match (Infer.expr small.typeEnv smallExpr).runFrom .initial with
      | (.ok (preds, _), state) => some (state.subst.apply preds)
      | _ => none) =
    some [⟨"Ord", .list (.var ⟨"t6", .star⟩)⟩, ⟨"FromNumber", .var ⟨"t6", .star⟩⟩,
      ⟨"FromString", .var ⟨"t6", .star⟩⟩] := by
  cbv

theorem exists_check_smallExpr : ∃ r, small.check smallExpr = some (.ok r) := by
  have hreduce : small.classEnv.reduce [⟨"Ord", .list (.var ⟨"t6", .star⟩)⟩,
      ⟨"FromNumber", .var ⟨"t6", .star⟩⟩, ⟨"FromString", .var ⟨"t6", .star⟩⟩] =
      .done [⟨"Ord", .var ⟨"t6", .star⟩⟩, ⟨"FromNumber", .var ⟨"t6", .star⟩⟩,
        ⟨"FromString", .var ⟨"t6", .star⟩⟩] := by
    decide +kernel
  exact exists_check predicates_smallExpr hreduce

theorem check_sound_smallExpr :
    ∃ r, Config.small.build = .ok small ∧ small.check smallExpr = some (.ok r) ∧
      r.resolved.erase = smallExpr ∧ Typing small.typeEnv r.resolved r.predicates := by
  obtain ⟨r, hr⟩ := exists_check_smallExpr
  exact ⟨r, Config.build_small, hr, check_sound Config.build_small hr⟩

end Prelude

end QualifiedTypes
