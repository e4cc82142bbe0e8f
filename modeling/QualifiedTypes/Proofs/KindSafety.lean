import QualifiedTypes.Proofs.WellKinded

/-!
# Inference does not mix kinds

A run of inference starts with well-kinded schemes and draws variables whose kinds are given by arities.  Each
of its steps keeps all types well kinded, and asks to unify proper types only.  So a run never fails for
kinds, slots or classes, whatever the expression, and what it records is well kinded.

* `Infer.Safe`: what a step does to kinds, whether it succeeds or not, with `Infer.Safe.bind` for sequences.
* `Infer.expr_safe`: inference is safe for every expression.
* `Prelude.check_kind_safe`: checking fails for no internal reason, and all types in its answer are free of
  slots and well kinded.
-/

namespace QualifiedTypes

/-- The errors that would be a fault of inference, and not of the expression. -/
def TypeError.isInternal : TypeError → Bool
  | .unification clash => clash.cause.isInternal
  | _ => false

variable {con : String → Option Kind} {kinds : List Kind} {st : InferState}

/-- The state is valid, the kinds of its variables are given by arities, and it binds them to well-kinded
types. -/
structure InferState.Kinded (con : String → Option Kind) (kinds : List Kind) (st : InferState) : Prop where
  valid : st.Valid con kinds
  arities : ∀ k ∈ kinds, k.IsArity
  wellKinded : st.subst.WellKinded

theorem InferState.kinded_initial : InferState.initial.Kinded con [] :=
  ⟨valid_initial, fun _ hk => (nomatch hk), fun _ hb => (nomatch hb)⟩

theorem isArity_of_drawnKind? {n : Nat} {id : String} {k : Kind} (hkinds : ∀ k ∈ kinds, k.IsArity)
    (h : drawnKind? n kinds id = some k) : k.IsArity := by
  induction kinds generalizing n with
  | nil => cases h
  | cons kind kinds ih =>
    rw [List.forall_mem_cons] at hkinds
    rw [drawnKind?] at h
    split at h
    · cases h
      exact hkinds.1
    · exact ih hkinds.2 h

theorem drawnTable_ofArities (hcon : ∀ id k, con id = some k → k.IsArity)
    (hkinds : ∀ k ∈ kinds, k.IsArity) : (drawnTable con kinds).OfArities :=
  ⟨fun _ _ h => isArity_of_drawnKind? hkinds h, hcon⟩

namespace Infer

variable {α β : Type} {x : Infer α} {f : α → Infer β} {P : List Kind → α → Prop} {Q : List Kind → β → Prop}

/-- A step from a state with variables of these kinds is safe: if it succeeds, it has drawn further variables
with kinds given by arities, and `P` holds of its result; if it fails, then for no internal reason. -/
structure Safe (con : String → Option Kind) (kinds : List Kind) (st : InferState) (x : Infer α)
    (P : List Kind → α → Prop) : Prop where
  ok : ∀ a st', x.runFrom st = (.ok a, st') → ∃ kinds', kinds <+: kinds' ∧ st'.Kinded con kinds' ∧ P kinds' a
  error : ∀ e st', x.runFrom st = (.error e, st') → e.isInternal = false

namespace Safe

/-- A step that does nothing. -/
theorem pure (hst : st.Kinded con kinds) {a : α} (h : P kinds a) : Safe con kinds st (Pure.pure a) P := by
  refine ⟨fun b st' hrun => ?_, fun e st' hrun => ?_⟩
  · cases hrun
    exact ⟨kinds, List.prefix_rfl, hst, h⟩
  · cases hrun

/-- A sequence of safe steps is safe. -/
theorem bind (hx : Safe con kinds st x P) (hf : ∀ kinds' a st', kinds <+: kinds' → st'.Kinded con kinds' →
    P kinds' a → Safe con kinds' st' (f a) Q) : Safe con kinds st (x >>= f) Q := by
  refine ⟨fun b st' hrun => ?_, fun e st' hrun => ?_⟩
  · obtain ⟨a, st₁, hrun₁, hrun₂⟩ := runFrom_bind_iff.1 hrun
    obtain ⟨kinds₁, hle₁, hst₁, ha⟩ := hx.ok a st₁ hrun₁
    obtain ⟨kinds₂, hle₂, hst₂, hb⟩ := (hf kinds₁ a st₁ hle₁ hst₁ ha).ok b st' hrun₂
    exact ⟨kinds₂, hle₁.trans hle₂, hst₂, hb⟩
  · rw [runFrom_bind] at hrun
    rcases hrun₁ : x.runFrom st with ⟨e₁ | a, st₁⟩
    · rw [hrun₁] at hrun
      cases hrun
      exact hx.error _ _ hrun₁
    · rw [hrun₁] at hrun
      obtain ⟨kinds₁, hle₁, hst₁, ha⟩ := hx.ok a st₁ hrun₁
      exact (hf kinds₁ a st₁ hle₁ hst₁ ha).error e st' hrun

end Safe

/-- A drawn variable has the kind that was asked for. -/
theorem freshVar_safe (hst : st.Kinded con kinds) {k : Kind} (hk : k.IsArity) :
    Safe con kinds st (freshVar k) fun ks t => t.Kinded (drawnTable con ks) ∧ t.kind = k := by
  refine ⟨fun t st' hrun => ?_, fun e st' hrun => ?_⟩
  · rw [runFrom_freshVar] at hrun
    cases hrun
    have hadv := InferState.Advances.of_draw hst.valid [k]
    refine ⟨kinds ++ [k], List.prefix_append .., ⟨hadv.valid, ?_, hst.wellKinded⟩, ⟨?_, trivial⟩, rfl⟩
    · exact fun k' hk' => (List.mem_append.1 hk').elim (hst.arities k') fun h => List.mem_singleton.1 h ▸ hk
    · rw [hst.valid.count]
      exact fits_drawn con kinds k
  · cases hrun

/-! ## Rules -/

/-- Predicates are well kinded, and all types that were recorded are proper types. -/
structure Proper (con : String → Option Kind) (kinds : List Kind) (r : List Pred × TypedExpr) : Prop where
  preds : ∀ p ∈ r.1, p.ty.Kinded (drawnTable con kinds)
  types : ∀ t ∈ types r.2, t.Kinded (drawnTable con kinds) ∧ t.kind = .star

namespace Proper

variable {r : List Pred × TypedExpr}

theorem mono (h : Proper con kinds r) {kinds' : List Kind} (hle : kinds <+: kinds') : Proper con kinds' r :=
  ⟨fun p hp => (h.preds p hp).mono (drawnTable_mono con hle),
    fun t ht => ⟨(h.types t ht).1.mono (drawnTable_mono con hle), (h.types t ht).2⟩⟩

theorem ty (h : Proper con kinds r) : r.2.ty.Kinded (drawnTable con kinds) ∧ r.2.ty.kind = .star :=
  h.types _ r.2.ty_mem_types

end Proper

variable {env : TypeEnv}

theorem wellKinded_freshVars (n : Nat) (ks : List Kind) : ∀ t ∈ freshVars n ks, t.WellKinded := by
  induction ks generalizing n with
  | nil => exact fun t ht => nomatch ht
  | cons k ks ih => exact List.forall_mem_cons.2 ⟨trivial, ih (n + 1)⟩

/-- A name has a proper type. -/
theorem name_safe (henv : env.Closed con) (hwell : env.WellKinded) (hst : st.Kinded con kinds)
    (token : Token) :
    Safe con kinds st (name env token) fun ks q => Proper con ks (q.context, .name token q.head) := by
  refine ⟨fun q st' hrun => ?_, fun e st' hrun => ?_⟩
  · obtain ⟨scheme, hfound, hq, hadv⟩ := name_valid hst.valid hrun
    obtain ⟨_, _, _, hst'⟩ := runFrom_name_iff.1 hrun
    obtain ⟨hcontext, hhead⟩ := fits_instance henv hfound kinds
    have hscheme := hwell _ _ hfound
    obtain ⟨htypes, hkind⟩ := hscheme.instances (freshVars kinds.length scheme.kinds)
      (map_kind_freshVars ..) (wellKinded_freshVars _ _)
    obtain ⟨hwellContext, hwellHead⟩ := forall_mem_types_qual.1 htypes
    rw [hq]
    refine ⟨kinds ++ env.slotKinds token, List.prefix_append .., ⟨hadv.valid, fun k hk => ?_, ?_⟩,
      fun p hp => ⟨hcontext p hp, hwellContext p hp⟩, fun t ht => ?_⟩
    · rw [env.slotKinds_of_find? hfound] at hk
      exact (List.mem_append.1 hk).elim (hst.arities k) (hscheme.arities k)
    · rw [hst']
      exact hst.wellKinded
    · exact List.mem_singleton.1 ht ▸ ⟨⟨hhead, hwellHead _ List.mem_cons_self⟩, hkind⟩
  · unfold name at hrun
    cases hfound : env.find? token.lexeme with
    | none =>
      rw [hfound] at hrun
      cases hrun
      rfl
    | some scheme =>
      rw [hfound] at hrun
      dsimp only at hrun
      rw [runFrom_instantiate] at hrun
      cases hrun

/-- Types of one kind are unified without regard to kinds. -/
theorem unify_safe (hcon : ∀ id k, con id = some k → k.IsArity) (hst : st.Kinded con kinds)
    {expected found : Ty} {origin : Origin} (h₁ : expected.Kinded (drawnTable con kinds))
    (h₂ : found.Kinded (drawnTable con kinds)) (hkind : expected.kind = found.kind) :
    Safe con kinds st (unify expected found origin) fun ks _ => ks = kinds := by
  have hfits := hst.valid.fits
  have hleft := h₁.subst hfits hst.wellKinded
  have hright := h₂.subst hfits hst.wellKinded
  obtain ⟨herror, hok⟩ := unify_wellKinded (drawnTable_ofArities hcon hst.arities) hleft hright
    (by rw [h₁.fits.kind_subst hfits, h₂.fits.kind_subst hfits, hkind])
  refine ⟨fun _ st' hrun => ?_, fun e st' hrun => ?_⟩
  · obtain ⟨u, hu, rfl⟩ := runFrom_unify_iff.1 hrun
    obtain ⟨hufits, _⟩ := unify_sound hleft.fits hright.fits hu
    exact ⟨kinds, List.prefix_rfl, ⟨⟨hst.valid.count, hufits.compose hfits⟩, hst.arities,
      (hok u hu).compose hufits hst.wellKinded hfits⟩, rfl⟩
  · rw [runFrom_unify] at hrun
    cases hu : QualifiedTypes.unify (expected.subst st.subst) (found.subst st.subst) with
    | ok u =>
      rw [hu] at hrun
      cases hrun
    | error cause =>
      rw [hu] at hrun
      cases hrun
      exact herror cause hu

/-- The result of an application is a proper type. -/
theorem applyTo_safe (hcon : ∀ id k, con id = some k → k.IsArity)
    (harrow : con TyCon.arrow.id = some TyCon.arrow.kind) (hst : st.Kinded con kinds) {func arg : Ty}
    {origin : Origin} (hfunc : func.Kinded (drawnTable con kinds)) (harg : arg.Kinded (drawnTable con kinds))
    (hfuncKind : func.kind = .star) (hargKind : arg.kind = .star) :
    Safe con kinds st (applyTo func arg origin) fun ks t =>
      t.Kinded (drawnTable con ks) ∧ t.kind = .star := by
  refine (freshVar_safe hst Kind.isArity_star).bind fun ks₁ result st₁ hle₁ hst₁ ⟨hresult, hkind⟩ => ?_
  have hfn : (Ty.fn arg result).Kinded (drawnTable con ks₁) :=
    ⟨.fn harrow (harg.fits.mono (drawnTable_mono con hle₁)) hresult.fits,
      Ty.wellKinded_fn harg.wellKinded hresult.wellKinded hargKind hkind⟩
  refine (unify_safe hcon hst₁ (hfunc.mono (drawnTable_mono con hle₁)) hfn hfuncKind).bind ?_
  rintro ks₂ _ st₂ _ hst₂ rfl
  exact .pure hst₂ ⟨hresult, hkind⟩

/-- **Inference is safe for every expression.** -/
theorem expr_safe (hcon : ∀ id k, con id = some k → k.IsArity)
    (harrow : con TyCon.arrow.id = some TyCon.arrow.kind) (henv : env.Closed con) (hwell : env.WellKinded)
    (e : Expr) (hst : st.Kinded con kinds) : Safe con kinds st (expr env e) (Proper con) := by
  induction e generalizing kinds st with
  | literal token =>
    refine (freshVar_safe hst Kind.isArity_star).bind fun ks₁ t st₁ _ hst₁ ht => .pure hst₁ ?_
    exact ⟨fun p hp => List.mem_singleton.1 hp ▸ ht.1, fun u hu => List.mem_singleton.1 hu ▸ ht⟩
  | name token => exact (name_safe henv hwell hst token).bind fun ks₁ q st₁ _ hst₁ hq => .pure hst₁ hq
  | grouping inner span ih =>
    exact (ih hst).bind fun ks₁ r st₁ _ hst₁ h => .pure hst₁ ⟨h.preds, h.types⟩
  | application func arg ihf iha =>
    refine (ihf hst).bind fun ks₁ r₁ st₁ _ hst₁ h₁ => ?_
    refine (iha hst₁).bind fun ks₂ r₂ st₂ hle₂ hst₂ h₂ => ?_
    have h₁ := h₁.mono hle₂
    refine (applyTo_safe hcon harrow hst₂ h₁.ty.1 h₂.ty.1 h₁.ty.2 h₂.ty.2).bind
      fun ks₃ t st₃ hle₃ hst₃ ht => .pure hst₃ ?_
    have h₁ := h₁.mono hle₃
    have h₂ := h₂.mono hle₃
    refine ⟨List.forall_mem_append.2 ⟨h₁.preds, h₂.preds⟩, ?_⟩
    refine List.forall_mem_append.2 ⟨List.forall_mem_append.2 ⟨h₁.types, h₂.types⟩, fun u hu => ?_⟩
    exact List.mem_singleton.1 hu ▸ ht
  | binary left operator right ihl ihr =>
    refine (name_safe henv hwell hst operator).bind fun ks₁ q st₁ _ hst₁ hq => ?_
    refine (ihl hst₁).bind fun ks₂ r₁ st₂ hle₂ hst₂ h₁ => ?_
    have hq := hq.mono hle₂
    refine (applyTo_safe hcon harrow hst₂ hq.ty.1 h₁.ty.1 hq.ty.2 h₁.ty.2).bind
      fun ks₃ applied st₃ hle₃ hst₃ happlied => ?_
    refine (ihr hst₃).bind fun ks₄ r₂ st₄ hle₄ hst₄ h₂ => ?_
    refine (applyTo_safe hcon harrow hst₄ (happlied.1.mono (drawnTable_mono con hle₄)) h₂.ty.1
      happlied.2 h₂.ty.2).bind fun ks₅ t st₅ hle₅ hst₅ ht => .pure hst₅ ?_
    have hq := hq.mono ((hle₃.trans hle₄).trans hle₅)
    have h₁ := h₁.mono ((hle₃.trans hle₄).trans hle₅)
    have h₂ := h₂.mono hle₅
    refine ⟨List.forall_mem_append.2 ⟨List.forall_mem_append.2 ⟨hq.preds, h₁.preds⟩, h₂.preds⟩, ?_⟩
    refine List.forall_mem_append.2 ⟨List.forall_mem_append.2
      ⟨List.forall_mem_append.2 ⟨h₁.types, hq.types⟩, h₂.types⟩, fun u hu => ?_⟩
    exact List.mem_singleton.1 hu ▸ ht
  | assignment target value ih =>
    refine ⟨fun r st' hrun => absurd hrun runFrom_assignment, fun e st' hrun => ?_⟩
    cases hrun
    rfl

end Infer

/-! ## Checking -/

namespace Prelude

variable {config : Config} {prelude : Prelude}

/-- Inference in a prelude is safe from the start. -/
theorem infer_safe (hbuild : config.build = .ok prelude) (e : Expr) :
    Infer.Safe prelude.constructors.find? [] .initial (Infer.expr prelude.typeEnv e)
      (Infer.Proper prelude.constructors.find?) :=
  have hprelude := Config.build_sound hbuild
  have hwell := Config.build_wellKinded hbuild
  Infer.expr_safe hwell.constructors hprelude.base.arrow hprelude.schemes hwell.schemes e
    InferState.kinded_initial

/-- **Checking does not fail for internal reasons**, and all types in its answer are free of slots and well
kinded, those of the typed expression being proper types. -/
theorem check_kind_safe (hbuild : config.build = .ok prelude) (e : Expr) :
    (∀ clash, prelude.check e = some (.error (.unification clash)) → clash.cause.isInternal = false) ∧
    ∀ r, prelude.check e = some (.ok r) →
      (∀ t ∈ types r.resolved, t.firstGen? = none ∧ t.WellKinded ∧ t.kind = .star) ∧
      (∀ p ∈ r.predicates, p.ty.firstGen? = none ∧ p.ty.WellKinded) ∧
      ∀ t ∈ types r.qualType, t.firstGen? = none ∧ t.WellKinded := by
  have hsafe := infer_safe hbuild e
  have hprelude := Config.build_sound hbuild
  constructor
  · intro clash hcheck
    unfold check at hcheck
    split at hcheck
    · rename_i err state hrun
      cases hcheck
      exact hsafe.error _ _ hrun
    · dsimp only at hcheck
      split at hcheck
      · cases hcheck
      · cases hcheck
      · cases hcheck
  · intro r hcheck
    obtain ⟨preds, state, hrun, hsubst, hpreds, hhead, hreduce⟩ := check_eq_ok hcheck
    obtain ⟨kinds, _, hst, hproper⟩ := hsafe.ok _ _ hrun
    have hfits := hst.valid.fits
    have hresolved : ∀ t ∈ types r.typed, (t.subst state.subst).firstGen? = none ∧
        (t.subst state.subst).WellKinded ∧ (t.subst state.subst).kind = .star := by
      intro t ht
      obtain ⟨hkinded, hkind⟩ := hproper.types t ht
      have hafter := hkinded.subst hfits hst.wellKinded
      exact ⟨hafter.fits.slotFree, hafter.wellKinded, by rw [hkinded.fits.kind_subst hfits, hkind]⟩
    have hneeded : ∀ p ∈ r.predicates, p.ty.firstGen? = none ∧ p.ty.WellKinded := by
      rw [hpreds]
      intro p hp
      obtain ⟨q, hq, rfl⟩ := List.mem_map.1 hp
      have hafter := (hproper.preds q hq).subst hfits hst.wellKinded
      exact ⟨hafter.fits.slotFree, hafter.wellKinded⟩
    refine ⟨fun t ht => ?_, hneeded, forall_mem_types_qual.2 ⟨fun q hq => ?_, fun t ht => ?_⟩⟩
    · rw [CheckResult.resolved, Subst.types_apply, hsubst] at ht
      obtain ⟨u, hu, rfl⟩ := List.mem_map.1 ht
      exact hresolved u hu
    · obtain ⟨p, hp, hsteps⟩ := ClassEnv.exists_stepsTo_of_reduce hreduce hq
      refine ⟨(hsteps.fits hprelude.wellKinded (check_predicates_fit hprelude hcheck p hp)).1, ?_⟩
      exact hsteps.wellKinded hprelude.wellKinded (Config.build_wellKinded hbuild).instances (hneeded p hp).2
    · rw [List.mem_singleton.1 ht, hhead]
      obtain ⟨hslots, hwell, _⟩ := hresolved _ r.typed.ty_mem_types
      exact ⟨hslots, hwell⟩

/-! ## Pairs -/

/-- A pair, and a function on containers of any kind. -/
def pairsConfig : Config where
  defaults := []
  types := ⟨[("Pair", 2)]⟩
  classes := [⟨"Eq", []⟩]
  instances := []
  bindings := ⟨[("nest", "Eq a => f a -> f [a]"), ("x", "Pair a b")]⟩

/-- The constructor of pairs. -/
def pairCon : TyCon := ⟨"Pair", .ofArity 2⟩

/-- The prelude of these declarations. -/
def pairs : Prelude where
  classEnv := ⟨[⟨"Eq", []⟩], [], []⟩
  typeEnv := ⟨[("nest", ⟨[.star, .ofArity 1], [⟨"Eq", .gen 0⟩],
      .fn (.app (.gen 1) (.gen 0)) (.app (.gen 1) (.list (.gen 0)))⟩),
    ("x", ⟨[.star, .star], [], .app (.app (.con pairCon) (.gen 0)) (.gen 1)⟩)]⟩
  constructors := ⟨[("->", .ofArity 2), ("List", .ofArity 1), ("Pair", .ofArity 2)]⟩

theorem addBinding_nest : Config.addBinding pairs.constructors pairs.classEnv .empty
    ("nest", "Eq a => f a -> f [a]") = .ok ⟨pairs.typeEnv.entries.take 1⟩ := by
  have hread : readScheme pairs.constructors "Eq a => f a -> f [a]" =
      .ok ⟨[.star, .ofArity 1], [⟨"Eq", .gen 0⟩],
        .fn (.app (.gen 1) (.gen 0)) (.app (.gen 1) (.list (.gen 0)))⟩ := by cbv
  rw [Config.addBinding, hread]
  rfl

theorem addBinding_pair : Config.addBinding pairs.constructors pairs.classEnv ⟨pairs.typeEnv.entries.take 1⟩
    ("x", "Pair a b") = .ok pairs.typeEnv := by
  have hread : readScheme pairs.constructors "Pair a b" =
      .ok ⟨[.star, .star], [], .app (.app (.con pairCon) (.gen 0)) (.gen 1)⟩ := by cbv
  rw [Config.addBinding, hread]
  rfl

theorem build_pairsConfig : pairsConfig.build = .ok pairs := by
  refine bind_eq_ok.2 ⟨pairs.constructors, by decide +kernel, bind_eq_ok.2 ⟨pairs.classEnv, rfl, ?_⟩⟩
  refine bind_eq_ok.2 ⟨pairs.classEnv, rfl, bind_eq_ok.2 ⟨[], rfl, bind_eq_ok.2 ⟨pairs.typeEnv, ?_, rfl⟩⟩⟩
  exact bind_eq_ok.2 ⟨_, addBinding_nest, bind_eq_ok.2 ⟨_, addBinding_pair, rfl⟩⟩

/-- The name `x`. -/
def pairExpr : Expr := .name ⟨.identifier, "x", .zero⟩

/-- The application of `nest` to `x`, which binds a variable of kind `* -> *` to a partial application. -/
def nestExpr : Expr := .application (.name ⟨.identifier, "nest", .zero⟩) pairExpr

theorem predicates_nestExpr :
    (match (Infer.expr pairs.typeEnv nestExpr).runFrom .initial with
      | (.ok (preds, _), state) => some (state.subst.apply preds)
      | _ => none) = some [⟨"Eq", .var ⟨"t3", .star⟩⟩] := by
  cbv

theorem cause_pairExpr :
    (match (Infer.expr pairs.typeEnv (.application pairExpr pairExpr)).runFrom .initial with
      | (.error (.unification clash), _) => some clash.cause
      | _ => none) = some (.constructorMismatch pairCon .arrow) := by
  cbv

theorem check_kind_safe_pairs :
    (∃ r, pairs.check nestExpr = some (.ok r) ∧
      (∀ t ∈ types r.resolved, t.firstGen? = none ∧ t.WellKinded ∧ t.kind = .star) ∧
      ∀ t ∈ types r.qualType, t.firstGen? = none ∧ t.WellKinded) ∧
    ∃ clash, pairs.check (.application pairExpr pairExpr) = some (.error (.unification clash)) ∧
      clash.cause.isInternal = false := by
  constructor
  · have hreduce : pairs.classEnv.reduce [⟨"Eq", .var ⟨"t3", .star⟩⟩] =
        .done [⟨"Eq", .var ⟨"t3", .star⟩⟩] := by decide +kernel
    obtain ⟨r, hr⟩ := exists_check predicates_nestExpr hreduce
    obtain ⟨htypes, _, hqual⟩ := (check_kind_safe build_pairsConfig nestExpr).2 r hr
    exact ⟨r, hr, htypes, hqual⟩
  · have hcause := cause_pairExpr
    obtain ⟨clash, hclash⟩ : ∃ clash, pairs.check (.application pairExpr pairExpr) =
        some (.error (.unification clash)) := by
      unfold check
      split at hcause
      · rename_i clash state hrun
        rw [hrun]
        exact ⟨clash, rfl⟩
      · cases hcause
    exact ⟨clash, hclash, (check_kind_safe build_pairsConfig _).1 clash hclash⟩

end Prelude

end QualifiedTypes
