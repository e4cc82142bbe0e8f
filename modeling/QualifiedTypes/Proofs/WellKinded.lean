import QualifiedTypes.Proofs.Reduction

/-!
# Well-kinded types

A type is well kinded if every application has a left side that takes what stands on the right.  Signatures
spell only such types, and substitutions that keep kinds keep them so.

Declared types have arities and nothing more, and so do the variables of signatures.  Where all kinds are of
this sort, every argument is a proper type.  The halves of two applications of one kind then have the same
kinds in turn, which is why unification never compares types of different kinds.

* `Ty.WellKinded`: every application fits.
* `unify_wellKinded`: unification of types of one kind does not fail for their kinds, and keeps them.
* `readQual_wellKinded`, `readInstance_wellKinded`: what is read from a signature is well kinded.
* `Scheme.quantifyAll_wellKinded`: so is every instance of the scheme of a signature.
* `ClassEnv.StepsTo.wellKinded`: so is what steps through the instances lead to.
-/

namespace QualifiedTypes

namespace Ty

/-- In every application, the left side takes types of the kind of the right side. -/
def WellKinded : Ty → Prop
  | .app f x => f.WellKinded ∧ x.WellKinded ∧ ∃ result, f.kind = .fn x.kind result
  | _ => True

theorem wellKinded_fn {domain codomain : Ty} (hd : domain.WellKinded) (hc : codomain.WellKinded)
    (hdomain : domain.kind = .star) (hcodomain : codomain.kind = .star) : (fn domain codomain).WellKinded := by
  refine ⟨⟨trivial, hd, .fn .star .star, ?_⟩, hc, .star, ?_⟩
  · rw [hdomain]
    rfl
  · rw [hcodomain]
    rfl

theorem PartOf.wellKinded {t u : Ty} (h : t.PartOf u) (hu : u.WellKinded) : t.WellKinded := by
  induction h with
  | refl => exact hu
  | left _ _ ih => exact ih hu.1
  | right _ _ ih => exact ih hu.2.1

/-- Well-kinded types of the right kinds for variables leave a type well kinded. -/
theorem WellKinded.subst {s : Subst} {t : Ty} (ht : t.WellKinded)
    (hs : ∀ v ∈ t.occurrences, ((Ty.var v).subst s).WellKinded ∧ ((Ty.var v).subst s).kind = v.kind) :
    (t.subst s).WellKinded := by
  induction t with
  | var v => exact (hs v List.mem_cons_self).1
  | con c => trivial
  | gen n => trivial
  | app f x ihf ihx =>
    obtain ⟨hf, hx, result, hkind⟩ := ht
    have hsf := fun v hv => hs v (List.mem_append_left x.occurrences hv)
    have hsx := fun v hv => hs v (List.mem_append_right f.occurrences hv)
    refine ⟨ihf hf hsf, ihx hx hsx, result, ?_⟩
    rw [kind_subst_of_forall fun v hv => (hsf v hv).2, kind_subst_of_forall fun v hv => (hsx v hv).2, hkind]

end Ty

/-- All bound types are well kinded. -/
def Subst.WellKinded (s : Subst) : Prop := ∀ b ∈ s.bindings, b.2.WellKinded

/-- What a variable stands for is well kinded. -/
theorem Subst.WellKinded.var {s : Subst} (hs : s.WellKinded) (v : TyVar) : ((Ty.var v).subst s).WellKinded :=
  Ty.subst_var_of_forall trivial hs

/-! ## Kinds given by arities -/

/-- The kind of a constructor that takes proper types. -/
def Kind.IsArity (k : Kind) : Prop := ∃ n, k = .ofArity n

theorem Kind.isArity_star : Kind.star.IsArity := ⟨0, rfl⟩

theorem Kind.IsArity.result {k : Kind} (h : k.IsArity) : k.result.IsArity := by
  obtain ⟨n, rfl⟩ := h
  cases n with
  | zero => exact ⟨0, rfl⟩
  | succ n => exact ⟨n, rfl⟩

theorem Kind.IsArity.arg {arg result : Kind} (h : (Kind.fn arg result).IsArity) : arg = .star := by
  obtain ⟨n, hn⟩ := h
  cases n with
  | zero => cases hn
  | succ n => exact (Kind.fn.injEq .. ▸ hn).1

/-- All kinds of a table are given by arities. -/
structure KindTable.OfArities (K : KindTable) : Prop where
  var : ∀ id k, K.var id = some k → k.IsArity
  con : ∀ id k, K.con id = some k → k.IsArity

namespace Ty

variable {K : KindTable}

theorem Fits.isArity (hK : K.OfArities) {t : Ty} (h : t.Fits K) : t.kind.IsArity := by
  induction t with
  | var v => exact hK.var _ _ (fits_var.1 h)
  | con c => exact hK.con _ _ (fits_con.1 h)
  | gen n => exact absurd h not_fits_gen
  | app f x ihf _ => exact (ihf (fits_app.1 h).1).result

/-- The type fits the table and is well kinded. -/
structure Kinded (K : KindTable) (t : Ty) : Prop where
  fits : t.Fits K
  wellKinded : t.WellKinded

namespace Kinded

theorem mono {K' : KindTable} {t : Ty} (h : t.Kinded K) (hle : K ≤ K') : t.Kinded K' :=
  ⟨h.fits.mono hle, h.wellKinded⟩

theorem subst {s : Subst} {t : Ty} (h : t.Kinded K) (hs : s.Fits K) (hwell : s.WellKinded) :
    (t.subst s).Kinded K := by
  refine ⟨h.fits.subst hs, h.wellKinded.subst fun v hv => ⟨hwell.var v, ?_⟩⟩
  exact (fits_var.2 (h.fits.vars v hv)).kind_subst hs

/-- Where kinds are given by arities, the halves of an application have kinds that the whole determines. -/
theorem app (hK : K.OfArities) {f x : Ty} (h : (Ty.app f x).Kinded K) :
    f.Kinded K ∧ x.Kinded K ∧ x.kind = .star ∧ f.kind = .fn .star (Ty.app f x).kind := by
  obtain ⟨hf, hx, result, hkind⟩ := h.wellKinded
  have hfits := fits_app.1 h.fits
  have hstar : x.kind = .star := by
    have harity := hfits.1.isArity hK
    rw [hkind] at harity
    exact harity.arg
  refine ⟨⟨hfits.1, hf⟩, ⟨hfits.2, hx⟩, hstar, ?_⟩
  rw [kind, hkind, hstar]
  rfl

end Kinded

end Ty

theorem Subst.WellKinded.compose {K : KindTable} {s₁ s₂ : Subst} (h₁ : s₁.WellKinded) (hfits₁ : s₁.Fits K)
    (h₂ : s₂.WellKinded) (hfits₂ : s₂.Fits K) : (s₁.compose s₂).WellKinded := by
  intro b hb
  rcases List.mem_append.1 hb with hb | hb
  · obtain ⟨c, hc, rfl⟩ := List.mem_map.1 hb
    have hkinded : c.2.Kinded K := ⟨(hfits₂ c hc).1, h₂ c hc⟩
    exact (hkinded.subst hfits₁ h₁).wellKinded
  · exact h₁ b (List.mem_filter.1 hb).1

/-! ## Unification -/

/-- The failures that only types of different kinds, slots or predicates of different classes can cause. -/
def UnifyError.isInternal : UnifyError → Bool
  | .kindMismatch _ _ | .uninstantiated _ | .classMismatch _ _ => true
  | _ => false

variable {K : KindTable}

theorem bindVar_wellKinded {v : TyVar} {t : Ty} (ht : t.Kinded K) (hkind : v.kind = t.kind) :
    (∀ e, bindVar v t = .error e → e.isInternal = false) ∧ ∀ s, bindVar v t = .ok s → s.WellKinded := by
  constructor
  · intro e he
    unfold bindVar at he
    split at he
    · cases he
    · rw [ht.fits.slotFree] at he
      dsimp only at he
      rw [if_neg (show ¬ v.kind ≠ t.kind from fun hne => hne hkind)] at he
      split at he
      · cases he
        rfl
      · cases he
  · intro s hs
    obtain ⟨_, rfl⟩ | ⟨_, _, _, rfl⟩ := bindVar_eq_ok hs
    · exact fun b hb => nomatch hb
    · intro b hb
      rw [List.mem_singleton.1 hb]
      exact ht.wellKinded

/-- **Unification of types of one kind does not fail for their kinds**, and binds variables to well-kinded
types, as long as kinds are given by arities. -/
theorem unify_wellKinded (hK : K.OfArities) {t₁ t₂ : Ty} (h₁ : t₁.Kinded K) (h₂ : t₂.Kinded K)
    (hkind : t₁.kind = t₂.kind) :
    (∀ e, unify t₁ t₂ = .error e → e.isInternal = false) ∧ ∀ s, unify t₁ t₂ = .ok s → s.WellKinded := by
  induction t₁, t₂ using unify_induction with
  | genLeft n t => exact absurd h₁.fits Ty.not_fits_gen
  | genRight t n => exact absurd h₂.fits Ty.not_fits_gen
  | varLeft v t =>
    rw [unify_var_left]
    exact bindVar_wellKinded h₂ hkind
  | varRight t v ht =>
    rw [unify_var_right v ht]
    exact bindVar_wellKinded h₁ hkind.symm
  | con c₁ c₂ =>
    rw [unify_con]
    split
    · refine ⟨fun e he => (nomatch he), fun s hs => ?_⟩
      cases hs
      exact fun b hb => nomatch hb
    · refine ⟨fun e he => ?_, fun s hs => (nomatch hs)⟩
      cases he
      rfl
  | conApp c f x =>
    rw [unify_con_app]
    refine ⟨fun e he => ?_, fun s hs => (nomatch hs)⟩
    cases he
    rfl
  | appCon f x c =>
    rw [unify_app_con]
    refine ⟨fun e he => ?_, fun s hs => (nomatch hs)⟩
    cases he
    rfl
  | app l₁ r₁ l₂ r₂ ihl ihr =>
    obtain ⟨hl₁, hr₁, hstar₁, hk₁⟩ := h₁.app hK
    obtain ⟨hl₂, hr₂, hstar₂, hk₂⟩ := h₂.app hK
    obtain ⟨herrorl, hokl⟩ := ihl hl₁ hl₂ (by rw [hk₁, hk₂, hkind])
    rw [unify_app]
    cases hl : unify l₁ l₂ with
    | error e =>
      refine ⟨fun e' he' => ?_, fun s hs => (nomatch hs)⟩
      cases he'
      exact herrorl e hl
    | ok s₁ =>
      obtain ⟨hfits₁, _⟩ := unify_sound hl₁.fits hl₂.fits hl
      have hwell₁ := hokl s₁ hl
      -- the unifier of the left halves changes no kind
      have hkind' : (r₁.subst s₁).kind = (r₂.subst s₁).kind := by
        rw [hr₁.fits.kind_subst hfits₁, hr₂.fits.kind_subst hfits₁, hstar₁, hstar₂]
      obtain ⟨herrorr, hokr⟩ := ihr s₁ hl (hr₁.subst hfits₁ hwell₁) (hr₂.subst hfits₁ hwell₁) hkind'
      dsimp only [bind, Except.bind, Subst.apply_ty]
      cases hr : unify (r₁.subst s₁) (r₂.subst s₁) with
      | error e =>
        refine ⟨fun e' he' => ?_, fun s hs => (nomatch hs)⟩
        cases he'
        exact herrorr e hr
      | ok s₂ =>
        refine ⟨fun e he => (nomatch he), fun s hs => ?_⟩
        cases hs
        obtain ⟨hfits₂, _⟩ := unify_sound (hr₁.fits.subst hfits₁) (hr₂.fits.subst hfits₁) hr
        exact (hokr s₂ hr).compose hfits₂ hwell₁ hfits₁

/-! ## Signatures -/

variable {cons : Constructors} {arities : Arities}

theorem isArity_of_spelled {id : String} {k : Kind} (h : (spellingTable cons arities).var id = some k) :
    k.IsArity := by
  unfold spellingTable at h
  dsimp only at h
  split at h
  · cases h
    exact ⟨_, rfl⟩
  · cases h

/-- The type that a tree spells is well kinded. -/
theorem SignatureTree.Spells.wellKinded {tree : SignatureTree} {t : Ty} (h : Spells cons arities tree t) :
    t.WellKinded := by
  induction h with
  | var offset name => trivial
  | con offset name known => trivial
  | app _ _ kind ihf ihx => exact ⟨ihf, ihx, _, kind⟩
  | arrow _ _ leftKind rightKind ihd ihc => exact Ty.wellKinded_fn ihd ihc leftKind rightKind
  | list offset _ kind ih => exact ⟨trivial, ih, .star, by rw [kind]; rfl⟩

/-- **Signatures spell well-kinded types.** -/
theorem readQual_wellKinded {src : String} {q : Qual Ty} (h : readQual cons src = .ok q) :
    ∀ t ∈ types q, t.WellKinded := by
  obtain ⟨⟨_, hspells⟩, _⟩ := readQual_spells h
  intro t ht
  obtain ⟨_, hspelled⟩ := hspells t ht
  exact hspelled.wellKinded

theorem readInstance_wellKinded {src : String} {i : Instance} (h : readInstance cons src = .ok i) :
    ∀ t ∈ types i, t.WellKinded := by
  obtain ⟨_, hspells⟩ := readInstance_spells h
  intro t ht
  obtain ⟨_, hspelled⟩ := hspells t ht
  exact hspelled.wellKinded

/-! ## Schemes -/

namespace Scheme

/-- The substitution that sends the variables of a list to the types of another. -/
def filling (vs : List TyVar) (ts : List Ty) : Subst := ⟨(slotsFor vs).bindings.map fun b => (b.1, b.2.inst ts)⟩

theorem lookup_filling (vs : List TyVar) (ts : List Ty) (id : String) :
    (filling vs ts).lookup id = ((slotsFor vs).lookup id).map (Ty.inst ts) := by
  unfold filling Subst.lookup
  rw [List.find?_map, Option.map_map, Option.map_map]
  rfl

/-- To fill the slots of variables is to substitute for the variables. -/
theorem inst_slotsFor {vs : List TyVar} {ts : List Ty} {t : Ty} (h : t.firstGen? = none) :
    (t.subst (slotsFor vs)).inst ts = t.subst (filling vs ts) := by
  induction t with
  | var v =>
    rw [Ty.subst, Ty.subst, lookup_filling]
    cases (slotsFor vs).lookup v.id with
    | none => rfl
    | some t => rfl
  | con c => rfl
  | gen n => cases h
  | app f x ihf ihx =>
    rw [Ty.firstGen?_app] at h
    rw [Ty.subst_app, Ty.subst_app, Ty.inst, ihf h.1, ihx h.2]

theorem inst_apply_slotsFor {q : Qual Ty} (h : ∀ t ∈ types q, t.firstGen? = none) (vs : List TyVar)
    (ts : List Ty) : inst ts ((slotsFor vs).apply q) = (filling vs ts).apply q := by
  unfold Subst.apply inst
  rw [mapTypes_mapTypes]
  exact mapTypes_congr fun t ht => inst_slotsFor (h t ht)

theorem inst_quantifyAll {q : Qual Ty} (h : ∀ t ∈ types q, t.firstGen? = none) (ts : List Ty) :
    inst ts (quantifyAll q).body = (filling (freeVars q) ts).apply q := by
  rw [quantifyAll_eq]
  exact inst_apply_slotsFor h (freeVars q) ts

/-- A variable is sent to the slot of its place. -/
theorem lookup_slotsFor_freeVars {var : String → Option Kind} {q : Qual Ty} (h : ∀ t ∈ types q, t.VarsFit var)
    {t : Ty} (ht : t ∈ types q) {v : TyVar} (hv : v ∈ t.occurrences) :
    ∃ n, (freeVars q)[n]? = some v ∧ (slotsFor (freeVars q)).lookup v.id = some (.gen n) := by
  obtain ⟨n, w, hw, hid, hlook⟩ := Subst.lookup_mapIdx (f := fun i _ => .gen i) (mem_ids_freeVars ht hv)
  obtain ⟨u, hu, hwu⟩ := List.mem_flatMap.1 (mem_of_mem_distinctOn TyVar.id (List.mem_of_getElem? hw))
  rw [(h u hu).eq_of_id_eq (h t ht) hwu hv hid] at hw
  exact ⟨n, hw, hlook⟩

/-- The variable at a place is sent to the type at that place. -/
theorem subst_filling {var : String → Option Kind} {q : Qual Ty} (h : ∀ t ∈ types q, t.VarsFit var)
    {t : Ty} (ht : t ∈ types q) {v : TyVar} (hv : v ∈ t.occurrences) (ts : List Ty) :
    ∃ n, (freeVars q)[n]? = some v ∧ (Ty.var v).subst (filling (freeVars q) ts) = (Ty.gen n).inst ts := by
  obtain ⟨n, hn, hlook⟩ := lookup_slotsFor_freeVars h ht hv
  refine ⟨n, hn, Ty.subst_var_of_lookup ?_⟩
  rw [lookup_filling, hlook]
  rfl

/-- The kinds of the slots are given by arities, and every instance with well-kinded types of these kinds is
well kinded, with a proper type under the context. -/
structure WellKinded (scheme : Scheme) : Prop where
  arities : ∀ k ∈ scheme.kinds, k.IsArity
  instances : ∀ ts : List Ty, ts.map Ty.kind = scheme.kinds → (∀ t ∈ ts, t.WellKinded) →
    (∀ t ∈ types (inst ts scheme.body), t.WellKinded) ∧ (inst ts scheme.body).head.kind = .star

/-- **The scheme of a signature is well kinded.** -/
theorem quantifyAll_wellKinded {q : Qual Ty} (hspelled : Spelled cons q)
    (hwell : ∀ t ∈ types q, t.WellKinded) (hkind : q.head.kind = .star) : (quantifyAll q).WellKinded := by
  obtain ⟨arities, hfits⟩ := hspelled
  constructor
  · rw [quantifyAll_eq]
    intro k hk
    obtain ⟨v, hv, rfl⟩ := List.mem_map.1 hk
    obtain ⟨t, ht, hv⟩ := List.mem_flatMap.1 (mem_of_mem_distinctOn TyVar.id hv)
    exact isArity_of_spelled ((hfits t ht).vars v hv)
  · intro ts hkinds hts
    rw [inst_quantifyAll fun t ht => (hfits t ht).slotFree]
    have hvar : ∀ t ∈ types q, ∀ v ∈ t.occurrences,
        ((Ty.var v).subst (filling (freeVars q) ts)).WellKinded ∧
          ((Ty.var v).subst (filling (freeVars q) ts)).kind = v.kind := by
      intro t ht v hv
      obtain ⟨n, hn, hsubst⟩ := subst_filling (fun u hu => (hfits u hu).vars) ht hv ts
      have hkind : (ts.map Ty.kind)[n]? = some v.kind := by
        rw [hkinds, quantifyAll_eq, List.getElem?_map, hn]
        rfl
      rw [List.getElem?_map] at hkind
      obtain ⟨u, hu, hukind⟩ := Option.map_eq_some_iff.1 hkind
      rw [hsubst, Ty.inst, hu]
      exact ⟨hts u (List.mem_of_getElem? hu), hukind⟩
    constructor
    · intro t ht
      rw [Subst.types_apply] at ht
      obtain ⟨u, hu, rfl⟩ := List.mem_map.1 ht
      exact (hwell u hu).subst (hvar u hu)
    · have hhead : q.head ∈ types q := List.mem_append_right _ (List.mem_singleton.2 rfl)
      rw [← hkind]
      exact Ty.kind_subst_of_forall fun v hv => (hvar q.head hhead v hv).2

end Scheme

/-! ## Steps through the instances -/

namespace ClassEnv

variable {con : String → Option Kind} {env : ClassEnv} {p q : Pred}

/-- All types of instances are well kinded. -/
def TypesWellKinded (env : ClassEnv) : Prop := ∀ i ∈ env.instances, ∀ t ∈ types i, t.WellKinded

/-- A step from a well-kinded type leads to well-kinded types. -/
theorem byInst_wellKinded (hkinded : ∀ i ∈ env.instances, Instance.WellKinded con i)
    (hwell : env.TypesWellKinded) {context : List Pred}
    (h : env.byInst p = .ok context) (hp : p.ty.WellKinded) : ∀ q ∈ context, q.ty.WellKinded := by
  obtain ⟨i, hi, s, hmatch, rfl⟩ := byInst_eq_ok h
  obtain ⟨_, hm⟩ := matchPred_eq_ok hmatch
  obtain ⟨var, hfits⟩ := (hkinded i hi).fits
  obtain ⟨hcontext, hhead⟩ := forall_mem_types_qual.1 hfits
  have hhead := hhead _ (List.mem_singleton.2 rfl)
  have hs : s.WellKinded := fun b hb => (hm.parts b hb).wellKinded hp
  intro q hq
  obtain ⟨q₀, hq₀, rfl⟩ := List.mem_map.1 hq
  refine Ty.WellKinded.subst ((forall_mem_types_qual.1 (hwell i hi)).1 q₀ hq₀) fun v hv => ⟨hs.var v, ?_⟩
  by_cases hid : v.id ∈ i.head.ty.ids
  · exact hm.kind_subst hhead.vars (hhead.vars.mem_occurrences ((hcontext q₀ hq₀).vars v hv) hid)
  · rw [Ty.subst_var_of_notMem fun hbound => hid ((hm.ids _).1 hbound)]
    rfl

theorem StepsTo.wellKinded (hkinded : ∀ i ∈ env.instances, Instance.WellKinded con i)
    (hwell : env.TypesWellKinded) (h : env.StepsTo p q)
    (hp : p.ty.WellKinded) : q.ty.WellKinded := by
  induction h with
  | refl => exact hp
  | tail _ hstep ih =>
    obtain ⟨context, hcontext, hq⟩ := hstep
    exact byInst_wellKinded hkinded hwell hcontext ih _ hq

end ClassEnv

/-! ## Preludes -/

/-- All kinds of constructors are given by arities. -/
def Constructors.OfArities (cons : Constructors) : Prop := ∀ id k, cons.find? id = some k → k.IsArity

theorem Constructors.OfArities.insert (h : cons.OfArities) (name : String) (n : Nat) :
    Constructors.OfArities (NameMap.insert cons name (.ofArity n)) := by
  intro id k hk
  by_cases hid : id = name
  · rw [hid, NameMap.find?_insert_self] at hk
    cases hk
    exact ⟨n, rfl⟩
  · rw [NameMap.find?_insert_of_ne _ hid] at hk
    exact h id k hk

/-- All schemes in scope are well kinded. -/
def TypeEnv.WellKinded (env : TypeEnv) : Prop :=
  ∀ name scheme, env.find? name = some scheme → scheme.WellKinded

/-- What holds of the kinds in a prelude. -/
structure Prelude.WellKinded (prelude : Prelude) : Prop where
  constructors : prelude.constructors.OfArities
  schemes : prelude.typeEnv.WellKinded
  instances : prelude.classEnv.TypesWellKinded

namespace Config

theorem constructors_ofArities {config : Config} (h : config.constructors = .ok cons) : cons.OfArities := by
  have hempty : Constructors.OfArities .empty := fun id k hk => nomatch hk
  refine foldlM_invariant (P := Constructors.OfArities) (fun cons e cons' hcons hstep => ?_)
    ((hempty.insert TyCon.arrow.id 2).insert TyCon.list.id 1) h
  split at hstep
  · cases hstep
  · cases hstep
    exact hcons.insert e.1 e.2

theorem addInstance_wellKinded {env env' : ClassEnv} {src : String}
    (henv : env.TypesWellKinded) (h : addInstance cons env src = .ok env') : env'.TypesWellKinded := by
  obtain ⟨new, hnew, _, h⟩ := addInstance_eq_ok_iff.1 h
  obtain ⟨_, rfl⟩ := ClassEnv.addInstance_eq_ok h
  exact List.forall_mem_cons.2 ⟨readInstance_wellKinded hnew, henv⟩

theorem addBinding_wellKinded (hcons : cons.HasBase) {env : ClassEnv} {types types' : TypeEnv}
    {binding : String × String} (htypes : types.WellKinded)
    (h : addBinding cons env types binding = .ok types') : types'.WellKinded := by
  obtain ⟨q, hq, _, rfl⟩ := addBinding_eq_ok_iff.1 h
  intro name scheme hfound
  by_cases hname : name = binding.1
  · rw [hname, NameMap.find?_insert_self] at hfound
    cases hfound
    exact Scheme.quantifyAll_wellKinded (readQual_spelled hcons hq) (readQual_wellKinded hq)
      (readQual_spells hq).2
  · rw [NameMap.find?_insert_of_ne _ hname] at hfound
    exact htypes name scheme hfound

/-- **A prelude that could be built is well kinded.** -/
theorem build_wellKinded {config : Config} {prelude : Prelude} (h : config.build = .ok prelude) :
    prelude.WellKinded := by
  obtain ⟨classes, env, defaults, hcons, hclasses, henv, _, hclassEnv, htypes⟩ := build_eq_ok_iff.1 h
  have hnone : classes.TypesWellKinded := by
    intro i hi
    rw [(addClasses_reachable .empty hclasses).2] at hi
    cases hi
  have hinst : env.TypesWellKinded :=
    foldlM_invariant (fun e src e' he hstep => addInstance_wellKinded he hstep) hnone henv
  refine ⟨constructors_ofArities hcons, ?_, hclassEnv ▸ hinst⟩
  refine foldlM_invariant (P := TypeEnv.WellKinded)
    (fun e b e' he hstep => addBinding_wellKinded (constructors_hasBase hcons) he hstep) ?_ htypes
  exact fun name scheme hfound => nomatch hfound

end Config

end QualifiedTypes
