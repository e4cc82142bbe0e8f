import QualifiedTypes.Proofs.Agreement

/-!
# Names in inferred contexts

Inference draws its variables one after the other, and quantified signatures hold no names at all.  Instances
do: their heads are matched and their contexts spliced in as they were written.  A variable of the head is
always replaced, so that its name cannot be seen.  A variable that only the context has is *loose*: it stays
under the name that was written, which may even be the name of a variable of inference.

* `Instance.loose`: the variables that only the context has.
* `ClassEnv.StepsTo.mem_occurrences`: steps bring in no variables but loose ones.
* `Instance.Variant`, `Instance.Variant.answer_eq`: the names of the other variables cannot be seen.
* `Prelude.check_hygienic`: inferred contexts are hygienic up to loose variables.
* `Prelude.check_keeps_loose_name`: a loose variable can end up in an inferred context.
-/

namespace QualifiedTypes

/-! ## Names that were drawn -/

theorem exists_of_drawnKind? {n : Nat} {kinds : List Kind} {id : String} {k : Kind}
    (h : drawnKind? n kinds id = some k) : ∃ m < n + kinds.length, id = freshName m := by
  induction kinds generalizing n with
  | nil => cases h
  | cons kind kinds ih =>
    rw [drawnKind?] at h
    rw [List.length_cons]
    split at h
    · exact ⟨n, by omega, ‹_›⟩
    · obtain ⟨m, hm, hid⟩ := ih h
      exact ⟨m, by omega, hid⟩

/-- The variables of a type that fits were all drawn. -/
theorem Ty.Fits.drawn {con : String → Option Kind} {kinds : List Kind} {t : Ty}
    (h : t.Fits (drawnTable con kinds)) {v : TyVar} (hv : v ∈ t.occurrences) :
    ∃ m < kinds.length, v.id = freshName m := by
  obtain ⟨m, hm, hid⟩ := exists_of_drawnKind? (h.vars v hv)
  exact ⟨m, by omega, hid⟩

/-! ## What steps bring in -/

namespace Instance

/-- The variables of the context that the head does not have. -/
def loose (i : Instance) : List TyVar := (occurrences i.context).filter fun v => !i.head.ty.ids.contains v.id

theorem mem_loose {i : Instance} {v : TyVar} :
    v ∈ loose i ↔ v ∈ occurrences i.context ∧ v.id ∉ i.head.ty.ids := by
  simp [loose]

end Instance

theorem mem_occurrences_preds {ps : List Pred} {v : TyVar} :
    v ∈ occurrences ps ↔ ∃ p ∈ ps, v ∈ p.ty.occurrences := by
  simp [occurrences, types]

namespace ClassEnv

variable {env : ClassEnv} {p q : Pred} {v : TyVar}

/-- A step brings in no variables but loose ones. -/
theorem mem_occurrences_of_byInst {context : List Pred} (h : env.byInst p = .ok context) (hq : q ∈ context)
    (hv : v ∈ q.ty.occurrences) : v ∈ p.ty.occurrences ∨ ∃ i ∈ env.instances, v ∈ Instance.loose i := by
  obtain ⟨i, hi, s, hmatch, rfl⟩ := byInst_eq_ok h
  obtain ⟨_, hm⟩ := matchPred_eq_ok hmatch
  obtain ⟨q₀, hq₀, rfl⟩ := List.mem_map.1 hq
  obtain ⟨w, hw, hv⟩ := Ty.mem_occurrences_subst.1 hv
  cases hlook : s.lookup w.id with
  | some t =>
    -- the variable stands for a part of the type that was matched
    obtain ⟨_, hbinding, _⟩ := Subst.exists_of_lookup hlook
    rw [Ty.subst_var_of_lookup hlook] at hv
    exact .inl ((hm.parts _ hbinding).mem_occurrences hv)
  | none =>
    have hnot := (s.lookup_eq_none_iff w.id).1 hlook
    rw [Ty.subst_var_of_notMem hnot] at hv
    rw [List.mem_singleton.1 hv]
    exact .inr ⟨i, hi, Instance.mem_loose.2
      ⟨mem_occurrences_preds.2 ⟨q₀, hq₀, hw⟩, fun hid => hnot ((hm.ids _).2 hid)⟩⟩

theorem StepsTo.mem_occurrences (h : env.StepsTo p q) (hv : v ∈ q.ty.occurrences) :
    v ∈ p.ty.occurrences ∨ ∃ i ∈ env.instances, v ∈ Instance.loose i := by
  induction h with
  | refl => exact .inl hv
  | tail _ hstep ih =>
    obtain ⟨context, hcontext, hq⟩ := hstep
    rcases mem_occurrences_of_byInst hcontext hq hv with hv | hloose
    · exact ih hv
    · exact .inr hloose

end ClassEnv

/-! ## Renamed instances -/

namespace Instance

/-- The substitution turns the first instance into the second, keeps kinds, and leaves loose variables
loose. -/
structure RenamedBy (s : Subst) (i i' : Instance) : Prop where
  eq : s.apply i = i'
  kinds : ∀ v ∈ occurrences i, ((Ty.var v).subst s).kind = v.kind
  loose : ∀ v ∈ loose i, (Ty.var v).subst s = .var v ∧ v ∈ Instance.loose i'

/-- Two instances differ at most in the names of variables that are not loose. -/
def Variant (i i' : Instance) : Prop := (∃ s, RenamedBy s i i') ∧ ∃ s, RenamedBy s i' i

variable {con : String → Option Kind} {i i' : Instance} {p : Pred}

/-- What a renamed instance answers, the instance itself does. -/
theorem RenamedBy.answer_eq_some {s : Subst} (h : RenamedBy s i i') (hi : WellKinded con i)
    (hi' : WellKinded con i') (hslots : p.ty.firstGen? = none) (hcons : p.ty.ConsFit con)
    {context : List Pred} (hanswer : answer p i' = some context) : answer p i = some context := by
  obtain ⟨s', hmatch', rfl⟩ := answer_eq_some_iff.1 hanswer
  obtain ⟨hclass', hm'⟩ := matchPred_eq_ok hmatch'
  obtain ⟨var', hfits'⟩ := hi'.head
  obtain ⟨var, hfits⟩ := hi.fits
  obtain ⟨hcontext, hhead⟩ := forall_mem_types_qual.1 hfits
  have hhead := hhead _ (List.mem_singleton.2 rfl)
  have heq := h.eq
  rw [← heq] at hclass' hm' hfits' ⊢
  -- renaming and then matching is a match for the instance as it was
  have htarget : i.head.ty.subst (s'.compose s) = p.ty := by
    rw [Ty.subst_compose]
    exact hm'.subst_eq hfits'.cons hcons
  have hkeeps : ∀ v ∈ i.head.ty.occurrences, ((Ty.var v).subst (s'.compose s)).kind = v.kind := by
    intro v hv
    rw [Ty.subst_compose, ← h.kinds v (mem_occurrences_head hv)]
    refine Ty.kind_subst_of_forall fun w hw => hm'.kind_subst hfits'.vars ?_
    exact Ty.mem_occurrences_subst.2 ⟨v, hv, hw⟩
  obtain ⟨t, ht, hact⟩ := matchTy_complete hhead.vars hhead.slotFree hkeeps (by rw [htarget]; exact hslots)
  rw [htarget] at ht
  refine answer_eq_some_iff.2 ⟨t, ?_, ?_⟩
  · rw [matchPred, if_pos (show i.head.className = p.className from hclass')]
    exact ht
  · rw [Subst.apply_context, ← Subst.apply_compose]
    refine Subst.apply_congr (forall_mem_types_preds.2 fun q hq => Ty.subst_congr fun v hv => ?_)
    by_cases hid : v.id ∈ i.head.ty.ids
    · exact (hact v (hhead.vars.mem_occurrences ((hcontext q hq).vars v hv) hid)).symm
    · -- neither match binds a loose variable
      have hloose := h.loose v (mem_loose.2 ⟨mem_occurrences_preds.2 ⟨q, hq, hv⟩, hid⟩)
      have hid' : v.id ∉ s'.ids := fun hbound => by
        rw [← heq] at hloose
        exact (mem_loose.1 hloose.2).2 ((hm'.ids _).1 hbound)
      have hid'' : v.id ∉ t.ids := fun hbound => hid (((matchTy_matches ht).ids _).1 hbound)
      rw [Ty.subst_compose, hloose.1, Ty.subst_var_of_notMem hid', Ty.subst_var_of_notMem hid'']

/-- **Variants have the same answers.** -/
theorem Variant.answer_eq (h : Variant i i') (hi : WellKinded con i) (hi' : WellKinded con i')
    (hslots : p.ty.firstGen? = none) (hcons : p.ty.ConsFit con) : answer p i = answer p i' := by
  obtain ⟨⟨_, h⟩, _, h'⟩ := h
  refine Option.ext fun context => ⟨fun hanswer => ?_, fun hanswer => ?_⟩
  · exact h'.answer_eq_some hi' hi hslots hcons hanswer
  · exact h.answer_eq_some hi hi' hslots hcons hanswer

theorem findSome?_answer_eq {is is' : List Instance} (h : List.Forall₂ Variant is is')
    (his : ∀ i ∈ is, WellKinded con i) (his' : ∀ i ∈ is', WellKinded con i)
    (hslots : p.ty.firstGen? = none) (hcons : p.ty.ConsFit con) :
    is.findSome? (answer p) = is'.findSome? (answer p) := by
  induction h with
  | nil => rfl
  | cons hvariant _ ih =>
    rw [List.forall_mem_cons] at his his'
    rw [List.findSome?_cons, List.findSome?_cons, hvariant.answer_eq his.1 his'.1 hslots hcons,
      ih his.2 his'.2]

end Instance

/-! ## Checked expressions -/

namespace Prelude

variable {config : Config} {prelude prelude' : Prelude}

/-- Preludes that differ in the names in instances alone check alike. -/
theorem check_eq_of_variants (hprelude : prelude.Sound) (hprelude' : prelude'.Sound)
    (htypes : prelude.typeEnv = prelude'.typeEnv) (hcons : prelude.constructors = prelude'.constructors)
    (hclasses : prelude.classEnv.classes = prelude'.classEnv.classes)
    (hinstances : List.Forall₂ Instance.Variant prelude.classEnv.instances prelude'.classEnv.instances)
    (e : Expr) : prelude.check e = prelude'.check e := by
  refine check_congr hprelude htypes ⟨hclasses, fun p hp => ?_, fun p context hp hstep => ?_⟩ e
  · have hkinded' := hprelude'.wellKinded
    rw [← hcons] at hkinded'
    rw [ClassEnv.byInst_eq_findSome?, ClassEnv.byInst_eq_findSome?,
      Instance.findSome?_answer_eq hinstances hprelude.wellKinded hkinded' hp.1 hp.2]
  · exact ClassEnv.byInst_fits hprelude.wellKinded hstep hp.2

/-- All that a checked expression is said to need and to be was written with drawn variables. -/
theorem check_fits_drawn (hprelude : prelude.Sound) {e : Expr} {r : CheckResult}
    (hcheck : prelude.check e = some (.ok r)) :
    ∃ kinds : List Kind, kinds.length = ((Infer.expr prelude.typeEnv e).runFrom .initial).2.varCount ∧
      (∀ p ∈ r.predicates, p.ty.Fits (drawnTable prelude.constructors.find? kinds)) ∧
      r.qualType.head.Fits (drawnTable prelude.constructors.find? kinds) ∧
      r.subst.Fits (drawnTable prelude.constructors.find? kinds) := by
  obtain ⟨preds, state, hrun, hsubst, hpreds, hhead, _⟩ := check_eq_ok hcheck
  have h := Infer.expr_recorded hprelude.base.arrow hprelude.schemes InferState.valid_initial hrun
  have hfits := h.advances.valid.fits
  rw [hrun, hsubst, hpreds, hhead]
  exact ⟨_, h.advances.valid.count.symm, h.resolvedFit, h.tyFits.subst hfits, hfits⟩

/-- **Inferred contexts are hygienic up to loose variables.**  Signatures hold no variables.  All variables
in the needed predicates, in the type and in the substitution were drawn by the run.  A variable of the
context is one of the needed predicates, or a loose one of some instance; so where there are no loose
variables, it is one of those that were drawn.  Renaming variables of instances that are not loose does not
change the answer, even if the new names are those of drawn variables. -/
theorem check_hygienic (hbuild : config.build = .ok prelude) {e : Expr} {r : CheckResult}
    (hcheck : prelude.check e = some (.ok r)) :
    (∀ name scheme, prelude.typeEnv.find? name = some scheme → occurrences scheme.body = []) ∧
    (∀ v ∈ occurrences r.predicates ++ occurrences r.qualType.head ++ r.subst.keys ++
        occurrences (r.subst.bindings.map Prod.snd),
      ∃ n < ((Infer.expr prelude.typeEnv e).runFrom .initial).2.varCount, v.id = freshName n) ∧
    (∀ v ∈ occurrences r.qualType.context,
      v ∈ occurrences r.predicates ∨ ∃ i ∈ prelude.classEnv.instances, v ∈ Instance.loose i) ∧
    ((∀ i ∈ prelude.classEnv.instances, Instance.loose i = []) →
      ∀ v ∈ occurrences r.qualType, (v ∈ occurrences r.qualType.context → v ∈ occurrences r.predicates) ∧
        ∃ n < ((Infer.expr prelude.typeEnv e).runFrom .initial).2.varCount, v.id = freshName n) ∧
    ∀ config' prelude', Config.build config' = .ok prelude' →
      prelude.typeEnv = prelude'.typeEnv → prelude.constructors = prelude'.constructors →
      prelude.classEnv.classes = prelude'.classEnv.classes →
      List.Forall₂ Instance.Variant prelude.classEnv.instances prelude'.classEnv.instances →
      prelude'.check e = some (.ok r) := by
  have hprelude := Config.build_sound hbuild
  obtain ⟨kinds, hcount, hpreds, hhead, hsubst⟩ := check_fits_drawn hprelude hcheck
  obtain ⟨_, _, _, _, _, _, hreduce⟩ := check_eq_ok hcheck
  rw [← hcount]
  have hneeded : ∀ v ∈ occurrences r.predicates, ∃ n < kinds.length, v.id = freshName n := by
    intro v hv
    obtain ⟨p, hp, hv⟩ := mem_occurrences_preds.1 hv
    exact (hpreds p hp).drawn hv
  have hcontext : ∀ v ∈ occurrences r.qualType.context,
      v ∈ occurrences r.predicates ∨ ∃ i ∈ prelude.classEnv.instances, v ∈ Instance.loose i := by
    intro v hv
    obtain ⟨q, hq, hv⟩ := mem_occurrences_preds.1 hv
    obtain ⟨p, hp, hsteps⟩ := ClassEnv.exists_stepsTo_of_reduce hreduce hq
    exact (hsteps.mem_occurrences hv).imp_left fun hv => mem_occurrences_preds.2 ⟨p, hp, hv⟩
  refine ⟨fun name scheme hfound => ?_, fun v hv => ?_, hcontext, fun hloose v hv => ?_,
    fun config' prelude' hbuild' htypes hcons hclasses hinstances => ?_⟩
  · exact List.flatMap_eq_nil_iff.2 (hprelude.schemes name scheme hfound).vars
  · rcases List.mem_append.1 hv with hv | hv
    · rcases List.mem_append.1 hv with hv | hv
      · rcases List.mem_append.1 hv with hv | hv
        · exact hneeded v hv
        · exact hhead.drawn (by simpa [occurrences] using hv)
      · obtain ⟨b, hb, rfl⟩ := List.mem_map.1 hv
        obtain ⟨n, hn, hid⟩ := exists_of_drawnKind? (hsubst b hb).2
        exact ⟨n, by omega, hid⟩
    · obtain ⟨t, ht, hv⟩ := List.mem_flatMap.1 hv
      obtain ⟨b, hb, rfl⟩ : ∃ b ∈ r.subst.bindings, b.2 = t := by simpa using ht
      exact (hsubst b hb).1.drawn hv
  · have honly : v ∈ occurrences r.qualType.context → v ∈ occurrences r.predicates := by
      intro hv
      rcases hcontext v hv with hv | ⟨i, hi, hv⟩
      · exact hv
      · rw [hloose i hi] at hv
        cases hv
    refine ⟨honly, ?_⟩
    obtain ⟨t, ht, hv⟩ := List.mem_flatMap.1 hv
    rcases List.mem_append.1 ht with ht | ht
    · exact hneeded v (honly (List.mem_flatMap.2 ⟨t, ht, hv⟩))
    · rw [List.mem_singleton.1 ht] at hv
      exact hhead.drawn hv
  · rw [← hcheck]
    exact (check_eq_of_variants hprelude (Config.build_sound hbuild') htypes hcons hclasses hinstances e).symm

/-! ## Two instances for lists -/

/-- The small prelude, with the instance for lists written with the name of a drawn variable. -/
def renamed : Prelude :=
  { small with classEnv := { small.classEnv with
      instances := [⟨[⟨"Ord", .var ⟨"t6", .star⟩⟩], ⟨"Ord", .list (.var ⟨"t6", .star⟩)⟩⟩] } }

theorem build_renamed : { Config.small with instances := ["Ord t6 => Ord [t6]"] }.build = .ok renamed := by
  have hread : readInstance .base "Ord t6 => Ord [t6]" =
      .ok ⟨[⟨"Ord", .var ⟨"t6", .star⟩⟩], ⟨"Ord", .list (.var ⟨"t6", .star⟩)⟩⟩ := by cbv
  have hadd : Config.addInstance .base { small.classEnv with instances := [] } "Ord t6 => Ord [t6]" =
      .ok renamed.classEnv := by
    rw [Config.addInstance, hread]
    rfl
  exact Config.build_small_with (bind_eq_ok.2 ⟨_, hadd, rfl⟩)

theorem check_hygienic_smallExpr :
    ∃ r, small.check smallExpr = some (.ok r) ∧
      (∀ v ∈ occurrences r.qualType,
        ∃ n < ((Infer.expr small.typeEnv smallExpr).runFrom .initial).2.varCount, v.id = freshName n) ∧
      (∀ v ∈ occurrences r.qualType.context, v ∈ occurrences r.predicates) ∧
      renamed.check smallExpr = some (.ok r) := by
  obtain ⟨r, hr⟩ := exists_check_smallExpr
  obtain ⟨_, _, _, hclosed, hrename⟩ := check_hygienic Config.build_small hr
  have hclosed := hclosed (by decide)
  have hvariant : Instance.Variant ordList ⟨[⟨"Ord", .var ⟨"t6", .star⟩⟩], ⟨"Ord", .list (.var ⟨"t6", .star⟩)⟩⟩ :=
    ⟨⟨⟨[(⟨"a", .star⟩, .var ⟨"t6", .star⟩)]⟩, by decide, by decide, by decide⟩,
      ⟨⟨[(⟨"t6", .star⟩, .var ⟨"a", .star⟩)]⟩, by decide, by decide, by decide⟩⟩
  refine ⟨r, hr, fun v hv => (hclosed v hv).2, fun v hv => ?_,
    hrename _ _ build_renamed rfl rfl rfl (.cons hvariant .nil)⟩
  obtain ⟨t, ht, hv'⟩ := List.mem_flatMap.1 hv
  exact (hclosed v (List.mem_flatMap.2 ⟨t, List.mem_append_left _ ht, hv'⟩)).1 hv

/-- Comparison of lists that asks for something unrelated, and a name that needs it. -/
def looseConfig : Config where
  defaults := []
  types := .empty
  classes := [⟨"Eq", []⟩]
  instances := ["Eq b => Eq [a]"]
  bindings := ⟨[("x", "Eq [a] => a")]⟩

/-- The prelude of these declarations. -/
def withLoose : Prelude where
  classEnv := ⟨[⟨"Eq", []⟩], [⟨[⟨"Eq", .var ⟨"b", .star⟩⟩], ⟨"Eq", .list (.var ⟨"a", .star⟩)⟩⟩], []⟩
  typeEnv := ⟨[("x", ⟨[.star], [⟨"Eq", .list (.gen 0)⟩], .gen 0⟩)]⟩
  constructors := .base

theorem build_looseConfig : looseConfig.build = .ok withLoose := by
  have hinstance : readInstance .base "Eq b => Eq [a]" =
      .ok ⟨[⟨"Eq", .var ⟨"b", .star⟩⟩], ⟨"Eq", .list (.var ⟨"a", .star⟩)⟩⟩ := by cbv
  have hscheme : readScheme .base "Eq [a] => a" = .ok ⟨[.star], [⟨"Eq", .list (.gen 0)⟩], .gen 0⟩ := by cbv
  have hadd : Config.addInstance .base { withLoose.classEnv with instances := [] } "Eq b => Eq [a]" =
      .ok withLoose.classEnv := by
    rw [Config.addInstance, hinstance]
    rfl
  have hbind : Config.addBinding .base withLoose.classEnv .empty ("x", "Eq [a] => a") =
      .ok withLoose.typeEnv := by
    rw [Config.addBinding, hscheme]
    rfl
  refine bind_eq_ok.2 ⟨.base, rfl, bind_eq_ok.2 ⟨{ withLoose.classEnv with instances := [] }, rfl, ?_⟩⟩
  refine bind_eq_ok.2 ⟨withLoose.classEnv, bind_eq_ok.2 ⟨_, hadd, rfl⟩, ?_⟩
  exact bind_eq_ok.2 ⟨[], rfl, bind_eq_ok.2 ⟨withLoose.typeEnv, bind_eq_ok.2 ⟨_, hbind, rfl⟩, rfl⟩⟩

/-- **A loose variable can be seen**: the name `b` of the instance is in the context inferred for `x`, which
needs nothing of the kind. -/
theorem check_keeps_loose_name :
    ¬ ∀ (config : Config) (prelude : Prelude) (e : Expr) (r : CheckResult), config.build = .ok prelude →
      prelude.check e = some (.ok r) →
      ∀ v ∈ occurrences r.qualType.context, v ∈ occurrences r.predicates := by
  intro h
  have hcheck : withLoose.check (.name ⟨.identifier, "x", .zero⟩) = some (.ok
      ⟨.name ⟨.identifier, "x", .zero⟩ (.var ⟨"t0", .star⟩), .empty, [⟨"Eq", .list (.var ⟨"t0", .star⟩)⟩],
        [⟨"Eq", .var ⟨"b", .star⟩⟩], .var ⟨"t0", .star⟩⟩) := by
    decide +kernel
  have hmem := h _ _ _ _ build_looseConfig hcheck ⟨"b", .star⟩ (by decide)
  revert hmem
  decide

end Prelude

end QualifiedTypes
