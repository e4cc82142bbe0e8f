import QualifiedTypes.Proofs.Cut
import QualifiedTypes.Proofs.Soundness

/-!
# What context reduction keeps

Going to head-normal form loses nothing: whatever proves the result proves what was there before.  Dropping
predicates is another matter.  A predicate is dropped for the sake of others that may be dropped after it,
so that its own proof has to survive theirs.  It does iff superclasses can be proved wherever predicates
can: an instance whose head is a variable may prove a predicate and not its superclass.

* `ClassEnv.toHnfs_proves`: head-normal form loses nothing.
* `ClassEnv.Shrinking.ends`: searches end where instances shrink.
* `ClassEnv.SuperclassClosed`: what entails a predicate entails its superclasses.
* `ClassEnv.Proves.cut`, `ClassEnv.simplifyAfter_proves`: then dropping loses nothing.
* `Prelude.reduce_loses_nothing_iff`: reduction loses nothing exactly then, and in particular if instances
  respect superclasses.
* `Prelude.reduce_loses_superclass`: there are preludes where it does lose an obligation.
-/

namespace QualifiedTypes

namespace ClassEnv

variable {env : ClassEnv} {given kept rest ps qs : List Pred} {p : Pred}

/-! ## Head-normal form -/

theorem hnfStep_eq_settled {found : List Pred} (h : env.hnfStep p = .settled found) :
    p.inHnf = true ∧ found = [p] := by
  unfold hnfStep at h
  split at h
  · cases h
    exact ⟨‹_›, rfl⟩
  · split at h
    · cases h
    · cases h

theorem hnfStep_eq_replaced {parts : List Pred} (h : env.hnfStep p = .replaced parts) :
    env.byInst p = .ok parts := by
  unfold hnfStep at h
  split at h
  · cases h
  · split at h
    · cases h
      assumption
    · cases h

theorem hnfStep_eq_stuck {e : MissingInstance} (h : env.hnfStep p = .stuck e) :
    p.inHnf = false ∧ env.byInst p = .error e := by
  unfold hnfStep at h
  split at h
  · cases h
  · rename_i hnf
    split at h
    · cases h
    · cases h
      exact ⟨Bool.eq_false_of_not_eq_true hnf, ‹_›⟩

/-- Steps through the instances lead from one predicate to another. -/
def StepsTo (env : ClassEnv) : Pred → Pred → Prop :=
  Relation.ReflTransGen fun p q => ∃ context, env.byInst p = .ok context ∧ q ∈ context

theorem StepsTo.fits {con : String → Option Kind}
    (hkinded : ∀ i ∈ env.instances, Instance.WellKinded con i) {q : Pred} (h : env.StepsTo p q)
    (hp : p.ty.firstGen? = none ∧ p.ty.ConsFit con) : q.ty.firstGen? = none ∧ q.ty.ConsFit con := by
  induction h with
  | refl => exact hp
  | tail _ hstep ih =>
    obtain ⟨context, hcontext, hq⟩ := hstep
    exact byInst_fits hkinded hcontext ih.2 _ hq

/-- One predicate comes down to head-normal ones that prove it. -/
theorem explore_hnfStep (given : List Pred) {depth : Nat} {found : List Pred}
    (h : explore env.hnfStep depth p = .done found) :
    (∀ q ∈ found, q.inHnf = true ∧ env.StepsTo p q) ∧
      ((∀ q ∈ found, env.Proves given q) → env.Proves given p) := by
  induction depth generalizing p found with
  | zero => cases h
  | succ depth ih =>
    rcases explore_eq_done.1 h with hp | ⟨parts, bs, hp, hbs, rfl⟩
    · obtain ⟨hnf, rfl⟩ := hnfStep_eq_settled hp
      refine ⟨fun q hq => ?_, fun hproves => hproves p List.mem_cons_self⟩
      rw [List.mem_singleton.1 hq]
      exact ⟨hnf, .refl⟩
    · obtain ⟨hall, hback⟩ := Search.mapM_eq_done hbs
      constructor
      · intro q hq
        obtain ⟨b, hb, hq⟩ := List.mem_flatten.1 hq
        obtain ⟨part, hmem, hpart⟩ := hback b hb
        obtain ⟨hnf, hsteps⟩ := (ih hpart).1 q hq
        exact ⟨hnf, hsteps.head ⟨parts, hnfStep_eq_replaced hp, hmem⟩⟩
      · intro hproves
        refine .inst (hnfStep_eq_replaced hp) fun part hpart => ?_
        obtain ⟨b, hb, hexp⟩ := hall part hpart
        exact (ih hexp).2 fun q hq => hproves q (List.mem_flatten.2 ⟨b, hb, hq⟩)

/-- What a list comes down to, predicate by predicate. -/
theorem toHnfs_eq_done (h : env.toHnfs ps = .done qs) :
    (∀ p ∈ ps, ∃ found, env.toHnf p = .done found) ∧
      ∀ q, q ∈ qs ↔ ∃ p ∈ ps, ∃ found, env.toHnf p = .done found ∧ q ∈ found := by
  rw [toHnfs_eq] at h
  obtain ⟨parts, hparts, h⟩ := Search.bind_eq_done.1 h
  cases h
  obtain ⟨hall, hback⟩ := Search.mapM_eq_done hparts
  refine ⟨fun p hp => ?_, fun q => ⟨fun hq => ?_, ?_⟩⟩
  · obtain ⟨found, _, hfound⟩ := hall p hp
    exact ⟨found, hfound⟩
  · obtain ⟨found, hmem, hq⟩ := List.mem_flatten.1 hq
    obtain ⟨p, hp, hfound⟩ := hback found hmem
    exact ⟨p, hp, found, hfound, hq⟩
  · rintro ⟨p, hp, found, hfound, hq⟩
    obtain ⟨found', hmem, hfound'⟩ := hall p hp
    rw [hfound] at hfound'
    cases hfound'
    exact List.mem_flatten.2 ⟨found, hmem, hq⟩

/-- **Going to head-normal form loses nothing.** -/
theorem toHnfs_proves (given : List Pred) (h : env.toHnfs ps = .done qs) :
    (∀ q ∈ qs, q.inHnf = true ∧ ∃ p ∈ ps, env.StepsTo p q) ∧
      ((∀ q ∈ qs, env.Proves given q) → ∀ p ∈ ps, env.Proves given p) := by
  obtain ⟨hall, hmem⟩ := toHnfs_eq_done h
  have hone : ∀ {p found}, env.toHnf p = .done found →
      (∀ q ∈ found, q.inHnf = true ∧ env.StepsTo p q) ∧
        ((∀ q ∈ found, env.Proves given q) → env.Proves given p) := by
    intro p found hfound
    rw [toHnf_eq] at hfound
    exact explore_hnfStep given hfound
  constructor
  · intro q hq
    obtain ⟨p, hp, found, hfound, hq⟩ := (hmem q).1 hq
    obtain ⟨hnf, hsteps⟩ := (hone hfound).1 q hq
    exact ⟨hnf, p, hp, hsteps⟩
  · intro hproves p hp
    obtain ⟨found, hfound⟩ := hall p hp
    exact (hone hfound).2 fun q hq => hproves q ((hmem q).2 ⟨p, hp, found, hfound, hq⟩)

theorem toHnf_of_inHnf (h : p.inHnf = true) : env.toHnf p = .done [p] := by
  rw [toHnf_eq, explore_settled (if_pos h)]

/-- Head-normal predicates stay as they are. -/
theorem toHnfs_of_inHnf (h : ∀ p ∈ ps, p.inHnf = true) : env.toHnfs ps = .done ps := by
  have hall : ps.mapM env.toHnf = .done (ps.map fun p => [p]) := by
    induction ps with
    | nil => rfl
    | cons p ps ih =>
      rw [List.mapM_cons, toHnf_of_inHnf (h p List.mem_cons_self),
        ih fun q hq => h q (List.mem_cons_of_mem _ hq)]
      rfl
  rw [toHnfs_eq, hall, Search.done_bind, Search.pure_eq, ← List.flatMap_def]
  simp

/-! ## Superclasses -/

/-- Among predicates about types of a sort, those that entail a predicate entail its direct superclasses. -/
def SuperclassClosed (env : ClassEnv) (sort : Ty → Prop) : Prop :=
  ∀ (given : List Pred) (p : Pred) (c : String), (∀ q ∈ given, sort q.ty) → sort p.ty →
    env.entail given p = .done true → c ∈ env.supers p.className → env.entail given ⟨c, p.ty⟩ = .done true

variable {sort : Ty → Prop}

theorem Proves.of_mem (hreach : env.Reachable) (h : p ∈ given) : env.Proves given p :=
  .given (hreach.givenImplies_iff.2 ⟨p, h, rfl, .refl⟩)

theorem givenImplies_mono (hsub : ∀ q ∈ qs, q ∈ given) (h : env.givenImplies qs p = true) :
    env.givenImplies given p = true := by
  simp only [givenImplies, List.any_eq_true] at h ⊢
  obtain ⟨q, hq, himplied⟩ := h
  exact ⟨q, hsub q hq, himplied⟩

theorem Proves.mono (h : env.Proves qs p) (hsub : ∀ q ∈ qs, q ∈ given) : env.Proves given p := by
  induction h with
  | given implied => exact .given (givenImplies_mono hsub implied)
  | inst step _ ih => exact .inst step ih

/-- Any superclass, step by step. -/
theorem SuperclassClosed.proves (hclosed : env.SuperclassClosed sort) (hshrink : env.Shrinking)
    (hgiven : ∀ q ∈ given, sort q.ty) (hp : sort p.ty) (h : env.Proves given p) {c : String}
    (hc : env.Implies p.className c) : env.Proves given ⟨c, p.ty⟩ := by
  induction hc with
  | refl => exact h
  | @tail b c _ hstep ih =>
    rw [← hshrink.entail_iff_proves] at ih ⊢
    exact hclosed given ⟨b, p.ty⟩ c hgiven hp ih hstep

/-- **Cut**: what follows from predicates that are proved is proved. -/
theorem Proves.cut (hreach : env.Reachable) (hshrink : env.Shrinking) (hclosed : env.SuperclassClosed sort)
    (hgiven : ∀ q ∈ given, sort q.ty) (hqs : ∀ q ∈ qs, sort q.ty)
    (hproves : ∀ q ∈ qs, env.Proves given q) (h : env.Proves qs p) : env.Proves given p := by
  induction h with
  | @given p implied =>
    obtain ⟨q, hq, hty, himplies⟩ := hreach.givenImplies_iff.1 implied
    have hp : p = ⟨p.className, q.ty⟩ := by rw [← hty]
    rw [hp]
    exact hclosed.proves hshrink hgiven (hqs q hq) (hproves q hq) himplies
  | inst step _ ih => exact .inst step ih

/-! ## Dropping what is entailed -/

theorem simplifyAfter_cons {b : Bool} (h : env.entail (kept ++ rest) p = .done b) :
    env.simplifyAfter kept (p :: rest) =
      if b then env.simplifyAfter kept rest else env.simplifyAfter (kept ++ [p]) rest := by
  rw [simplifyAfter, h]
  rfl

/-- Dropping keeps what is left in order. -/
theorem simplifyAfter_sublist (h : env.simplifyAfter kept rest = .done qs) : qs.Sublist (kept ++ rest) := by
  induction rest generalizing kept with
  | nil =>
    cases h
    rw [List.append_nil]
  | cons p rest ih =>
    obtain ⟨b, hb, _⟩ := Search.bind_eq_done.1 h
    rw [simplifyAfter_cons hb] at h
    cases b with
    | true => exact (ih h).trans ((List.sublist_cons_self p rest).append_left kept)
    | false =>
      have hsub := ih h
      rwa [List.append_assoc] at hsub

/-- All searches in the environment end. -/
structure Ends (env : ClassEnv) : Prop where
  entail : ∀ given p, ∃ b, env.entail given p = .done b
  toHnf : ∀ p, env.toHnf p ≠ .exhausted

theorem Shrinking.hnfStep_size_lt (henv : env.Shrinking) (p : Pred) (parts : List Pred)
    (h : env.hnfStep p = .replaced parts) : ∀ q ∈ parts, q.ty.size < p.ty.size :=
  henv.byInst_size_lt (hnfStep_eq_replaced h)

/-- **Where instances shrink, searches end.** -/
theorem Shrinking.ends (henv : env.Shrinking) : env.Ends where
  entail := henv.exists_entail
  toHnf p := by
    rw [toHnf_eq]
    exact explore_ne_exhausted henv.hnfStep_size_lt (Nat.le_add_left _ _)

/-- Where searches end, dropping does. -/
theorem Ends.exists_simplifyAfter (henv : env.Ends) (kept rest : List Pred) :
    ∃ qs, env.simplifyAfter kept rest = .done qs := by
  induction rest generalizing kept with
  | nil => exact ⟨kept, rfl⟩
  | cons p rest ih =>
    obtain ⟨b, hb⟩ := henv.entail (kept ++ rest) p
    rw [simplifyAfter_cons hb]
    cases b with
    | true => exact ih kept
    | false => exact ih (kept ++ [p])

/-- **Dropping loses nothing where proofs are closed under superclasses.** -/
theorem simplifyAfter_proves (hreach : env.Reachable) (hshrink : env.Shrinking)
    (hclosed : env.SuperclassClosed sort) (hsort : ∀ q ∈ kept ++ rest, sort q.ty)
    (h : env.simplifyAfter kept rest = .done qs) : ∀ p ∈ kept ++ rest, env.Proves qs p := by
  induction rest generalizing kept with
  | nil =>
    cases h
    intro p hp
    rw [List.append_nil] at hp
    exact .of_mem hreach hp
  | cons p rest ih =>
    obtain ⟨b, hb⟩ := hshrink.exists_entail (kept ++ rest) p
    rw [simplifyAfter_cons hb] at h
    cases b with
    | true =>
      have hsort' : ∀ q ∈ kept ++ rest, sort q.ty := fun q hq =>
        hsort q (((List.sublist_cons_self p rest).append_left kept).subset hq)
      have hall := ih hsort' h
      have hsub := simplifyAfter_sublist h
      -- the dropped predicate rests on others, of which some may have been dropped since
      have hp : env.Proves qs p :=
        Proves.cut hreach hshrink hclosed (fun q hq => hsort' q (hsub.subset hq)) hsort' hall
          (hshrink.entail_iff_proves.1 hb)
      intro q hq
      rcases List.mem_append.1 hq with hq | hq
      · exact hall q (List.mem_append_left _ hq)
      · rcases List.mem_cons.1 hq with rfl | hq
        · exact hp
        · exact hall q (List.mem_append_right _ hq)
    | false =>
      rw [List.append_cons] at hsort ⊢
      exact ih hsort h

/-! ## Reduction -/

/-- What reduction leaves comes from what was there, by steps through the instances. -/
theorem exists_stepsTo_of_reduce (h : env.reduce ps = .done qs) {q : Pred} (hq : q ∈ qs) :
    ∃ p ∈ ps, env.StepsTo p q := by
  obtain ⟨hnf, hhnf, hsimplify⟩ := Search.bind_eq_done.1 h
  obtain ⟨_, hsteps⟩ := (toHnfs_proves [] hhnf).1 q ((simplifyAfter_sublist hsimplify).subset hq)
  exact hsteps

/-- **Reduction loses nothing** if it comes down to types of a sort at which superclasses follow. -/
theorem SuperclassClosed.entail_of_reduce (hclosed : env.SuperclassClosed sort) (hreach : env.Reachable)
    (hshrink : env.Shrinking) (hsort : ∀ p ∈ ps, ∀ q, env.StepsTo p q → q.inHnf = true → sort q.ty)
    (h : env.reduce ps = .done qs) : ∀ p ∈ ps, env.entail qs p = .done true := by
  obtain ⟨hnf, hhnf, hsimplify⟩ := Search.bind_eq_done.1 h
  obtain ⟨hfound, hback⟩ := toHnfs_proves qs hhnf
  have hall : ∀ q ∈ [] ++ hnf, env.Proves qs q := by
    refine simplifyAfter_proves hreach hshrink hclosed (fun q hq => ?_) hsimplify
    obtain ⟨hinHnf, p, hp, hsteps⟩ := hfound q hq
    exact hsort p hp q hsteps hinHnf
  exact fun p hp => hshrink.entail_iff_proves.2 (hback hall p hp)

/-- A predicate, its superclass and what proves it are reduced to what is left of the last. -/
theorem SuperclassClosed.of_reduce (hreach : env.Reachable) (hshrink : env.Shrinking)
    (h : ∀ ps qs, env.reduce ps = .done qs → ∀ p ∈ ps, env.entail qs p = .done true) :
    env.SuperclassClosed fun t => t.headedByVar = true := by
  intro given p c hgiven hp hentail hc
  have hentail : env.entail ([] ++ given) p = .done true := hentail
  obtain ⟨qs, hqs⟩ := hshrink.ends.exists_simplifyAfter [] given
  have hsuper : env.entail ([] ++ p :: given) ⟨c, p.ty⟩ = .done true := by
    refine hshrink.entail_iff_proves.2 (.given (hreach.givenImplies_iff.2 ⟨p, ?_, rfl, .single hc⟩))
    exact List.mem_cons_self
  have hreduce : env.reduce (⟨c, p.ty⟩ :: p :: given) = .done qs := by
    have hnf : ∀ q ∈ ⟨c, p.ty⟩ :: p :: given, q.inHnf = true := by
      intro q hq
      rcases List.mem_cons.1 hq with rfl | hq
      · exact hp
      · rcases List.mem_cons.1 hq with rfl | hq
        · exact hp
        · exact hgiven q hq
    rw [reduce, toHnfs_of_inHnf hnf, Search.done_bind, simplify, simplifyAfter_cons hsuper, if_pos rfl,
      simplifyAfter_cons hentail, if_pos rfl, hqs]
  have hkept := h _ qs hreduce ⟨c, p.ty⟩ List.mem_cons_self
  rw [hshrink.entail_iff_proves] at hkept ⊢
  exact hkept.mono fun q hq => (simplifyAfter_sublist hqs).subset hq

theorem headedByVar_of_matchTy {pattern target : Ty} {s : Subst} (h : matchTy pattern target = .ok s)
    (ht : target.headedByVar = true) : pattern.headedByVar = true := by
  induction pattern generalizing target s with
  | var v => rfl
  | con c =>
    cases target with
    | con d => cases ht
    | _ => cases h
  | gen n => cases target <;> cases h
  | app l r ihl _ =>
    cases target with
    | app l₂ r₂ =>
      obtain ⟨s₁, _, h₁, _⟩ := matchTy_app_iff.1 h
      exact ihl h₁ ht
    | _ => cases h

/-- Where no head is headed by a variable, there is no step from head-normal predicates. -/
theorem byInst_of_inHnf (h : ∀ i ∈ env.instances, i.head.inHnf = false) (hp : p.inHnf = true) :
    env.byInst p = .error ⟨p⟩ := by
  cases hstep : env.byInst p with
  | error e =>
    obtain ⟨rfl, _⟩ := byInst_eq_error hstep
    rfl
  | ok context =>
    obtain ⟨i, hi, s, hmatch, _⟩ := byInst_eq_ok hstep
    unfold matchPred at hmatch
    split at hmatch
    · have hhead : i.head.inHnf = true := headedByVar_of_matchTy hmatch hp
      rw [h i hi] at hhead
      cases hhead
    · cases hmatch

/-- Then nothing but the givens proves head-normal predicates. -/
theorem SuperclassClosed.of_heads (hreach : env.Reachable) (hshrink : env.Shrinking)
    (h : ∀ i ∈ env.instances, i.head.inHnf = false) :
    env.SuperclassClosed fun t => t.headedByVar = true := by
  intro given p c _ hp hentail hc
  rw [hshrink.entail_iff_proves] at hentail ⊢
  cases hentail with
  | given implied =>
    obtain ⟨q, hq, hty, himplies⟩ := hreach.givenImplies_iff.1 implied
    exact .given (hreach.givenImplies_iff.2 ⟨q, hq, hty, himplies.tail hc⟩)
  | inst step _ =>
    rw [byInst_of_inHnf h hp] at step
    cases step

/-- Where instances respect superclasses, superclasses follow at all types of one kind per constructor. -/
theorem RespectsSuperclasses.superclassClosed {con : String → Option Kind} (hresp : env.RespectsSuperclasses)
    (hreach : env.Reachable) (hshrink : env.Shrinking)
    (hkinded : ∀ i ∈ env.instances, Instance.WellKinded con i) :
    env.SuperclassClosed fun t => t.firstGen? = none ∧ t.ConsFit con := by
  intro given p c _ hp hentail hc
  rw [hshrink.entail_iff_proves] at hentail ⊢
  have hentails := hentail.entails hreach hshrink hkinded hp.1 hp.2
  have hsuper := hentails.superclass hreach hshrink hkinded hresp (.single hc)
  exact hsuper.proves hreach hshrink hkinded hp.1 hp.2

end ClassEnv

/-! ## Preludes -/

/-- Equality and order, where order holds at all types. -/
def Config.universal (more : List String) : Config where
  defaults := []
  types := .empty
  classes := [⟨"Eq", []⟩, ⟨"Ord", ["Eq"]⟩]
  instances := "Ord a" :: more
  bindings := .empty

/-- The instance of a class for all types. -/
def Instance.forAll (c : String) : Instance := ⟨[], ⟨c, .var ⟨"a", .star⟩⟩⟩

namespace Prelude

/-- Equality and order with these instances. -/
def universal (instances : List Instance) : Prelude where
  classEnv := ⟨[⟨"Ord", ["Eq"]⟩, ⟨"Eq", []⟩], instances, []⟩
  typeEnv := .empty
  constructors := .base

theorem addInstance_universal :
    Config.addInstance .base (universal []).classEnv "Ord a" = .ok (universal [.forAll "Ord"]).classEnv ∧
    Config.addInstance .base (universal [.forAll "Ord"]).classEnv "Eq a" =
      .ok (universal [.forAll "Eq", .forAll "Ord"]).classEnv := by
  have hord : readInstance .base "Ord a" = .ok (.forAll "Ord") := by cbv
  have heq : readInstance .base "Eq a" = .ok (.forAll "Eq") := by cbv
  rw [Config.addInstance, hord, Config.addInstance, heq]
  exact ⟨rfl, rfl⟩

theorem build_universal :
    (Config.universal []).build = .ok (universal [.forAll "Ord"]) ∧
    (Config.universal ["Eq a"]).build = .ok (universal [.forAll "Eq", .forAll "Ord"]) := by
  obtain ⟨hord, heq⟩ := addInstance_universal
  constructor
  · refine bind_eq_ok.2 ⟨.base, rfl, bind_eq_ok.2 ⟨(universal []).classEnv, rfl, ?_⟩⟩
    exact bind_eq_ok.2 ⟨_, bind_eq_ok.2 ⟨_, hord, rfl⟩, rfl⟩
  · refine bind_eq_ok.2 ⟨.base, rfl, bind_eq_ok.2 ⟨(universal []).classEnv, rfl, ?_⟩⟩
    exact bind_eq_ok.2 ⟨_, bind_eq_ok.2 ⟨_, hord, bind_eq_ok.2 ⟨_, heq, rfl⟩⟩, rfl⟩

variable {config : Config} {prelude : Prelude}

theorem reduce_of_respectsSuperclasses (hprelude : prelude.Sound) (hshrink : prelude.classEnv.Shrinking)
    (hresp : prelude.classEnv.RespectsSuperclasses) {ps qs : List Pred}
    (hps : ∀ p ∈ ps, p.ty.firstGen? = none ∧ p.ty.ConsFit prelude.constructors.find?)
    (h : prelude.classEnv.reduce ps = .done qs) : ∀ p ∈ ps, prelude.classEnv.entail qs p = .done true :=
  (hresp.superclassClosed hprelude.reachable hshrink hprelude.wellKinded).entail_of_reduce hprelude.reachable
    hshrink (fun p hp _ hsteps _ => hsteps.fits hprelude.wellKinded (hps p hp)) h

/-- What inference asks for has no slots, and constructors of the prelude. -/
theorem infer_predicates_fit (hprelude : prelude.Sound) {e : Expr} {preds : List Pred} {typed : TypedExpr}
    {state : InferState}
    (hrun : (Infer.expr prelude.typeEnv e).runFrom .initial = (.ok (preds, typed), state)) :
    ∀ p ∈ state.subst.apply preds, p.ty.firstGen? = none ∧ p.ty.ConsFit prelude.constructors.find? := by
  have h := Infer.expr_recorded hprelude.base.arrow hprelude.schemes InferState.valid_initial hrun
  exact fun p hp => ⟨(h.resolvedFit p hp).slotFree, (h.resolvedFit p hp).cons⟩

theorem check_predicates_fit (hprelude : prelude.Sound) {e : Expr} {r : CheckResult}
    (hcheck : prelude.check e = some (.ok r)) :
    ∀ p ∈ r.predicates, p.ty.firstGen? = none ∧ p.ty.ConsFit prelude.constructors.find? := by
  obtain ⟨preds, state, hrun, _, hpreds, _⟩ := check_eq_ok hcheck
  rw [hpreds]
  exact infer_predicates_fit hprelude hrun

/-- **Reduction loses no obligation exactly where superclasses follow at all types headed by a variable.**
They do if no instance has a head that begins with a variable.  If instances respect superclasses, then
reduction loses nothing of what can be written down with the constructors of the prelude.  In all these
cases, the context of a checked expression entails all that the expression needs. -/
theorem reduce_loses_nothing_iff (hbuild : config.build = .ok prelude)
    (hshrink : prelude.classEnv.Shrinking) :
    ((∀ ps qs, prelude.classEnv.reduce ps = .done qs →
        ∀ p ∈ ps, prelude.classEnv.entail qs p = .done true) ↔
      prelude.classEnv.SuperclassClosed fun t => t.headedByVar = true) ∧
    ((∀ i ∈ prelude.classEnv.instances, i.head.inHnf = false) →
      prelude.classEnv.SuperclassClosed fun t => t.headedByVar = true) ∧
    (prelude.classEnv.RespectsSuperclasses → ∀ ps qs,
      (∀ p ∈ ps, p.ty.firstGen? = none ∧ p.ty.ConsFit prelude.constructors.find?) →
      prelude.classEnv.reduce ps = .done qs → ∀ p ∈ ps, prelude.classEnv.entail qs p = .done true) ∧
    ((prelude.classEnv.SuperclassClosed fun t => t.headedByVar = true) ∨
        prelude.classEnv.RespectsSuperclasses →
      ∀ e r, prelude.check e = some (.ok r) →
        ∀ p ∈ r.predicates, prelude.classEnv.entail r.qualType.context p = .done true) := by
  have hprelude := Config.build_sound hbuild
  have hreach := hprelude.reachable
  refine ⟨⟨ClassEnv.SuperclassClosed.of_reduce hreach hshrink, fun h ps qs => ?_⟩,
    ClassEnv.SuperclassClosed.of_heads hreach hshrink,
    fun hresp ps qs => reduce_of_respectsSuperclasses hprelude hshrink hresp, fun h e r hcheck => ?_⟩
  · exact h.entail_of_reduce hreach hshrink fun _ _ _ _ hnf => hnf
  · obtain ⟨_, _, _, _, _, _, hreduce⟩ := check_eq_ok hcheck
    rcases h with hclosed | hresp
    · exact hclosed.entail_of_reduce hreach hshrink (fun _ _ _ _ hnf => hnf) hreduce
    · exact reduce_of_respectsSuperclasses hprelude hshrink hresp (check_predicates_fit hprelude hcheck) hreduce

theorem reduce_loses_nothing_small :
    ((small.classEnv.SuperclassClosed fun t => t.headedByVar = true) ∧
      (small.classEnv.reduce [⟨"Ord", .list (.var ⟨"x", .star⟩)⟩, ⟨"Eq", .var ⟨"x", .star⟩⟩] =
          .done [⟨"Ord", .var ⟨"x", .star⟩⟩] ∧
        ∀ p ∈ [⟨"Ord", .list (.var ⟨"x", .star⟩)⟩, ⟨"Eq", .var ⟨"x", .star⟩⟩],
          small.classEnv.entail [⟨"Ord", .var ⟨"x", .star⟩⟩] p = .done true) ∧
      ∃ r, small.check smallExpr = some (.ok r) ∧
        ∀ p ∈ r.predicates, small.classEnv.entail r.qualType.context p = .done true) ∧
    (universal [.forAll "Eq", .forAll "Ord"]).classEnv.RespectsSuperclasses ∧
      (universal [.forAll "Eq", .forAll "Ord"]).classEnv.reduce
        [⟨"Eq", .var ⟨"t0", .star⟩⟩, ⟨"Ord", .var ⟨"t0", .star⟩⟩] = .done [] ∧
      ∀ p ∈ [⟨"Eq", .var ⟨"t0", .star⟩⟩, ⟨"Ord", .var ⟨"t0", .star⟩⟩],
        (universal [.forAll "Eq", .forAll "Ord"]).classEnv.entail [] p = .done true := by
  obtain ⟨hiff, hheads, _, hcheck⟩ := reduce_loses_nothing_iff Config.build_small (by decide)
  have hclosed := hheads (by decide)
  have hreduce : small.classEnv.reduce [⟨"Ord", .list (.var ⟨"x", .star⟩)⟩, ⟨"Eq", .var ⟨"x", .star⟩⟩] =
      .done [⟨"Ord", .var ⟨"x", .star⟩⟩] := by decide +kernel
  obtain ⟨r, hr⟩ := exists_check_smallExpr
  obtain ⟨_, _, hresp, _⟩ := reduce_loses_nothing_iff build_universal.2 (by decide)
  have hrespects : (universal [.forAll "Eq", .forAll "Ord"]).classEnv.RespectsSuperclasses := by
    decide +kernel
  have hreduce' : (universal [.forAll "Eq", .forAll "Ord"]).classEnv.reduce
      [⟨"Eq", .var ⟨"t0", .star⟩⟩, ⟨"Ord", .var ⟨"t0", .star⟩⟩] = .done [] := by decide +kernel
  exact ⟨⟨hclosed, ⟨hreduce, hiff.2 hclosed _ _ hreduce⟩, r, hr, hcheck (.inl hclosed) smallExpr r hr⟩,
    hrespects, hreduce', hresp hrespects _ _ (by decide) hreduce'⟩

/-- **Reduction can lose an obligation**: `Eq t` is dropped because `Ord t` implies it, then `Ord t` is
dropped because it holds of every type, and `Eq t` follows from nothing. -/
theorem reduce_loses_superclass :
    ¬ ∀ (config : Config) (prelude : Prelude), config.build = .ok prelude → prelude.classEnv.Shrinking →
      ∀ ps qs, prelude.classEnv.reduce ps = .done qs →
        ∀ p ∈ ps, prelude.classEnv.entail qs p = .done true := by
  intro h
  have hreduce : (universal [.forAll "Ord"]).classEnv.reduce
      [⟨"Eq", .var ⟨"t0", .star⟩⟩, ⟨"Ord", .var ⟨"t0", .star⟩⟩] = .done [] := by decide +kernel
  have hentail := h _ _ build_universal.1 (by decide) _ _ hreduce ⟨"Eq", .var ⟨"t0", .star⟩⟩
    List.mem_cons_self
  have hnot : (universal [.forAll "Ord"]).classEnv.entail [] ⟨"Eq", .var ⟨"t0", .star⟩⟩ = .done false := by
    decide +kernel
  rw [hnot] at hentail
  cases hentail

end Prelude

end QualifiedTypes
