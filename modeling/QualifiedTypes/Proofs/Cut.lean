import QualifiedTypes.Proofs.Entailment

/-!
# Substitution, superclasses and cut

What follows from givens still follows after a substitution that keeps kinds.  So whatever an instance
promises for its head, given its context, holds of everything that is an instance of the head.  In
particular, if every instance has the superclasses of its head, then every predicate that follows has its
superclasses too, and what follows from predicates that follow does so itself.

* `ClassEnv.Entails.subst`: entailment is stable under substitution.
* `ClassEnv.RespectsSuperclasses`: the context of an instance entails the superclasses of its head.
* `ClassEnv.Entails.superclass`: then superclasses follow wherever a predicate does.
* `ClassEnv.Regular`, `ClassEnv.Coherent`: what these results ask of an environment.
* `ClassEnv.entail_subst`: the search is stable under substitution.
* `ClassEnv.Coherent.entail_bySuper`, `ClassEnv.Coherent.entail_cut`: the search is closed under superclasses and
  under cut.
-/

namespace QualifiedTypes

namespace ClassEnv

variable {env : ClassEnv} {con : String → Option Kind} {given qs : List Pred} {p : Pred}

/-- **Entailment is stable under substitutions that keep kinds.** -/
theorem Entails.subst (hshrink : env.Shrinking) (hkinded : ∀ i ∈ env.instances, Instance.WellKinded con i)
    {s : Subst} (h : env.Entails given p)
    (hs : ∀ v ∈ p.ty.occurrences, ((Ty.var v).subst s).kind = v.kind) :
    env.Entails (s.apply given) (s.apply p) := by
  induction h with
  | super mem implies => exact .super (List.mem_map_of_mem mem) implies
  | @inst i r mem keeps _ ih =>
    -- the instance is used again, under the composition
    rw [← Subst.apply_compose]
    refine .inst mem (fun v hv => ?_) fun q hq => ?_
    · have hhead := (hshrink i mem).mem_head (hkinded i mem) hv
      rw [Ty.subst_compose, Ty.kind_subst_of_forall, keeps v hv]
      exact fun w hw => hs w (Ty.mem_occurrences_subst.2 ⟨v, hhead, hw⟩)
    · rw [Subst.apply_compose] at hq
      obtain ⟨q₁, hq₁, rfl⟩ := List.mem_map.1 hq
      refine ih q₁ hq₁ fun w hw => hs w ?_
      obtain ⟨q₀, hq₀, rfl⟩ := List.mem_map.1 hq₁
      obtain ⟨v, hv, hw⟩ := Ty.mem_occurrences_subst.1 hw
      have hhead := (hshrink i mem).mem_head (hkinded i mem) (Instance.mem_occurrences_context hq₀ hv)
      exact Ty.mem_occurrences_subst.2 ⟨v, hhead, hw⟩

/-- What follows from predicates follows from whatever entails them with all their superclasses. -/
theorem Entails.cut (hqs : ∀ q ∈ qs, ∀ c, env.Implies q.className c → env.Entails given ⟨c, q.ty⟩)
    (h : env.Entails qs p) : env.Entails given p := by
  induction h with
  | super mem implies => exact hqs _ mem _ implies
  | inst mem keeps _ ih => exact .inst mem keeps ih

/-! ## Instances that respect superclasses -/

/-- Given the context of an instance, its head has the direct superclasses of its class. -/
def RespectsSuperclasses (env : ClassEnv) : Prop :=
  ∀ i ∈ env.instances, ∀ c ∈ env.supers i.head.className, env.entail i.context ⟨c, i.head.ty⟩ = .done true

instance (env : ClassEnv) : Decidable env.RespectsSuperclasses :=
  inferInstanceAs (Decidable (∀ i ∈ env.instances, ∀ c ∈ env.supers i.head.className,
    env.entail i.context ⟨c, i.head.ty⟩ = .done true))

/-- One step to a superclass, where all steps can be made at smaller types. -/
theorem Entails.superclass_step (hreach : env.Reachable) (hshrink : env.Shrinking)
    (hkinded : ∀ i ∈ env.instances, Instance.WellKinded con i) (hresp : env.RespectsSuperclasses)
    (hsmaller : ∀ q : Pred, q.ty.size < p.ty.size → env.Entails given q →
      ∀ c, env.Implies q.className c → env.Entails given ⟨c, q.ty⟩)
    (h : env.Entails given p) {c : String} (hc : c ∈ env.supers p.className) :
    env.Entails given ⟨c, p.ty⟩ := by
  cases h with
  | @super q b mem implies => exact .super (q := q) mem (implies.tail hc)
  | @inst i s mem keeps context =>
    obtain ⟨var, hhead⟩ := (hkinded i mem).head
    have hsuper : env.Entails i.context ⟨c, i.head.ty⟩ :=
      (hshrink.entail_iff (p := ⟨c, i.head.ty⟩) hreach hkinded hhead.slotFree hhead.cons).1 (hresp i mem c hc)
    refine (hsuper.subst hshrink hkinded fun v hv => keeps v (Instance.mem_occurrences_head hv)).cut fun q hq => ?_
    have hsize : q.ty.size < (i.head.ty.subst s).size := by
      obtain ⟨q₀, hq₀, rfl⟩ := List.mem_map.1 hq
      exact (hshrink i mem).size_subst_lt hq₀ s
    exact hsmaller q hsize (context q hq)

/-- **Where instances respect superclasses, superclasses follow wherever a predicate does.** -/
theorem Entails.superclass (hreach : env.Reachable) (hshrink : env.Shrinking)
    (hkinded : ∀ i ∈ env.instances, Instance.WellKinded con i) (hresp : env.RespectsSuperclasses)
    (h : env.Entails given p) {c : String} (hc : env.Implies p.className c) :
    env.Entails given ⟨c, p.ty⟩ := by
  induction hn : p.ty.size using Nat.strong_induction_on generalizing p c with
  | _ n ih =>
    induction hc with
    | refl => exact h
    | @tail b c _ hstep ihb =>
      refine Entails.superclass_step hreach hshrink hkinded hresp (fun q hq hentails c hc => ?_) ihb hstep
      exact ih q.ty.size (hn ▸ hq) hentails hc rfl

/-! ## The search -/

/-- The environment comes from declarations, and its instances are well kinded and shrinking. -/
structure Regular (con : String → Option Kind) (env : ClassEnv) : Prop where
  reachable : env.Reachable
  wellKinded : ∀ i ∈ env.instances, Instance.WellKinded con i
  shrinking : env.Shrinking

/-- A regular environment whose instances respect superclasses. -/
structure Coherent (con : String → Option Kind) (env : ClassEnv) : Prop extends env.Regular con where
  superclasses : env.RespectsSuperclasses

theorem Regular.entail_iff (henv : env.Regular con) (hp : p.ty.firstGen? = none ∧ p.ty.ConsFit con) :
    env.entail given p = .done true ↔ env.Entails given p :=
  henv.shrinking.entail_iff henv.reachable henv.wellKinded hp.1 hp.2

/-- **The search is stable under substitution**: what it finds to follow from givens still follows after a
substitution that keeps kinds and brings in neither slots nor loose constructors. -/
theorem entail_subst (henv : env.Regular con) (hp : p.ty.firstGen? = none ∧ p.ty.ConsFit con) {s : Subst}
    (hrange : ∀ b ∈ s.bindings, b.2.firstGen? = none ∧ b.2.ConsFit con)
    (hkeeps : ∀ v ∈ p.ty.occurrences, ((Ty.var v).subst s).kind = v.kind)
    (h : env.entail given p = .done true) : env.entail (s.apply given) (s.apply p) = .done true := by
  rw [henv.entail_iff hp] at h
  exact (henv.entail_iff (Ty.slotFree_consFit_subst hrange hp)).2 (h.subst henv.shrinking henv.wellKinded hkeeps)

/-- The instance for lists is found again for lists of lists. -/
theorem entail_subst_small :
    Prelude.small.classEnv.entail [⟨"Ord", .var ⟨"x", .star⟩⟩] ⟨"Ord", .list (.var ⟨"x", .star⟩)⟩ = .done true ∧
    Prelude.small.classEnv.entail [⟨"Ord", .list (.var ⟨"y", .star⟩)⟩]
      ⟨"Ord", .list (.list (.var ⟨"y", .star⟩))⟩ = .done true := by
  have hprelude := Config.build_sound Config.build_small
  have henv : Prelude.small.classEnv.Regular Prelude.small.constructors.find? :=
    ⟨hprelude.reachable, hprelude.wellKinded, by decide⟩
  have h : Prelude.small.classEnv.entail [⟨"Ord", .var ⟨"x", .star⟩⟩]
      ⟨"Ord", .list (.var ⟨"x", .star⟩)⟩ = .done true := by decide +kernel
  exact ⟨h, entail_subst henv ⟨rfl, by decide⟩ (s := ⟨[(⟨"x", .star⟩, .list (.var ⟨"y", .star⟩))]⟩)
    (by decide) (by decide) h⟩

variable {q : Pred}

/-- **The search is closed under superclasses.** -/
theorem Coherent.entail_bySuper (henv : env.Coherent con) (hp : p.ty.firstGen? = none ∧ p.ty.ConsFit con)
    (h : env.entail given p = .done true) (hq : q ∈ env.bySuper p) : env.entail given q = .done true := by
  obtain ⟨hty, himplies⟩ := henv.reachable.mem_bySuper.1 hq
  rw [henv.entail_iff hp] at h
  have hsuper := h.superclass henv.reachable henv.shrinking henv.wellKinded henv.superclasses himplies
  rw [← hty] at hsuper hp
  exact (henv.entail_iff hp).2 hsuper

/-- **The search is closed under cut.** -/
theorem Coherent.entail_cut (henv : env.Coherent con)
    (hqs : ∀ q ∈ qs, q.ty.firstGen? = none ∧ q.ty.ConsFit con) (hp : p.ty.firstGen? = none ∧ p.ty.ConsFit con)
    (hgiven : ∀ q ∈ qs, env.entail given q = .done true) (h : env.entail qs p = .done true) :
    env.entail given p = .done true := by
  rw [henv.entail_iff hp] at h ⊢
  refine h.cut fun q hq c hc => ?_
  have hentails := (henv.entail_iff (hqs q hq)).1 (hgiven q hq)
  exact hentails.superclass henv.reachable henv.shrinking henv.wellKinded henv.superclasses hc

end ClassEnv

end QualifiedTypes
