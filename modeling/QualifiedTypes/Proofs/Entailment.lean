import QualifiedTypes.Proofs.Instances
import QualifiedTypes.Proofs.Preludes

/-!
# Entailment is decided

A predicate follows from givens by two rules: a given implies it through superclasses, or it is an instance
of a head and the same instance of the context follows.  The search commits to the first instance that
matches.  It always ends where instances shrink, and misses nothing where heads do not overlap.

* `explore_eq_done`, `explore_eq_missing`: the first step of a search that ends well, or gives up.
* `explore_ne_exhausted`, `explore_ne_missing`: a search whose steps make types smaller ends, and one whose steps
  never get stuck does not give up.
* `ClassEnv.Proves`, `ClassEnv.Shrinking.entail_iff_proves`: what the search decides.
* `ClassEnv.Entails`: the two rules, with any instance and any substitution that keeps kinds.
* `ClassEnv.entail_iff_entails`: the search decides the two rules.
-/

namespace QualifiedTypes

/-! ## Searches -/

theorem explore_replaced {step : Pred → Step} {depth : Nat} {p : Pred} {parts : List Pred}
    (h : step p = .replaced parts) :
    explore step (depth + 1) p = parts.mapM (explore step depth) >>= fun found => .done found.flatten := by
  rw [explore, h]
  rfl

/-- A search ends well if its first step settles the predicate or leads to parts that are all found. -/
theorem explore_eq_done {step : Pred → Step} {depth : Nat} {p : Pred} {found : List Pred} :
    explore step (depth + 1) p = .done found ↔
      step p = .settled found ∨
        ∃ parts bs, step p = .replaced parts ∧ parts.mapM (explore step depth) = .done bs ∧ bs.flatten = found := by
  cases hp : step p with
  | settled new => simp [explore, hp]
  | stuck e => simp [explore, hp]
  | replaced parts =>
    rw [explore_replaced hp, Search.bind_eq_done]
    simp

/-- A search gives up if there is no first step, or if it gives up on one of the parts. -/
theorem explore_eq_missing {step : Pred → Step} {depth : Nat} {p : Pred} {e : MissingInstance}
    (h : explore step (depth + 1) p = .missing e) :
    step p = .stuck e ∨ ∃ parts, step p = .replaced parts ∧ ∃ q ∈ parts, explore step depth q = .missing e := by
  cases hp : step p with
  | settled new => simp [explore, hp] at h
  | stuck e' =>
    simp only [explore, hp, Search.missing.injEq] at h
    exact .inl (by rw [h])
  | replaced parts =>
    rw [explore_replaced hp] at h
    rcases Search.bind_eq_missing.1 h with hparts | ⟨_, _, hdone⟩
    · exact .inr ⟨parts, rfl, Search.mapM_eq_missing hparts⟩
    · cases hdone

/-- There is always depth for a first step. -/
theorem Pred.exists_searchDepth (p : Pred) : ∃ depth, p.searchDepth = depth + 1 := by
  have := p.ty.size_pos
  exact ⟨searchMargin + p.ty.size - 1, by rw [searchDepth]; omega⟩

theorem explore_settled {step : Pred → Step} {p : Pred} {found : List Pred} (h : step p = .settled found) :
    explore step p.searchDepth p = .done found := by
  obtain ⟨depth, hdepth⟩ := p.exists_searchDepth
  rw [hdepth, explore, h]

theorem explore_stuck {step : Pred → Step} {p : Pred} {e : MissingInstance} (h : step p = .stuck e) :
    explore step p.searchDepth p = .missing e := by
  obtain ⟨depth, hdepth⟩ := p.exists_searchDepth
  rw [hdepth, explore, h]

/-- **A search whose steps make types smaller ends.** -/
theorem explore_ne_exhausted {step : Pred → Step}
    (hstep : ∀ p parts, step p = .replaced parts → ∀ q ∈ parts, q.ty.size < p.ty.size) {depth : Nat}
    {p : Pred} (h : p.ty.size ≤ depth) : explore step depth p ≠ .exhausted := by
  induction depth generalizing p with
  | zero =>
    have := p.ty.size_pos
    omega
  | succ depth ih =>
    cases hp : step p with
    | settled found => simp [explore, hp]
    | stuck e => simp [explore, hp]
    | replaced parts =>
      rw [explore_replaced hp]
      rcases Search.mapM_cases (explore step depth) parts with ⟨bs, hbs⟩ | ⟨q, _, e, _, hl⟩ | ⟨q, hq, hexh, _⟩
      · simp [hbs]
      · simp [hl]
      · have := hstep p parts hp q hq
        exact absurd hexh (ih (by omega))

/-- A search gives up on nothing from which its steps lead on to the end. -/
theorem explore_ne_missing {step : Pred → Step} {P : Pred → Prop}
    (hstep : ∀ p, P p → (∃ found, step p = .settled found) ∨ ∃ parts, step p = .replaced parts ∧ ∀ q ∈ parts, P q)
    {p : Pred} (h : P p) (depth : Nat) (e : MissingInstance) : explore step depth p ≠ .missing e := by
  induction depth generalizing p with
  | zero => exact fun h => nomatch h
  | succ depth ih =>
    rcases hstep p h with ⟨found, hp⟩ | ⟨parts, hp, hparts⟩
    · simp [explore, hp]
    · intro hmissing
      rcases explore_eq_missing hmissing with hstuck | ⟨parts', hp', q, hq, hq'⟩
      · rw [hp] at hstuck
        cases hstuck
      · rw [hp] at hp'
        cases hp'
        exact ih (hparts q hq) hq'

/-! ## What the search decides -/

namespace ClassEnv

variable {env : ClassEnv} {given : List Pred} {p : Pred}

/-- What is found by going from predicates to the contexts of the instances that match first, down to what
the givens imply. -/
inductive Proves (env : ClassEnv) (given : List Pred) : Pred → Prop where
  | given {p : Pred} (implied : env.givenImplies given p = true) : Proves env given p
  | inst {p : Pred} {context : List Pred} (step : env.byInst p = .ok context)
      (proofs : ∀ q ∈ context, Proves env given q) : Proves env given p

theorem entailStep_eq_replaced {parts : List Pred} (h : env.entailStep given p = .replaced parts) :
    env.byInst p = .ok parts := by
  unfold entailStep at h
  split at h
  · cases h
  · split at h
    · cases h
      assumption
    · cases h

theorem entailStep_eq_settled {found : List Pred} (h : env.entailStep given p = .settled found) :
    env.givenImplies given p = true := by
  unfold entailStep at h
  split at h
  · assumption
  · split at h
    · cases h
    · cases h

/-- One step of the search, read as a rule. -/
theorem Proves.of_explore {depth : Nat} {found : List Pred}
    (h : explore (env.entailStep given) depth p = .done found) : env.Proves given p := by
  induction depth generalizing p found with
  | zero => cases h
  | succ depth ih =>
    rcases explore_eq_done.1 h with hp | ⟨parts, bs, hp, hbs, _⟩
    · exact .given (entailStep_eq_settled hp)
    · refine .inst (entailStep_eq_replaced hp) fun q hq => ?_
      obtain ⟨b, _, hb⟩ := (Search.mapM_eq_done hbs).1 q hq
      exact ih hb

/-- The search never gives up on what it could find. -/
theorem Proves.explore_ne_missing (h : env.Proves given p) (depth : Nat) (e : MissingInstance) :
    explore (env.entailStep given) depth p ≠ .missing e := by
  refine QualifiedTypes.explore_ne_missing (P := env.Proves given) (fun p hp => ?_) h depth e
  by_cases hgiven : env.givenImplies given p = true
  · exact .inl ⟨[], if_pos hgiven⟩
  · cases hp with
    | given implied => exact absurd implied hgiven
    | @inst _ context step proofs =>
      exact .inr ⟨context, by rw [entailStep, if_neg hgiven, step], proofs⟩

theorem Shrinking.entailStep_size_lt (henv : env.Shrinking) (given : List Pred) (p : Pred) (parts : List Pred)
    (h : env.entailStep given p = .replaced parts) : ∀ q ∈ parts, q.ty.size < p.ty.size :=
  henv.byInst_size_lt (entailStep_eq_replaced h)

/-- Where instances shrink, the search ends. -/
theorem Shrinking.exists_entail (henv : env.Shrinking) (given : List Pred) (p : Pred) :
    ∃ b, env.entail given p = .done b := by
  have hends : explore (env.entailStep given) p.searchDepth p ≠ .exhausted :=
    explore_ne_exhausted (henv.entailStep_size_lt given) (Nat.le_add_left _ _)
  rw [entail_eq]
  cases h : explore (env.entailStep given) p.searchDepth p with
  | exhausted => exact absurd h hends
  | missing e => exact ⟨false, rfl⟩
  | done found => exact ⟨true, rfl⟩

/-- **Where instances shrink, the search decides what can be proved.** -/
theorem Shrinking.entail_iff_proves (henv : env.Shrinking) :
    env.entail given p = .done true ↔ env.Proves given p := by
  constructor
  · intro h
    rw [entail_eq, Search.succeeds_eq_true] at h
    obtain ⟨found, hfound⟩ := h
    exact .of_explore hfound
  · intro hp
    obtain ⟨b, hb⟩ := henv.exists_entail given p
    cases b with
    | true => exact hb
    | false =>
      rw [entail_eq, Search.succeeds_eq_false] at hb
      obtain ⟨e, he⟩ := hb
      exact absurd he (hp.explore_ne_missing _ e)

/-! ## The two rules -/

/-- Predicates that follow from givens. -/
inductive Entails (env : ClassEnv) (given : List Pred) : Pred → Prop where
  /-- What a given implies through superclasses. -/
  | super {q : Pred} {c : String} (mem : q ∈ given) (implies : env.Implies q.className c) :
      Entails env given ⟨c, q.ty⟩
  /-- An instance of a head, if the same instance of the context follows. -/
  | inst {i : Instance} {s : Subst} (mem : i ∈ env.instances)
      (keeps : ∀ v ∈ occurrences i, ((Ty.var v).subst s).kind = v.kind)
      (context : ∀ q ∈ s.apply i.context, Entails env given q) : Entails env given (s.apply i.head)

variable {con : String → Option Kind}

theorem Proves.entails (hreach : env.Reachable) (hshrink : env.Shrinking)
    (hkinded : ∀ i ∈ env.instances, Instance.WellKinded con i) (h : env.Proves given p)
    (hslots : p.ty.firstGen? = none) (hcons : p.ty.ConsFit con) : env.Entails given p := by
  induction h with
  | @given p implied =>
    obtain ⟨q, hq, hty, himplies⟩ := hreach.givenImplies_iff.1 implied
    have hp : p = ⟨p.className, q.ty⟩ := by rw [← hty]
    rw [hp]
    exact .super hq himplies
  | @inst p context step _ ih =>
    have hfits := byInst_fits hkinded step hcons
    obtain ⟨i, hi, s, hmatch, rfl⟩ := byInst_eq_ok step
    obtain ⟨hclass, hm⟩ := matchPred_eq_ok hmatch
    obtain ⟨var, hhead⟩ := (hkinded i hi).head
    have hp : p = s.apply i.head := by rw [Subst.apply_pred, hclass, hm.subst_eq hhead.cons hcons]
    rw [hp]
    refine .inst hi (fun v hv => ?_) fun q hq => ih q hq (hfits q hq).1 (hfits q hq).2
    exact hm.kind_subst hhead.vars ((hshrink i hi).mem_head (hkinded i hi) hv)

theorem Entails.proves (hreach : env.Reachable) (hshrink : env.Shrinking)
    (hkinded : ∀ i ∈ env.instances, Instance.WellKinded con i) (h : env.Entails given p)
    (hslots : p.ty.firstGen? = none) (hcons : p.ty.ConsFit con) : env.Proves given p := by
  induction h with
  | super mem implies => exact .given (hreach.givenImplies_iff.2 ⟨_, mem, rfl, implies⟩)
  | @inst i s mem keeps _ ih =>
    refine .inst (hreach.byInst_eq hshrink hkinded mem keeps hslots hcons) fun q hq => ?_
    obtain ⟨hslots', hcons'⟩ := Instance.context_fits (hshrink i mem) (hkinded i mem) hslots hcons hq
    exact ih q hq hslots' hcons'

/-- What the search looks for is what the two rules give. -/
theorem Shrinking.entail_iff (hshrink : env.Shrinking) (hreach : env.Reachable)
    (hkinded : ∀ i ∈ env.instances, Instance.WellKinded con i) (hslots : p.ty.firstGen? = none)
    (hcons : p.ty.ConsFit con) : env.entail given p = .done true ↔ env.Entails given p := by
  rw [hshrink.entail_iff_proves]
  constructor
  · exact fun h => h.entails hreach hshrink hkinded hslots hcons
  · exact fun h => h.proves hreach hshrink hkinded hslots hcons

/-- **The search decides the two rules**, in every environment that declarations lead to and whose instances
are well kinded and shrinking. -/
theorem entail_iff_entails (hreach : env.Reachable)
    (hinst : ∀ i ∈ env.instances, Instance.WellKinded con i ∧ Instance.Shrinking i) (given : List Pred)
    (hslots : p.ty.firstGen? = none) (hcons : p.ty.ConsFit con) :
    (env.entail given p = .done true ↔ env.Entails given p) ∧ ∃ b, env.entail given p = .done b := by
  have hkinded : ∀ i ∈ env.instances, Instance.WellKinded con i := fun i hi => (hinst i hi).1
  have hshrink : env.Shrinking := fun i hi => (hinst i hi).2
  exact ⟨hshrink.entail_iff hreach hkinded hslots hcons, hshrink.exists_entail given p⟩

end ClassEnv

/-! ## Preludes -/

theorem isVarName_renamed (n : Nat) : isVarName ("%" ++ toString n) = false := by
  rw [isVarName, String.toList_append]
  rfl

/-- Instances that a signature can spell are well kinded. -/
theorem Spelled.wellKinded {cons : Constructors} {i : Instance} (h : Spelled cons i) :
    Instance.WellKinded cons.find? i := by
  obtain ⟨arities, hfits⟩ := h
  refine ⟨⟨_, hfits⟩, fun v hv n he => ?_⟩
  obtain ⟨t, ht, hv⟩ := List.mem_flatMap.1 hv
  have hvar := isVarName_of_spelled ((hfits t ht).vars v hv)
  rw [he, isVarName_renamed] at hvar
  cases hvar

theorem Prelude.Sound.wellKinded {prelude : Prelude} (h : prelude.Sound) :
    ∀ i ∈ prelude.classEnv.instances, Instance.WellKinded prelude.constructors.find? i :=
  fun i hi => (h.instances i hi).wellKinded

theorem ClassEnv.entail_iff_entails_small :
    (Prelude.small.classEnv.entail [⟨"Ord", .var ⟨"x", .star⟩⟩] ⟨"Ord", .list (.list (.var ⟨"x", .star⟩))⟩ =
        .done true ∧
      Prelude.small.classEnv.Entails [⟨"Ord", .var ⟨"x", .star⟩⟩]
        ⟨"Ord", .list (.list (.var ⟨"x", .star⟩))⟩) ∧
    Prelude.small.classEnv.entail [⟨"Ord", .var ⟨"x", .star⟩⟩] ⟨"Eq", .list (.var ⟨"x", .star⟩)⟩ =
        .done false ∧
      ¬ Prelude.small.classEnv.Entails [⟨"Ord", .var ⟨"x", .star⟩⟩] ⟨"Eq", .list (.var ⟨"x", .star⟩)⟩ := by
  have hprelude := Config.build_sound Config.build_small
  have hshrink : Prelude.small.classEnv.Shrinking := by decide
  have hinst : ∀ i ∈ Prelude.small.classEnv.instances,
      Instance.WellKinded Prelude.small.constructors.find? i ∧ Instance.Shrinking i :=
    fun i hi => ⟨hprelude.wellKinded i hi, hshrink i hi⟩
  have hyes : Prelude.small.classEnv.entail [⟨"Ord", .var ⟨"x", .star⟩⟩]
      ⟨"Ord", .list (.list (.var ⟨"x", .star⟩))⟩ = .done true := by decide +kernel
  have hno : Prelude.small.classEnv.entail [⟨"Ord", .var ⟨"x", .star⟩⟩] ⟨"Eq", .list (.var ⟨"x", .star⟩)⟩ =
      .done false := by decide +kernel
  refine ⟨⟨hyes, ?_⟩, hno, fun h => ?_⟩
  · exact (entail_iff_entails hprelude.reachable hinst _ rfl (by decide)).1.1 hyes
  · rw [← (entail_iff_entails hprelude.reachable hinst _ rfl (by decide)).1, hno] at h
    cases h

end QualifiedTypes
