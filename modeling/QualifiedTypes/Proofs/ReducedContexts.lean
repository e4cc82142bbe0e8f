import QualifiedTypes.Proofs.Reduction

/-!
# Reduced contexts

Reduction fails only where it must: if it reports a predicate without an instance, then no context in
head-normal form entails what was to be reduced.  Where it succeeds, nothing is left that the rest entails,
and to reduce once more changes nothing.

* `ClassEnv.exists_stuck_of_explore`: a search that fails has come to a predicate that no head matches.
* `ClassEnv.Proves.toHnf_ne_missing`: what follows from head-normal predicates has a head-normal form.
* `ClassEnv.reduce_fails_only_if_stuck`: when reduction succeeds, and what it reports when it does not.
* `ClassEnv.Needed`: the invariant of dropping predicates one after another.
* `ClassEnv.reduce_irredundant`: what is left of a context.
-/

namespace QualifiedTypes

namespace ClassEnv

variable {env : ClassEnv} {given kept rest ps qs : List Pred} {p : Pred} {e : MissingInstance}

/-! ## Failure -/

/-- A search for head-normal forms that fails has come to a predicate from which there is no step. -/
theorem exists_stuck_of_explore {depth : Nat} (h : explore env.hnfStep depth p = .missing e) :
    ∃ q, env.StepsTo p q ∧ env.hnfStep q = .stuck e := by
  induction depth generalizing p with
  | zero => cases h
  | succ depth ih =>
    rcases explore_eq_missing h with hp | ⟨parts, hp, part, hmem, hpart⟩
    · exact ⟨p, .refl, hp⟩
    · obtain ⟨q, hsteps, hstuck⟩ := ih hpart
      exact ⟨q, hsteps.head ⟨parts, hnfStep_eq_replaced hp, hmem⟩, hstuck⟩

/-- What is reported is not in head-normal form, no head matches it, and steps lead to it. -/
theorem toHnf_eq_missing (h : env.toHnf p = .missing e) :
    e.pred.inHnf = false ∧ (∀ i ∈ env.instances, ¬ e.pred.MatchedBy i.head) ∧ env.StepsTo p e.pred := by
  rw [toHnf_eq] at h
  obtain ⟨q, hsteps, hstuck⟩ := exists_stuck_of_explore h
  obtain ⟨hnf, hnone⟩ := hnfStep_eq_stuck hstuck
  obtain ⟨rfl, hunmatched⟩ := byInst_eq_error hnone
  exact ⟨hnf, hunmatched, hsteps⟩

/-- **What follows from head-normal predicates has a head-normal form.**  A proof goes down to predicates
that the givens imply.  These are about the same types as the givens, so that the way to head-normal form
has ended there or before. -/
theorem Proves.toHnf_ne_missing (hreach : env.Reachable) (hgiven : ∀ q ∈ given, q.inHnf = true)
    (h : env.Proves given p) (e : MissingInstance) : env.toHnf p ≠ .missing e := by
  rw [toHnf_eq]
  refine QualifiedTypes.explore_ne_missing (P := env.Proves given) (fun p hp => ?_) h _ e
  by_cases hnf : p.inHnf = true
  · exact .inl ⟨[p], if_pos hnf⟩
  · cases hp with
    | given implied =>
      obtain ⟨q, hq, hty, _⟩ := hreach.givenImplies_iff.1 implied
      have hq := hgiven q hq
      rw [Pred.inHnf, ← hty] at hq
      exact absurd hq hnf
    | @inst _ context step proofs => exact .inr ⟨context, by rw [hnfStep, if_neg hnf, step], proofs⟩

/-- Where searches end, reduction does, and it fails only as the way to head-normal form does for one of the
predicates. -/
theorem Ends.reduce_cases (henv : env.Ends) (ps : List Pred) :
    (∃ qs, env.reduce ps = .done qs) ∨
      ∃ p ∈ ps, ∃ e, env.toHnf p = .missing e ∧ env.reduce ps = .missing e := by
  rw [reduce, toHnfs_eq]
  rcases Search.mapM_cases env.toHnf ps with ⟨parts, hparts⟩ | ⟨p, hp, e, hmissing, hall⟩ | ⟨p, _, hexh, _⟩
  · rw [hparts]
    exact .inl (henv.exists_simplifyAfter [] parts.flatten)
  · rw [hall]
    exact .inr ⟨p, hp, e, hmissing, rfl⟩
  · exact absurd hexh (henv.toHnf p)

theorem exists_reduce_iff (hreach : env.Reachable) (hshrink : env.Shrinking) (ps : List Pred) :
    (∃ qs, env.reduce ps = .done qs) ↔
      ∃ given : List Pred, (∀ q ∈ given, q.inHnf = true) ∧ ∀ p ∈ ps, env.entail given p = .done true := by
  constructor
  · rintro ⟨qs, hqs⟩
    obtain ⟨hnf, hhnf, _⟩ := Search.bind_eq_done.1 hqs
    obtain ⟨hfound, hproves⟩ := toHnfs_proves hnf hhnf
    -- the head-normal forms, before any is dropped: what is left after that may entail less
    refine ⟨hnf, fun q hq => (hfound q hq).1, fun p hp => hshrink.entail_iff_proves.2 ?_⟩
    exact hproves (fun q hq => .of_mem hreach hq) p hp
  · rintro ⟨given, hgiven, hentail⟩
    rcases hshrink.ends.reduce_cases ps with hdone | ⟨p, hp, e, hmissing, _⟩
    · exact hdone
    · have hproves := hshrink.entail_iff_proves.1 (hentail p hp)
      exact absurd hmissing (hproves.toHnf_ne_missing hreach hgiven e)

/-- **Reduction fails only if it must.**  It succeeds iff some context in head-normal form entails all that is
to be reduced.  Otherwise it reports a predicate that is not in head-normal form, that no instance matches,
and to which the instances lead from one of those to be reduced. -/
theorem reduce_fails_only_if_stuck (hreach : env.Reachable) (hshrink : env.Shrinking) (ps : List Pred) :
    ((∃ qs, env.reduce ps = .done qs) ↔
      ∃ given : List Pred, (∀ q ∈ given, q.inHnf = true) ∧ ∀ p ∈ ps, env.entail given p = .done true) ∧
    (∀ e, env.reduce ps = .missing e →
      e.pred.inHnf = false ∧ (∀ i ∈ env.instances, ¬ e.pred.MatchedBy i.head) ∧
        ∃ p ∈ ps, env.StepsTo p e.pred) ∧
    env.reduce ps ≠ .exhausted := by
  refine ⟨exists_reduce_iff hreach hshrink ps, ?_⟩
  rcases hshrink.ends.reduce_cases ps with ⟨qs, hqs⟩ | ⟨p, hp, e, hmissing, hreduce⟩
  · rw [hqs]
    exact ⟨fun _ he => (nomatch he), fun hexh => nomatch hexh⟩
  · rw [hreduce]
    refine ⟨fun e' he => ?_, fun hexh => nomatch hexh⟩
    cases he
    obtain ⟨hnf, hunmatched, hsteps⟩ := toHnf_eq_missing hmissing
    exact ⟨hnf, hunmatched, p, hp, hsteps⟩

/-- Lists of functions are ordered. -/
def ordFunctionList : Pred := ⟨"Ord", .list (.fn (.var ⟨"x", .star⟩) (.var ⟨"x", .star⟩))⟩

/-- An instance whose variable has one kind in the context and another in the head. -/
def twoKinds : ClassEnv :=
  ⟨[⟨"Eq", []⟩], [⟨[⟨"Eq", .var ⟨"a", .star⟩⟩], ⟨"Eq", .list (.var ⟨"a", .ofArity 1⟩)⟩⟩], []⟩

theorem reachable_twoKinds : twoKinds.Reachable := by
  have hclass : ClassEnv.empty.addClass "Eq" [] = .ok ⟨[⟨"Eq", []⟩], [], []⟩ := by decide
  have hinstance : (ClassEnv.mk [⟨"Eq", []⟩] [] []).addInstance
      ⟨[⟨"Eq", .var ⟨"a", .star⟩⟩], ⟨"Eq", .list (.var ⟨"a", .ofArity 1⟩)⟩⟩ = .ok twoKinds := by decide
  exact .addInstance (.addClass .empty hclass) hinstance

/-- Lists of lists have an order if their elements do.  Lists of functions would need an order of functions,
which no context in head-normal form can give.  A variable of an instance may have two kinds. -/
theorem reduce_fails_only_if_stuck_small :
    (∃ qs, Prelude.small.classEnv.reduce [⟨"Ord", .list (.list (.var ⟨"x", .star⟩))⟩,
      ⟨"Eq", .var ⟨"x", .star⟩⟩] = .done qs) ∧
    (∃ e, Prelude.small.classEnv.reduce [ordFunctionList] = .missing e ∧ e.pred.inHnf = false ∧
      (∃ p ∈ [ordFunctionList], Prelude.small.classEnv.StepsTo p e.pred) ∧
      ¬ ∃ given : List Pred, (∀ q ∈ given, q.inHnf = true) ∧
        ∀ p ∈ [ordFunctionList], Prelude.small.classEnv.entail given p = .done true) ∧
    ∃ qs, twoKinds.reduce [⟨"Eq", .list (.var ⟨"x", .ofArity 1⟩)⟩] = .done qs := by
  have hreach := (Config.build_sound Config.build_small).reachable
  have hshrink : Prelude.small.classEnv.Shrinking := by decide
  refine ⟨?_, ?_, ?_⟩
  · refine (reduce_fails_only_if_stuck hreach hshrink _).1.2 ⟨[⟨"Ord", .var ⟨"x", .star⟩⟩], by decide, ?_⟩
    decide +kernel
  · have hmissing : Prelude.small.classEnv.reduce [ordFunctionList] =
        .missing ⟨⟨"Ord", .fn (.var ⟨"x", .star⟩) (.var ⟨"x", .star⟩)⟩⟩ := by decide +kernel
    obtain ⟨hiff, hreport, _⟩ := reduce_fails_only_if_stuck hreach hshrink [ordFunctionList]
    obtain ⟨hnf, _, hsteps⟩ := hreport _ hmissing
    refine ⟨_, hmissing, hnf, hsteps, hiff.not.1 ?_⟩
    rintro ⟨qs, hqs⟩
    rw [hmissing] at hqs
    cases hqs
  · refine (reduce_fails_only_if_stuck reachable_twoKinds (by decide) _).1.2
      ⟨[⟨"Eq", .var ⟨"x", .ofArity 1⟩⟩], by decide, ?_⟩
    decide +kernel

/-! ## What is left -/

theorem entail_eq_false_iff (hshrink : env.Shrinking) : env.entail given p = .done false ↔ ¬ env.Proves given p := by
  obtain ⟨b, hb⟩ := hshrink.exists_entail given p
  rw [← hshrink.entail_iff_proves, hb]
  cases b <;> simp

/-- No predicate of the first list follows from the others of it, even with the help of the second list. -/
def Needed (env : ClassEnv) (kept rest : List Pred) : Prop :=
  ∀ before q after, kept = before ++ q :: after → ¬ env.Proves (before ++ after ++ rest) q

theorem needed_nil : env.Needed [] rest :=
  fun before _ _ heq => absurd heq (by simp)

/-- With less help, what was needed still is. -/
theorem Needed.of_subset (h : env.Needed kept rest) (hsub : qs ⊆ rest) : env.Needed kept qs := by
  intro before q after heq hproves
  refine h before q after heq (hproves.mono fun r hr => ?_)
  rcases List.mem_append.1 hr with hr | hr
  · exact List.mem_append_left _ hr
  · exact List.mem_append_right _ (hsub hr)

/-- A predicate that does not follow may be moved from the help to what is needed. -/
theorem Needed.keep (h : env.Needed kept (p :: rest)) (hp : ¬ env.Proves (kept ++ rest) p) :
    env.Needed (kept ++ [p]) rest := by
  intro before q after heq
  -- `q` is the predicate that was moved, or was kept before, when that predicate was among the help
  rcases after.eq_nil_or_concat with rfl | ⟨after, r, rfl⟩
  · obtain ⟨rfl, hq⟩ := List.append_inj' heq rfl
    cases hq
    rwa [List.append_nil]
  · have heq : kept ++ [p] = (before ++ q :: after) ++ [r] := by simpa using heq
    obtain ⟨hkept, hr⟩ := List.append_inj' heq rfl
    cases hr
    have hq := h before q after hkept
    rwa [show before ++ (after.concat p) ++ rest = before ++ after ++ p :: rest by simp]

/-- **Nothing that is kept becomes redundant**: dropping keeps only what is needed. -/
theorem Needed.simplifyAfter (hshrink : env.Shrinking) (h : env.Needed kept rest)
    (hqs : env.simplifyAfter kept rest = .done qs) : env.Needed qs [] := by
  induction rest generalizing kept with
  | nil =>
    cases hqs
    exact h
  | cons p rest ih =>
    obtain ⟨b, hb, _⟩ := Search.bind_eq_done.1 hqs
    rw [simplifyAfter_cons hb] at hqs
    cases b with
    | true => exact ih (h.of_subset (List.subset_cons_self p rest)) hqs
    | false => exact ih (h.keep ((entail_eq_false_iff hshrink).1 hb)) hqs

/-- Nothing is dropped where everything is needed. -/
theorem Needed.simplifyAfter_eq (hshrink : env.Shrinking) (h : env.Needed (kept ++ rest) []) :
    env.simplifyAfter kept rest = .done (kept ++ rest) := by
  induction rest generalizing kept with
  | nil => rw [ClassEnv.simplifyAfter, List.append_nil]
  | cons p rest ih =>
    have hp := h kept p rest rfl
    rw [List.append_nil] at hp
    rw [List.append_cons] at h ⊢
    rw [simplifyAfter_cons ((entail_eq_false_iff hshrink).2 hp)]
    exact ih h

theorem Needed.nodup (hreach : env.Reachable) (h : env.Needed kept rest) : kept.Nodup := by
  induction kept generalizing rest with
  | nil => exact List.nodup_nil
  | cons p kept ih =>
    have hkept : env.Needed kept (p :: rest) := by
      intro before q after heq hproves
      refine h (p :: before) q after (by rw [heq]; rfl) (hproves.mono fun r hr => ?_)
      simp only [List.mem_append, List.mem_cons, List.cons_append] at hr ⊢
      tauto
    refine List.nodup_cons.2 ⟨fun hp => ?_, ih hkept⟩
    exact h [] p kept rfl (.of_mem hreach (List.mem_append_left _ hp))

/-- **Reduced contexts are irredundant and stable.**  What is left of a context are some of its head-normal
forms, in their order.  None of them follows from the others, so that there are no two of the same, and
reducing them once more leaves them all. -/
theorem reduce_irredundant (hreach : env.Reachable) (hshrink : env.Shrinking) (h : env.reduce ps = .done qs) :
    (∃ hnf, env.toHnfs ps = .done hnf ∧ qs.Sublist hnf) ∧ (∀ q ∈ qs, q.inHnf = true) ∧
    (∀ before q after, qs = before ++ q :: after → env.entail (before ++ after) q = .done false) ∧
    qs.Nodup ∧ env.reduce qs = .done qs := by
  obtain ⟨hnf, hhnf, hsimplify⟩ := Search.bind_eq_done.1 h
  have hsub : qs.Sublist hnf := simplifyAfter_sublist hsimplify
  have hinHnf : ∀ q ∈ qs, q.inHnf = true := fun q hq => ((toHnfs_proves [] hhnf).1 q (hsub.subset hq)).1
  have hneeded : env.Needed qs [] := needed_nil.simplifyAfter hshrink hsimplify
  refine ⟨⟨hnf, hhnf, hsub⟩, hinHnf, fun before q after heq => ?_, hneeded.nodup hreach, ?_⟩
  · have hq := hneeded before q after heq
    rw [List.append_nil] at hq
    exact (entail_eq_false_iff hshrink).2 hq
  · rw [reduce, toHnfs_of_inHnf hinHnf, Search.done_bind]
    show env.simplifyAfter [] qs = .done ([] ++ qs)
    exact Needed.simplifyAfter_eq hshrink hneeded

/-- Of an order on lists, an order and an equality on their elements, and an equality on other types, the
order on elements and the other equality are left. -/
theorem reduce_irredundant_small :
    Prelude.small.classEnv.reduce [⟨"Ord", .list (.var ⟨"x", .star⟩)⟩, ⟨"Eq", .var ⟨"x", .star⟩⟩,
      ⟨"Eq", .var ⟨"y", .star⟩⟩, ⟨"Ord", .var ⟨"x", .star⟩⟩] =
        .done [⟨"Eq", .var ⟨"y", .star⟩⟩, ⟨"Ord", .var ⟨"x", .star⟩⟩] ∧
    Prelude.small.classEnv.entail [⟨"Ord", .var ⟨"x", .star⟩⟩] ⟨"Eq", .var ⟨"y", .star⟩⟩ = .done false ∧
    Prelude.small.classEnv.reduce [⟨"Eq", .var ⟨"y", .star⟩⟩, ⟨"Ord", .var ⟨"x", .star⟩⟩] =
      .done [⟨"Eq", .var ⟨"y", .star⟩⟩, ⟨"Ord", .var ⟨"x", .star⟩⟩] := by
  have hreach := (Config.build_sound Config.build_small).reachable
  have hreduce : Prelude.small.classEnv.reduce [⟨"Ord", .list (.var ⟨"x", .star⟩)⟩,
      ⟨"Eq", .var ⟨"x", .star⟩⟩, ⟨"Eq", .var ⟨"y", .star⟩⟩, ⟨"Ord", .var ⟨"x", .star⟩⟩] =
        .done [⟨"Eq", .var ⟨"y", .star⟩⟩, ⟨"Ord", .var ⟨"x", .star⟩⟩] := by decide +kernel
  obtain ⟨_, _, hothers, _, hagain⟩ := reduce_irredundant hreach (by decide) hreduce
  exact ⟨hreduce, hothers [] _ [_] rfl, hagain⟩

end ClassEnv

end QualifiedTypes
