import QualifiedTypes.Proofs.Reduction

/-!
# Givens

With more givens a search for a proof may stop sooner, at any level of the recursion through instances, and on
the way there it takes the same steps.  So it does not fail where it found a proof before.  In what order the
givens are listed, and how often, makes no difference at all.

* `explore_of_sooner`: a search that takes the same steps and stops sooner still ends well.
* `ClassEnv.entailStep_of_subset`: what more givens change in one step.
* `ClassEnv.entail_monotone`: entailment is monotone, and depends on the set of givens.
-/

namespace QualifiedTypes

/-- **A search that stops sooner still ends well**, if it takes the same steps until then. -/
theorem explore_of_sooner {step step' : Pred → Step}
    (hstep : ∀ p, (∃ found, step' p = .settled found) ∨ step' p = step p) {depth : Nat} {p : Pred}
    {found : List Pred} (h : explore step depth p = .done found) :
    ∃ found', explore step' depth p = .done found' := by
  induction depth generalizing p found with
  | zero => cases h
  | succ depth ih =>
    rcases hstep p with ⟨found', hp'⟩ | hp'
    · exact ⟨found', explore_eq_done.2 (.inl hp')⟩
    · rcases explore_eq_done.1 h with hp | ⟨parts, bs, hp, hbs, _⟩
      · exact ⟨found, explore_eq_done.2 (.inl (hp'.trans hp))⟩
      · -- each part was found before, so it is found again
        have hparts : ∀ q ∈ parts, ∃ found', explore step' depth q = .done found' := by
          intro q hq
          obtain ⟨b, _, hb⟩ := (Search.mapM_eq_done hbs).1 q hq
          exact ih hb
        obtain ⟨bs', hbs'⟩ := Search.exists_mapM hparts
        exact ⟨bs'.flatten, explore_eq_done.2 (.inr ⟨parts, bs', hp'.trans hp, hbs', rfl⟩)⟩

namespace ClassEnv

variable {env : ClassEnv} {given given' : List Pred} {p : Pred}

/-- With more givens a step settles the predicate or is the same as before. -/
theorem entailStep_of_subset (hsub : ∀ q ∈ given, q ∈ given') (p : Pred) :
    (∃ found, env.entailStep given' p = .settled found) ∨ env.entailStep given' p = env.entailStep given p := by
  by_cases h' : env.givenImplies given' p = true
  · exact .inl ⟨[], if_pos h'⟩
  · have h : ¬ env.givenImplies given p = true := fun h => h' (givenImplies_mono hsub h)
    exact .inr (by rw [entailStep, entailStep, if_neg h', if_neg h])

theorem entail_mono (hsub : ∀ q ∈ given, q ∈ given') (h : env.entail given p = .done true) :
    env.entail given' p = .done true := by
  rw [entail_eq, Search.succeeds_eq_true] at h ⊢
  obtain ⟨found, hfound⟩ := h
  exact explore_of_sooner (entailStep_of_subset hsub) hfound

/-- Givens that imply the same are as good as each other. -/
theorem entail_congr (h : ∀ q, env.givenImplies given q = env.givenImplies given' q) (p : Pred) :
    env.entail given p = env.entail given' p := by
  have hstep : env.entailStep given = env.entailStep given' := by
    funext q
    rw [entailStep, entailStep, h q]
  rw [entail, entail, hstep]

/-- **Entailment is monotone, and depends only on the set of givens.**  What follows from some predicates follows
from all lists of givens that have these among them, in any order and number; where instances shrink, so that
there is always an answer, what does not follow from the larger list does not follow from the smaller one; and
lists of the same predicates give the same answer. -/
theorem entail_monotone (hsub : ∀ q ∈ given, q ∈ given') (p : Pred) :
    (env.entail given p = .done true → env.entail given' p = .done true) ∧
    (env.Shrinking → env.entail given' p = .done false → env.entail given p = .done false) ∧
    ((∀ q ∈ given', q ∈ given) → env.entail given p = env.entail given' p) := by
  refine ⟨entail_mono hsub, fun henv hfalse => ?_, fun hsub' => entail_congr (fun q => ?_) p⟩
  · obtain ⟨b, hb⟩ := henv.exists_entail given p
    cases b with
    | false => exact hb
    | true =>
      rw [entail_mono hsub hb] at hfalse
      cases hfalse
  · exact Bool.eq_iff_iff.2 ⟨givenImplies_mono hsub, givenImplies_mono hsub'⟩

/-- Lists of lists are ordered because items are.  If lists of items are known to be ordered as well, the search
stops there. -/
theorem entail_monotone_small :
    let x : Ty := .var ⟨"x", .star⟩
    Prelude.small.classEnv.entail [⟨"Ord", x⟩] ⟨"Ord", .list (.list x)⟩ = .done true ∧
    Prelude.small.classEnv.entail [⟨"Eq", .var ⟨"y", .star⟩⟩, ⟨"Ord", .list x⟩, ⟨"Ord", x⟩, ⟨"Ord", x⟩]
      ⟨"Ord", .list (.list x)⟩ = .done true ∧
    Prelude.small.classEnv.entail [⟨"Ord", x⟩] ⟨"Eq", .list x⟩ = .done false ∧
    Prelude.small.classEnv.entail [] ⟨"Eq", .list x⟩ = .done false := by
  intro x
  have hyes : Prelude.small.classEnv.entail [⟨"Ord", x⟩] ⟨"Ord", .list (.list x)⟩ = .done true := by
    decide +kernel
  have hno : Prelude.small.classEnv.entail [⟨"Ord", x⟩] ⟨"Eq", .list x⟩ = .done false := by decide +kernel
  refine ⟨hyes, (entail_monotone (fun q hq => ?_) _).1 hyes, hno, ?_⟩
  · rw [List.mem_singleton.1 hq]
    decide
  · exact (entail_monotone (List.nil_subset _) _).2.1 (by decide) hno

end ClassEnv

end QualifiedTypes
