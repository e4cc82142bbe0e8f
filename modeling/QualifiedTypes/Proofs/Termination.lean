import QualifiedTypes.Proofs.Hierarchy
import QualifiedTypes.Proofs.ReducedContexts
import QualifiedTypes.Proofs.StandardPrelude

/-!
# Searches end

Entailment and reduction go from a predicate to the context of an instance, and on from there.  Such a context
is put together from parts of the type that was matched, which may be copied.  It is still smaller than that
type if the context of the instance is smaller than its head and has no variable more often.  Then the depth that
a search is given plays no part: the search is the plain recursion.

* `explore_eq_of_size_le`: a search does not depend on its depth, once that is the size of the type.
* `ClassEnv.Unfolds`, `ClassEnv.Shrinking.unfolds`: the equations of the plain recursion.
* `ClassEnv.searches_terminate`: in environments with shrinking instances, such as that of the standard prelude,
  the recursion is well founded, and the searches compute it.
* `ClassEnv.not_wellFounded_growing`: there are declarations that are accepted and lead on without an end.
-/

namespace QualifiedTypes

/-! ## Depths -/

section Explore

variable {step : Pred → Step} {p : Pred}

/-- **A search does not depend on its depth** where its steps make types smaller and the depth is the size of the
type or more. -/
theorem explore_eq_of_size_le
    (hstep : ∀ p parts, step p = .replaced parts → ∀ q ∈ parts, q.ty.size < p.ty.size) {depth depth' : Nat}
    (h : p.ty.size ≤ depth) (h' : p.ty.size ≤ depth') : explore step depth p = explore step depth' p := by
  have hpos := p.ty.size_pos
  induction depth generalizing p depth' with
  | zero => omega
  | succ depth ih =>
    obtain ⟨depth', rfl⟩ : ∃ n, depth' = n + 1 := ⟨depth' - 1, by omega⟩
    cases hp : step p with
    | settled found => simp only [explore, hp]
    | stuck e => simp only [explore, hp]
    | replaced parts =>
      -- the parts are smaller, so that both depths that are left are enough for them
      have hparts : ∀ q ∈ parts, explore step depth q = explore step depth' q := by
        intro q hq
        have hlt := hstep p parts hp q hq
        exact ih (by omega) (by omega) q.ty.size_pos
      rw [explore_replaced hp, explore_replaced hp, Search.mapM_congr hparts]

/-- The search for a predicate is the search for its parts, each with a depth of its own. -/
theorem explore_parts (hstep : ∀ p parts, step p = .replaced parts → ∀ q ∈ parts, q.ty.size < p.ty.size)
    {parts : List Pred} (hp : step p = .replaced parts) :
    explore step p.searchDepth p =
      parts.mapM (fun q => explore step q.searchDepth q) >>= fun found => .done found.flatten := by
  obtain ⟨depth, hdepth⟩ := p.exists_searchDepth
  have hparts : ∀ q ∈ parts, explore step depth q = explore step q.searchDepth q := by
    intro q hq
    have hlt := hstep p parts hp q hq
    rw [Pred.searchDepth] at hdepth
    exact explore_eq_of_size_le hstep (by omega) (Nat.le_add_left _ _)
  rw [hdepth, explore_replaced hp, Search.mapM_congr hparts]

end Explore

namespace ClassEnv

variable {env : ClassEnv}

/-! ## The plain recursion -/

/-- Each search gives what its recursive calls give, with no regard to depth. -/
structure Unfolds (env : ClassEnv) : Prop where
  entail : ∀ given p, env.entail given p = .done true ↔
    env.givenImplies given p = true ∨
      ∃ context, env.byInst p = .ok context ∧ ∀ q ∈ context, env.entail given q = .done true
  toHnf_settled : ∀ p, p.inHnf = true → env.toHnf p = .done [p]
  toHnf_replaced : ∀ p context, p.inHnf = false → env.byInst p = .ok context → env.toHnf p = env.toHnfs context
  toHnf_stuck : ∀ p e, p.inHnf = false → env.byInst p = .error e → env.toHnf p = .missing e
  toHnfs : ∀ ps, env.toHnfs ps = ps.mapM env.toHnf >>= fun parts => .done parts.flatten

theorem hnfStep_of_byInst {p : Pred} (hnf : p.inHnf = false) {context : List Pred}
    (h : env.byInst p = .ok context) : env.hnfStep p = .replaced context := by
  simp [hnfStep, hnf, h]

theorem hnfStep_of_error {p : Pred} (hnf : p.inHnf = false) {e : MissingInstance} (h : env.byInst p = .error e) :
    env.hnfStep p = .stuck e := by
  simp [hnfStep, hnf, h]

/-- **Where instances shrink, the searches are the plain recursions.** -/
theorem Shrinking.unfolds (henv : env.Shrinking) : env.Unfolds where
  entail given p := by
    simp only [henv.entail_iff_proves]
    constructor
    · intro h
      cases h with
      | given implied => exact .inl implied
      | @inst _ context step proofs => exact .inr ⟨context, step, proofs⟩
    · rintro (implied | ⟨context, step, proofs⟩)
      · exact .given implied
      · exact .inst step proofs
  toHnf_settled p hnf := toHnf_of_inHnf hnf
  toHnf_replaced p context hnf hp := by
    have htoHnf : env.toHnf = fun q => explore env.hnfStep q.searchDepth q := funext env.toHnf_eq
    rw [toHnfs_eq, toHnf_eq, explore_parts henv.hnfStep_size_lt (hnfStep_of_byInst hnf hp), htoHnf]
    rfl
  toHnf_stuck p e hnf hp := by rw [toHnf_eq, explore_stuck (hnfStep_of_error hnf hp)]
  toHnfs := env.toHnfs_eq

/-- Steps through shrinking instances do not go on for ever. -/
theorem Shrinking.wellFounded_byInst (henv : env.Shrinking) :
    WellFounded fun q p => ∃ context, env.byInst p = .ok context ∧ q ∈ context := by
  refine Subrelation.wf (fun {q p} h => ?_) (measure fun p : Pred => p.ty.size).wf
  obtain ⟨context, hcontext, hq⟩ := h
  exact henv.byInst_size_lt hcontext q hq

theorem Ends.toHnfs_ne_exhausted (henv : env.Ends) (ps : List Pred) : env.toHnfs ps ≠ .exhausted := by
  rw [toHnfs_eq]
  rcases Search.mapM_cases env.toHnf ps with ⟨parts, hparts⟩ | ⟨_, _, e, _, hall⟩ | ⟨p, _, hexh, _⟩
  · simp [hparts]
  · simp [hall]
  · exact absurd hexh (henv.toHnf p)

theorem Ends.reduce_ne_exhausted (henv : env.Ends) (ps : List Pred) : env.reduce ps ≠ .exhausted := by
  rcases henv.reduce_cases ps with ⟨qs, hqs⟩ | ⟨_, _, e, _, hmissing⟩
  · simp [hqs]
  · simp [hmissing]

/-- The depth that is needed is the size of the type. -/
theorem Shrinking.searches_eq (henv : env.Shrinking) (given : List Pred) (p : Pred) :
    env.entail given p = (explore (env.entailStep given) p.ty.size p).succeeds ∧
      env.toHnf p = explore env.hnfStep p.ty.size p := by
  have hentail := explore_eq_of_size_le (henv.entailStep_size_lt given)
    (Nat.le_add_left p.ty.size searchMargin) (Nat.le_refl _)
  have htoHnf := explore_eq_of_size_le henv.hnfStep_size_lt (Nat.le_add_left p.ty.size searchMargin) (Nat.le_refl _)
  rw [entail_eq, toHnf_eq]
  exact ⟨congrArg Search.succeeds hentail, htoHnf⟩

/-- **Entailment and reduction terminate** in all environments that declarations lead to and whose instances
shrink.  The walk to superclasses and the steps through instances are well founded: a step makes types smaller.
All searches end, at a depth that is at most the size of the type, and give what the plain recursions give.  The
environment of the standard prelude is one of these. -/
theorem searches_terminate :
    (∀ env : ClassEnv, env.Reachable → env.Shrinking →
      (WellFounded fun s c => s ∈ env.supers c) ∧
      (∀ p context, env.byInst p = .ok context → ∀ q ∈ context, q.ty.size < p.ty.size) ∧
      (WellFounded fun q p => ∃ context, env.byInst p = .ok context ∧ q ∈ context) ∧
      env.Unfolds ∧
      (∀ given p, ∃ b, env.entail given p = .done b) ∧ (∀ p, env.toHnf p ≠ .exhausted) ∧
      (∀ ps, env.toHnfs ps ≠ .exhausted) ∧ (∀ ps, ∃ qs, env.simplify ps = .done qs) ∧
      (∀ ps, env.reduce ps ≠ .exhausted) ∧
      ∀ given p, env.entail given p = (explore (env.entailStep given) p.ty.size p).succeeds ∧
        env.toHnf p = explore env.hnfStep p.ty.size p) ∧
    ∃ prelude, Prelude.standard = .ok prelude ∧ prelude.classEnv.Reachable ∧ prelude.classEnv.Shrinking := by
  refine ⟨fun env hreach henv => ?_, ?_⟩
  · have hends := henv.ends
    exact ⟨hreach.wellFounded_supers, fun p context h => henv.byInst_size_lt h, henv.wellFounded_byInst,
      henv.unfolds, hends.entail, hends.toHnf, hends.toHnfs_ne_exhausted, hends.exists_simplifyAfter [],
      hends.reduce_ne_exhausted, henv.searches_eq⟩
  · obtain ⟨prelude, hprelude, hcoherent⟩ := Prelude.standard_coherent
    exact ⟨prelude, hprelude, hcoherent.reachable, hcoherent.shrinking⟩

/-- A number can be a pattern of patterns if it can be an item of one.  The steps that lead there are not without
end, and each makes the type smaller. -/
theorem searches_terminate_standard :
    let nested : Pred := ⟨"FromNumber", Declarations.pattern (Declarations.pattern Declarations.item)⟩
    ∃ prelude, Prelude.standard = .ok prelude ∧
      (WellFounded fun q p => ∃ context, prelude.classEnv.byInst p = .ok context ∧ q ∈ context) ∧
      (∃ q, prelude.classEnv.byInst nested = .ok [q] ∧ q.ty.size < nested.ty.size ∧
        prelude.classEnv.toHnf nested = prelude.classEnv.toHnfs [q]) ∧
      prelude.classEnv.entail [⟨"FromNumber", Declarations.item⟩] nested = .done true ∧
      ∃ qs, prelude.classEnv.simplify [nested, nested] = .done qs := by
  intro nested
  obtain ⟨hterminate, prelude, hprelude, hreach, hshrinking⟩ := searches_terminate
  obtain ⟨_, hsize, hwf, hunfolds, _, _, _, hsimplify, _⟩ := hterminate _ hreach hshrinking
  refine ⟨prelude, hprelude, hwf, ?_, ?_, hsimplify _⟩
  all_goals
    rw [Prelude.standard_eq] at hprelude
    cases hprelude
  · have hstep : Declarations.standardPrelude.classEnv.byInst nested =
        .ok [⟨"FromNumber", Declarations.pattern Declarations.item⟩] := by decide +kernel
    exact ⟨_, hstep, hsize _ _ hstep _ List.mem_cons_self, hunfolds.toHnf_replaced _ _ rfl hstep⟩
  · decide +kernel

/-! ## Instances that grow -/

/-- Lists are ordered if lists of them are. -/
def ordGrowing : Instance :=
  ⟨[⟨"Ord", .list (.list (.var ⟨"a", .star⟩))⟩], ⟨"Ord", .list (.var ⟨"a", .star⟩)⟩⟩

/-- One class with an instance that grows. -/
def growing : ClassEnv := ⟨[⟨"Ord", []⟩], [ordGrowing], []⟩

theorem byInst_growing {t : Ty} (hkind : t.kind = .star) (hslots : t.firstGen? = none) :
    growing.byInst ⟨"Ord", .list t⟩ = .ok [⟨"Ord", .list (.list t)⟩] := by
  have hitem : matchTy (.var ⟨"a", .star⟩) t = .ok (.singleton ⟨"a", .star⟩ t) := by
    rw [matchTy, if_pos ⟨hkind.symm, hslots⟩]
  have hmatch : matchPred ordGrowing.head ⟨"Ord", .list t⟩ = .ok (.singleton ⟨"a", .star⟩ t) :=
    matchTy_app_iff.2 ⟨.empty, _, rfl, hitem, rfl⟩
  rw [byInst, growing, List.findSome?_cons, hmatch]
  rfl

/-- **An instance that grows is accepted, and its steps lead on without an end.** -/
theorem not_wellFounded_growing :
    growing.Reachable ∧
      ¬ WellFounded fun q p => ∃ context, growing.byInst p = .ok context ∧ q ∈ context := by
  have hclass : empty.addClass "Ord" [] = .ok { growing with instances := [] } := rfl
  have hinst : { growing with instances := [] }.addInstance ordGrowing = .ok growing := rfl
  refine ⟨.addInstance (.addClass .empty hclass) hinst, fun h => ?_⟩
  -- every list type leads to a larger list type
  have hlist : ∀ (p : Pred) (t : Ty), p = ⟨"Ord", .list t⟩ → t.kind = .star → t.firstGen? = none → False := by
    intro p
    induction p using h.induction with
    | _ p ih =>
      rintro t rfl hkind hslots
      refine ih _ ⟨_, byInst_growing hkind hslots, List.mem_singleton.2 rfl⟩ (.list t) rfl rfl ?_
      simpa [Ty.list, Ty.firstGen?] using hslots
  exact hlist _ (.var ⟨"a", .star⟩) rfl rfl rfl

end ClassEnv

end QualifiedTypes
