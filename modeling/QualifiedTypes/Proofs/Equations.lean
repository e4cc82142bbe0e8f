import QualifiedTypes.Proofs.Principality

/-!
# Systems of equations

A run of inference solves its equations one after the other, each under what the ones before it have told.
What it ends with is a most general solution of all of them.  Two most general solutions absorb each other,
so the order of the equations does not matter.

* `Infer.unifyAll`: equations solved in turn.
* `Infer.unifyAll_sound`, `Infer.unifyAll_complete`: what is reached solves all equations, and it is reached
  wherever there is a solution, which absorbs it.
* `Infer.unifyAll_perm`: the order of the equations does not matter.
-/

namespace QualifiedTypes

/-- Two types that have to be equal, and what asks for it. -/
structure Equation where
  expected : Ty
  found : Ty
  origin : Origin
  deriving DecidableEq

instance : HasTypes Equation where
  types e := [e.expected, e.found]
  mapTypes f e := { e with expected := f e.expected, found := f e.found }
  types_mapTypes _ _ := rfl
  mapTypes_congr h := by rw [h _ (by simp), h _ (by simp)]
  mapTypes_mapTypes _ _ _ := rfl
  mapTypes_id _ := rfl

/-- The types of an equation that is listed are types of the list. -/
theorem Equation.mem_types {e : Equation} {eqs : List Equation} (he : e ∈ eqs) :
    e.expected ∈ types eqs ∧ e.found ∈ types eqs :=
  ⟨List.mem_flatMap.2 ⟨e, he, List.mem_cons_self⟩,
    List.mem_flatMap.2 ⟨e, he, List.mem_cons_of_mem _ List.mem_cons_self⟩⟩

/-- The substitution makes both sides of every equation equal. -/
def Subst.SolvesAll (θ : Subst) (eqs : List Equation) : Prop :=
  ∀ e ∈ eqs, e.expected.subst θ = e.found.subst θ

/-- Every substitution that keeps kinds absorbs the empty one. -/
theorem Solves.empty {θ : Subst} {K : KindTable} (h : θ.KeepsKinds K.var) : Solves θ K .empty :=
  ⟨h, fun r _ => by rw [Ty.subst_empty]⟩

namespace Infer

/-- Solve equations in turn, up to the first that has no solution. -/
def unifyAll (eqs : List Equation) : Infer Unit := eqs.forM fun e => unify e.expected e.found e.origin

theorem runFrom_unifyAll_cons_iff {e : Equation} {eqs : List Equation} {st st' : InferState} :
    (unifyAll (e :: eqs)).runFrom st = (.ok (), st') ↔
      ∃ u, QualifiedTypes.unify (e.expected.subst st.subst) (e.found.subst st.subst) = .ok u ∧
        (unifyAll eqs).runFrom { st with subst := u.compose st.subst } = (.ok (), st') := by
  unfold unifyAll
  rw [List.forM_eq_forM, List.forM_cons, runFrom_bind_iff]
  constructor
  · rintro ⟨_, st₁, hunify, hrest⟩
    obtain ⟨u, hu, rfl⟩ := runFrom_unify_iff.1 hunify
    exact ⟨u, hu, hrest⟩
  · rintro ⟨u, hu, hrest⟩
    exact ⟨(), _, runFrom_unify_iff.2 ⟨u, hu, rfl⟩, hrest⟩

variable {K : KindTable} {eqs : List Equation} {st st' : InferState}

/-- What a run ends with refines what it began with, and solves every equation. -/
theorem unifyAll_sound (heqs : ∀ t ∈ types eqs, t.Fits K) (hst : st.subst.Fits K)
    (hrun : (unifyAll eqs).runFrom st = (.ok (), st')) :
    st'.subst.Fits K ∧ st.subst.RefinedBy st'.subst ∧ st'.subst.SolvesAll eqs := by
  induction eqs generalizing st with
  | nil =>
    cases hrun
    exact ⟨hst, .refl _, fun _ he => nomatch he⟩
  | cons e eqs ih =>
    obtain ⟨u, hu, hrest⟩ := runFrom_unifyAll_cons_iff.1 hrun
    obtain ⟨hexpected, hfound⟩ := Equation.mem_types (List.mem_cons_self (a := e) (l := eqs))
    obtain ⟨hufits, hequal⟩ :=
      unify_sound ((heqs _ hexpected).subst hst) ((heqs _ hfound).subst hst) hu
    obtain ⟨hfits, hrefines, hsolves⟩ :=
      ih (fun t ht => heqs t (List.mem_append_right _ ht)) (hufits.compose hst) hrest
    refine ⟨hfits, (Subst.RefinedBy.compose u st.subst).trans hrefines, ?_⟩
    -- the first equation was solved at once, and stays solved under every refinement
    refine List.forall_mem_cons.2 ⟨hrefines.eq ?_, hsolves⟩
    rw [Ty.subst_compose, Ty.subst_compose, hequal]

/-- A run succeeds wherever there is a solution, and the solution absorbs what the run ends with. -/
theorem unifyAll_complete {θ : Subst} (heqs : ∀ t ∈ types eqs, t.Fits K) (hst : st.subst.Fits K)
    (hθ : Solves θ K st.subst) (hall : θ.SolvesAll eqs) :
    ∃ st', (unifyAll eqs).runFrom st = (.ok (), st') ∧ Solves θ K st'.subst := by
  induction eqs generalizing st with
  | nil => exact ⟨st, rfl, hθ⟩
  | cons e eqs ih =>
    obtain ⟨hexpected, hfound⟩ := Equation.mem_types (List.mem_cons_self (a := e) (l := eqs))
    have hfits₁ := heqs _ hexpected
    have hfits₂ := heqs _ hfound
    obtain ⟨u, hu, hsolves⟩ := hθ.unify hst hfits₁ hfits₂ (hall e List.mem_cons_self)
    obtain ⟨hufits, _⟩ := unify_sound (hfits₁.subst hst) (hfits₂.subst hst) hu
    have hst₁ : ({ st with subst := u.compose st.subst } : InferState).subst.Fits K := hufits.compose hst
    obtain ⟨st', hrest, hθ'⟩ := ih (fun t ht => heqs t (List.mem_append_right _ ht)) hst₁ hsolves
      fun e' he' => hall e' (List.mem_cons_of_mem _ he')
    exact ⟨st', runFrom_unifyAll_cons_iff.2 ⟨u, hu, hrest⟩, hθ'⟩

/-- Where equations can be solved, so can those of them that another list has, in its order. -/
theorem unifyAll_of_subset {eqs' : List Equation} (heqs : ∀ t ∈ types eqs, t.Fits K)
    (hsubset : ∀ e ∈ eqs', e ∈ eqs) (hrun : (unifyAll eqs).runFrom .initial = (.ok (), st)) :
    ∃ st', (unifyAll eqs').runFrom .initial = (.ok (), st') ∧ Solves st.subst K st'.subst := by
  obtain ⟨hfits, _, hsolves⟩ := unifyAll_sound heqs (Subst.fits_empty K) hrun
  have heqs' : ∀ t ∈ types eqs', t.Fits K := by
    intro t ht
    obtain ⟨e, he, ht⟩ := List.mem_flatMap.1 ht
    exact heqs t (List.mem_flatMap.2 ⟨e, hsubset e he, ht⟩)
  exact unifyAll_complete heqs' (Subst.fits_empty K) (.empty hfits.keepsKinds)
    fun e he => hsolves e (hsubset e he)

/-- **The order of equations does not matter.**  Let no slot be left in them, and let each id have one kind
throughout.  Then they can be solved in one order iff they can in any other, and the substitutions that the
two runs end with absorb each other, on all types whose variables have the kinds that they have in the
equations. -/
theorem unifyAll_perm {eqs' : List Equation} (hslots : ∀ t ∈ types eqs, t.firstGen? = none)
    (hkinds : OneKindPerId eqs) (hperm : eqs.Perm eqs') :
    ((∃ st, (unifyAll eqs).runFrom .initial = (.ok (), st)) ↔
      ∃ st', (unifyAll eqs').runFrom .initial = (.ok (), st')) ∧
    ∀ st st', (unifyAll eqs).runFrom .initial = (.ok (), st) →
      (unifyAll eqs').runFrom .initial = (.ok (), st') →
      ∀ t : Ty, (∀ v ∈ t.occurrences, ∀ w ∈ occurrences eqs, v.id = w.id → v.kind = w.kind) →
        (t.subst st.subst).subst st'.subst = t.subst st'.subst ∧
        (t.subst st'.subst).subst st.subst = t.subst st.subst := by
  have heqs := hkinds.fits hslots
  have heqs' : ∀ t ∈ types eqs', t.Fits (.of eqs) := fun t ht => heqs t ((hperm.flatMap_right _).mem_iff.2 ht)
  refine ⟨⟨fun ⟨st, hrun⟩ => ?_, fun ⟨st', hrun'⟩ => ?_⟩, fun st st' hrun hrun' t ht => ⟨?_, ?_⟩⟩
  · obtain ⟨st', hrun', _⟩ := unifyAll_of_subset heqs (fun e => hperm.mem_iff.2) hrun
    exact ⟨st', hrun'⟩
  · obtain ⟨st, hrun, _⟩ := unifyAll_of_subset heqs' (fun e => hperm.mem_iff.1) hrun'
    exact ⟨st, hrun⟩
  · obtain ⟨_, hrun₁, hsolves⟩ := unifyAll_of_subset heqs' (fun e => hperm.mem_iff.1) hrun'
    rw [hrun] at hrun₁
    cases hrun₁
    exact (unifyAll_sound heqs (Subst.fits_empty _) hrun).1.absorbs_of_agree hsolves.absorbs ht
  · obtain ⟨_, hrun₁, hsolves⟩ := unifyAll_of_subset heqs (fun e => hperm.mem_iff.2) hrun
    rw [hrun'] at hrun₁
    cases hrun₁
    exact (unifyAll_sound heqs' (Subst.fits_empty _) hrun').1.absorbs_of_agree hsolves.absorbs ht

/-! ## Two equations that mirror each other -/

/-- The variables `a`, `b` and `c`. -/
def varA : Ty := .var ⟨"a", .star⟩
def varB : Ty := .var ⟨"b", .star⟩
def varC : Ty := .var ⟨"c", .star⟩

/-- The equations `a = b` and `b = a`, and one that ties `c` to them. -/
def mirrored : List Equation :=
  [⟨varA, varB, .application .zero .zero⟩, ⟨varB, varA, .application .zero .zero⟩,
    ⟨.fn varC varA, .fn (.list varA) varB, .operator "+" .zero⟩]

/-- In the order of `mirrored`, the first equation replaces `a`. -/
theorem runFrom_mirrored : (unifyAll mirrored).runFrom .initial =
    (.ok (), ⟨0, ⟨[(⟨"a", .star⟩, varB), (⟨"c", .star⟩, .list varB)]⟩⟩) := by
  cbv

/-- With the first equation put last, it is `b` that is replaced. -/
theorem runFrom_rotated : (unifyAll (mirrored.rotate 1)).runFrom .initial =
    (.ok (), ⟨0, ⟨[(⟨"b", .star⟩, varA), (⟨"c", .star⟩, .list varA)]⟩⟩) := by
  cbv

theorem unifyAll_perm_mirrored :
    ∃ st st', (unifyAll mirrored).runFrom .initial = (.ok (), st) ∧
      (unifyAll (mirrored.rotate 1)).runFrom .initial = (.ok (), st') ∧
      varC.subst st.subst ≠ varC.subst st'.subst ∧
      (varC.subst st.subst).subst st'.subst = varC.subst st'.subst ∧
      (varC.subst st'.subst).subst st.subst = varC.subst st.subst := by
  refine ⟨_, _, runFrom_mirrored, runFrom_rotated, by decide, ?_⟩
  have hperm : mirrored.Perm (mirrored.rotate 1) := (List.rotate_perm mirrored 1).symm
  exact (unifyAll_perm (by decide) ⟨by decide, by decide⟩ hperm).2 _ _ runFrom_mirrored runFrom_rotated varC
    (by decide)

end Infer

end QualifiedTypes
