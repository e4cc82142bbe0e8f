import QualifiedTypes.Proofs.Hierarchy
import QualifiedTypes.Proofs.Reduction
import QualifiedTypes.Proofs.StandardPrelude

/-!
# Canonical contexts

Predicates are dropped one after another, each against what was kept and what is still to come, so that the
result might depend on their order.  It does not where no instance has a head that begins with a variable.  Then a
head-normal predicate follows only from what implies it through superclasses, and the hierarchy of classes has
no cycles: what is dropped is dropped for the sake of a predicate that stays.

* `ClassEnv.entail_of_inHnf`: what head-normal predicates follow from.
* `ClassEnv.Dominated`, `ClassEnv.undominated`: what is implied by another predicate of a list, and the rest.
* `ClassEnv.Reachable.exists_undominated`: every predicate is implied by one that nothing else implies.
* `ClassEnv.Scanned`: the invariant of dropping predicates one after another.
* `ClassEnv.reduce_canonical`: reduction leaves what no other head-normal predicate implies.
-/

namespace QualifiedTypes

namespace ClassEnv

variable {env : ClassEnv} {given kept rest ps qs : List Pred} {p q : Pred}

/-- Where no head begins with a variable, head-normal predicates follow from what the givens imply and from nothing
else. -/
theorem entail_of_inHnf (hheads : ∀ i ∈ env.instances, i.head.inHnf = false) (hp : p.inHnf = true) :
    env.entail given p = .done (env.givenImplies given p) := by
  rw [entail_eq]
  cases h : env.givenImplies given p with
  | true =>
    have hstep : env.entailStep given p = .settled [] := by simp [entailStep, h]
    rw [explore_settled hstep]
    rfl
  | false =>
    have hstep : env.entailStep given p = .stuck ⟨p⟩ := by simp [entailStep, h, byInst_of_inHnf hheads hp]
    rw [explore_stuck hstep]
    rfl

/-! ## What nothing else implies -/

/-- Another predicate of the list implies the predicate through superclasses. -/
def Dominated (env : ClassEnv) (ps : List Pred) (p : Pred) : Prop := ∃ q ∈ ps, q ≠ p ∧ p ∈ env.bySuper q

instance (env : ClassEnv) (ps : List Pred) (p : Pred) : Decidable (env.Dominated ps p) :=
  inferInstanceAs (Decidable (∃ q ∈ ps, q ≠ p ∧ p ∈ env.bySuper q))

/-- The predicates of a list that no other predicate of it implies, each once, where it occurs last. -/
def undominated (env : ClassEnv) (ps : List Pred) : List Pred :=
  ps.dedup.filter fun p => ¬ env.Dominated ps p

theorem mem_undominated : p ∈ env.undominated ps ↔ p ∈ ps ∧ ¬ env.Dominated ps p := by
  simp [undominated]

theorem nodup_undominated (env : ClassEnv) (ps : List Pred) : (env.undominated ps).Nodup :=
  ps.nodup_dedup.filter _

/-- What is left of a list depends on the set of its predicates, up to order. -/
theorem undominated_perm (h : ∀ p, p ∈ ps ↔ p ∈ qs) : (env.undominated ps).Perm (env.undominated qs) := by
  have hdominated : ∀ p, env.Dominated ps p ↔ env.Dominated qs p := fun p =>
    exists_congr fun q => and_congr_left fun _ => h q
  refine (List.perm_ext_iff_of_nodup (env.nodup_undominated ps) (env.nodup_undominated qs)).2 fun p => ?_
  rw [mem_undominated, mem_undominated, h, hdominated]

theorem Reachable.bySuper_trans (h : env.Reachable) {r : Pred} (hp : p ∈ env.bySuper q)
    (hq : q ∈ env.bySuper r) : p ∈ env.bySuper r := by
  rw [h.mem_bySuper] at hp hq ⊢
  exact ⟨hp.1.trans hq.1, hq.2.trans hp.2⟩

/-- Of two different predicates, the one that is implied has the older class. -/
theorem Reachable.rank_lt_of_mem_bySuper (h : env.Reachable) (hp : p ∈ env.bySuper q) (hne : q ≠ p) :
    rank env.classes p.className < rank env.classes q.className := by
  obtain ⟨hty, himplies⟩ := h.mem_bySuper.1 hp
  rcases Relation.reflTransGen_iff_eq_or_transGen.1 himplies with heq | hsteps
  · have hqp : q = p := by
      cases p
      cases q
      simp_all
    exact absurd hqp hne
  · exact h.rank_lt_of_transGen hsteps

/-- **Every predicate of a list is implied by one that nothing else implies.**  Of those that imply it, take one
of the newest class. -/
theorem Reachable.exists_undominated (h : env.Reachable) (hp : p ∈ ps) :
    ∃ q ∈ ps, ¬ env.Dominated ps q ∧ p ∈ env.bySuper q := by
  have hself : p ∈ ps.toFinset.filter fun q => p ∈ env.bySuper q := by
    simp [hp, h.mem_bySuper.2 ⟨rfl, .refl⟩]
  obtain ⟨q, hq, hmax⟩ := Finset.exists_max_image (ps.toFinset.filter fun q => p ∈ env.bySuper q)
    (fun q => rank env.classes q.className) ⟨p, hself⟩
  simp only [Finset.mem_filter, List.mem_toFinset] at hq hmax
  refine ⟨q, hq.1, ?_, hq.2⟩
  rintro ⟨r, hr, hne, hqr⟩
  have hle := hmax r ⟨hr, h.bySuper_trans hq.2 hqr⟩
  have hlt := h.rank_lt_of_mem_bySuper hqr hne
  omega

/-! ## Dropping -/

/-- The invariant of dropping predicates of a list one after another: what was kept and what is still to come are
predicates of the list, all that must stay is among them, and nothing that was kept comes again. -/
structure Scanned (env : ClassEnv) (ps kept rest : List Pred) : Prop where
  mem : ∀ q ∈ kept ++ rest, q ∈ ps
  complete : ∀ q ∈ ps, ¬ env.Dominated ps q → q ∈ kept ++ rest
  fresh : ∀ q ∈ kept, q ∉ rest

namespace Scanned

theorem start (env : ClassEnv) (ps : List Pred) : env.Scanned ps [] ps :=
  ⟨fun _ hq => hq, fun _ hq _ => hq, fun _ hq => nomatch hq⟩

/-- A predicate is dropped if it comes again or if another one of the list implies it. -/
theorem givenImplies_iff (h : env.Scanned ps kept (p :: rest)) (hreach : env.Reachable) :
    env.givenImplies (kept ++ rest) p = true ↔ p ∈ rest ∨ env.Dominated ps p := by
  have hp : p ∈ ps := h.mem p (List.mem_append_right _ List.mem_cons_self)
  have hfresh : p ∉ kept := fun hk => h.fresh p hk List.mem_cons_self
  simp only [givenImplies, List.any_eq_true, List.contains_iff_mem]
  constructor
  · rintro ⟨q, hq, hpq⟩
    by_cases hqp : q = p
    · subst hqp
      exact .inl ((List.mem_append.1 hq).resolve_left hfresh)
    · refine .inr ⟨q, h.mem q ?_, hqp, hpq⟩
      simp only [List.mem_append, List.mem_cons] at hq ⊢
      tauto
  · rintro (hrest | hdom)
    · exact ⟨p, List.mem_append_right _ hrest, hreach.mem_bySuper.2 ⟨rfl, .refl⟩⟩
    · -- the predicate that dominates may have been dropped, but then another one stays for it
      obtain ⟨q, hq, hstays, hpq⟩ := hreach.exists_undominated hp
      have hqp : q ≠ p := fun he => hstays (he ▸ hdom)
      have hmem := h.complete q hq hstays
      simp only [List.mem_append, List.mem_cons] at hmem ⊢
      exact ⟨q, by tauto, hpq⟩

theorem drop (h : env.Scanned ps kept (p :: rest)) (hp : p ∈ rest ∨ env.Dominated ps p) :
    env.Scanned ps kept rest where
  mem q hq := by
    refine h.mem q ?_
    simp only [List.mem_append, List.mem_cons] at hq ⊢
    tauto
  complete q hq hstays := by
    have hmem := h.complete q hq hstays
    simp only [List.mem_append, List.mem_cons] at hmem ⊢
    rcases hmem with hmem | rfl | hmem
    · exact .inl hmem
    · exact .inr (hp.resolve_right hstays)
    · exact .inr hmem
  fresh q hq hrest := h.fresh q hq (List.mem_cons_of_mem _ hrest)

theorem keep (h : env.Scanned ps kept (p :: rest)) (hp : p ∉ rest) : env.Scanned ps (kept ++ [p]) rest where
  mem q hq := h.mem q (by rwa [List.append_assoc] at hq)
  complete q hq hstays := by
    rw [List.append_assoc]
    exact h.complete q hq hstays
  fresh q hq := by
    rcases List.mem_append.1 hq with hq | hq
    · exact fun hrest => h.fresh q hq (List.mem_cons_of_mem _ hrest)
    · rwa [List.mem_singleton.1 hq]

/-- **What is dropped and what is kept**, from any point on. -/
theorem simplifyAfter_eq (h : env.Scanned ps kept rest) (hreach : env.Reachable)
    (hheads : ∀ i ∈ env.instances, i.head.inHnf = false) (hnf : ∀ q ∈ rest, q.inHnf = true) :
    env.simplifyAfter kept rest = .done (kept ++ rest.dedup.filter fun q => ¬ env.Dominated ps q) := by
  induction rest generalizing kept with
  | nil => simp [ClassEnv.simplifyAfter]
  | cons p rest ih =>
    obtain ⟨hp, hrest⟩ := List.forall_mem_cons.1 hnf
    have hiff := h.givenImplies_iff hreach
    rw [simplifyAfter_cons (entail_of_inHnf hheads hp)]
    by_cases hdrop : p ∈ rest ∨ env.Dominated ps p
    · rw [if_pos (hiff.2 hdrop), ih (h.drop hdrop) hrest]
      by_cases hmem : p ∈ rest
      · rw [List.dedup_cons_of_mem hmem]
      · rw [List.dedup_cons_of_notMem hmem, List.filter_cons_of_neg (by simpa using hdrop.resolve_left hmem)]
    · rw [not_or] at hdrop
      rw [if_neg fun himplied => (hiff.1 himplied).elim hdrop.1 hdrop.2, ih (h.keep hdrop.1) hrest,
        List.dedup_cons_of_notMem hdrop.1, List.filter_cons_of_pos (by simpa using hdrop.2), List.append_assoc]
      rfl

end Scanned

/-! ## Reduction -/

/-- Lists of the same predicates come down to the same predicates. -/
theorem exists_toHnfs_of_mem_iff {ps' : List Pred} (hsame : ∀ p, p ∈ ps' ↔ p ∈ ps) (h : env.toHnfs ps = .done qs) :
    ∃ qs', env.toHnfs ps' = .done qs' ∧ ∀ q, q ∈ qs' ↔ q ∈ qs := by
  obtain ⟨hall, hmem⟩ := toHnfs_eq_done h
  obtain ⟨parts, hparts⟩ := Search.exists_mapM fun p hp => hall p ((hsame p).1 hp)
  have h' : env.toHnfs ps' = .done parts.flatten := by
    rw [toHnfs_eq, hparts]
    rfl
  refine ⟨_, h', fun q => ?_⟩
  simp only [hmem, (toHnfs_eq_done h').2, hsame]

/-- **Reduction leaves what no other head-normal predicate implies.** -/
theorem Reachable.reduce_eq (h : env.Reachable) (hheads : ∀ i ∈ env.instances, i.head.inHnf = false)
    (hps : env.toHnfs ps = .done qs) : env.reduce ps = .done (env.undominated qs) := by
  have hnf : ∀ q ∈ qs, q.inHnf = true := fun q hq => ((toHnfs_proves [] hps).1 q hq).1
  rw [reduce, hps, Search.done_bind, simplify, (Scanned.start env qs).simplifyAfter_eq h hheads hnf]
  rfl

/-- **Context reduction computes a canonical set**, in all environments that declarations lead to and in which no
instance has a head in head-normal form, such as that of the standard prelude.  What is left of a context are
those of its head-normal predicates that no other of them implies through superclasses, each once and in the order
of their last occurrences.  A list of the same predicates, in any order and number, is reduced to the same set. -/
theorem reduce_canonical :
    (∀ env : ClassEnv, env.Reachable → (∀ i ∈ env.instances, i.head.inHnf = false) →
      ∀ ps qs, env.reduce ps = .done qs →
        (∃ hnf, env.toHnfs ps = .done hnf ∧ qs = hnf.dedup.filter (fun h => ¬ env.Dominated hnf h) ∧ qs.Nodup ∧
          ∀ h, h ∈ qs ↔ h ∈ hnf ∧ ¬ ∃ h' ∈ hnf, h' ≠ h ∧ h ∈ env.bySuper h') ∧
        ∀ ps', (∀ p, p ∈ ps' ↔ p ∈ ps) → ∃ qs', env.reduce ps' = .done qs' ∧ qs'.Perm qs) ∧
    ∃ prelude, Prelude.standard = .ok prelude ∧ prelude.classEnv.Reachable ∧
      ∀ i ∈ prelude.classEnv.instances, i.head.inHnf = false := by
  refine ⟨fun env hreach hheads ps qs hqs => ?_, ?_⟩
  · obtain ⟨hnf, hhnf, _⟩ := Search.bind_eq_done.1 hqs
    rw [hreach.reduce_eq hheads hhnf] at hqs
    cases hqs
    refine ⟨⟨hnf, hhnf, rfl, env.nodup_undominated hnf, fun h => mem_undominated⟩, fun ps' hsame => ?_⟩
    obtain ⟨hnf', hhnf', hmem⟩ := exists_toHnfs_of_mem_iff hsame hhnf
    exact ⟨_, hreach.reduce_eq hheads hhnf', undominated_perm hmem⟩
  · exact ⟨_, Prelude.standard_eq, (Config.build_sound Prelude.standard_eq).reachable, by decide +kernel⟩

/-- Numbers and equality, on patterns and on items, with repetitions. -/
def repeatedContext (x y : Ty) : List Pred :=
  [⟨"Num", Declarations.pattern x⟩, ⟨"Eq", y⟩, ⟨"Fractional", Declarations.pattern (Declarations.pattern x)⟩,
    ⟨"Ord", .list y⟩, ⟨"Num", x⟩, ⟨"Eq", y⟩]

/-- In the standard prelude, fractions imply numbers and an order implies equality.  The same is left of the
context if it is turned round and written twice. -/
theorem reduce_canonical_standard :
    let x : Ty := .var ⟨"x", .star⟩
    let y : Ty := .var ⟨"y", .star⟩
    ∃ prelude, Prelude.standard = .ok prelude ∧
      prelude.classEnv.reduce (repeatedContext x y) = .done [⟨"Fractional", x⟩, ⟨"Ord", y⟩] ∧
      (∃ hnf, prelude.classEnv.toHnfs (repeatedContext x y) = .done hnf ∧
        ¬ ∃ h ∈ hnf, h ≠ ⟨"Ord", y⟩ ∧ ⟨"Ord", y⟩ ∈ prelude.classEnv.bySuper h) ∧
      ∃ qs, prelude.classEnv.reduce ((repeatedContext x y).reverse ++ repeatedContext x y) = .done qs ∧
        qs.Perm [⟨"Fractional", x⟩, ⟨"Ord", y⟩] := by
  intro x y
  obtain ⟨hcanonical, prelude, hprelude, hreach, hheads⟩ := reduce_canonical
  have hreduce : prelude.classEnv.reduce (repeatedContext x y) = .done [⟨"Fractional", x⟩, ⟨"Ord", y⟩] := by
    rw [Prelude.standard_eq] at hprelude
    cases hprelude
    decide +kernel
  obtain ⟨⟨hnf, hhnf, _, _, hmem⟩, hsame⟩ := hcanonical _ hreach hheads _ _ hreduce
  have hord := (hmem ⟨"Ord", y⟩).1 (List.mem_cons_of_mem _ List.mem_cons_self)
  exact ⟨prelude, hprelude, hreduce, ⟨hnf, hhnf, hord.2⟩, hsame _ (by simp)⟩

end ClassEnv

end QualifiedTypes
