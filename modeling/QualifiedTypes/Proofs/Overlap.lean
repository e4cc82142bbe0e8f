import QualifiedTypes.Proofs.Entailment

/-!
# The check for overlap is exact

A new instance is refused if its head, with its variables renamed, unifies with a head that is stored.  That
happens exactly where some predicate would be matched by both heads.  So among the instances that were accepted,
at most one matches a predicate, and the order in which they are tried is of no consequence.

* `Pred.SharesInstance`: there is a predicate that two heads match.
* `Pred.exists_unifyPred_iff`: renamed heads unify exactly where they share an instance.
* `ClassEnv.exists_overlapping_iff`: when the declaration of an instance is refused.
* `ClassEnv.addInstance_exact`: the check is exact, and leaves at most one instance for a predicate.
-/

namespace QualifiedTypes

namespace Pred

/-- Some predicate is an instance of both, has no slots, and has constructors of the listed kinds only. -/
def SharesInstance (con : String → Option Kind) (p q : Pred) : Prop :=
  ∃ r : Pred, r.ty.firstGen? = none ∧ r.ty.ConsFit con ∧ r.MatchedBy p ∧ r.MatchedBy q

variable {con : String → Option Kind} {old new : Pred}

/-- **Heads unify, once one is renamed, exactly where they share an instance.** -/
theorem exists_unifyPred_iff (hold : old.Kinded con) (hnames : old.Unreserved) (hnew : new.Kinded con) :
    (∃ s, unifyPred old new.renameApart = .ok s) ↔ new.SharesInstance con old := by
  constructor
  · rintro ⟨s, hs⟩
    obtain ⟨s₁, s₂, hkeeps₁, hkeeps₂, heq, hslots, hcons⟩ := exists_common_of_unifyPred hold hnames hnew hs
    have hty : new.ty.subst s₂ = old.ty.subst s₁ := (congrArg Pred.ty heq).symm
    obtain ⟨r₁, hr₁, _⟩ := matchPred_complete hold hkeeps₁ hslots
    obtain ⟨r₂, hr₂, _⟩ := matchPred_complete hnew hkeeps₂ (hty ▸ hslots)
    exact ⟨s₁.apply old, hslots, hcons, ⟨r₂, heq ▸ hr₂⟩, r₁, hr₁⟩
  · rintro ⟨p, _, hcons, ⟨r₂, hr₂⟩, r₁, hr₁⟩
    exact (overlaps_iff hold hnames hnew).1 (overlaps_of_matchPred hold hnew hcons hr₁ hr₂)

end Pred

namespace ClassEnv

variable {con : String → Option Kind} {env : ClassEnv} {new : Instance}

/-- A declaration is refused for overlap if its renamed head unifies with a stored one. -/
theorem exists_overlapping_iff (hclass : env.isDefined new.head.className = true) :
    (∃ existing, env.addInstance new = .error (.overlappingInstance new.head existing)) ↔
      ∃ i ∈ env.instances, ∃ s, unifyPred i.head new.head.renameApart = .ok s := by
  have hfound : ∀ i : Instance, (unifyPred i.head new.head.renameApart).toBool = true ↔
      ∃ s, unifyPred i.head new.head.renameApart = .ok s := by
    intro i
    cases unifyPred i.head new.head.renameApart <;> simp [Except.toBool]
  rw [addInstance, if_pos hclass]
  cases hcheck : env.overlapping? new.head with
  | none =>
    have hnone := List.find?_eq_none.1 hcheck
    simp only [hfound] at hnone
    simpa using hnone
  | some existing =>
    have hunifies := List.find?_some hcheck
    rw [hfound] at hunifies
    exact ⟨fun _ => ⟨existing, List.mem_of_find?_eq_some hcheck, hunifies⟩, fun _ => ⟨existing.head, rfl⟩⟩

theorem mem_instancesOf {c : String} {i : Instance} :
    i ∈ env.instancesOf c ↔ i ∈ env.instances ∧ i.head.className = c := by
  simp [instancesOf]

theorem className_of_unifyPred {p q : Pred} {s : Subst} (h : unifyPred p q.renameApart = .ok s) :
    p.className = q.className := by
  unfold unifyPred at h
  split at h
  · assumption
  · cases h

/-- A declaration is refused for overlap exactly if its head shares an instance with a stored head of its class. -/
theorem exists_overlapping_iff_shares (hclass : env.isDefined new.head.className = true)
    (hnew : new.head.Kinded con)
    (hstored : ∀ i ∈ env.instancesOf new.head.className, i.head.Kinded con ∧ i.head.Unreserved) :
    (∃ existing, env.addInstance new = .error (.overlappingInstance new.head existing)) ↔
      ∃ i ∈ env.instancesOf new.head.className, new.head.SharesInstance con i.head := by
  rw [exists_overlapping_iff hclass]
  constructor
  · rintro ⟨i, hi, s, hs⟩
    have hmem : i ∈ env.instancesOf new.head.className := mem_instancesOf.2 ⟨hi, className_of_unifyPred hs⟩
    obtain ⟨hkinded, hnames⟩ := hstored i hmem
    exact ⟨i, hmem, (Pred.exists_unifyPred_iff hkinded hnames hnew).1 ⟨s, hs⟩⟩
  · rintro ⟨i, hmem, hshares⟩
    obtain ⟨hkinded, hnames⟩ := hstored i hmem
    exact ⟨i, (mem_instancesOf.1 hmem).1, (Pred.exists_unifyPred_iff hkinded hnames hnew).2 hshares⟩

/-- A declared class refuses an instance for overlap, and for nothing else. -/
theorem addInstance_eq_ok_of_not_overlapping (hclass : env.isDefined new.head.className = true)
    (h : ¬ ∃ existing, env.addInstance new = .error (.overlappingInstance new.head existing)) :
    env.addInstance new = .ok { env with instances := new :: env.instances } := by
  rw [addInstance, if_pos hclass] at h ⊢
  cases hcheck : env.overlapping? new.head with
  | none => rfl
  | some existing => exact absurd ⟨existing.head, by rw [hcheck]⟩ h

end ClassEnv

/-! ## At most one instance -/

/-- Where no two elements pass a test together, at most one passes it. -/
theorem length_filter_le_one {α : Type} {R : α → α → Prop} {f : α → Bool} {l : List α} (hl : l.Pairwise R)
    (hR : ∀ a ∈ l, ∀ b ∈ l, R a b → f a = true → f b = false) : (l.filter f).length ≤ 1 := by
  induction l with
  | nil => exact Nat.zero_le 1
  | cons a l ih =>
    obtain ⟨hfirst, hrest⟩ := List.pairwise_cons.1 hl
    have hrest := ih hrest fun b hb c hc => hR b (List.mem_cons_of_mem _ hb) c (List.mem_cons_of_mem _ hc)
    by_cases ha : f a = true
    · have hnil : l.filter f = [] := by
        rw [List.filter_eq_nil_iff]
        intro b hb
        simp [hR a List.mem_cons_self b (List.mem_cons_of_mem _ hb) (hfirst b hb) ha]
      rw [List.filter_cons_of_pos ha, hnil]
      exact Nat.le_refl 1
    · rwa [List.filter_cons_of_neg ha]

namespace ClassEnv

variable {con : String → Option Kind} {env : ClassEnv}

/-- The instances whose heads match a predicate. -/
def matching (env : ClassEnv) (p : Pred) : List Instance :=
  env.instances.filter fun i => decide (p.MatchedBy i.head)

/-- **At most one of the instances that were accepted matches a predicate.** -/
theorem Reachable.length_matching_le_one (h : env.Reachable)
    (hkinded : ∀ i ∈ env.instances, i.head.Kinded con) (hnames : ∀ i ∈ env.instances.tail, i.head.Unreserved)
    {p : Pred} (hp : p.ty.ConsFit con) : (env.matching p).length ≤ 1 := by
  refine length_filter_le_one (h.apart_of_heads hkinded hnames) fun i hi j hj hapart hmatch => ?_
  rw [decide_eq_true_iff] at hmatch
  rw [decide_eq_false_iff_not]
  rintro ⟨s₂, h₂⟩
  obtain ⟨s₁, h₁⟩ := hmatch
  exact hapart (Pred.overlaps_of_matchPred (hkinded i hi) (hkinded j hj) hp h₁ h₂)

/-- **The check for overlap is exact.**  Let the new head and the stored heads of its class be well kinded, and
let no stored head use a name that renaming uses.  Then the declaration is refused for overlap iff some
predicate without slots is matched by the new head and by a stored one, and it succeeds otherwise.  In an
environment that such declarations lead to, a predicate is matched by at most one instance. -/
theorem addInstance_exact (con : String → Option Kind) :
    (∀ (env : ClassEnv) (new : Instance), env.isDefined new.head.className = true → new.head.Kinded con →
      (∀ i ∈ env.instancesOf new.head.className, i.head.Kinded con ∧ i.head.Unreserved) →
      ((∃ existing, env.addInstance new = .error (.overlappingInstance new.head existing)) ↔
        ∃ i ∈ env.instancesOf new.head.className, new.head.SharesInstance con i.head) ∧
      ((¬ ∃ existing, env.addInstance new = .error (.overlappingInstance new.head existing)) →
        env.addInstance new = .ok { env with instances := new :: env.instances })) ∧
    ∀ env : ClassEnv, env.Reachable → (∀ i ∈ env.instances, i.head.Kinded con) →
      (∀ i ∈ env.instances.tail, i.head.Unreserved) →
      ∀ p : Pred, p.ty.ConsFit con → (env.matching p).length ≤ 1 := by
  refine ⟨fun env new hclass hnew hstored => ⟨?_, ?_⟩, fun env hreach hkinded hnames p hp => ?_⟩
  · exact exists_overlapping_iff_shares hclass hnew hstored
  · exact addInstance_eq_ok_of_not_overlapping hclass
  · exact hreach.length_matching_le_one hkinded hnames hp

/-- Lists of lists are ordered, with a variable that is named like a renamed one. -/
def ordNested : Instance := ⟨[], ⟨"Ord", .list (.list (.var ⟨"%0", .star⟩))⟩⟩

/-- Functions from a type to itself are ordered. -/
def ordFunctions : Instance := ⟨[], ⟨"Ord", .fn (.var ⟨"%0", .star⟩) (.var ⟨"%0", .star⟩)⟩⟩

/-- Functions from lists of `x` to such lists are ordered. -/
def ordListFunction : Pred := ⟨"Ord", .fn (.list (.var ⟨"x", .star⟩)) (.list (.var ⟨"x", .star⟩))⟩

/-- The small prelude orders lists.  It has no room for an order of lists of lists, but takes one of functions. -/
theorem addInstance_exact_small :
    (∃ existing, Prelude.small.classEnv.addInstance ordNested =
      .error (.overlappingInstance ordNested.head existing)) ∧
    ∃ env, Prelude.small.classEnv.addInstance ordFunctions = .ok env ∧
      ordListFunction.MatchedBy ordFunctions.head ∧ (env.matching ordListFunction).length ≤ 1 := by
  have hprelude := Config.build_sound Config.build_small
  have hkinded : ∀ i ∈ Prelude.small.classEnv.instances, i.head.Kinded Constructors.base.find? :=
    fun i hi => (hprelude.wellKinded i hi).head
  have hnames : ∀ i ∈ Prelude.small.classEnv.instances, i.head.Unreserved :=
    fun i hi => (hprelude.wellKinded i hi).unreserved
  have hstored : ∀ i ∈ Prelude.small.classEnv.instancesOf "Ord",
      i.head.Kinded Constructors.base.find? ∧ i.head.Unreserved :=
    fun i hi => ⟨hkinded i (mem_instancesOf.1 hi).1, hnames i (mem_instancesOf.1 hi).1⟩
  have hnested : ordNested.head.Kinded Constructors.base.find? :=
    ⟨fun _ => some .star, by decide, by decide, rfl⟩
  have hfunctions : ordFunctions.head.Kinded Constructors.base.find? :=
    ⟨fun _ => some .star, by decide, by decide, rfl⟩
  obtain ⟨hcheck, hone⟩ := addInstance_exact Constructors.base.find?
  constructor
  · refine (hcheck _ ordNested (by decide) hnested hstored).1.2 ⟨ordList, by decide, ?_⟩
    exact ⟨⟨"Ord", .list (.list (.var ⟨"x", .star⟩))⟩, rfl, by decide, by decide, by decide⟩
  · obtain ⟨hiff, hok⟩ := hcheck _ ordFunctions (by decide) hfunctions hstored
    have hadded : Prelude.small.classEnv.addInstance ordFunctions =
        .ok { Prelude.small.classEnv with instances := ordFunctions :: Prelude.small.classEnv.instances } := by
      refine hok (hiff.not.2 ?_)
      rintro ⟨i, hi, r, _, _, ⟨s₁, h₁⟩, s₂, h₂⟩
      obtain rfl : i = ordList := List.mem_singleton.1 (mem_instancesOf.1 hi).1
      -- the two heads begin with different constructors, whatever is put for their variables
      have hequal := (matchPred_eq_ok h₁).2.eq.trans (matchPred_eq_ok h₂).2.eq.symm
      cases hequal
    refine ⟨_, hadded, by decide, hone _ (.addInstance hprelude.reachable hadded) ?_ hnames _ (by decide)⟩
    exact List.forall_mem_cons.2 ⟨hfunctions, hkinded⟩

end ClassEnv

end QualifiedTypes
