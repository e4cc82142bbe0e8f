import Mathlib
import QualifiedTypes.Proofs.Matching
import QualifiedTypes.Proofs.Superclasses
import QualifiedTypes.Proofs.Unification

/-!
# Instances

A step through the instances takes a predicate to an instance of a context.  Where contexts are smaller
than heads, such steps go down.  Where heads do not overlap, there is at most one step, so that the first
instance that matches is the right one.

* `Pred.MatchedBy`, `ClassEnv.byInst_eq_error`: there is no step where no head matches.
* `Instance.Shrinking`: contexts are smaller than heads.
* `ClassEnv.Shrinking.byInst_size_lt`: a step makes types smaller.
* `Instance.Shrinking.mem_head`: where each id has one kind, all variables of an instance stand in its head.
* `unify_renameApart`: heads with a common instance unify as soon as one is renamed.
* `Pred.Overlaps`, `Pred.overlaps_iff`: the check for overlap finds out whether two heads have a common
  instance, which is a symmetric relation although the check treats the two differently.
* `ClassEnv.Reachable.byInst_eq`: a predicate that is an instance of a head has the context of that
  instance, whatever other instances there are.
-/

namespace QualifiedTypes

/-! ## Sizes -/

/-- Each variable contributes what its id is bound to. -/
theorem Ty.size_subst (s : Subst) (t : Ty) :
    (t.subst s).size = t.size + (t.ids.map fun id => (s.lookup id).elim 0 fun u => u.size - 1).sum := by
  induction t with
  | var v =>
    rw [ids_var, List.map_singleton, List.sum_singleton, subst]
    cases s.lookup v.id with
    | none => rfl
    | some u =>
      have := u.size_pos
      simp only [Option.getD_some, Option.elim_some, size]
      omega
  | con c => rfl
  | gen n => rfl
  | app f x ihf ihx =>
    rw [subst_app, size, ihf, ihx, size, ids_app, List.map_append, List.sum_append]
    omega

/-- Every type of the context has fewer nodes than that of the head, and no id more often.  Substitutions look
at ids only, so that this is all that matters for sizes, whatever kinds there are. -/
def Instance.Shrinking (i : Instance) : Prop :=
  ∀ q ∈ i.context, q.ty.size < i.head.ty.size ∧ ∀ id ∈ q.ty.ids, q.ty.ids.count id ≤ i.head.ty.ids.count id

instance (i : Instance) : Decidable (Instance.Shrinking i) :=
  inferInstanceAs (Decidable (∀ q ∈ i.context, q.ty.size < i.head.ty.size ∧
    ∀ id ∈ q.ty.ids, q.ty.ids.count id ≤ i.head.ty.ids.count id))

/-- An instance of a shrinking context is smaller than the same instance of the head. -/
theorem Instance.Shrinking.size_subst_lt {i : Instance} (h : Instance.Shrinking i) {q : Pred}
    (hq : q ∈ i.context) (s : Subst) : (q.ty.subst s).size < (i.head.ty.subst s).size := by
  obtain ⟨hsize, hcount⟩ := h q hq
  obtain ⟨l, hperm, hsub⟩ := List.subperm_ext_iff.2 hcount
  have hsum := (hsub.map fun id => (s.lookup id).elim 0 fun u => u.size - 1).sum_le_sum (by simp)
  rw [(hperm.map fun id => (s.lookup id).elim 0 fun u => u.size - 1).sum_eq] at hsum
  rw [Ty.size_subst, Ty.size_subst]
  omega

/-! ## Steps through the instances -/

namespace Pred

/-- Constructors are listed with their kinds, each variable has one kind, and there are no slots. -/
def Kinded (con : String → Option Kind) (p : Pred) : Prop :=
  ∃ var : String → Option Kind, p.ty.Fits ⟨var, con⟩

/-- No variable is named like a renamed one. -/
def Unreserved (p : Pred) : Prop := ∀ v ∈ p.ty.occurrences, ∀ n : Nat, v.id ≠ "%" ++ toString n

/-- The predicate is an instance of the pattern. -/
def MatchedBy (p pattern : Pred) : Prop := ∃ s, matchPred pattern p = .ok s

theorem matchedBy_iff {p pattern : Pred} : p.MatchedBy pattern ↔ (matchPred pattern p).toBool = true := by
  unfold MatchedBy
  cases matchPred pattern p <;> simp [Except.toBool]

instance (p pattern : Pred) : Decidable (p.MatchedBy pattern) := decidable_of_iff' _ matchedBy_iff

end Pred

theorem matchPred_eq_ok {pattern target : Pred} {s : Subst} (h : matchPred pattern target = .ok s) :
    pattern.className = target.className ∧ s.Matches pattern.ty target.ty := by
  unfold matchPred at h
  split at h
  · exact ⟨‹_›, matchTy_matches h⟩
  · cases h

/-- A predicate matches whatever a substitution that keeps kinds makes of it, and the match acts like that
substitution. -/
theorem matchPred_complete {con : String → Option Kind} {pattern : Pred} (hpattern : pattern.Kinded con)
    {s : Subst} (hkeeps : ∀ v ∈ pattern.ty.occurrences, ((Ty.var v).subst s).kind = v.kind)
    (hslots : (pattern.ty.subst s).firstGen? = none) :
    ∃ s', matchPred pattern (s.apply pattern) = .ok s' ∧
      ∀ v ∈ pattern.ty.occurrences, (Ty.var v).subst s' = (Ty.var v).subst s := by
  obtain ⟨var, hfits⟩ := hpattern
  rw [matchPred, Subst.apply_pred, if_pos rfl]
  exact matchTy_complete hfits.vars hfits.slotFree hkeeps hslots

/-- What an instance makes of a predicate, if its head matches. -/
def Instance.answer (p : Pred) (i : Instance) : Option (List Pred) :=
  (matchPred i.head p).toOption.map fun s => s.apply i.context

theorem Instance.answer_eq_some_iff {p : Pred} {i : Instance} {context : List Pred} :
    Instance.answer p i = some context ↔ ∃ s, matchPred i.head p = .ok s ∧ context = s.apply i.context := by
  unfold Instance.answer
  cases matchPred i.head p with
  | error e => simp [Except.toOption]
  | ok s => simp [Except.toOption, eq_comm]

namespace ClassEnv

/-- A step takes the first answer. -/
theorem byInst_eq_findSome? (env : ClassEnv) (p : Pred) :
    env.byInst p = match env.instances.findSome? (Instance.answer p) with
      | some context => .ok context
      | none => .error ⟨p⟩ := rfl

theorem byInst_eq_ok {env : ClassEnv} {p : Pred} {context : List Pred} (h : env.byInst p = .ok context) :
    ∃ i ∈ env.instances, ∃ s, matchPred i.head p = .ok s ∧ context = s.apply i.context := by
  rw [byInst_eq_findSome?] at h
  split at h
  · rename_i hfind
    cases h
    obtain ⟨i, hi, hsome⟩ := List.exists_of_findSome?_eq_some hfind
    exact ⟨i, hi, Instance.answer_eq_some_iff.1 hsome⟩
  · cases h

/-- There is no step where no head matches, and then the predicate itself is reported. -/
theorem byInst_eq_error {env : ClassEnv} {p : Pred} {e : MissingInstance} (h : env.byInst p = .error e) :
    e.pred = p ∧ ∀ i ∈ env.instances, ¬ p.MatchedBy i.head := by
  rw [byInst_eq_findSome?] at h
  split at h
  · cases h
  · rename_i hnone
    cases h
    refine ⟨rfl, fun i hi hmatch => ?_⟩
    obtain ⟨s, hs⟩ := hmatch
    have hanswer := List.findSome?_eq_none_iff.1 hnone i hi
    rw [Instance.answer_eq_some_iff.2 ⟨s, hs, rfl⟩] at hanswer
    cases hanswer

/-- All instances are shrinking. -/
def Shrinking (env : ClassEnv) : Prop := ∀ i ∈ env.instances, Instance.Shrinking i

instance (env : ClassEnv) : Decidable env.Shrinking :=
  inferInstanceAs (Decidable (∀ i ∈ env.instances, Instance.Shrinking i))

/-- **A step through shrinking instances makes types smaller.** -/
theorem Shrinking.byInst_size_lt {env : ClassEnv} (henv : env.Shrinking) {p : Pred} {context : List Pred}
    (h : env.byInst p = .ok context) : ∀ q ∈ context, q.ty.size < p.ty.size := by
  obtain ⟨i, hi, s, hm, rfl⟩ := byInst_eq_ok h
  intro q hq
  obtain ⟨q₀, hq₀, rfl⟩ := List.mem_map.1 hq
  rw [← (matchPred_eq_ok hm).2.size_eq]
  exact (henv i hi).size_subst_lt hq₀ s

end ClassEnv

/-! ## Unifying renamed heads -/

/-- The common instance of two heads, as one substitution: the variables of the first head go where `s₁`
sends them, the renamed variables of the second go where `s₂` sends the variables they stand for. -/
def jointSubst (h₁ h₂ : Pred) (s₁ s₂ : Subst) : Subst :=
  ⟨(freeVars h₂).mapIdx (fun n v => (⟨"%" ++ toString n, v.kind⟩, (Ty.var v).subst s₂)) ++
    h₁.ty.occurrences.map fun v => (v, (Ty.var v).subst s₁)⟩

variable {con var₁ var₂ : String → Option Kind} {h₁ h₂ : Pred} {s₁ s₂ : Subst}

theorem lookup_jointSubst_left (hfits : h₁.ty.VarsFit var₁) {v : TyVar} (hv : v ∈ h₁.ty.occurrences)
    (hname : ∀ n : Nat, v.id ≠ "%" ++ toString n) :
    (jointSubst h₁ h₂ s₁ s₂).lookup v.id = some ((Ty.var v).subst s₁) := by
  have hrenamed : ((freeVars h₂).mapIdx fun n v => ((⟨"%" ++ toString n, v.kind⟩ : TyVar),
      (Ty.var v).subst s₂)).find? (fun b => b.1.id == v.id) = none := by
    rw [List.find?_eq_none]
    intro b hb
    obtain ⟨n, hn, rfl⟩ := List.mem_mapIdx.1 hb
    simpa using Ne.symm (hname n)
  have hown : (h₁.ty.occurrences.map fun v => (v, (Ty.var v).subst s₁)).find? (fun b => b.1.id == v.id) =
      some (v, (Ty.var v).subst s₁) := by
    rw [List.find?_map]
    cases hfind : h₁.ty.occurrences.find? ((fun b => b.1.id == v.id) ∘ fun v => (v, (Ty.var v).subst s₁)) with
    | none => exact absurd (List.find?_eq_none.1 hfind v hv) (by simp)
    | some w =>
      have hid : w.id = v.id := by simpa using List.find?_some hfind
      rw [hfits.eq_of_id_eq hfits (List.mem_of_find?_eq_some hfind) hv hid]
      rfl
  rw [Subst.lookup, jointSubst, List.find?_append, hrenamed, Option.none_or, hown]
  rfl

theorem lookup_jointSubst_right {n : Nat} {v : TyVar} (hv : (freeVars h₂)[n]? = some v) :
    (jointSubst h₁ h₂ s₁ s₂).lookup ("%" ++ toString n) = some ((Ty.var v).subst s₂) := by
  obtain ⟨hn, rfl⟩ := List.getElem?_eq_some_iff.1 hv
  have hrenamed : ((freeVars h₂).mapIdx fun n v => ((⟨"%" ++ toString n, v.kind⟩ : TyVar),
      (Ty.var v).subst s₂)).find? (fun b => b.1.id == "%" ++ toString n) =
      some (⟨"%" ++ toString n, (freeVars h₂)[n].kind⟩, (Ty.var (freeVars h₂)[n]).subst s₂) := by
    rw [List.find?_eq_some_iff_getElem]
    refine ⟨by simp, n, by simpa using hn, by simp, fun m hm => ?_⟩
    have hne : "%" ++ toString m ≠ "%" ++ toString n := fun he => by
      have := append_toString_injective he
      omega
    simpa using hne
  rw [Subst.lookup, jointSubst, List.find?_append, hrenamed]
  rfl

/-- The renaming of the variables of a predicate. -/
def apartSubst (p : Pred) : Subst := ⟨(freeVars p).mapIdx fun n v => (v, .var ⟨"%" ++ toString n, v.kind⟩)⟩

theorem subst_apartSubst (hfits : h₂.ty.VarsFit var₂) {v : TyVar} (hv : v ∈ h₂.ty.occurrences) :
    ∃ n : Nat, (freeVars h₂)[n]? = some v ∧
      (Ty.var v).subst (apartSubst h₂) = .var ⟨"%" ++ toString n, v.kind⟩ := by
  have hmem : h₂.ty ∈ types h₂ := List.mem_singleton.2 rfl
  obtain ⟨n, w, hw, hid, hlook⟩ := Subst.lookup_mapIdx
    (f := fun n v => .var ⟨"%" ++ toString n, v.kind⟩) (mem_ids_freeVars hmem hv)
  have hocc : w ∈ h₂.ty.occurrences := by
    have := mem_of_mem_distinctOn TyVar.id (List.mem_of_getElem? hw)
    simpa [occurrences, types] using this
  rw [hfits.eq_of_id_eq hfits hocc hv hid] at hw hlook
  exact ⟨n, hw, Ty.subst_var_of_lookup hlook⟩

/-- The kinds that the joint substitution of two heads assigns. -/
def jointTable (con : String → Option Kind) (h₁ h₂ : Pred) (s₁ s₂ : Subst) : KindTable :=
  ⟨fun id => ((jointSubst h₁ h₂ s₁ s₂).lookup id).map Ty.kind, con⟩

/-- A head and a renamed head fit one table, as long as the first has no variable named like a renamed one
and both substitutions keep kinds. -/
theorem fits_jointTable (hfits₁ : h₁.ty.Fits ⟨var₁, con⟩) (hfits₂ : h₂.ty.Fits ⟨var₂, con⟩)
    (hnames : h₁.Unreserved)
    (hkeeps₁ : ∀ v ∈ h₁.ty.occurrences, ((Ty.var v).subst s₁).kind = v.kind)
    (hkeeps₂ : ∀ v ∈ h₂.ty.occurrences, ((Ty.var v).subst s₂).kind = v.kind) :
    h₁.ty.Fits (jointTable con h₁ h₂ s₁ s₂) ∧
      (h₂.ty.subst (apartSubst h₂)).Fits (jointTable con h₁ h₂ s₁ s₂) := by
  have hleft : ∀ v ∈ h₁.ty.occurrences, (jointTable con h₁ h₂ s₁ s₂).var v.id = some v.kind := by
    intro v hv
    show ((jointSubst h₁ h₂ s₁ s₂).lookup v.id).map Ty.kind = some v.kind
    rw [lookup_jointSubst_left hfits₁.vars hv (hnames v hv), Option.map_some, hkeeps₁ v hv]
  have hright : ∀ v ∈ h₂.ty.occurrences,
      ((Ty.var v).subst (apartSubst h₂)).Fits (jointTable con h₁ h₂ s₁ s₂) := by
    intro v hv
    obtain ⟨n, hn, hsubst⟩ := subst_apartSubst hfits₂.vars hv
    rw [hsubst, Ty.fits_var]
    show ((jointSubst h₁ h₂ s₁ s₂).lookup ("%" ++ toString n)).map Ty.kind = some v.kind
    rw [lookup_jointSubst_right hn, Option.map_some, hkeeps₂ v hv]
  refine ⟨⟨hleft, hfits₁.cons, hfits₁.slotFree⟩, fun w hw => ?_, ?_, ?_⟩
  · obtain ⟨v, hv, hw⟩ := Ty.mem_occurrences_subst.1 hw
    exact (hright v hv).vars w hw
  · exact Ty.consFit_subst.2 ⟨hfits₂.cons, fun v hv => (hright v hv).cons⟩
  · exact Ty.firstGen?_subst.2 ⟨hfits₂.slotFree, fun v hv => (hright v hv).slotFree⟩

/-- **Heads with a common instance unify** as soon as the variables of one are renamed. -/
theorem unify_renameApart (hfits₁ : h₁.ty.Fits ⟨var₁, con⟩) (hfits₂ : h₂.ty.Fits ⟨var₂, con⟩)
    (hnames : h₁.Unreserved)
    (hkeeps₁ : ∀ v ∈ h₁.ty.occurrences, ((Ty.var v).subst s₁).kind = v.kind)
    (hkeeps₂ : ∀ v ∈ h₂.ty.occurrences, ((Ty.var v).subst s₂).kind = v.kind)
    (heq : h₁.ty.subst s₁ = h₂.ty.subst s₂) : ∃ s, unify h₁.ty h₂.renameApart.ty = .ok s := by
  let θ := jointSubst h₁ h₂ s₁ s₂
  obtain ⟨hK₁, hK₂⟩ := fits_jointTable hfits₁ hfits₂ hnames hkeeps₁ hkeeps₂
  have hkeeps : θ.KeepsKinds (jointTable con h₁ h₂ s₁ s₂).var := by
    intro id k t hk ht
    have hk : (θ.lookup id).map Ty.kind = some k := hk
    rw [ht] at hk
    exact Option.some.inj hk
  have hact₁ : h₁.ty.subst θ = h₁.ty.subst s₁ :=
    Ty.subst_congr fun v hv => Ty.subst_var_of_lookup (lookup_jointSubst_left hfits₁.vars hv (hnames v hv))
  have hact₂ : (h₂.ty.subst (apartSubst h₂)).subst θ = h₂.ty.subst s₂ := by
    rw [← Ty.subst_compose]
    refine Ty.subst_congr fun v hv => ?_
    obtain ⟨n, hn, hsubst⟩ := subst_apartSubst hfits₂.vars hv
    rw [Ty.subst_compose, hsubst]
    exact Ty.subst_var_of_lookup (lookup_jointSubst_right hn)
  obtain ⟨s, hs, _⟩ := unify_complete hK₁ hK₂ hkeeps (by rw [hact₁, hact₂, heq])
  exact ⟨s, hs⟩

/-! ## Well-kinded instances -/

/-- Each variable of the instance has one kind, constructors are listed, there are no slots, and no variable
is named like a renamed one. -/
structure Instance.WellKinded (con : String → Option Kind) (i : Instance) : Prop where
  fits : ∃ var : String → Option Kind, ∀ t ∈ types i, t.Fits ⟨var, con⟩
  names : ∀ v ∈ occurrences i, ∀ n : Nat, v.id ≠ "%" ++ toString n

theorem Instance.mem_occurrences_head {i : Instance} {v : TyVar} (hv : v ∈ i.head.ty.occurrences) :
    v ∈ occurrences i :=
  List.mem_flatMap.2 ⟨i.head.ty, List.mem_append_right _ (List.mem_singleton.2 rfl), hv⟩

theorem Instance.mem_occurrences_context {i : Instance} {q : Pred} (hq : q ∈ i.context) {v : TyVar}
    (hv : v ∈ q.ty.occurrences) : v ∈ occurrences i :=
  List.mem_flatMap.2 ⟨q.ty, List.mem_append_left _ (List.mem_flatMap.2 ⟨q, hq, List.mem_singleton.2 rfl⟩), hv⟩

theorem Instance.WellKinded.head {i : Instance} (h : Instance.WellKinded con i) : i.head.Kinded con := by
  obtain ⟨var, hfits⟩ := h.fits
  exact ⟨var, (forall_mem_types_qual.1 hfits).2 _ (List.mem_singleton.2 rfl)⟩

theorem Instance.WellKinded.unreserved {i : Instance} (h : Instance.WellKinded con i) : i.head.Unreserved :=
  fun v hv => h.names v (Instance.mem_occurrences_head hv)

/-- All ids of a shrinking instance stand in its head. -/
theorem Instance.Shrinking.mem_ids_head {i : Instance} (h : Instance.Shrinking i) {t : Ty} (ht : t ∈ types i)
    {id : String} (hid : id ∈ t.ids) : id ∈ i.head.ty.ids := by
  rcases List.mem_append.1 ht with ht | ht
  · obtain ⟨q, hq, ht⟩ := List.mem_flatMap.1 ht
    rw [List.mem_singleton.1 ht] at hid
    have hcount := (h q hq).2 id hid
    have hpos := List.count_pos_iff.2 hid
    exact List.count_pos_iff.1 (by omega)
  · rwa [List.mem_singleton.1 ht] at hid

/-- All variables of a shrinking instance stand in its head, since each id has one kind. -/
theorem Instance.Shrinking.mem_head {i : Instance} (h : Instance.Shrinking i) (hkinded : Instance.WellKinded con i)
    {v : TyVar} (hv : v ∈ occurrences i) : v ∈ i.head.ty.occurrences := by
  obtain ⟨var, hfits⟩ := hkinded.fits
  obtain ⟨t, ht, hvt⟩ := List.mem_flatMap.1 hv
  have hhead := (forall_mem_types_qual.1 hfits).2 _ (List.mem_singleton.2 rfl)
  obtain ⟨w, hw, hid⟩ := Ty.exists_of_mem_ids (h.mem_ids_head ht (Ty.mem_ids_of_mem_occurrences hvt))
  rwa [hhead.vars.eq_of_id_eq (hfits t ht).vars hw hvt hid] at hw

/-- An instance of a context has slots or loose constructors only where the same instance of the head has
them. -/
theorem Instance.context_fits {i : Instance} (hshrink : Instance.Shrinking i)
    (h : Instance.WellKinded con i) {s : Subst} (hslots : (i.head.ty.subst s).firstGen? = none)
    (hcons : (i.head.ty.subst s).ConsFit con) {q : Pred} (hq : q ∈ s.apply i.context) :
    q.ty.firstGen? = none ∧ q.ty.ConsFit con := by
  obtain ⟨var, hfits⟩ := h.fits
  obtain ⟨q₀, hq₀, rfl⟩ := List.mem_map.1 hq
  have hq₀fits := (forall_mem_types_qual.1 hfits).1 q₀ hq₀
  refine ⟨Ty.firstGen?_subst.2 ⟨hq₀fits.slotFree, fun v hv => ?_⟩,
    Ty.consFit_subst.2 ⟨hq₀fits.cons, fun v hv => ?_⟩⟩
  · exact (Ty.firstGen?_subst.1 hslots).2 v (hshrink.mem_head h (mem_occurrences_context hq₀ hv))
  · exact (Ty.consFit_subst.1 hcons).2 v (hshrink.mem_head h (mem_occurrences_context hq₀ hv))

/-- A step through the instances brings in neither slots nor loose constructors. -/
theorem ClassEnv.byInst_fits {env : ClassEnv} (hkinded : ∀ i ∈ env.instances, Instance.WellKinded con i)
    {p : Pred} {context : List Pred} (h : env.byInst p = .ok context) (hcons : p.ty.ConsFit con) :
    ∀ q ∈ context, q.ty.firstGen? = none ∧ q.ty.ConsFit con := by
  obtain ⟨i, hi, s, hmatch, rfl⟩ := byInst_eq_ok h
  obtain ⟨_, hm⟩ := matchPred_eq_ok hmatch
  obtain ⟨var, hfits⟩ := (hkinded i hi).fits
  intro q hq
  obtain ⟨q₀, hq₀, rfl⟩ := List.mem_map.1 hq
  have hq₀fits := (forall_mem_types_qual.1 hfits).1 q₀ hq₀
  -- what a variable stands for is a part of the type that was matched
  refine Ty.slotFree_consFit_subst (fun b hb => ⟨hm.slotFree b hb, fun c hc => ?_⟩)
    ⟨hq₀fits.slotFree, hq₀fits.cons⟩
  exact hcons c ((hm.parts b hb).mem_constructors hc)

/-! ## Overlap of heads -/

namespace Pred

/-- Some predicate is an instance of both. -/
def Overlaps (p q : Pred) : Prop :=
  ∃ s₁ s₂ : Subst, (∀ v ∈ p.ty.occurrences, ((Ty.var v).subst s₁).kind = v.kind) ∧
    (∀ v ∈ q.ty.occurrences, ((Ty.var v).subst s₂).kind = v.kind) ∧ s₁.apply p = s₂.apply q

theorem Overlaps.symm {p q : Pred} (h : p.Overlaps q) : q.Overlaps p := by
  obtain ⟨s₁, s₂, hkeeps₁, hkeeps₂, heq⟩ := h
  exact ⟨s₂, s₁, hkeeps₂, hkeeps₁, heq.symm⟩

variable {old new : Pred}

/-- A unifier of a head and a renamed head gives a common instance of the two heads, which has no slots and
whose constructors are listed. -/
theorem exists_common_of_unifyPred (hold : old.Kinded con) (hnames : old.Unreserved) (hnew : new.Kinded con)
    {s : Subst} (h : unifyPred old new.renameApart = .ok s) :
    ∃ s₁ s₂ : Subst, (∀ v ∈ old.ty.occurrences, ((Ty.var v).subst s₁).kind = v.kind) ∧
      (∀ v ∈ new.ty.occurrences, ((Ty.var v).subst s₂).kind = v.kind) ∧ s₁.apply old = s₂.apply new ∧
      (old.ty.subst s₁).firstGen? = none ∧ (old.ty.subst s₁).ConsFit con := by
  obtain ⟨var₁, hfits₁⟩ := hold
  obtain ⟨var₂, hfits₂⟩ := hnew
  unfold unifyPred at h
  split at h
  · rename_i hclass
    have hempty : ∀ t : Ty, ∀ v ∈ t.occurrences, ((Ty.var v).subst .empty).kind = v.kind := fun _ _ _ => rfl
    obtain ⟨hK₁, hK₂⟩ := fits_jointTable hfits₁ hfits₂ hnames (hempty _) (hempty _)
    obtain ⟨hs, heq⟩ := unify_sound hK₁ hK₂ h
    refine ⟨s, s.compose (apartSubst new), fun v hv => ?_, fun v hv => ?_, ?_, (hK₁.subst hs).slotFree,
      (hK₁.subst hs).cons⟩
    · exact (Ty.fits_var.2 (hK₁.vars v hv)).kind_subst hs
    · obtain ⟨n, _, hsubst⟩ := subst_apartSubst hfits₂.vars hv
      have hmem : (⟨"%" ++ toString n, v.kind⟩ : TyVar) ∈ (new.ty.subst (apartSubst new)).occurrences := by
        rw [Ty.mem_occurrences_subst]
        exact ⟨v, hv, by rw [hsubst]; exact List.mem_cons_self⟩
      rw [Ty.subst_compose, hsubst]
      exact (Ty.fits_var.2 (hK₂.vars _ hmem)).kind_subst hs
    · have hclass : old.className = new.className := hclass
      rw [Subst.apply_pred, Subst.apply_pred, Ty.subst_compose, hclass]
      exact congrArg _ heq
  · cases h

/-- **The check finds out whether two heads have a common instance.** -/
theorem overlaps_iff (hold : old.Kinded con) (hnames : old.Unreserved) (hnew : new.Kinded con) :
    old.Overlaps new ↔ ∃ s, unifyPred old new.renameApart = .ok s := by
  constructor
  · rintro ⟨s₁, s₂, hkeeps₁, hkeeps₂, heq⟩
    obtain ⟨var₁, hfits₁⟩ := hold
    obtain ⟨var₂, hfits₂⟩ := hnew
    rw [Subst.apply_pred, Subst.apply_pred, Pred.mk.injEq] at heq
    rw [unifyPred, if_pos (show old.className = new.renameApart.className from heq.1)]
    exact unify_renameApart hfits₁ hfits₂ hnames hkeeps₁ hkeeps₂ heq.2
  · rintro ⟨s, hs⟩
    obtain ⟨s₁, s₂, hkeeps₁, hkeeps₂, heq, _⟩ := exists_common_of_unifyPred hold hnames hnew hs
    exact ⟨s₁, s₂, hkeeps₁, hkeeps₂, heq⟩

/-- Two heads that match one predicate overlap. -/
theorem overlaps_of_matchPred (hold : old.Kinded con) (hnew : new.Kinded con) {p : Pred}
    (hp : p.ty.ConsFit con) {s₁ s₂ : Subst} (h₁ : matchPred old p = .ok s₁) (h₂ : matchPred new p = .ok s₂) :
    old.Overlaps new := by
  obtain ⟨var₁, hfits₁⟩ := hold
  obtain ⟨var₂, hfits₂⟩ := hnew
  obtain ⟨hclass₁, hm₁⟩ := matchPred_eq_ok h₁
  obtain ⟨hclass₂, hm₂⟩ := matchPred_eq_ok h₂
  refine ⟨s₁, s₂, fun v hv => hm₁.kind_subst hfits₁.vars hv, fun v hv => hm₂.kind_subst hfits₂.vars hv, ?_⟩
  rw [Subst.apply_pred, Subst.apply_pred, hclass₁, hclass₂, hm₁.subst_eq hfits₁.cons hp,
    hm₂.subst_eq hfits₂.cons hp]

end Pred

/-! ## The instance that applies -/

/-- No two instances of a list have overlapping heads. -/
def Instance.Apart (is : List Instance) : Prop := is.Pairwise fun i j => ¬ i.head.Overlaps j.head

/-- An element is the first with an answer if no element before it has one. -/
theorem findSome?_of_pairwise {α β : Type} {R : α → α → Prop} {f : α → Option β} {l : List α}
    (hl : l.Pairwise R) (hR : ∀ a ∈ l, ∀ b ∈ l, R a b → f b ≠ none → f a = none) {a : α} (ha : a ∈ l)
    {b : β} (hf : f a = some b) : l.findSome? f = some b := by
  induction l with
  | nil => cases ha
  | cons c l ih =>
    rw [List.pairwise_cons] at hl
    rcases List.mem_cons.1 ha with rfl | ha
    · rw [List.findSome?_cons, hf]
    · have hnone := hR c List.mem_cons_self a (List.mem_cons_of_mem _ ha) (hl.1 a ha) (by simp [hf])
      rw [List.findSome?_cons, hnone]
      exact ih hl.2 (fun a ha b hb => hR a (List.mem_cons_of_mem _ ha) b (List.mem_cons_of_mem _ hb)) ha

namespace ClassEnv

variable {env : ClassEnv}

theorem overlapping?_eq_none_iff {new : Pred} (hnew : new.Kinded con)
    (hkinded : ∀ i ∈ env.instances, i.head.Kinded con) (hnames : ∀ i ∈ env.instances, i.head.Unreserved) :
    env.overlapping? new = none ↔ ∀ i ∈ env.instances, ¬ new.Overlaps i.head := by
  rw [overlapping?, List.find?_eq_none]
  refine forall₂_congr fun i hi => ?_
  have hiff : new.Overlaps i.head ↔ ∃ s, unifyPred i.head new.renameApart = .ok s :=
    Iff.trans ⟨Pred.Overlaps.symm, Pred.Overlaps.symm⟩ (Pred.overlaps_iff (hkinded i hi) (hnames i hi) hnew)
  rw [hiff]
  cases unifyPred i.head new.renameApart <;> simp [Except.toBool]

/-- No two instances that were declared overlap.  Only the newest may have variables named like renamed ones:
it is the head that is renamed when it is compared with the others. -/
theorem Reachable.apart_of_heads (h : env.Reachable) (hkinded : ∀ i ∈ env.instances, i.head.Kinded con)
    (hnames : ∀ i ∈ env.instances.tail, i.head.Unreserved) : Instance.Apart env.instances := by
  induction h with
  | empty => exact .nil
  | addClass _ added ih =>
    obtain ⟨_, _, rfl⟩ := addClass_eq_ok added
    exact ih hkinded hnames
  | addInstance _ added ih =>
    obtain ⟨hnone, rfl⟩ := addInstance_eq_ok added
    obtain ⟨hnew, holder⟩ := List.forall_mem_cons.1 hkinded
    exact List.pairwise_cons.2 ⟨(overlapping?_eq_none_iff hnew holder hnames).1 hnone,
      ih holder fun i hi => hnames i (List.mem_of_mem_tail hi)⟩
  | setDefaults _ defaults ih => exact ih hkinded hnames

theorem Reachable.apart (h : env.Reachable) (hkinded : ∀ i ∈ env.instances, Instance.WellKinded con i) :
    Instance.Apart env.instances :=
  h.apart_of_heads (fun i hi => (hkinded i hi).head) fun i hi =>
    (hkinded i (List.mem_of_mem_tail hi)).unreserved

/-- Where heads do not overlap, a step takes the answer of any instance that has one. -/
theorem byInst_of_answer (hapart : Instance.Apart env.instances)
    (hkinded : ∀ i ∈ env.instances, Instance.WellKinded con i) {i : Instance} (hi : i ∈ env.instances)
    {p : Pred} (hp : p.ty.ConsFit con) {context : List Pred} (h : Instance.answer p i = some context) :
    env.byInst p = .ok context := by
  rw [byInst_eq_findSome?, findSome?_of_pairwise hapart ?_ hi h]
  intro i hi j hj hij hsome
  obtain ⟨_, hj'⟩ := Option.ne_none_iff_exists'.1 hsome
  obtain ⟨s₂, h₂, _⟩ := Instance.answer_eq_some_iff.1 hj'
  cases hi' : Instance.answer p i with
  | none => rfl
  | some _ =>
    obtain ⟨s₁, h₁, _⟩ := Instance.answer_eq_some_iff.1 hi'
    exact absurd (Pred.overlaps_of_matchPred (hkinded i hi).head (hkinded j hj).head hp h₁ h₂) hij

/-- **There is one step at most**: what is an instance of a head comes down to the context of that instance,
and to nothing else. -/
theorem Reachable.byInst_eq (h : env.Reachable) (hshrink : env.Shrinking)
    (hkinded : ∀ i ∈ env.instances, Instance.WellKinded con i) {i : Instance} (hi : i ∈ env.instances)
    {s : Subst} (hkeeps : ∀ v ∈ occurrences i, ((Ty.var v).subst s).kind = v.kind)
    (hslots : (i.head.ty.subst s).firstGen? = none) (hcons : (i.head.ty.subst s).ConsFit con) :
    env.byInst (s.apply i.head) = .ok (s.apply i.context) := by
  obtain ⟨s', hmatch, hact⟩ := matchPred_complete (hkinded i hi).head
    (fun v hv => hkeeps v (Instance.mem_occurrences_head hv)) hslots
  -- the match acts like `s` on the context too, whose variables all stand in the head
  have hcontext : s'.apply i.context = s.apply i.context := by
    refine Subst.apply_congr (forall_mem_types_preds.2 fun q hq => Ty.subst_congr fun v hv => ?_)
    exact hact v ((hshrink i hi).mem_head (hkinded i hi) (Instance.mem_occurrences_context hq hv))
  exact byInst_of_answer (h.apart hkinded) hkinded hi hcons
    (Instance.answer_eq_some_iff.2 ⟨s', hmatch, hcontext.symm⟩)

end ClassEnv

end QualifiedTypes
