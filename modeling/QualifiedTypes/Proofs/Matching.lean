import QualifiedTypes.Proofs.Kinding
import QualifiedTypes.Proofs.Outcomes
import QualifiedTypes.Unify.Match

/-!
# Matching is exact

A match turns the pattern into the target, binds the variables of the pattern and no others, and keeps
kinds.  Constructors are compared by id, so pattern and result agree up to the kinds of constructors;
where the constructors that they share have one kind they agree.

* `Subst.lookup_merge`: where substitutions can be merged, the first one is looked into first.
* `Ty.PartOf`: the types that a type is built from, itself included.
* `matchTy_ok_induction`: the recursion of matching where it succeeds.
* `Subst.Matches`, `matchTy_matches`: what a match guarantees.
* `matchTy_complete`: a pattern matches whatever a substitution that keeps kinds makes of it, and the match
  acts like that substitution.
* `matchTy_exact`: which targets a pattern matches, and what the match is.
-/

namespace QualifiedTypes

namespace Subst

/-! ## Merging -/

theorem agreeOn_iff {s₁ s₂ : Subst} {v : TyVar} :
    s₁.agreeOn s₂ v = true ↔ (Ty.var v).subst s₁ = (Ty.var v).subst s₂ := by
  rw [agreeOn, apply_ty, apply_ty, beq_iff_eq]

theorem merge_eq_ok_iff {s₁ s₂ s : Subst} :
    s₁.merge s₂ = .ok s ↔
      (∀ v ∈ s₁.keys, v.id ∈ s₂.ids → (Ty.var v).subst s₁ = (Ty.var v).subst s₂) ∧
        s = ⟨s₁.bindings ++ s₂.bindings.filter fun b => !s₁.binds b.1.id⟩ := by
  have hnone : (s₁.keys.find? fun v => s₂.binds v.id && !s₁.agreeOn s₂ v) = none ↔
      ∀ v ∈ s₁.keys, v.id ∈ s₂.ids → (Ty.var v).subst s₁ = (Ty.var v).subst s₂ := by
    simp only [List.find?_eq_none, Bool.and_eq_true, Bool.not_eq_true', binds_iff, ← agreeOn_iff,
      not_and, Bool.not_eq_false]
  rw [merge, ← hnone]
  split
  · rename_i v hv
    simp [hv]
  · rename_i hv
    simp [hv, eq_comm]

theorem lookup_merge {s₁ s₂ s : Subst} (h : s₁.merge s₂ = .ok s) (id : String) :
    s.lookup id = (s₁.lookup id).or (s₂.lookup id) := by
  rw [(merge_eq_ok_iff.1 h).2, lookup_append_filter]
  intro hnone
  rwa [lookup_eq_none_iff, ← binds_iff, Bool.not_eq_true] at hnone

theorem mem_ids_merge {s₁ s₂ s : Subst} (h : s₁.merge s₂ = .ok s) {id : String} :
    id ∈ s.ids ↔ id ∈ s₁.ids ∨ id ∈ s₂.ids := by
  have hiff : ∀ r : Subst, id ∈ r.ids ↔ r.lookup id ≠ none := fun r => by
    rw [ne_eq, lookup_eq_none_iff, Decidable.not_not]
  rw [hiff, hiff, hiff, lookup_merge h, ne_eq, Option.or_eq_none_iff, Decidable.not_and_iff_not_or_not]

/-- A merge binds what its first part binds, and then what only the second does. -/
theorem keys_merge {s₁ s₂ s : Subst} (h : s₁.merge s₂ = .ok s) :
    s.keys = s₁.keys ++ s₂.keys.filter fun v => v.id ∉ s₁.ids := by
  rw [(merge_eq_ok_iff.1 h).2]
  simp only [keys, List.map_append, List.filter_map, ← binds_iff]
  congr 3
  funext b
  simp

/-- A merge acts as its first part on what that binds. -/
theorem subst_merge_left {s₁ s₂ s : Subst} (h : s₁.merge s₂ = .ok s) {t : Ty}
    (ht : ∀ id ∈ t.ids, id ∈ s₁.ids) : t.subst s = t.subst s₁ := by
  refine Ty.subst_congr_lookup fun id hid => ?_
  obtain ⟨u, hlook⟩ := exists_lookup_of_mem (ht id hid)
  rw [lookup_merge h, hlook, Option.some_or]

/-- A merge acts as its second part on what that binds, since the two parts agree. -/
theorem subst_merge_right {s₁ s₂ s : Subst} (h : s₁.merge s₂ = .ok s) {t : Ty}
    (ht : ∀ id ∈ t.ids, id ∈ s₂.ids) : t.subst s = t.subst s₂ := by
  refine Ty.subst_congr_lookup fun id hid => ?_
  rw [lookup_merge h]
  cases hlook : s₁.lookup id with
  | none => rfl
  | some u =>
    obtain ⟨v, hv, rfl⟩ := exists_of_lookup hlook
    have hagree := (merge_eq_ok_iff.1 h).1 v (List.mem_map.2 ⟨_, hv, rfl⟩) (ht v.id hid)
    obtain ⟨u₂, hlook₂⟩ := exists_lookup_of_mem (ht v.id hid)
    rw [Ty.subst_var_of_lookup hlook, Ty.subst_var_of_lookup hlook₂] at hagree
    rw [hagree, Option.some_or, hlook₂]

/-! ## What a match guarantees -/

end Subst

/-- A type is a part of itself and of what is built from it by application. -/
inductive Ty.PartOf (t : Ty) : Ty → Prop where
  | refl : PartOf t t
  | left {f : Ty} (h : PartOf t f) (x : Ty) : PartOf t (.app f x)
  | right (f : Ty) {x : Ty} (h : PartOf t x) : PartOf t (.app f x)

namespace Ty.PartOf

variable {t u : Ty}

theorem mem_constructors (h : t.PartOf u) {c : TyCon} (hc : c ∈ t.constructors) : c ∈ u.constructors := by
  induction h with
  | refl => exact hc
  | left _ _ ih => exact List.mem_append_left _ ih
  | right _ _ ih => exact List.mem_append_right _ ih

theorem mem_occurrences (h : t.PartOf u) {v : TyVar} (hv : v ∈ t.occurrences) : v ∈ u.occurrences := by
  induction h with
  | refl => exact hv
  | left _ _ ih => exact List.mem_append_left _ ih
  | right _ _ ih => exact List.mem_append_right _ ih

end Ty.PartOf

namespace Subst

/-- The substitution turns the pattern into the target, up to the kinds of constructors, and binds exactly
the variables of the pattern, to parts of the target of their kinds. -/
structure Matches (s : Subst) (pattern target : Ty) : Prop where
  eq : (pattern.subst s).eraseConKinds = target.eraseConKinds
  ids : ∀ id, id ∈ s.ids ↔ id ∈ pattern.ids
  keys : ∀ b ∈ s.bindings, b.1 ∈ pattern.occurrences
  kinds : ∀ b ∈ s.bindings, b.2.kind = b.1.kind
  slotFree : ∀ b ∈ s.bindings, b.2.firstGen? = none
  parts : ∀ b ∈ s.bindings, b.2.PartOf target

theorem matches_singleton {v : TyVar} {t : Ty} (hkind : v.kind = t.kind) (hslots : t.firstGen? = none) :
    (singleton v t).Matches (.var v) t := by
  have hbinding : ∀ b ∈ (singleton v t).bindings, b = (v, t) := fun b hb => List.mem_singleton.1 hb
  refine ⟨?_, ?_, ?_, ?_, ?_, ?_⟩
  · rw [Ty.subst_singleton_self]
  · simp [Subst.ids, Subst.keys, singleton]
  all_goals
    intro b hb
    rw [hbinding b hb]
  · exact List.mem_cons_self
  · exact hkind.symm
  · exact hslots
  · exact .refl

theorem matches_empty {c₁ c₂ : TyCon} (h : c₁.id = c₂.id) : empty.Matches (.con c₁) (.con c₂) := by
  refine ⟨?_, fun id => Iff.rfl, ?_, ?_, ?_, ?_⟩
  · rw [Ty.subst_con, Ty.eraseConKinds, Ty.eraseConKinds, h]
  all_goals
    intro b hb
    cases hb

/-- A merge acts on the variables of the left half as the match of that half does. -/
theorem Matches.var_merge_left {s₁ s₂ s : Subst} {l₁ l₂ : Ty} (hl : s₁.Matches l₁ l₂)
    (h : s₁.merge s₂ = .ok s) {v : TyVar} (hv : v ∈ l₁.occurrences) : (Ty.var v).subst s = (Ty.var v).subst s₁ := by
  refine subst_merge_left h fun id hid => (hl.ids id).2 ?_
  rw [List.mem_singleton.1 hid]
  exact Ty.mem_ids_of_mem_occurrences hv

theorem Matches.var_merge_right {s₁ s₂ s : Subst} {r₁ r₂ : Ty} (hr : s₂.Matches r₁ r₂)
    (h : s₁.merge s₂ = .ok s) {v : TyVar} (hv : v ∈ r₁.occurrences) : (Ty.var v).subst s = (Ty.var v).subst s₂ := by
  refine subst_merge_right h fun id hid => (hr.ids id).2 ?_
  rw [List.mem_singleton.1 hid]
  exact Ty.mem_ids_of_mem_occurrences hv

theorem matches_merge {s₁ s₂ s : Subst} {l₁ r₁ l₂ r₂ : Ty} (hl : s₁.Matches l₁ l₂)
    (hr : s₂.Matches r₁ r₂) (h : s₁.merge s₂ = .ok s) : s.Matches (.app l₁ r₁) (.app l₂ r₂) := by
  have hbinding : ∀ b ∈ s.bindings, b ∈ s₁.bindings ∨ b ∈ s₂.bindings := by
    rw [(merge_eq_ok_iff.1 h).2]
    intro b hb
    exact (List.mem_append.1 hb).imp_right fun hb => (List.mem_filter.1 hb).1
  constructor
  · rw [Ty.subst_app, Ty.eraseConKinds, Ty.eraseConKinds, Ty.subst_congr fun v hv => hl.var_merge_left h hv,
      Ty.subst_congr fun v hv => hr.var_merge_right h hv, hl.eq, hr.eq]
  · intro id
    rw [mem_ids_merge h, hl.ids, hr.ids, Ty.ids_app, List.mem_append]
  · intro b hb
    exact (hbinding b hb).elim (fun hb => List.mem_append_left _ (hl.keys b hb))
      fun hb => List.mem_append_right _ (hr.keys b hb)
  · exact fun b hb => (hbinding b hb).elim (hl.kinds b) (hr.kinds b)
  · exact fun b hb => (hbinding b hb).elim (hl.slotFree b) (hr.slotFree b)
  · exact fun b hb => (hbinding b hb).elim (fun hb => (hl.parts b hb).left r₂)
      fun hb => (hr.parts b hb).right l₂

end Subst

theorem matchTy_app_iff {l₁ r₁ l₂ r₂ : Ty} {s : Subst} :
    matchTy (.app l₁ r₁) (.app l₂ r₂) = .ok s ↔
      ∃ s₁ s₂, matchTy l₁ l₂ = .ok s₁ ∧ matchTy r₁ r₂ = .ok s₂ ∧ s₁.merge s₂ = .ok s := by
  rw [matchTy]
  simp only [bind_eq_ok, mapError_eq_ok, exists_and_left]

/-- The recursion of matching where it succeeds. -/
theorem matchTy_ok_induction {motive : Ty → Ty → Subst → Prop}
    (var : ∀ v t, v.kind = t.kind → t.firstGen? = none → motive (.var v) t (.singleton v t))
    (con : ∀ c₁ c₂, c₁.id = c₂.id → motive (.con c₁) (.con c₂) .empty)
    (app : ∀ l₁ r₁ l₂ r₂ s₁ s₂ s, matchTy l₁ l₂ = .ok s₁ → matchTy r₁ r₂ = .ok s₂ → s₁.merge s₂ = .ok s →
      motive l₁ l₂ s₁ → motive r₁ r₂ s₂ → motive (.app l₁ r₁) (.app l₂ r₂) s)
    {pattern target : Ty} {s : Subst} (h : matchTy pattern target = .ok s) : motive pattern target s := by
  induction pattern generalizing target s with
  | var v =>
    rw [matchTy] at h
    split at h
    · rename_i hok
      cases h
      exact var v target hok.1 hok.2
    · cases h
  | con c =>
    cases target with
    | con d =>
      rw [matchTy] at h
      split at h
      · rename_i hid
        cases h
        exact con c d hid
      · cases h
    | _ => cases h
  | gen n => cases target <;> cases h
  | app l r ihl ihr =>
    cases target with
    | app l₂ r₂ =>
      obtain ⟨s₁, s₂, h₁, h₂, hmerge⟩ := matchTy_app_iff.1 h
      exact app l r l₂ r₂ s₁ s₂ s h₁ h₂ hmerge (ihl h₁) (ihr h₂)
    | _ => cases h

/-- **A match turns the pattern into the target**, up to the kinds of constructors. -/
theorem matchTy_matches {pattern target : Ty} {s : Subst} (h : matchTy pattern target = .ok s) :
    s.Matches pattern target := by
  refine matchTy_ok_induction (motive := fun p t s => s.Matches p t) ?_ ?_ ?_ h
  · exact fun v t hkind hslots => Subst.matches_singleton hkind hslots
  · exact fun c d hid => Subst.matches_empty hid
  · exact fun _ _ _ _ _ _ _ _ _ hmerge hl hr => Subst.matches_merge hl hr hmerge

/-- **A pattern matches whatever a substitution that keeps kinds makes of it**, and the match acts like that
substitution on the variables of the pattern. -/
theorem matchTy_complete {var : String → Option Kind} {pattern : Ty} {s : Subst}
    (hvars : pattern.VarsFit var) (hpattern : pattern.firstGen? = none)
    (hkeeps : ∀ v ∈ pattern.occurrences, ((Ty.var v).subst s).kind = v.kind)
    (htarget : (pattern.subst s).firstGen? = none) :
    ∃ s', matchTy pattern (pattern.subst s) = .ok s' ∧
      ∀ v ∈ pattern.occurrences, (Ty.var v).subst s' = (Ty.var v).subst s := by
  induction pattern with
  | var v =>
    have hkind := hkeeps v List.mem_cons_self
    refine ⟨.singleton v ((Ty.var v).subst s), ?_, fun w hw => ?_⟩
    · rw [matchTy, if_pos ⟨hkind.symm, htarget⟩]
    · rw [List.mem_singleton.1 hw]
      exact Ty.subst_singleton_self v _
  | con c => exact ⟨.empty, by rw [Ty.subst_con, matchTy, if_pos rfl], fun v hv => nomatch hv⟩
  | gen n => cases hpattern
  | app l r ihl ihr =>
    rw [Ty.varsFit_app] at hvars
    rw [Ty.firstGen?_app] at hpattern
    rw [Ty.subst_app, Ty.firstGen?_app] at htarget
    obtain ⟨s₁, h₁, hact₁⟩ := ihl hvars.1 hpattern.1
      (fun v hv => hkeeps v (List.mem_append_left _ hv)) htarget.1
    obtain ⟨s₂, h₂, hact₂⟩ := ihr hvars.2 hpattern.2
      (fun v hv => hkeeps v (List.mem_append_right _ hv)) htarget.2
    have hm₁ := matchTy_matches h₁
    have hm₂ := matchTy_matches h₂
    -- both halves act like `s` on the variables that they share
    have hmerge : s₁.merge s₂ = .ok ⟨s₁.bindings ++ s₂.bindings.filter fun b => !s₁.binds b.1.id⟩ := by
      refine Subst.merge_eq_ok_iff.2 ⟨fun v hv hid => ?_, rfl⟩
      obtain ⟨b, hb, rfl⟩ := List.mem_map.1 hv
      have hl := hm₁.keys b hb
      have hr := hvars.2.mem_occurrences (hvars.1 b.1 hl) ((hm₂.ids _).1 hid)
      rw [hact₁ b.1 hl, hact₂ b.1 hr]
    refine ⟨_, matchTy_app_iff.2 ⟨s₁, s₂, h₁, h₂, hmerge⟩, fun v hv => ?_⟩
    rcases List.mem_append.1 hv with hv | hv
    · rw [hm₁.var_merge_left hmerge hv, hact₁ v hv]
    · rw [hm₂.var_merge_right hmerge hv, hact₂ v hv]

/-! ## Consequences -/

namespace Subst.Matches

variable {s : Subst} {pattern target : Ty}

theorem exists_lookup (h : s.Matches pattern target) {v : TyVar} (hv : v ∈ pattern.occurrences) :
    ∃ t, s.lookup v.id = some t :=
  exists_lookup_of_mem ((h.ids _).2 (Ty.mem_ids_of_mem_occurrences hv))

theorem size_eq (h : s.Matches pattern target) : (pattern.subst s).size = target.size := by
  rw [← Ty.size_eraseConKinds, h.eq, Ty.size_eraseConKinds]

/-- Where constructors have one kind each, the pattern becomes the target. -/
theorem subst_eq (h : s.Matches pattern target) {con : String → Option Kind} (hp : pattern.ConsFit con)
    (ht : target.ConsFit con) : pattern.subst s = target := by
  refine Ty.eq_of_eraseConKinds (Ty.consFit_subst.2 ⟨hp, fun v _ => ?_⟩) ht h.eq
  rw [Ty.subst]
  cases hlook : s.lookup v.id with
  | none => exact Ty.consFit_var
  | some t =>
    obtain ⟨w, hw, _⟩ := exists_of_lookup hlook
    exact fun c hc => ht c ((h.parts _ hw).mem_constructors hc)

theorem kind_subst (h : s.Matches pattern target) {var : String → Option Kind}
    (hvars : pattern.VarsFit var) {v : TyVar} (hv : v ∈ pattern.occurrences) :
    ((Ty.var v).subst s).kind = v.kind := by
  obtain ⟨t, hlook⟩ := h.exists_lookup hv
  obtain ⟨w, hw, hid⟩ := exists_of_lookup hlook
  rw [Ty.subst_var_of_lookup hlook, h.kinds _ hw, hvars.eq_of_id_eq hvars (h.keys _ hw) hv hid]

end Subst.Matches

/-! ## Exactly the instances of a pattern -/

section Exact

variable {pattern target : Ty} {s : Subst}

theorem matchTy_slotFree (h : matchTy pattern target = .ok s) :
    pattern.firstGen? = none ∧ target.firstGen? = none := by
  refine matchTy_ok_induction (motive := fun p t _ => p.firstGen? = none ∧ t.firstGen? = none) ?_ ?_ ?_ h
  · exact fun v t _ hslots => ⟨rfl, hslots⟩
  · exact fun _ _ _ => ⟨rfl, rfl⟩
  · intro l₁ r₁ l₂ r₂ s₁ s₂ s _ _ _ hl hr
    rw [Ty.firstGen?_app, Ty.firstGen?_app]
    exact ⟨⟨hl.1, hr.1⟩, hl.2, hr.2⟩

theorem matchTy_keys (h : matchTy pattern target = .ok s) : s.keys = freeVars pattern := by
  refine matchTy_ok_induction (motive := fun p _ s => s.keys = freeVars p) ?_ ?_ ?_ h
  · exact fun v t _ _ => rfl
  · exact fun _ _ _ => rfl
  · intro l₁ r₁ l₂ r₂ s₁ s₂ s h₁ _ hmerge hl hr
    rw [Subst.keys_merge hmerge, freeVars_app, hl, hr]
    simp only [(matchTy_matches h₁).ids]

/-- A match keeps the kinds of the variables of the pattern.  That each id has one kind need not be known. -/
theorem matchTy_keepsKinds (h : matchTy pattern target = .ok s) :
    ∀ v ∈ pattern.occurrences, ((Ty.var v).subst s).kind = v.kind := by
  refine matchTy_ok_induction
    (motive := fun p _ s => ∀ v ∈ p.occurrences, ((Ty.var v).subst s).kind = v.kind) ?_ ?_ ?_ h
  · intro v t hkind _ w hw
    rw [List.mem_singleton.1 hw, Ty.subst_singleton_self, hkind]
  · exact fun _ _ _ v hv => nomatch hv
  · intro l₁ r₁ l₂ r₂ s₁ s₂ s h₁ h₂ hmerge hl hr v hv
    rcases List.mem_append.1 hv with hv | hv
    · rw [(matchTy_matches h₁).var_merge_left hmerge hv, hl v hv]
    · rw [(matchTy_matches h₂).var_merge_right hmerge hv, hr v hv]

/-- A pattern that matches has one kind for each variable: the id is bound to one type, which has the kind of every
occurrence. -/
theorem matchTy_oneKind (h : matchTy pattern target = .ok s) :
    ∀ v ∈ pattern.occurrences, ∀ w ∈ pattern.occurrences, v.id = w.id → v.kind = w.kind := by
  intro v hv w hw hid
  obtain ⟨t, hlook⟩ := (matchTy_matches h).exists_lookup hv
  rw [← matchTy_keepsKinds h v hv, ← matchTy_keepsKinds h w hw, Ty.subst_var_of_lookup hlook,
    Ty.subst_var_of_lookup (hid ▸ hlook)]

/-- **A match turns the pattern into the target** if constructors that they share have one kind. -/
theorem matchTy_subst_eq
    (hcons : ∀ c ∈ pattern.constructors, ∀ d ∈ target.constructors, c.id = d.id → c.kind = d.kind)
    (h : matchTy pattern target = .ok s) : pattern.subst s = target := by
  revert hcons
  refine matchTy_ok_induction (motive := fun p t s =>
    (∀ c ∈ p.constructors, ∀ d ∈ t.constructors, c.id = d.id → c.kind = d.kind) → p.subst s = t) ?_ ?_ ?_ h
  · exact fun v t _ _ _ => Ty.subst_singleton_self v t
  · intro c d hid hcons
    have hkind := hcons c List.mem_cons_self d List.mem_cons_self hid
    rw [Ty.subst_con, show c = d from TyCon.mk.injEq .. ▸ ⟨hid, hkind⟩]
  · intro l₁ r₁ l₂ r₂ s₁ s₂ s h₁ h₂ hmerge hl hr hcons
    have hleft : l₁.subst s = l₁.subst s₁ :=
      Ty.subst_congr fun v hv => (matchTy_matches h₁).var_merge_left hmerge hv
    have hright : r₁.subst s = r₁.subst s₂ :=
      Ty.subst_congr fun v hv => (matchTy_matches h₂).var_merge_right hmerge hv
    rw [Ty.subst_app, hleft, hright,
      hl fun c hc d hd => hcons c (List.mem_append_left _ hc) d (List.mem_append_left _ hd),
      hr fun c hc d hd => hcons c (List.mem_append_right _ hc) d (List.mem_append_right _ hd)]

theorem Ty.exists_varsFit {t : Ty}
    (h : ∀ v ∈ t.occurrences, ∀ w ∈ t.occurrences, v.id = w.id → v.kind = w.kind) : ∃ var, t.VarsFit var :=
  ⟨fun id => (t.occurrences.find? fun v => v.id == id).map TyVar.kind,
    fun v hv => map_find?_eq_some hv fun w hw hid => h w hw v hv hid⟩

/-- **Matching is exact.**  Let constructors that pattern and target share have one kind.  Then the pattern matches
iff no slots are left, each of its variables has one kind, and some substitution that keeps these kinds turns it
into the target.  The match is then that substitution, on the variables of the pattern, and binds those in the
order of their first occurrences. -/
theorem matchTy_exact
    (hcons : ∀ c ∈ pattern.constructors, ∀ d ∈ target.constructors, c.id = d.id → c.kind = d.kind) :
    ((∃ s, matchTy pattern target = .ok s) ↔
      pattern.firstGen? = none ∧ target.firstGen? = none ∧
      (∀ v ∈ pattern.occurrences, ∀ w ∈ pattern.occurrences, v.id = w.id → v.kind = w.kind) ∧
      ∃ u : Subst, (∀ v ∈ pattern.occurrences, ((Ty.var v).subst u).kind = v.kind) ∧
        pattern.subst u = target) ∧
    ∀ s, matchTy pattern target = .ok s →
      pattern.subst s = target ∧ s.keys = freeVars pattern ∧ s.ids.Nodup ∧
      ∀ u : Subst, (∀ v ∈ pattern.occurrences, ((Ty.var v).subst u).kind = v.kind) →
        pattern.subst u = target → ∀ v ∈ pattern.occurrences, (Ty.var v).subst s = (Ty.var v).subst u := by
  have hequal : ∀ s, matchTy pattern target = .ok s → pattern.subst s = target :=
    fun s hs => matchTy_subst_eq hcons hs
  refine ⟨⟨?_, ?_⟩, fun s hs => ⟨hequal s hs, matchTy_keys hs, ?_, fun u _ hu => ?_⟩⟩
  · rintro ⟨s, hs⟩
    obtain ⟨hpattern, htarget⟩ := matchTy_slotFree hs
    exact ⟨hpattern, htarget, matchTy_oneKind hs, s, matchTy_keepsKinds hs, hequal s hs⟩
  · rintro ⟨hpattern, htarget, hkinds, u, hkeeps, rfl⟩
    obtain ⟨var, hvars⟩ := Ty.exists_varsFit hkinds
    obtain ⟨s, hs, _⟩ := matchTy_complete hvars hpattern hkeeps htarget
    exact ⟨s, hs⟩
  · rw [Subst.ids, matchTy_keys hs]
    exact nodup_distinctOn TyVar.id _
  · exact Ty.subst_eq_subst_iff.1 ((hequal s hs).trans hu.symm)

/-- `a -> b -> a`. -/
def constantPattern : Ty :=
  .fn (.var ⟨"a", .star⟩) (.fn (.var ⟨"b", .star⟩) (.var ⟨"a", .star⟩))

/-- `[b] -> a -> [b]`. -/
def constantList : Ty :=
  .fn (.list (.var ⟨"b", .star⟩)) (.fn (.var ⟨"a", .star⟩) (.list (.var ⟨"b", .star⟩)))

/-- The pattern is turned into the target at once, although the names of variables cross.  No substitution turns
it into `[b] -> a -> a`. -/
theorem matchTy_exact_crossing :
    (∃ s, matchTy constantPattern constantList = .ok s ∧ constantPattern.subst s = constantList ∧
      s.keys = [⟨"a", .star⟩, ⟨"b", .star⟩] ∧
      (Ty.var ⟨"a", .star⟩).subst s = .list (.var ⟨"b", .star⟩) ∧
      (Ty.var ⟨"b", .star⟩).subst s = .var ⟨"a", .star⟩) ∧
    ¬ ∃ u : Subst, (∀ v ∈ constantPattern.occurrences, ((Ty.var v).subst u).kind = v.kind) ∧
      constantPattern.subst u =
        .fn (.list (.var ⟨"b", .star⟩)) (.fn (.var ⟨"a", .star⟩) (.var ⟨"a", .star⟩)) := by
  let u : Subst := ⟨[(⟨"b", .star⟩, .var ⟨"a", .star⟩), (⟨"a", .star⟩, .list (.var ⟨"b", .star⟩))]⟩
  have hkeeps : ∀ v ∈ constantPattern.occurrences, ((Ty.var v).subst u).kind = v.kind := by decide
  have hturns : constantPattern.subst u = constantList := by decide
  constructor
  · obtain ⟨hiff, hexact⟩ := @matchTy_exact constantPattern constantList (by decide)
    obtain ⟨s, hs⟩ := hiff.2 ⟨by decide, by decide, by decide, u, hkeeps, hturns⟩
    obtain ⟨hequal, hkeys, _, hagree⟩ := hexact s hs
    have hvars := hagree u hkeeps hturns
    refine ⟨s, hs, hequal, hkeys, ?_, ?_⟩
    · exact (hvars _ (by decide)).trans (by decide)
    · exact (hvars _ (by decide)).trans (by decide)
  · intro hsome
    obtain ⟨s, hs⟩ := (matchTy_exact (by decide)).1.2 ⟨by decide, by decide, by decide, hsome⟩
    exact absurd hs (by
      rw [show matchTy constantPattern _ = .error (.conflict ⟨"a", .star⟩) by decide]
      exact nofun)

/-- `a a`, where the first `a` takes a type and the second is one. -/
def selfApplied : Ty := .app (.var ⟨"a", .ofArity 1⟩) (.var ⟨"a", .star⟩)

/-- **A pattern in which one id has two kinds does not match itself**, although nothing would have to be
replaced: the id cannot be bound to both of its occurrences. -/
theorem matchTy_selfApplied :
    (∀ c ∈ selfApplied.constructors, ∀ d ∈ selfApplied.constructors, c.id = d.id → c.kind = d.kind) ∧
    selfApplied.firstGen? = none ∧
    (∃ u : Subst, (∀ v ∈ selfApplied.occurrences, ((Ty.var v).subst u).kind = v.kind) ∧
      selfApplied.subst u = selfApplied) ∧
    matchTy selfApplied selfApplied = .error (.conflict ⟨"a", .ofArity 1⟩) ∧
    ¬ ∃ s, matchTy selfApplied selfApplied = .ok s := by
  have hconflict : matchTy selfApplied selfApplied = .error (.conflict ⟨"a", .ofArity 1⟩) := by decide
  refine ⟨by decide, by decide, ⟨.empty, by decide, by decide⟩, hconflict, ?_⟩
  rintro ⟨s, hs⟩
  rw [hconflict] at hs
  cases hs

end Exact

end QualifiedTypes
