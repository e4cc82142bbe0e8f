import QualifiedTypes.Proofs.Kinding
import QualifiedTypes.Proofs.Outcomes
import QualifiedTypes.Unify

/-!
# Unification is sound, complete and most general

The statements are about types that fit one table of kinds, which the types themselves give if each id has one
kind in them.  Solutions are compared with substitutions that keep the kinds of the table but are free otherwise.

* `unify_induction`: the recursion of unification, half by half, as an induction principle;
  `unify_ok_induction` is the part of it that is about success.
* `unify_sound`: a unifier fits the table and makes both types equal.
* `unify_absorbed`: a substitution that makes both types equal does not notice that the unifier was applied
  before it.
* `exists_unify`: if some substitution makes both types equal there is a unifier.
* `unify_mostGeneral`: the same without a table.
-/

namespace QualifiedTypes

variable {K : KindTable}

/-- The recursion of unification.  The right halves of two applications come after a unifier of the left
halves has been applied to them. -/
theorem unify_induction {motive : Ty → Ty → Prop} (genLeft : ∀ n t, motive (.gen n) t)
    (genRight : ∀ t n, motive t (.gen n)) (varLeft : ∀ v t, motive (.var v) t)
    (varRight : ∀ t v, (∀ w, t ≠ .var w) → motive t (.var v)) (con : ∀ c₁ c₂, motive (.con c₁) (.con c₂))
    (conApp : ∀ c f x, motive (.con c) (.app f x)) (appCon : ∀ f x c, motive (.app f x) (.con c))
    (app : ∀ l₁ r₁ l₂ r₂, motive l₁ l₂ →
      (∀ s, unify l₁ l₂ = .ok s → motive (r₁.subst s) (r₂.subst s)) → motive (.app l₁ r₁) (.app l₂ r₂))
    (t₁ t₂ : Ty) : motive t₁ t₂ := by
  induction t₁, t₂ using solve.induct with
  | case1 t n => exact genLeft n t
  | case2 t n _ => exact genRight t n
  | case3 l₁ r₁ l₂ r₂ e h ih =>
    refine app l₁ r₁ l₂ r₂ ih fun s hs => ?_
    rw [unify, h] at hs
    cases hs
  | case4 l₁ r₁ l₂ r₂ s₁ h₁ h e _ ih₁ ih₂ =>
    refine app l₁ r₁ l₂ r₂ ih₁ fun s hs => ?_
    rw [unify, h] at hs
    cases hs
    exact ih₂
  | case5 l₁ r₁ l₂ r₂ s₁ h₁ h s₂ h₂ _ ih₁ ih₂ =>
    refine app l₁ r₁ l₂ r₂ ih₁ fun s hs => ?_
    rw [unify, h] at hs
    cases hs
    exact ih₂
  | case6 v t _ _ _ => exact varLeft v t
  | case7 v t _ _ _ => exact varLeft v t
  | case8 t v _ ht _ _ => exact varRight t v ht
  | case9 t v _ ht _ _ => exact varRight t v ht
  | case10 c₁ c₂ _ => exact con c₁ c₂
  | case11 c₁ c₂ _ => exact con c₁ c₂
  | case12 t₁ t₂ hg₁ hg₂ happ hv₁ hv₂ hcon =>
    cases t₁ with
    | gen n => exact genLeft n t₂
    | var v => exact varLeft v t₂
    | con c₁ =>
      cases t₂ with
      | gen n => exact genRight _ n
      | var v => exact absurd rfl (hv₂ v)
      | con c₂ => exact con c₁ c₂
      | app f x => exact conApp c₁ f x
    | app f x =>
      cases t₂ with
      | gen n => exact genRight _ n
      | var v => exact absurd rfl (hv₂ v)
      | con c => exact appCon f x c
      | app g y => exact absurd rfl (happ f x g y rfl)

theorem exists_unify_gen_right (t : Ty) (n : Nat) : ∃ m, unify t (.gen n) = .error (.uninstantiated m) := by
  cases t with
  | gen m => exact ⟨m, unify_gen_left m _⟩
  | _ => exact ⟨n, unify_gen_right n (by simp)⟩

/-- The recursion of unification where it succeeds. -/
theorem unify_ok_induction {motive : Ty → Ty → Subst → Prop}
    (varLeft : ∀ v t s, bindVar v t = .ok s → motive (.var v) t s)
    (varRight : ∀ t v s, bindVar v t = .ok s → motive t (.var v) s)
    (con : ∀ c₁ c₂, c₁.id = c₂.id → motive (.con c₁) (.con c₂) .empty)
    (app : ∀ l₁ r₁ l₂ r₂ s₁ s₂, unify l₁ l₂ = .ok s₁ → unify (r₁.subst s₁) (r₂.subst s₁) = .ok s₂ →
      motive l₁ l₂ s₁ → motive (r₁.subst s₁) (r₂.subst s₁) s₂ →
      motive (.app l₁ r₁) (.app l₂ r₂) (s₂.compose s₁))
    {t₁ t₂ : Ty} {s : Subst} (h : unify t₁ t₂ = .ok s) : motive t₁ t₂ s := by
  induction t₁, t₂ using unify_induction generalizing s with
  | genLeft n t =>
    rw [unify_gen_left] at h
    cases h
  | genRight t n =>
    obtain ⟨m, hm⟩ := exists_unify_gen_right t n
    rw [hm] at h
    cases h
  | varLeft v t =>
    rw [unify_var_left] at h
    exact varLeft v t s h
  | varRight t v ht =>
    rw [unify_var_right v ht] at h
    exact varRight t v s h
  | con c₁ c₂ =>
    rw [unify_con] at h
    split at h
    · rename_i hid
      cases h
      exact con c₁ c₂ hid
    · cases h
  | conApp c f x =>
    rw [unify_con_app] at h
    cases h
  | appCon f x c =>
    rw [unify_app_con] at h
    cases h
  | app l₁ r₁ l₂ r₂ ihl ihr =>
    rw [unify_app] at h
    obtain ⟨s₁, hl, h⟩ := bind_eq_ok.1 h
    obtain ⟨s₂, hr, h⟩ := bind_eq_ok.1 h
    cases h
    exact app l₁ r₁ l₂ r₂ s₁ s₂ hl hr (ihl hl) (ihr s₁ hl hr)

/-! ## One variable -/

theorem isVar_iff {t : Ty} {id : String} : t.isVar id = true ↔ ∃ w, t = .var w ∧ w.id = id := by
  cases t <;> simp [Ty.isVar]

/-- What binding a variable comes to. -/
theorem bindVar_eq_ok {v : TyVar} {t : Ty} {s : Subst} (h : bindVar v t = .ok s) :
    (t.isVar v.id = true ∧ s = .empty) ∨
      (t.firstGen? = none ∧ v.id ∉ t.ids ∧ v.kind = t.kind ∧ s = .singleton v t) := by
  unfold bindVar at h
  split at h
  · rename_i hvar
    cases h
    exact .inl ⟨hvar, rfl⟩
  · split at h
    · cases h
    · rename_i hgen
      split at h
      · cases h
      · rename_i hocc
        split at h
        · cases h
        · rename_i hkind
          cases h
          refine .inr ⟨hgen, fun hid => hocc ((Ty.occurs_iff_mem_ids _ _).2 hid), ?_, rfl⟩
          exact Decidable.not_not.1 hkind

/-- A variable that is bound to a type without it becomes that type, which stays as it is. -/
theorem subst_singleton_eq {v : TyVar} {t : Ty} (h : v.id ∉ t.ids) :
    (Ty.var v).subst (.singleton v t) = t.subst (.singleton v t) := by
  rw [Ty.subst_singleton_self, Ty.subst_eq_self]
  intro id hid hmem
  have he : id = v.id := by simpa [Subst.singleton, Subst.ids, Subst.keys] using hmem
  exact h (he ▸ hid)

theorem bindVar_sound {v : TyVar} {t : Ty} {s : Subst} (hv : (Ty.var v).Fits K) (ht : t.Fits K)
    (h : bindVar v t = .ok s) : s.Fits K ∧ (Ty.var v).subst s = t.subst s := by
  obtain ⟨hvar, rfl⟩ | ⟨_, hid, hkind, rfl⟩ := bindVar_eq_ok h
  · obtain ⟨w, rfl, hw⟩ := isVar_iff.1 hvar
    refine ⟨Subst.fits_empty K, ?_⟩
    rw [ht.vars.eq_of_id_eq hv.vars List.mem_cons_self List.mem_cons_self hw]
  · exact ⟨Subst.fits_singleton ht (hkind ▸ Ty.fits_var.1 hv), subst_singleton_eq hid⟩

/-- Whoever solves the equation absorbs the binding, whatever it does to kinds. -/
theorem bindVar_absorbed {v : TyVar} {t : Ty} {s u : Subst} (hv : (Ty.var v).Fits K)
    (h : bindVar v t = .ok s) (hu : (Ty.var v).subst u = t.subst u) {r : Ty} (hr : r.VarsFit K.var) :
    (r.subst s).subst u = r.subst u := by
  obtain ⟨_, rfl⟩ | ⟨_, _, _, rfl⟩ := bindVar_eq_ok h
  · rw [Ty.subst_empty]
  · refine Ty.subst_singleton_absorb hu fun w hw hid => ?_
    exact hr.eq_of_id_eq hv.vars hw List.mem_cons_self hid

theorem exists_bindVar {v : TyVar} {t : Ty} {u : Subst} (hv : (Ty.var v).Fits K) (ht : t.Fits K)
    (hu : u.KeepsKinds K.var) (h : (Ty.var v).subst u = t.subst u) : ∃ s, bindVar v t = .ok s := by
  unfold bindVar
  by_cases hvar : t.isVar v.id = true
  · rw [if_pos hvar]
    exact ⟨.empty, rfl⟩
  · rw [if_neg hvar, ht.slotFree]
    have hocc : ¬ t.occurs v.id = true := by
      intro hocc
      have hmem := ht.vars.mem_occurrences (Ty.fits_var.1 hv) ((Ty.occurs_iff_mem_ids _ _).1 hocc)
      refine Ty.subst_ne_of_mem hmem (fun he => hvar ?_) h
      exact isVar_iff.2 ⟨v, he, rfl⟩
    have hkind : v.kind = t.kind := by
      have hk := congrArg Ty.kind h
      rwa [Ty.kind_subst hv.vars hu, Ty.kind_subst ht.vars hu] at hk
    dsimp only
    rw [if_neg hocc, if_neg (fun hne => hne hkind)]
    exact ⟨.singleton v t, rfl⟩

/-! ## Whole types -/

/-- **A unifier makes both types equal**, and stays within the table of kinds. -/
theorem unify_sound {t₁ t₂ : Ty} (h₁ : t₁.Fits K) (h₂ : t₂.Fits K) {s : Subst}
    (h : unify t₁ t₂ = .ok s) : s.Fits K ∧ t₁.subst s = t₂.subst s := by
  induction t₁, t₂ using unify_induction generalizing s with
  | genLeft n t => exact absurd h₁ Ty.not_fits_gen
  | genRight t n => exact absurd h₂ Ty.not_fits_gen
  | varLeft v t =>
    rw [unify_var_left] at h
    exact bindVar_sound h₁ h₂ h
  | varRight t v ht =>
    rw [unify_var_right v ht] at h
    exact (bindVar_sound h₂ h₁ h).imp_right Eq.symm
  | con c₁ c₂ =>
    rw [unify_con] at h
    split at h
    · rename_i hid
      cases h
      exact ⟨Subst.fits_empty K, Ty.eq_of_eraseConKinds h₁.cons h₂.cons (by simp [Ty.eraseConKinds, hid])⟩
    · cases h
  | conApp c f x =>
    rw [unify_con_app] at h
    cases h
  | appCon f x c =>
    rw [unify_app_con] at h
    cases h
  | app l₁ r₁ l₂ r₂ ihl ihr =>
    rw [Ty.fits_app] at h₁ h₂
    rw [unify_app] at h
    obtain ⟨s₁, hl, h⟩ := bind_eq_ok.1 h
    obtain ⟨s₂, hr, h⟩ := bind_eq_ok.1 h
    cases h
    obtain ⟨hs₁, hleft⟩ := ihl h₁.1 h₂.1 hl
    obtain ⟨hs₂, hright⟩ := ihr s₁ hl (h₁.2.subst hs₁) (h₂.2.subst hs₁) hr
    refine ⟨hs₂.compose hs₁, ?_⟩
    rw [Ty.subst_compose, Ty.subst_compose, Ty.subst_app, Ty.subst_app, hleft, Ty.subst_app, Ty.subst_app,
      hright]

/-- **A unifier is most general**: every solution absorbs it, whatever it does to kinds. -/
theorem unify_absorbed {t₁ t₂ : Ty} (h₁ : t₁.Fits K) (h₂ : t₂.Fits K) {s : Subst} (h : unify t₁ t₂ = .ok s)
    {u : Subst} (hu : t₁.subst u = t₂.subst u) {r : Ty} (hr : r.VarsFit K.var) :
    (r.subst s).subst u = r.subst u := by
  revert r
  refine unify_ok_induction (motive := fun t₁ t₂ s => t₁.Fits K → t₂.Fits K → t₁.subst u = t₂.subst u →
    ∀ {r : Ty}, r.VarsFit K.var → (r.subst s).subst u = r.subst u) ?_ ?_ ?_ ?_ h h₁ h₂ hu
  · intro v t s hbind hv _ hu r hr
    exact bindVar_absorbed hv hbind hu hr
  · intro t v s hbind _ hv hu r hr
    exact bindVar_absorbed hv hbind hu.symm hr
  · intro _ _ _ _ _ _ r _
    rw [Ty.subst_empty]
  · intro l₁ r₁ l₂ r₂ s₁ s₂ hl _ ihl ihr h₁ h₂ hu r hr
    rw [Ty.fits_app] at h₁ h₂
    rw [Ty.subst_app, Ty.subst_app, Ty.app.injEq] at hu
    obtain ⟨hs₁, _⟩ := unify_sound h₁.1 h₂.1 hl
    -- the solution still solves the right halves, which the left unifier has rewritten
    have hright : (r₁.subst s₁).subst u = (r₂.subst s₁).subst u := by
      rw [ihl h₁.1 h₂.1 hu.1 h₁.2.vars, ihl h₁.1 h₂.1 hu.1 h₂.2.vars, hu.2]
    rw [Ty.subst_compose, ihr (h₁.2.subst hs₁) (h₂.2.subst hs₁) hright (hr.subst hs₁),
      ihl h₁.1 h₂.1 hu.1 hr]

theorem exists_unify {t₁ t₂ : Ty} (h₁ : t₁.Fits K) (h₂ : t₂.Fits K) {u : Subst} (hu : u.KeepsKinds K.var)
    (h : t₁.subst u = t₂.subst u) : ∃ s, unify t₁ t₂ = .ok s := by
  induction t₁, t₂ using unify_induction with
  | genLeft n t => exact absurd h₁ Ty.not_fits_gen
  | genRight t n => exact absurd h₂ Ty.not_fits_gen
  | varLeft v t =>
    rw [unify_var_left]
    exact exists_bindVar h₁ h₂ hu h
  | varRight t v ht =>
    rw [unify_var_right v ht]
    exact exists_bindVar h₂ h₁ hu h.symm
  | con c₁ c₂ =>
    cases h
    exact ⟨.empty, by rw [unify_con, if_pos rfl]⟩
  | conApp c f x => cases h
  | appCon f x c => cases h
  | app l₁ r₁ l₂ r₂ ihl ihr =>
    rw [Ty.fits_app] at h₁ h₂
    rw [Ty.subst_app, Ty.subst_app, Ty.app.injEq] at h
    obtain ⟨s₁, hl⟩ := ihl h₁.1 h₂.1 h.1
    obtain ⟨hs₁, _⟩ := unify_sound h₁.1 h₂.1 hl
    have hright : (r₁.subst s₁).subst u = (r₂.subst s₁).subst u := by
      rw [unify_absorbed h₁.1 h₂.1 hl h.1 h₁.2.vars, unify_absorbed h₁.1 h₂.1 hl h.1 h₂.2.vars, h.2]
    obtain ⟨s₂, hr⟩ := ihr s₁ hl (h₁.2.subst hs₁) (h₂.2.subst hs₁) hright
    refine ⟨s₂.compose s₁, ?_⟩
    rw [unify_app]
    exact bind_eq_ok.2 ⟨s₁, hl, bind_eq_ok.2 ⟨s₂, hr, rfl⟩⟩

/-- **Unification finds a unifier whenever there is one, and a most general one**: every solution that
keeps kinds absorbs it. -/
theorem unify_complete {t₁ t₂ : Ty} (h₁ : t₁.Fits K) (h₂ : t₂.Fits K) {u : Subst}
    (hu : u.KeepsKinds K.var) (h : t₁.subst u = t₂.subst u) :
    ∃ s, unify t₁ t₂ = .ok s ∧ ∀ r : Ty, r.VarsFit K.var → (r.subst s).subst u = r.subst u := by
  obtain ⟨s, hs⟩ := exists_unify h₁ h₂ hu h
  exact ⟨s, hs, fun r hr => unify_absorbed h₁ h₂ hs h hr⟩

/-! ## Without a table -/

/-- **Two types have a unifier iff they have a solution that keeps kinds, and it is the most general one.**  Let
no slot be left in the types, and let each id have one kind in both.  Then a unifier makes the types equal, keeps
the kinds of all variables, and is absorbed by every solution, on all types whose variables have the kinds that
they have in the two. -/
theorem unify_mostGeneral {t₁ t₂ : Ty} (hslots : t₁.firstGen? = none ∧ t₂.firstGen? = none)
    (hkinds : OneKindPerId [t₁, t₂]) :
    ((∃ s, unify t₁ t₂ = .ok s) ↔
      ∃ u : Subst, (∀ v ∈ occurrences [t₁, t₂], ((Ty.var v).subst u).kind = v.kind) ∧
        t₁.subst u = t₂.subst u) ∧
    ∀ s, unify t₁ t₂ = .ok s →
      t₁.subst s = t₂.subst s ∧
      (∀ v : TyVar, (∀ w ∈ occurrences [t₁, t₂], v.id = w.id → v.kind = w.kind) →
        ((Ty.var v).subst s).kind = v.kind) ∧
      ∀ u : Subst, t₁.subst u = t₂.subst u → ∀ t : Ty,
        (∀ v ∈ t.occurrences, ∀ w ∈ occurrences [t₁, t₂], v.id = w.id → v.kind = w.kind) →
        (t.subst s).subst u = t.subst u := by
  obtain ⟨hfits₁, hfits₂⟩ : t₁.Fits (.of [t₁, t₂]) ∧ t₂.Fits (.of [t₁, t₂]) := by
    have hfits := hkinds.fits (by simpa [types] using hslots)
    exact ⟨hfits t₁ (by simp [types]), hfits t₂ (by simp [types])⟩
  have hsound : ∀ s, unify t₁ t₂ = .ok s → s.Fits (.of [t₁, t₂]) ∧ t₁.subst s = t₂.subst s :=
    fun s hs => unify_sound hfits₁ hfits₂ hs
  refine ⟨⟨fun ⟨s, hs⟩ => ⟨s, fun v hv => ?_, (hsound s hs).2⟩, fun ⟨u, hu, heq⟩ => ?_⟩,
    fun s hs => ⟨(hsound s hs).2, fun v hv => (hsound s hs).1.kind_of_agree hv, fun u hu t ht => ?_⟩⟩
  · exact (hsound s hs).1.kind_of_agree fun w hw hid => hkinds.vars v hv w hw hid
  · exact exists_unify hfits₁ hfits₂ (Subst.keepsKinds_of hu) heq
  · exact (hsound s hs).1.absorbs_of_agree (fun r hr => unify_absorbed hfits₁ hfits₂ hs hu hr) ht

/-- `f a -> a`, where `f` takes a type. -/
def unwrapping : Ty := .fn (.app (.var ⟨"f", .ofArity 1⟩) (.var ⟨"a", .star⟩)) (.var ⟨"a", .star⟩)

/-- `[[b]] -> c`. -/
def firstOf : Ty := .fn (.list (.list (.var ⟨"b", .star⟩))) (.var ⟨"c", .star⟩)

/-- The two types have a most general unifier.  No type is the type of lists of itself. -/
theorem unify_mostGeneral_unwrapping :
    (∃ s, unify unwrapping firstOf = .ok s ∧ unwrapping.subst s = firstOf.subst s ∧
      ∀ u : Subst, unwrapping.subst u = firstOf.subst u →
        ((Ty.var ⟨"c", .star⟩).subst s).subst u = (Ty.var ⟨"c", .star⟩).subst u) ∧
    ¬ ∃ u : Subst, ((Ty.var ⟨"a", .star⟩).subst u).kind = .star ∧
      (Ty.var ⟨"a", .star⟩).subst u = (Ty.list (.var ⟨"a", .star⟩)).subst u := by
  constructor
  · obtain ⟨hiff, hgeneral⟩ := @unify_mostGeneral unwrapping firstOf (by decide) ⟨by decide, by decide⟩
    -- `f` stands for the constructor of lists, and both `a` and `c` for `[b]`
    obtain ⟨s, hs⟩ := hiff.2 ⟨⟨[(⟨"f", .ofArity 1⟩, .con .list), (⟨"a", .star⟩, .list (.var ⟨"b", .star⟩)),
      (⟨"c", .star⟩, .list (.var ⟨"b", .star⟩))]⟩, by decide, by decide⟩
    obtain ⟨hunifies, _, habsorbs⟩ := hgeneral s hs
    exact ⟨s, hs, hunifies, fun u hu => habsorbs u hu _ (by decide)⟩
  · rintro ⟨u, hkind, hu⟩
    have hkinds : OneKindPerId [Ty.var ⟨"a", .star⟩, .list (.var ⟨"a", .star⟩)] := ⟨by decide, by decide⟩
    have hkeeps : ∀ v ∈ occurrences [Ty.var ⟨"a", .star⟩, .list (.var ⟨"a", .star⟩)],
        ((Ty.var v).subst u).kind = v.kind := by
      intro v hv
      obtain rfl : v = ⟨"a", .star⟩ := by
        simpa [occurrences, types, Ty.occurrences, Ty.list] using hv
      exact hkind
    obtain ⟨s, hs⟩ := (unify_mostGeneral ⟨rfl, rfl⟩ hkinds).1.2 ⟨u, hkeeps, hu⟩
    rw [unify_var_left] at hs
    cases hs

end QualifiedTypes
