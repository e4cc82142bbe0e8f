import Mathlib
import QualifiedTypes.Proofs.Unification

/-!
# Unification up to kinds

Variables and constructors carry kinds, but types are unified by ids: a kind is looked at only where a variable
is bound.  So a unifier of arbitrary types makes them equal up to kinds.  Where an id has two kinds, more cannot
be said.

* `Ty.eraseKinds`: a type without its kinds.
* `Ty.eraseKinds_subst`: erasing commutes with substitution, which looks at ids only.
* `unify_slotFree`: types with slots have no unifier.
* `unify_eraseKinds`: a unifier makes two types equal up to kinds.
* `unify_eq_empty_iff`: nothing has to be bound exactly where the types are equal up to kinds already.
-/

namespace QualifiedTypes

/-! ## Types without their kinds -/

/-- The type with all variables and constructors at kind `*`. -/
def Ty.eraseKinds : Ty → Ty
  | .var v => .var { v with kind := .star }
  | .con c => .con { c with kind := .star }
  | .app f x => .app f.eraseKinds x.eraseKinds
  | .gen n => .gen n

/-- The substitution with all kinds erased, in its keys and in what they are bound to. -/
def Subst.eraseKinds (s : Subst) : Subst :=
  ⟨s.bindings.map fun b => ({ b.1 with kind := .star }, b.2.eraseKinds)⟩

theorem Subst.lookup_eraseKinds (s : Subst) (id : String) :
    s.eraseKinds.lookup id = (s.lookup id).map Ty.eraseKinds := by
  unfold lookup eraseKinds
  rw [List.find?_map, Option.map_map, Option.map_map]
  rfl

namespace Ty

/-- **Erasing commutes with substitution.** -/
theorem eraseKinds_subst (s : Subst) (t : Ty) : (t.subst s).eraseKinds = t.eraseKinds.subst s.eraseKinds := by
  induction t with
  | var v =>
    rw [subst, eraseKinds, subst, Subst.lookup_eraseKinds]
    cases s.lookup v.id with
    | none => rfl
    | some u => rfl
  | con c => rfl
  | gen n => rfl
  | app f x ihf ihx => rw [subst_app, eraseKinds, eraseKinds, subst_app, ihf, ihx]

/-- Types that are equal up to kinds stay so under a substitution. -/
theorem eraseKinds_subst_congr {t u : Ty} (h : t.eraseKinds = u.eraseKinds) (s : Subst) :
    (t.subst s).eraseKinds = (u.subst s).eraseKinds := by
  rw [eraseKinds_subst, eraseKinds_subst, h]

end Ty

/-! ## What a unifier does -/

variable {t₁ t₂ : Ty} {s : Subst}

theorem bindVar_slotFree {v : TyVar} {t : Ty} (h : bindVar v t = .ok s) : t.firstGen? = none := by
  obtain ⟨hvar, _⟩ | ⟨hslots, _⟩ := bindVar_eq_ok h
  · obtain ⟨w, rfl, _⟩ := isVar_iff.1 hvar
    rfl
  · exact hslots

/-- **Types with slots have no unifier.** -/
theorem unify_slotFree (h : unify t₁ t₂ = .ok s) : t₁.firstGen? = none ∧ t₂.firstGen? = none := by
  refine unify_ok_induction (motive := fun t₁ t₂ _ => t₁.firstGen? = none ∧ t₂.firstGen? = none) ?_ ?_ ?_ ?_ h
  · exact fun v t s hbind => ⟨rfl, bindVar_slotFree hbind⟩
  · exact fun t v s hbind => ⟨bindVar_slotFree hbind, rfl⟩
  · exact fun _ _ _ => ⟨rfl, rfl⟩
  · intro l₁ r₁ l₂ r₂ s₁ s₂ _ _ hl hr
    rw [Ty.firstGen?_app, Ty.firstGen?_app]
    exact ⟨⟨hl.1, (Ty.firstGen?_subst.1 hr.1).1⟩, hl.2, (Ty.firstGen?_subst.1 hr.2).1⟩

theorem bindVar_eraseKinds {v : TyVar} {t : Ty} (h : bindVar v t = .ok s) :
    ((Ty.var v).subst s).eraseKinds = (t.subst s).eraseKinds := by
  obtain ⟨hvar, rfl⟩ | ⟨_, hid, _, rfl⟩ := bindVar_eq_ok h
  · obtain ⟨w, rfl, hw⟩ := isVar_iff.1 hvar
    rw [Ty.subst_empty, Ty.subst_empty, Ty.eraseKinds, Ty.eraseKinds, hw]
  · rw [subst_singleton_eq hid]

/-- **A unifier makes two types equal up to kinds**, whatever kinds they carry. -/
theorem unify_eraseKinds (h : unify t₁ t₂ = .ok s) : (t₁.subst s).eraseKinds = (t₂.subst s).eraseKinds := by
  refine unify_ok_induction
    (motive := fun t₁ t₂ s => (t₁.subst s).eraseKinds = (t₂.subst s).eraseKinds) ?_ ?_ ?_ ?_ h
  · exact fun v t s hbind => bindVar_eraseKinds hbind
  · exact fun t v s hbind => (bindVar_eraseKinds hbind).symm
  · intro c₁ c₂ hid
    rw [Ty.subst_con, Ty.subst_con, Ty.eraseKinds, Ty.eraseKinds, hid]
  · intro l₁ r₁ l₂ r₂ s₁ s₂ _ _ hl hr
    -- the left halves were made alike first, and stay so when the right halves are solved
    have hleft := Ty.eraseKinds_subst_congr hl s₂
    rw [Ty.subst_compose, Ty.subst_compose, Ty.subst_app, Ty.subst_app, Ty.subst_app, Ty.subst_app,
      Ty.eraseKinds, Ty.eraseKinds, hleft, hr]

/-- Types that are equal up to kinds are unified without a binding. -/
theorem unify_of_eraseKinds_eq (h₁ : t₁.firstGen? = none) (h : t₁.eraseKinds = t₂.eraseKinds) :
    unify t₁ t₂ = .ok .empty := by
  induction t₁ generalizing t₂ with
  | gen n => cases h₁
  | var v =>
    cases t₂ with
    | var w =>
      have hid : w.id = v.id := by simpa [Ty.eraseKinds, eq_comm] using h
      rw [unify_var_left, bindVar, if_pos (isVar_iff.2 ⟨w, rfl, hid⟩)]
    | _ => simp [Ty.eraseKinds] at h
  | con c =>
    cases t₂ with
    | con d =>
      have hid : c.id = d.id := by simpa [Ty.eraseKinds] using h
      rw [unify_con, if_pos hid]
    | _ => simp [Ty.eraseKinds] at h
  | app l r ihl ihr =>
    cases t₂ with
    | app l₂ r₂ =>
      rw [Ty.firstGen?_app] at h₁
      simp only [Ty.eraseKinds, Ty.app.injEq] at h
      have hright : unify (Subst.empty.apply r) (Subst.empty.apply r₂) = .ok .empty := by
        rw [Subst.apply_ty, Subst.apply_ty, Ty.subst_empty, Ty.subst_empty]
        exact ihr h₁.2 h.2
      rw [unify_app]
      exact bind_eq_ok.2 ⟨.empty, ihl h₁.1 h.1, bind_eq_ok.2 ⟨.empty, hright, rfl⟩⟩
    | _ => simp [Ty.eraseKinds] at h

theorem unify_eq_empty_iff :
    unify t₁ t₂ = .ok .empty ↔
      t₁.firstGen? = none ∧ t₂.firstGen? = none ∧ t₁.eraseKinds = t₂.eraseKinds := by
  constructor
  · intro h
    have herase := unify_eraseKinds h
    rw [Ty.subst_empty, Ty.subst_empty] at herase
    exact ⟨(unify_slotFree h).1, (unify_slotFree h).2, herase⟩
  · exact fun ⟨h₁, _, h⟩ => unify_of_eraseKinds_eq h₁ h

/-- **A unifier makes two types equal up to kinds**, and equal outright if each id has one kind in both.
Nothing is bound exactly where no slots are left and the types are equal up to kinds as they are.  In
particular, nothing is bound to unify a type without slots with itself. -/
theorem unify_equates (t₁ t₂ : Ty) :
    (∀ s, unify t₁ t₂ = .ok s →
      (t₁.subst s).eraseKinds = (t₂.subst s).eraseKinds ∧
      (OneKindPerId [t₁, t₂] → t₁.subst s = t₂.subst s)) ∧
    (unify t₁ t₂ = .ok .empty ↔
      t₁.firstGen? = none ∧ t₂.firstGen? = none ∧ t₁.eraseKinds = t₂.eraseKinds) ∧
    (t₁.firstGen? = none → unify t₁ t₁ = .ok .empty) := by
  refine ⟨fun s hs => ⟨unify_eraseKinds hs, fun hkinds => ?_⟩, unify_eq_empty_iff,
    fun hslots => unify_of_eraseKinds_eq hslots rfl⟩
  have hfits := hkinds.fits (by simpa [types] using unify_slotFree hs)
  exact (unify_sound (hfits t₁ (by simp [types])) (hfits t₂ (by simp [types])) hs).2

/-- `a -> T`, where `T` is a type. -/
def intoType : Ty := .fn (.var ⟨"a", .star⟩) (.con ⟨"T", .star⟩)

/-- `[b] -> T`, where `T` takes a type. -/
def intoFamily : Ty := .fn (.list (.var ⟨"b", .star⟩)) (.con ⟨"T", .ofArity 1⟩)

theorem unify_intoType : unify intoType intoFamily = .ok ⟨[(⟨"a", .star⟩, .list (.var ⟨"b", .star⟩))]⟩ := by
  cbv

theorem unify_unwrapping : unify unwrapping firstOf =
    .ok ⟨[(⟨"f", .ofArity 1⟩, .con .list), (⟨"a", .star⟩, .list (.var ⟨"b", .star⟩)),
      (⟨"c", .star⟩, .list (.var ⟨"b", .star⟩))]⟩ := by
  cbv

/-- A constructor at two kinds stays as it is, so the types become equal up to kinds and no further. -/
theorem unify_equates_intoType :
    (∃ s, unify intoType intoFamily = .ok s ∧ intoType.subst s ≠ intoFamily.subst s ∧
      (intoType.subst s).eraseKinds = (intoFamily.subst s).eraseKinds) ∧
    (∃ s, unify unwrapping firstOf = .ok s ∧ unwrapping.subst s = firstOf.subst s) ∧
    unify intoType intoFamily ≠ .ok .empty ∧ unify intoType intoType = .ok .empty := by
  obtain ⟨hequal, hempty, hself⟩ := unify_equates intoType intoFamily
  refine ⟨⟨_, unify_intoType, by decide, (hequal _ unify_intoType).1⟩, ⟨_, unify_unwrapping, ?_⟩, ?_, hself rfl⟩
  · exact ((unify_equates unwrapping firstOf).1 _ unify_unwrapping).2 ⟨by decide, by decide⟩
  · rw [ne_eq, hempty]
    decide

end QualifiedTypes
