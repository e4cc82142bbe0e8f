import QualifiedTypes.Unify.Error
import QualifiedTypes.Unify.Solved

/-!
# Unification

`unify t₁ t₂` finds the most general substitution that makes two types equal, or the first reason why
there is none.  Applications are solved from left to right, and the solution of the left halves is
applied to the right halves before those are solved in turn.  That second problem is a smaller one
because the first solution is in solved form (`problemSize_right_lt`), which is why `solve` returns the form
together with the substitution.

In Conch, `unify` is `mgu`, `bindVar` is `var_bind` and `unifyPred` is `mgu_pred`.

* `unify_app`: two applications are solved half by half.
* `unify_solvedIn`: the unifier is in solved form over the variables of the two types.
-/

namespace QualifiedTypes

/-- Bind a variable to a type, unless that is the variable itself. -/
def bindVar (v : TyVar) (t : Ty) : Except UnifyError Subst :=
  if t.isVar v.id then .ok .empty
  else match t.firstGen? with
    | some n => .error (.uninstantiated n)
    | none =>
      if t.occurs v.id then .error (.occursCheck v t)
      else if v.kind ≠ t.kind then .error (.kindMismatch v t)
      else .ok (.singleton v t)

theorem bindVar_solvedIn {v : TyVar} {t : Ty} {s : Subst} {V : List String}
    (hs : bindVar v t = .ok s) (hv : v.id ∈ V) (ht : ∀ id ∈ t.ids, id ∈ V) : s.SolvedIn V := by
  unfold bindVar at hs
  split at hs
  · cases hs
    exact Subst.solvedIn_empty V
  · split at hs
    · cases hs
    · split at hs
      · cases hs
      · rename_i hocc
        split at hs
        · cases hs
        · cases hs
          exact Subst.solvedIn_singleton hv ht fun h => hocc ((Ty.occurs_iff_mem_ids _ _).2 h)

/-- The solution of the halves of two applications solves the whole. -/
theorem solvedIn_app {l₁ l₂ r₁ r₂ : Ty} {s₁ s₂ : Subst} (h₁ : s₁.SolvedIn (l₁.ids ++ l₂.ids))
    (h₂ : s₂.SolvedIn ((s₁.apply r₁).ids ++ (s₁.apply r₂).ids)) :
    (s₂.compose s₁).SolvedIn ((Ty.app l₁ r₁).ids ++ (Ty.app l₂ r₂).ids) := by
  have hV : ∀ id ∈ l₁.ids ++ l₂.ids, id ∈ (Ty.app l₁ r₁).ids ++ (Ty.app l₂ r₂).ids := by
    simp only [List.mem_append, Ty.ids_app]
    rintro id (h | h) <;> simp [h]
  refine (h₁.mono hV).compose h₂ ?_ ?_
  · simp only [List.mem_append, Subst.apply_ty]
    rintro id (h | h) <;> rcases h₁.mem_of_mem_subst h with h | h
    · simp [h]
    · exact List.mem_append.1 (hV id h)
    · simp [h]
    · exact List.mem_append.1 (hV id h)
  · intro id hid h
    rcases List.mem_append.1 h with h | h
    · exact h₁.notMem_subst hid _ h
    · exact h₁.notMem_subst hid _ h

/-- The most general unifier of two types, in solved form. -/
def solve (t₁ t₂ : Ty) : Except UnifyError { s : Subst // s.SolvedIn (t₁.ids ++ t₂.ids) } :=
  match t₁, t₂ with
  | .gen n, _ => .error (.uninstantiated n)
  | _, .gen n => .error (.uninstantiated n)
  | .app l₁ r₁, .app l₂ r₂ =>
    match solve l₁ l₂ with
    | .error e => .error e
    | .ok ⟨s₁, h₁⟩ =>
      match solve (s₁.apply r₁) (s₁.apply r₂) with
      | .error e => .error e
      | .ok ⟨s₂, h₂⟩ => .ok ⟨s₂.compose s₁, solvedIn_app h₁ h₂⟩
  | .var v, t =>
    match h : bindVar v t with
    | .error e => .error e
    | .ok s => .ok ⟨s, bindVar_solvedIn h (by simp) (by simp +contextual)⟩
  | t, .var v =>
    match h : bindVar v t with
    | .error e => .error e
    | .ok s => .ok ⟨s, bindVar_solvedIn h (by simp) (by simp +contextual)⟩
  | .con c₁, .con c₂ =>
    if c₁.id = c₂.id then .ok ⟨.empty, Subst.solvedIn_empty _⟩
    else .error (.constructorMismatch c₁ c₂)
  | t₁, t₂ => .error (.shapeMismatch t₁ t₂)
termination_by problemSize t₁ t₂
decreasing_by
  · exact problemSize_left_lt l₁ r₁ l₂ r₂
  · exact problemSize_right_lt h₁ r₁ r₂

/-- The most general unifier of two types. -/
def unify (t₁ t₂ : Ty) : Except UnifyError Subst := (solve t₁ t₂).map Subtype.val

/-- The most general unifier of two predicates of one class. -/
def unifyPred (p₁ p₂ : Pred) : Except UnifyError Subst :=
  if p₁.className = p₂.className then unify p₁.ty p₂.ty
  else .error (.classMismatch p₁.className p₂.className)

/-! ## The equations of unification -/

theorem unify_solvedIn {t₁ t₂ : Ty} {s : Subst} (h : unify t₁ t₂ = .ok s) :
    s.SolvedIn (t₁.ids ++ t₂.ids) := by
  unfold unify at h
  cases hs : solve t₁ t₂ with
  | error e => rw [hs] at h; cases h
  | ok s' => rw [hs] at h; cases h; exact s'.property

@[simp] theorem unify_gen_left (n : Nat) (t : Ty) : unify (.gen n) t = .error (.uninstantiated n) := by
  rw [unify, solve.eq_def]
  rfl

theorem unify_gen_right {t : Ty} (n : Nat) (ht : ∀ m, t ≠ .gen m) :
    unify t (.gen n) = .error (.uninstantiated n) := by
  rw [unify, solve.eq_def]
  cases t with
  | gen m => exact absurd rfl (ht m)
  | _ => rfl

theorem unify_var_left (v : TyVar) (t : Ty) : unify (.var v) t = bindVar v t := by
  rw [unify, solve.eq_def]
  cases t with
  | gen n => rfl
  | _ =>
    dsimp only
    split <;> simp_all [Except.map]

theorem unify_var_right {t : Ty} (v : TyVar) (ht : ∀ w, t ≠ .var w) :
    unify t (.var v) = bindVar v t := by
  rw [unify, solve.eq_def]
  cases t with
  | gen n => rfl
  | var w => exact absurd rfl (ht w)
  | _ =>
    dsimp only
    split <;> simp_all [Except.map]

theorem unify_con (c₁ c₂ : TyCon) :
    unify (.con c₁) (.con c₂) =
      if c₁.id = c₂.id then .ok .empty else .error (.constructorMismatch c₁ c₂) := by
  rw [unify, solve.eq_def]
  dsimp only
  split <;> rfl

theorem unify_con_app (c : TyCon) (f x : Ty) :
    unify (.con c) (.app f x) = .error (.shapeMismatch (.con c) (.app f x)) := by
  rw [unify, solve.eq_def]
  rfl

theorem unify_app_con (c : TyCon) (f x : Ty) :
    unify (.app f x) (.con c) = .error (.shapeMismatch (.app f x) (.con c)) := by
  rw [unify, solve.eq_def]
  rfl

theorem unify_app (l₁ r₁ l₂ r₂ : Ty) :
    unify (.app l₁ r₁) (.app l₂ r₂) = do
      let s₁ ← unify l₁ l₂
      let s₂ ← unify (s₁.apply r₁) (s₁.apply r₂)
      return s₂.compose s₁ := by
  unfold unify
  rw [solve]
  cases solve l₁ l₂ with
  | error e => rfl
  | ok s₁ =>
    obtain ⟨s₁, h₁⟩ := s₁
    simp only [Except.map, bind, Except.bind]
    cases solve (s₁.apply r₁) (s₁.apply r₂) with
    | error e => rfl
    | ok s₂ => rfl

end QualifiedTypes
