import Mathlib
import QualifiedTypes.Proofs.Erasure
import QualifiedTypes.Proofs.Sessions

/-!
# Solved forms, and why unification ends

A unifier is a solved form of the equation between two types.  It binds some of their variables, to types over
the others.  Nothing is asked of the two types for this: an id may have two kinds, and where a slot is left there
is no unifier.

Two applications are unified half by half, and the unifier of the left halves is applied to the right halves
before those are unified.  They may grow by that beyond any bound that the sizes of the types would give.  But a
solved form that binds anything takes a variable out of them, and brings none in.

* `Subst.Over`: a substitution that binds and mentions only variables with a property.
* `unify_over`: what holds of all variables of two types holds of those that their unifier speaks of.
* `unify_solvedForm`: **unifiers are solved forms.**
* `unifyStep`, `UnifyCall`: one unfolding of unification, and the calls that it makes.
* `unify_terminates`: **the recursion of unification is well founded**, and unification is its only solution.
-/

namespace QualifiedTypes

/-! ## Variables with a property -/

section Over

variable {P : TyVar → Prop}

/-- All variables have the property, and there are no slots. -/
structure Ty.Over (P : TyVar → Prop) (t : Ty) : Prop where
  vars : ∀ v ∈ t.occurrences, P v
  slotFree : t.firstGen? = none

/-- All variables that are bound or mentioned have the property, and no slots are mentioned. -/
def Subst.Over (P : TyVar → Prop) (s : Subst) : Prop := ∀ b ∈ s.bindings, P b.1 ∧ b.2.Over P

theorem Ty.over_app {f x : Ty} : (Ty.app f x).Over P ↔ f.Over P ∧ x.Over P := by
  constructor
  · rintro ⟨hvars, hslots⟩
    rw [firstGen?_app] at hslots
    exact ⟨⟨fun v hv => hvars v (List.mem_append_left _ hv), hslots.1⟩,
      ⟨fun v hv => hvars v (List.mem_append_right _ hv), hslots.2⟩⟩
  · rintro ⟨hf, hx⟩
    exact ⟨List.forall_mem_append.2 ⟨hf.vars, hx.vars⟩, firstGen?_app.2 ⟨hf.slotFree, hx.slotFree⟩⟩

theorem Ty.Over.subst {t : Ty} {s : Subst} (ht : t.Over P) (hs : s.Over P) : (t.subst s).Over P := by
  induction t with
  | var v => exact subst_var_of_forall ht fun b hb => (hs b hb).2
  | con c => exact ht
  | gen n => exact ht
  | app f x ihf ihx =>
    obtain ⟨hf, hx⟩ := over_app.1 ht
    exact over_app.2 ⟨ihf hf, ihx hx⟩

theorem Subst.Over.compose {s₁ s₂ : Subst} (h₁ : s₁.Over P) (h₂ : s₂.Over P) : (s₁.compose s₂).Over P := by
  intro b hb
  rcases List.mem_append.1 hb with hb | hb
  · obtain ⟨c, hc, rfl⟩ := List.mem_map.1 hb
    exact ⟨(h₂ c hc).1, (h₂ c hc).2.subst h₁⟩
  · exact h₁ b (List.mem_filter.1 hb).1

theorem bindVar_over {v : TyVar} {t : Ty} {s : Subst} (hv : P v) (ht : t.Over P) (h : bindVar v t = .ok s) :
    s.Over P := by
  intro b hb
  obtain ⟨_, rfl⟩ | ⟨_, _, _, rfl⟩ := bindVar_eq_ok h
  · cases hb
  · rw [List.mem_singleton.1 hb]
    exact ⟨hv, ht⟩

/-- What holds of all variables of two types holds of all that their unifier binds or mentions. -/
theorem unify_over {t₁ t₂ : Ty} {s : Subst} (h₁ : t₁.Over P) (h₂ : t₂.Over P) (h : unify t₁ t₂ = .ok s) :
    s.Over P := by
  refine unify_ok_induction (motive := fun t₁ t₂ s => t₁.Over P → t₂.Over P → s.Over P) ?_ ?_ ?_ ?_ h h₁ h₂
  · exact fun v t s hbind hv ht => bindVar_over (hv.vars v List.mem_cons_self) ht hbind
  · exact fun t v s hbind ht hv => bindVar_over (hv.vars v List.mem_cons_self) ht hbind
  · exact fun _ _ _ _ _ b hb => nomatch hb
  · intro l₁ r₁ l₂ r₂ s₁ s₂ _ _ ihl ihr h₁ h₂
    rw [Ty.over_app] at h₁ h₂
    have hs₁ := ihl h₁.1 h₂.1
    exact (ihr (h₁.2.subst hs₁) (h₂.2.subst hs₁)).compose hs₁

end Over

/-! ## Solved forms -/

/-- The substitution is a solved form over two types: it binds each id once, to types without slots, it binds and
mentions only variables of the two types, and it mentions no id that it binds. -/
structure Subst.SolvedForm (t₁ t₂ : Ty) (s : Subst) : Prop where
  nodup : s.ids.Nodup
  bound : ∀ v ∈ s.keys, v ∈ t₁.occurrences ∨ v ∈ t₂.occurrences
  mentioned : ∀ b ∈ s.bindings, ∀ v ∈ b.2.occurrences, v ∈ t₁.occurrences ∨ v ∈ t₂.occurrences
  unbound : ∀ v ∈ s.keys, ∀ b ∈ s.bindings, b.2.occurs v.id = false
  slotFree : ∀ b ∈ s.bindings, b.2.slots = []

variable {t₁ t₂ : Ty} {s : Subst}

/-- **Unifiers are solved forms**, of types without slots. -/
theorem unify_solvedForm (h : unify t₁ t₂ = .ok s) : t₁.slots = [] ∧ t₂.slots = [] ∧ s.SolvedForm t₁ t₂ := by
  obtain ⟨hslots₁, hslots₂⟩ := unify_slotFree h
  have hover : s.Over fun v => v ∈ t₁.occurrences ∨ v ∈ t₂.occurrences :=
    unify_over ⟨fun _ => .inl, hslots₁⟩ ⟨fun _ => .inr, hslots₂⟩ h
  refine ⟨Ty.slots_eq_nil_iff.2 hslots₁, Ty.slots_eq_nil_iff.2 hslots₂, ?_⟩
  constructor
  case nodup => exact unify_nodup h
  case bound => exact List.forall_mem_map.2 fun b hb => (hover b hb).1
  case mentioned => exact fun b hb => (hover b hb).2.vars
  case unbound =>
    intro v hv b hb
    rw [← Bool.not_eq_true, Ty.occurs_iff_mem_ids]
    exact fun hid => (unify_solvedIn h).range_unbound b hb v.id hid (List.mem_map_of_mem hv)
  case slotFree => exact fun b hb => Ty.slots_eq_nil_iff.2 (hover b hb).2.slotFree

/-- Three of the four variables of `f a -> a` and `[[b]] -> c` are bound, to types over the one that is left. -/
theorem unify_solvedForm_unwrapping :
    ∃ s, unify unwrapping firstOf = .ok s ∧ s.size = 3 ∧ unwrapping.slots = [] ∧ s.SolvedForm unwrapping firstOf :=
  ⟨_, unify_unwrapping, rfl, (unify_solvedForm unify_unwrapping).1, (unify_solvedForm unify_unwrapping).2.2⟩

/-! ## The recursion of unification -/

/-- One unfolding of unification, with another function in place of the calls that it makes. -/
def unifyStep (call : Ty → Ty → Except UnifyError Subst) : Ty → Ty → Except UnifyError Subst
  | .gen n, _ => .error (.uninstantiated n)
  | _, .gen n => .error (.uninstantiated n)
  | .app l₁ r₁, .app l₂ r₂ => do
    let s₁ ← call l₁ l₂
    let s₂ ← call (s₁.apply r₁) (s₁.apply r₂)
    return s₂.compose s₁
  | .var v, t => bindVar v t
  | t, .var v => bindVar v t
  | .con c₁, .con c₂ => if c₁.id = c₂.id then .ok .empty else .error (.constructorMismatch c₁ c₂)
  | t₁, t₂ => .error (.shapeMismatch t₁ t₂)

/-- The calls that unification makes.  The first pair is unified in order to unify the second. -/
inductive UnifyCall : Ty × Ty → Ty × Ty → Prop where
  | left (l₁ r₁ l₂ r₂ : Ty) : UnifyCall (l₁, l₂) (.app l₁ r₁, .app l₂ r₂)
  | right {l₁ l₂ : Ty} {s : Subst} (solved : unify l₁ l₂ = .ok s) (r₁ r₂ : Ty) :
      UnifyCall (s.apply r₁, s.apply r₂) (.app l₁ r₁, .app l₂ r₂)

theorem unify_eq_step (t₁ t₂ : Ty) : unify t₁ t₂ = unifyStep unify t₁ t₂ := by
  cases t₁ with
  | gen n => exact unify_gen_left n t₂
  | var v =>
    rw [unify_var_left]
    cases t₂ <;> rfl
  | con c =>
    cases t₂ with
    | gen n => exact unify_gen_right n nofun
    | var v => exact unify_var_right v nofun
    | con d => exact unify_con c d
    | app f x => exact unify_con_app c f x
  | app l₁ r₁ =>
    cases t₂ with
    | gen n => exact unify_gen_right n nofun
    | var v => exact unify_var_right v nofun
    | con c => exact unify_app_con c l₁ r₁
    | app l₂ r₂ => exact unify_app l₁ r₁ l₂ r₂

/-- One unfolding looks at the calls of the pair and at nothing else. -/
theorem unifyStep_congr {call : Ty → Ty → Except UnifyError Subst}
    (h : ∀ p, UnifyCall p (t₁, t₂) → call p.1 p.2 = unify p.1 p.2) : unifyStep call t₁ t₂ = unify t₁ t₂ := by
  rw [unify_eq_step]
  cases t₁ with
  | app l₁ r₁ =>
    cases t₂ with
    | app l₂ r₂ =>
      have hleft : call l₁ l₂ = unify l₁ l₂ := h _ (.left l₁ r₁ l₂ r₂)
      rw [unifyStep, unifyStep, hleft]
      cases hl : unify l₁ l₂ with
      | error e => rfl
      | ok s =>
        -- only now is it known which right halves are unified
        have hright : call (s.apply r₁) (s.apply r₂) = unify (s.apply r₁) (s.apply r₂) := h _ (.right hl r₁ r₂)
        exact congrArg (· >>= fun s₂ => .ok (s₂.compose s)) hright
    | _ => rfl
  | _ => cases t₂ <;> rfl

/-- A call is made for a smaller problem. -/
theorem UnifyCall.problemSize_lt {p q : Ty × Ty} (h : UnifyCall p q) :
    Prod.Lex (· < ·) (· < ·) (problemSize p.1 p.2) (problemSize q.1 q.2) := by
  cases h with
  | left l₁ r₁ l₂ r₂ => exact problemSize_left_lt l₁ r₁ l₂ r₂
  | right solved r₁ r₂ => exact problemSize_right_lt (unify_solvedIn solved) r₁ r₂

theorem wellFounded_unifyCall : WellFounded UnifyCall :=
  Subrelation.wf (fun h => h.problemSize_lt)
    (InvImage.wf (fun p : Ty × Ty => problemSize p.1 p.2) (Nat.lt_wfRel.wf.prod_lex Nat.lt_wfRel.wf))

/-- The equation of the recursion has one solution. -/
theorem eq_unify_of_step {call : Ty → Ty → Except UnifyError Subst}
    (h : ∀ t₁ t₂, call t₁ t₂ = unifyStep call t₁ t₂) : call = unify := by
  have hpair : ∀ p : Ty × Ty, call p.1 p.2 = unify p.1 p.2 := by
    intro p
    induction p using wellFounded_unifyCall.induction with
    | _ p ih => rw [h, unifyStep_congr ih]
  funext t₁ t₂
  exact hpair (t₁, t₂)

/-- A solved form that is not empty takes a variable out of all types. -/
theorem Subst.SolvedIn.eq_empty_or_eliminates {V : List String} (h : s.SolvedIn V) :
    s = .empty ∨ ∃ id ∈ V, ∀ t : Ty, id ∉ (t.subst s).ids := by
  by_cases hs : s.bindings = []
  · exact .inl (Subst.ext hs)
  · obtain ⟨b, bs, hb⟩ := List.exists_cons_of_ne_nil hs
    have hbound : b.1.id ∈ s.ids := by simp [Subst.ids, Subst.keys, hb]
    exact .inr ⟨b.1.id, h.bound_mem _ hbound, fun t => h.notMem_subst hbound t⟩

/-- **Unification ends.**  The calls that it makes are well founded, it is determined by the calls, and so it is the
only function that solves the equation of its recursion.  The second call for two applications has fewer distinct
variables, or as many and fewer nodes, because the unifier of the left halves is empty or takes a variable out of
all types, and brings none into a type but those of the left halves. -/
theorem unify_terminates :
    WellFounded UnifyCall ∧
    (∀ t₁ t₂ call, (∀ p, UnifyCall p (t₁, t₂) → call p.1 p.2 = unify p.1 p.2) →
      unifyStep call t₁ t₂ = unify t₁ t₂) ∧
    (∀ call : Ty → Ty → Except UnifyError Subst,
      (∀ t₁ t₂, call t₁ t₂ = unifyStep call t₁ t₂) ↔ call = unify) ∧
    ∀ l₁ r₁ l₂ r₂ s, unify l₁ l₂ = .ok s →
      Prod.Lex (· < ·) (· < ·) (problemSize (s.apply r₁) (s.apply r₂))
        (problemSize (.app l₁ r₁) (.app l₂ r₂)) ∧
      (s = .empty ∨ ∃ id ∈ l₁.ids ++ l₂.ids, ∀ t : Ty, id ∉ (t.subst s).ids) ∧
      ∀ t : Ty, ∀ id ∈ (t.subst s).ids, id ∈ t.ids ∨ id ∈ l₁.ids ++ l₂.ids := by
  refine ⟨wellFounded_unifyCall, fun t₁ t₂ call h => unifyStep_congr h, fun call => ⟨eq_unify_of_step, ?_⟩, ?_⟩
  · rintro rfl
    exact unify_eq_step
  · intro l₁ r₁ l₂ r₂ s hs
    have hsolved := unify_solvedIn hs
    exact ⟨problemSize_right_lt hsolved r₁ r₂, hsolved.eq_empty_or_eliminates,
      fun t id hid => hsolved.mem_of_mem_subst hid⟩

/-- `t -> t -> t`. -/
def threefold (t : Ty) : Ty := .fn t (.fn t t)

/-- The left half of `a -> a -> a -> a`. -/
def fromA : Ty := .app (.con .arrow) (.var ⟨"a", .star⟩)

/-- The left half of `(c -> c -> c) -> b`. -/
def fromThreefold : Ty := .app (.con .arrow) (threefold (.var ⟨"c", .star⟩))

theorem unify_fromA : unify fromA fromThreefold =
    .ok (.singleton ⟨"a", .star⟩ (threefold (.var ⟨"c", .star⟩))) := by
  cbv

/-- The right halves of the two types have 34 nodes when their turn comes, more than the 26 at the start, but two
variables in place of three. -/
theorem unify_terminates_threefold :
    ∃ s, unify fromA fromThreefold = .ok s ∧
      problemSize (.app fromA (threefold (.var ⟨"a", .star⟩))) (.app fromThreefold (.var ⟨"b", .star⟩)) = (3, 26) ∧
      problemSize (s.apply (threefold (.var ⟨"a", .star⟩))) (s.apply (.var ⟨"b", .star⟩)) = (2, 34) ∧
      Prod.Lex (· < ·) (· < ·) (problemSize (s.apply (threefold (.var ⟨"a", .star⟩))) (s.apply (.var ⟨"b", .star⟩)))
        (problemSize (.app fromA (threefold (.var ⟨"a", .star⟩))) (.app fromThreefold (.var ⟨"b", .star⟩))) ∧
      s ≠ .empty ∧ ∃ id ∈ fromA.ids ++ fromThreefold.ids, ∀ t : Ty, id ∉ (t.subst s).ids := by
  obtain ⟨hsmaller, heliminates, _⟩ := unify_terminates.2.2.2 _
    (threefold (.var ⟨"a", .star⟩)) _ (.var ⟨"b", .star⟩) _ unify_fromA
  exact ⟨_, unify_fromA, by decide, by decide, hsmaller, by decide, heliminates.resolve_left (by decide)⟩

end QualifiedTypes
