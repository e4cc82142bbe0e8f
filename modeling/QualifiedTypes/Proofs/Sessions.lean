import QualifiedTypes.Proofs.Soundness

/-!
# Sessions

The state of inference may be used by one call after the other, and a call that fails leaves behind what it
had done up to then.  Nothing is asked of the calls here: types may have slots and clashing kinds, and
variables of any name.

* `Infer.Call`, `Infer.after`: sequences of calls, and the state that they lead to.
* `Subst.Solved`: a substitution that binds each id once and mentions none of those that it binds.
* `Subst.Solved.compose`: a unifier of types under a solved substitution extends it to a solved one.
* `Infer.Refining`: a step that keeps the substitution solved and refines it, also when it fails.
* `Infer.after_solved`: so does every sequence of calls.
-/

namespace QualifiedTypes

/-! ## Solved substitutions -/

namespace Subst

/-- Each id is bound once, and no id that is bound is mentioned. -/
structure Solved (s : Subst) : Prop where
  nodup : s.ids.Nodup
  unbound : ∀ b ∈ s.bindings, ∀ id ∈ b.2.ids, id ∉ s.ids

/-- All ids that are bound or mentioned. -/
def allIds (s : Subst) : List String := s.ids ++ s.bindings.flatMap fun b => b.2.ids

theorem mem_allIds {s : Subst} {id : String} :
    id ∈ s.allIds ↔ id ∈ s.ids ∨ ∃ b ∈ s.bindings, id ∈ b.2.ids := by
  rw [allIds, List.mem_append, List.mem_flatMap]

theorem mem_allIds_compose {s₁ s₂ : Subst} {id : String} (h : id ∈ (s₁.compose s₂).allIds) :
    id ∈ s₁.allIds ∨ id ∈ s₂.allIds := by
  simp only [mem_allIds, mem_ids_compose] at h ⊢
  rcases h with (h | h) | ⟨b, hb, hid⟩
  · exact .inr (.inl h)
  · exact .inl (.inl h)
  · rcases List.mem_append.1 hb with hb | hb
    · obtain ⟨c, hc, rfl⟩ := List.mem_map.1 hb
      rcases Ty.mem_ids_subst hid with ⟨hid, _⟩ | hid
      · exact .inr (.inr ⟨c, hc, hid⟩)
      · exact .inl (.inr hid)
    · exact .inl (.inr ⟨b, (List.mem_filter.1 hb).1, hid⟩)

theorem SolvedIn.mem_of_mem_allIds {V : List String} {s : Subst} (h : s.SolvedIn V) {id : String}
    (hid : id ∈ s.allIds) : id ∈ V := by
  rcases mem_allIds.1 hid with hid | ⟨b, hb, hid⟩
  · exact h.bound_mem id hid
  · exact h.range_mem b hb id hid

theorem solved_empty : empty.Solved := ⟨List.nodup_nil, fun _ hb => nomatch hb⟩

theorem Solved.solvedIn {s : Subst} (h : s.Solved) : s.SolvedIn s.allIds where
  bound_mem _ hid := mem_allIds.2 (.inl hid)
  range_mem b hb _ hid := mem_allIds.2 (.inr ⟨b, hb, hid⟩)
  range_unbound := h.unbound

/-- What a solved substitution has replaced, it does not replace again. -/
theorem Solved.subst_subst {s : Subst} (h : s.Solved) (t : Ty) : (t.subst s).subst s = t.subst s :=
  Ty.subst_eq_self fun _ hid hbound => h.solvedIn.notMem_subst hbound t hid

theorem Solved.apply_apply {α : Type} [HasTypes α] {s : Subst} (h : s.Solved) (x : α) :
    s.apply (s.apply x) = s.apply x := by
  unfold apply
  rw [mapTypes_mapTypes]
  exact mapTypes_congr fun t _ => h.subst_subst t

/-- A solved substitution is absorbed by whatever refines it. -/
theorem Solved.absorbed {s s' : Subst} (h : s.Solved) (href : s.RefinedBy s') (t : Ty) :
    (t.subst s).subst s' = t.subst s' := by
  obtain ⟨u, hu⟩ := href
  rw [hu, hu, h.subst_subst]

end Subst

theorem bindVar_nodup {v : TyVar} {t : Ty} {s : Subst} (h : bindVar v t = .ok s) : s.ids.Nodup := by
  obtain ⟨_, rfl⟩ | ⟨_, _, _, rfl⟩ := bindVar_eq_ok h
  · exact List.nodup_nil
  · exact List.nodup_singleton _

/-- A unifier binds each id once. -/
theorem unify_nodup {t₁ t₂ : Ty} {s : Subst} (h : unify t₁ t₂ = .ok s) : s.ids.Nodup := by
  refine unify_ok_induction (motive := fun _ _ s => s.ids.Nodup) ?_ ?_ ?_ ?_ h
  · intro v t s hbind
    exact bindVar_nodup hbind
  · intro t v s hbind
    exact bindVar_nodup hbind
  · intro _ _ _
    exact List.nodup_nil
  · intro _ _ _ _ s₁ s₂ _ _ hleft hright
    exact Subst.nodup_ids_compose hright hleft

/-- A unifier of types in which the bound ids are replaced mentions none of them, so that it extends a solved
substitution to a solved one. -/
theorem Subst.Solved.compose {s u : Subst} (h : s.Solved) {t₁ t₂ : Ty}
    (hu : unify (t₁.subst s) (t₂.subst s) = .ok u) : (u.compose s).Solved := by
  have hsolved := unify_solvedIn hu
  have hs : s.SolvedIn (s.allIds ++ ((t₁.subst s).ids ++ (t₂.subst s).ids)) :=
    h.solvedIn.mono fun id hid => List.mem_append_left _ hid
  refine ⟨nodup_ids_compose (unify_nodup hu) h.nodup, (hs.compose hsolved ?_ ?_).range_unbound⟩
  · exact fun id hid => List.mem_append_right _ hid
  · intro id hid hmem
    rcases List.mem_append.1 hmem with hmem | hmem
    · exact h.solvedIn.notMem_subst hid t₁ hmem
    · exact h.solvedIn.notMem_subst hid t₂ hmem

/-! ## Calls -/

namespace Infer

/-- One use of the state of inference. -/
inductive Call where
  | freshVar (kind : Kind)
  | instantiate (scheme : Scheme)
  | unify (expected found : Ty) (origin : Origin)
  | expr (env : TypeEnv) (e : Expr)

/-- What a call that succeeds returns. -/
inductive Answer where
  | ty (t : Ty)
  | qual (q : Qual Ty)
  | solved
  | typed (preds : List Pred) (e : TypedExpr)

/-- Make a call. -/
def Call.run : Call → Infer Answer
  | .freshVar kind => do return .ty (← Infer.freshVar kind)
  | .instantiate scheme => do return .qual (← Infer.instantiate scheme)
  | .unify expected found origin => do
    Infer.unify expected found origin
    return .solved
  | .expr env e => do
    let r ← Infer.expr env e
    return .typed r.1 r.2

/-- The state after some calls.  Each is made whether or not the ones before it succeeded. -/
def after : List Call → InferState → InferState
  | [], st => st
  | c :: calls, st => after calls (c.run.runFrom st).2

/-- What some calls return, in order. -/
def outcomes : List Call → InferState → List (Except TypeError Answer)
  | [], _ => []
  | c :: calls, st => (c.run.runFrom st).1 :: outcomes calls (c.run.runFrom st).2

theorem after_append (calls more : List Call) (st : InferState) :
    after (calls ++ more) st = after more (after calls st) := by
  induction calls generalizing st with
  | nil => rfl
  | cons c calls ih => exact ih _

variable {α β : Type}

/-- Whether or not it succeeds, the step keeps the substitution solved and refines it. -/
def Refining (x : Infer α) : Prop :=
  ∀ st, st.subst.Solved →
    (x.runFrom st).2.subst.Solved ∧ st.subst.RefinedBy (x.runFrom st).2.subst

namespace Refining

/-- A step that leaves the substitution alone. -/
theorem of_eq {x : Infer α} (h : ∀ st, (x.runFrom st).2.subst = st.subst) : Refining x := by
  intro st hst
  rw [h st]
  exact ⟨hst, .refl _⟩

theorem pure (a : α) : Refining (Pure.pure a) := .of_eq fun _ => rfl

/-- A failure of the first step ends the sequence in a state that the first step has refined. -/
theorem bind {x : Infer α} {f : α → Infer β} (hx : Refining x) (hf : ∀ a, Refining (f a)) :
    Refining (x >>= f) := by
  intro st hst
  obtain ⟨hsolved, href⟩ := hx st hst
  rw [runFrom_bind]
  rcases hrun : x.runFrom st with ⟨e | a, st₁⟩
  · rw [hrun] at hsolved href
    exact ⟨hsolved, href⟩
  · rw [hrun] at hsolved href
    obtain ⟨hsolved', href'⟩ := hf a st₁ hsolved
    exact ⟨hsolved', href.trans href'⟩

end Refining

theorem freshVar_refining (kind : Kind) : Refining (freshVar kind) := .of_eq fun _ => rfl

theorem instantiate_refining (scheme : Scheme) : Refining (instantiate scheme) :=
  .of_eq fun st => by rw [runFrom_instantiate]

theorem name_refining (env : TypeEnv) (token : Token) : Refining (name env token) := by
  unfold name
  cases env.find? token.lexeme with
  | none => exact .of_eq fun _ => rfl
  | some scheme => exact instantiate_refining scheme

theorem unify_refining (expected found : Ty) (origin : Origin) : Refining (unify expected found origin) := by
  intro st hst
  rw [runFrom_unify]
  cases hu : QualifiedTypes.unify (expected.subst st.subst) (found.subst st.subst) with
  | error cause => exact ⟨hst, .refl _⟩
  | ok u => exact ⟨hst.compose hu, .compose u st.subst⟩

theorem applyTo_refining (func arg : Ty) (origin : Origin) : Refining (applyTo func arg origin) :=
  (freshVar_refining .star).bind fun _ => (unify_refining _ _ _).bind fun _ => .pure _

theorem expr_refining (env : TypeEnv) (e : Expr) : Refining (expr env e) := by
  induction e with
  | literal token => exact (freshVar_refining .star).bind fun _ => .pure _
  | name token => exact (name_refining env token).bind fun _ => .pure _
  | grouping inner span ih => exact ih.bind fun _ => .pure _
  | application func arg ihf iha =>
    refine ihf.bind fun _ => iha.bind fun _ => ?_
    exact (applyTo_refining _ _ _).bind fun _ => .pure _
  | binary left operator right ihl ihr =>
    refine (name_refining env operator).bind fun _ => ihl.bind fun _ => ?_
    refine (applyTo_refining _ _ _).bind fun _ => ihr.bind fun _ => ?_
    exact (applyTo_refining _ _ _).bind fun _ => .pure _
  | assignment target value => exact .of_eq fun _ => rfl

theorem Call.refining (c : Call) : Refining c.run := by
  cases c with
  | freshVar kind => exact (freshVar_refining kind).bind fun _ => .pure _
  | instantiate scheme => exact (instantiate_refining scheme).bind fun _ => .pure _
  | unify expected found origin => exact (unify_refining expected found origin).bind fun _ => .pure _
  | expr env e => exact (expr_refining env e).bind fun _ => .pure _

/-- What every call keeps, a sequence of calls keeps. -/
theorem after_refining (calls : List Call) {st : InferState} (hst : st.subst.Solved) :
    (after calls st).subst.Solved ∧ st.subst.RefinedBy (after calls st).subst := by
  induction calls generalizing st with
  | nil => exact ⟨hst, .refl _⟩
  | cons c calls ih =>
    obtain ⟨hsolved, href⟩ := c.refining st hst
    obtain ⟨hsolved', href'⟩ := ih hsolved
    exact ⟨hsolved', href.trans href'⟩

/-- Two types that clash change nothing. -/
theorem unify_error_eq {expected found : Ty} {origin : Origin} {st : InferState} {err : TypeError}
    (h : ((unify expected found origin).runFrom st).1 = .error err) :
    ((unify expected found origin).runFrom st).2 = st := by
  rw [runFrom_unify] at h ⊢
  cases hu : QualifiedTypes.unify (expected.subst st.subst) (found.subst st.subst) with
  | error cause => rfl
  | ok u =>
    rw [hu] at h
    cases h

end Infer

theorem Prelude.resolved_of_check {prelude : Prelude} {e : Expr} {r : CheckResult}
    (h : prelude.check e = some (.ok r)) : r.subst.apply r.resolved = r.resolved := by
  obtain ⟨preds, state, hrun, hsubst, _⟩ := check_eq_ok h
  have hsolved := (Infer.expr_refining prelude.typeEnv e .initial Subst.solved_empty).1
  rw [hrun, ← hsubst] at hsolved
  exact hsolved.apply_apply r.typed

/-- **The substitution is always solved, and only ever refined.**  After any calls from the beginning, it binds
each id once and mentions none that it binds, so that to act twice is to act once; whatever later calls make of
it absorbs it; and where two types clash, the state stays as it was.  In particular a checked expression that
was resolved is not changed when it is resolved again. -/
theorem Infer.after_solved (calls : List Call) :
    let st := after calls .initial
    (st.subst.ids.Nodup ∧ ∀ b ∈ st.subst.bindings, ∀ id ∈ b.2.ids, id ∉ st.subst.ids) ∧
    (∀ t : Ty, (t.subst st.subst).subst st.subst = t.subst st.subst) ∧
    (∀ (more : List Call) (t : Ty), (t.subst st.subst).subst (after (calls ++ more) .initial).subst =
      t.subst (after (calls ++ more) .initial).subst) ∧
    (∀ expected found origin err, ((unify expected found origin).runFrom st).1 = .error err →
      ((unify expected found origin).runFrom st).2 = st) ∧
    ∀ (prelude : Prelude) (e : Expr) (r : CheckResult), prelude.check e = some (.ok r) →
      r.subst.apply r.resolved = r.resolved := by
  intro st
  have hsolved : st.subst.Solved := (after_refining calls Subst.solved_empty).1
  refine ⟨⟨hsolved.nodup, hsolved.unbound⟩, hsolved.subst_subst, fun more t => ?_, ?_, ?_⟩
  · rw [after_append]
    exact hsolved.absorbed (after_refining more hsolved).2 t
  · intro expected found origin err h
    exact unify_error_eq h
  · intro prelude e r h
    exact Prelude.resolved_of_check h

/-! ## A session with a clash -/

namespace Infer

/-- `a` is a function on `b`; then `b` would be a list of `a`; then it is a list of `c`. -/
def clashing : List Call :=
  [.unify (.var ⟨"a", .star⟩) (.fn (.var ⟨"b", .star⟩) (.var ⟨"b", .star⟩)) (.operator "+" .zero),
    .unify (.var ⟨"b", .star⟩) (.list (.var ⟨"a", .star⟩)) (.operator "+" .zero),
    .unify (.var ⟨"b", .star⟩) (.list (.var ⟨"c", .star⟩)) (.operator "+" .zero)]

/-- The second call fails: with what is known of `a`, the list would contain itself. -/
theorem runFrom_clashing :
    ∃ clash, ((unify (.var ⟨"b", .star⟩) (.list (.var ⟨"a", .star⟩)) (.operator "+" .zero)).runFrom
      (after (clashing.take 1) .initial)).1 = .error (.unification clash) := by
  let b := Ty.var ⟨"b", .star⟩
  let listA := Ty.list (.var ⟨"a", .star⟩)
  refine ⟨⟨b, listA, b, .list (.fn b b), .occursCheck ⟨"b", .star⟩ (.list (.fn b b)), .operator "+" .zero⟩, ?_⟩
  cbv

theorem after_solved_clashing :
    let st := after (clashing.take 1) .initial
    ((unify (.var ⟨"b", .star⟩) (.list (.var ⟨"a", .star⟩)) (.operator "+" .zero)).runFrom st).2 = st ∧
    st.subst.ids = ["a"] ∧ (after clashing .initial).subst.ids = ["a", "b"] ∧
    ∀ t : Ty, (t.subst st.subst).subst (after clashing .initial).subst =
      t.subst (after clashing .initial).subst := by
  obtain ⟨_, _, habsorbed, hfailed, _⟩ := after_solved (clashing.take 1)
  obtain ⟨clash, hclash⟩ := runFrom_clashing
  exact ⟨hfailed _ _ _ _ hclash, by cbv, by cbv, habsorbed (clashing.drop 1)⟩

end Infer

end QualifiedTypes
