import QualifiedTypes.Proofs.Sessions

/-!
# Freshness over sessions

Variables are named by a counter that is never set back, not even by a call that fails.  If schemes have no
variables of their own, then all variables that there are come from the counter: those of the substitution,
of the answers and of the errors.  So what one call draws, no call before it has seen.

* `DrawnIn m n id`: the name was drawn while the counter went from `m` to `n`.
* `unify_error_mem`: an error of unification mentions variables of the two types only.
* `Infer.Draws`: what a step does to the counter and which variables it returns, whether or not it succeeds,
  with `Infer.Draws.bind` for sequences.
* `Infer.expr_draws`: inference returns variables that it has drawn itself, other ones at every node.
* `Infer.calls_fresh`: over a whole session, fresh variables are fresh.
-/

namespace QualifiedTypes

/-! ## Drawn names -/

/-- The name was drawn while the counter went from `m` to `n`. -/
def DrawnIn (m n : Nat) (id : String) : Prop := ∃ k, m ≤ k ∧ k < n ∧ id = freshName k

theorem DrawnIn.mono {m n m' n' : Nat} {id : String} (h : DrawnIn m n id) (hm : m' ≤ m) (hn : n ≤ n') :
    DrawnIn m' n' id := by
  obtain ⟨k, hmk, hkn, hid⟩ := h
  exact ⟨k, by omega, by omega, hid⟩

theorem drawnIn_freshName {m n k : Nat} : DrawnIn m n (freshName k) ↔ m ≤ k ∧ k < n := by
  constructor
  · rintro ⟨k', hmk, hkn, hid⟩
    rw [append_toString_injective hid]
    exact ⟨hmk, hkn⟩
  · rintro ⟨hmk, hkn⟩
    exact ⟨k, hmk, hkn, rfl⟩

/-- All variables of the type were drawn while the counter went from `m` to `n`. -/
def Ty.DrawnIn (m n : Nat) (t : Ty) : Prop := ∀ id ∈ t.ids, QualifiedTypes.DrawnIn m n id

namespace Ty.DrawnIn

variable {m n m' n' : Nat} {t u : Ty}

theorem mono (h : t.DrawnIn m n) (hm : m' ≤ m) (hn : n ≤ n') : t.DrawnIn m' n' :=
  fun id hid => (h id hid).mono hm hn

/-- A type has no name that was drawn later. -/
theorem freshName_notMem (h : t.DrawnIn m n) {k : Nat} (hk : n ≤ k) : freshName k ∉ t.ids := by
  intro hid
  have := drawnIn_freshName.1 (h _ hid)
  omega

/-- What is drawn later is something else. -/
theorem disjoint (ht : t.DrawnIn m n) (hu : u.DrawnIn m' n') (h : n ≤ m') : t.ids.Disjoint u.ids := by
  intro id hid hid'
  obtain ⟨k, hk, _, rfl⟩ := hu id hid'
  exact ht.freshName_notMem (h.trans hk) hid

theorem fn (ht : t.DrawnIn m n) (hu : u.DrawnIn m n) : (Ty.fn t u).DrawnIn m n := by
  intro id hid
  rw [Ty.fn, ids_app, ids_app, ids_con, List.nil_append, List.mem_append] at hid
  exact hid.elim (ht id) (hu id)

end Ty.DrawnIn

/-- A filled type has variables of its own and those of the types that were filled in. -/
theorem Ty.mem_ids_inst {ts : List Ty} {t : Ty} {id : String} (h : id ∈ (t.inst ts).ids) :
    id ∈ t.ids ∨ ∃ u ∈ ts, id ∈ u.ids := by
  induction t with
  | var v => exact .inl h
  | con c => exact .inl h
  | gen n =>
    rw [inst] at h
    cases hn : ts[n]? with
    | none =>
      rw [hn] at h
      cases h
    | some u =>
      rw [hn] at h
      exact .inr ⟨u, List.mem_of_getElem? hn, h⟩
  | app f x ihf ihx =>
    rw [inst, ids_app, List.mem_append] at h
    rw [ids_app, List.mem_append]
    rcases h with h | h
    · exact (ihf h).imp_left .inl
    · exact (ihx h).imp_left .inr

theorem Infer.freshVars_drawnIn (n : Nat) (kinds : List Kind) :
    ∀ t ∈ freshVars n kinds, t.DrawnIn n (n + kinds.length) := by
  induction kinds generalizing n with
  | nil => exact fun t ht => nomatch ht
  | cons k kinds ih =>
    rw [freshVars, List.length_cons]
    refine List.forall_mem_cons.2 ⟨fun id hid => ?_, fun t ht => (ih (n + 1) t ht).mono ?_ ?_⟩
    · rw [List.mem_singleton.1 hid]
      exact drawnIn_freshName.2 ⟨by omega, by omega⟩
    · omega
    · omega

theorem occurrences_eq_nil_of_freeVars {α : Type} [HasTypes α] {x : α} (h : freeVars x = []) :
    ∀ t ∈ types x, t.occurrences = [] := by
  intro t ht
  refine List.eq_nil_iff_forall_not_mem.2 fun v hv => ?_
  have := mem_ids_freeVars ht hv
  rw [h] at this
  cases this

/-! ## What is mentioned -/

/-- The types in an error of unification. -/
def UnifyError.mentions : UnifyError → List Ty
  | .occursCheck v t => [.var v, t]
  | .kindMismatch v t => [.var v, t]
  | .constructorMismatch left right => [.con left, .con right]
  | .shapeMismatch left right => [left, right]
  | .classMismatch _ _ => []
  | .uninstantiated n => [.gen n]

/-- The types in a type error. -/
def TypeError.mentions : TypeError → List Ty
  | .unification clash => [clash.expected, clash.found, clash.left, clash.right] ++ clash.cause.mentions
  | .noMatchingInstance pred _ => [pred.ty]
  | _ => []

theorem bindVar_error_mem {v : TyVar} {t : Ty} {e : UnifyError} (h : bindVar v t = .error e) :
    ∀ u ∈ e.mentions, ∀ id ∈ u.ids, id = v.id ∨ id ∈ t.ids := by
  have hmem : ∀ u ∈ [.var v, t], ∀ id ∈ u.ids, id = v.id ∨ id ∈ t.ids := by
    simp +contextual
  unfold bindVar at h
  split at h
  · cases h
  · split at h
    · cases h
      simp [UnifyError.mentions]
    · split at h
      · cases h
        exact hmem
      · split at h
        · cases h
          exact hmem
        · cases h

/-- An error of unification mentions variables of the two types only. -/
theorem unify_error_mem {t₁ t₂ : Ty} {e : UnifyError} (h : unify t₁ t₂ = .error e) :
    ∀ t ∈ e.mentions, ∀ id ∈ t.ids, id ∈ t₁.ids ++ t₂.ids := by
  induction t₁, t₂ using unify_induction with
  | genLeft n t =>
    rw [unify_gen_left] at h
    cases h
    simp [UnifyError.mentions]
  | genRight t n =>
    obtain ⟨m, hm⟩ := exists_unify_gen_right t n
    rw [hm] at h
    cases h
    simp [UnifyError.mentions]
  | varLeft v t =>
    rw [unify_var_left] at h
    simpa using bindVar_error_mem h
  | varRight t v ht =>
    rw [unify_var_right v ht] at h
    simpa [or_comm] using bindVar_error_mem h
  | con c₁ c₂ =>
    rw [unify_con] at h
    split at h
    · cases h
    · cases h
      simp [UnifyError.mentions]
  | conApp c f x =>
    rw [unify_con_app] at h
    cases h
    simp [UnifyError.mentions]
  | appCon f x c =>
    rw [unify_app_con] at h
    cases h
    simp [UnifyError.mentions]
  | app l₁ r₁ l₂ r₂ ihl ihr =>
    rw [unify_app] at h
    have hsub : ∀ id, id ∈ l₁.ids ++ l₂.ids ∨ id ∈ r₁.ids ++ r₂.ids →
        id ∈ (Ty.app l₁ r₁).ids ++ (Ty.app l₂ r₂).ids := by
      simp only [Ty.ids_app, List.mem_append]
      tauto
    intro t ht id hid
    refine hsub id ?_
    obtain hl | ⟨s₁, hl, h⟩ := bind_eq_error.1 h
    · exact .inl (ihl hl t ht id hid)
    · obtain hr | ⟨s₂, _, h⟩ := bind_eq_error.1 h
      · have hs := unify_solvedIn hl
        rcases List.mem_append.1 (ihr s₁ hl hr t ht id hid) with hid | hid
        · exact (hs.mem_of_mem_subst hid).symm.imp_right (List.mem_append_left _)
        · exact (hs.mem_of_mem_subst hid).symm.imp_right (List.mem_append_right _)
      · cases h

/-- All variables of the substitution were drawn. -/
def InferState.Drawn (st : InferState) : Prop := ∀ id ∈ st.subst.allIds, DrawnIn 0 st.varCount id

theorem InferState.drawn_initial : InferState.initial.Drawn := fun _ hid => nomatch hid

variable {st : InferState}

/-- Drawing more variables does no harm. -/
theorem InferState.Drawn.draw (h : st.Drawn) {n : Nat} (hn : st.varCount ≤ n) :
    ({ st with varCount := n } : InferState).Drawn :=
  fun id hid => (h id hid).mono le_rfl hn

/-- What is known about drawn variables is about drawn variables. -/
theorem InferState.Drawn.subst (h : st.Drawn) {t : Ty} (ht : t.DrawnIn 0 st.varCount) :
    (t.subst st.subst).DrawnIn 0 st.varCount := by
  intro id hid
  rcases Ty.mem_ids_subst hid with ⟨hid, _⟩ | ⟨b, hb, hid⟩
  · exact ht id hid
  · exact h id (Subst.mem_allIds.2 (.inr ⟨b, hb, hid⟩))

/-! ## Steps -/

namespace Infer

variable {α β : Type} {x : Infer α} {f : α → Infer β} {P : Nat → α → Prop} {Q : Nat → β → Prop}

/-- Whether or not it succeeds, the step does not set the counter back, and all variables in the state and in
an error were drawn by then.  If it succeeds, `P` holds of the counter and the result. -/
structure Draws (st : InferState) (x : Infer α) (P : Nat → α → Prop) : Prop where
  count_le : st.varCount ≤ (x.runFrom st).2.varCount
  drawn : (x.runFrom st).2.Drawn
  ok : ∀ a, (x.runFrom st).1 = .ok a → P (x.runFrom st).2.varCount a
  error : ∀ e, (x.runFrom st).1 = .error e → ∀ t ∈ e.mentions, t.DrawnIn 0 (x.runFrom st).2.varCount

namespace Draws

theorem pure (hst : st.Drawn) {a : α} (h : P st.varCount a) : Draws st (Pure.pure a) P where
  count_le := le_rfl
  drawn := hst
  ok _ hok := by
    cases hok
    exact h
  error _ herror := by cases herror

/-- A step that fails at once, and mentions nothing. -/
theorem throw (hst : st.Drawn) {e : TypeError} (h : e.mentions = []) :
    Draws st (MonadExcept.throw e : Infer α) P where
  count_le := le_rfl
  drawn := hst
  ok _ hok := by cases hok
  error _ herror := by
    cases herror
    rw [h]
    exact fun _ ht => nomatch ht

theorem bind (hx : Draws st x P) (hf : ∀ a st', st.varCount ≤ st'.varCount → st'.Drawn →
    P st'.varCount a → Draws st' (f a) Q) : Draws st (x >>= f) Q := by
  have hle := hx.count_le
  have hdrawn := hx.drawn
  rcases hrun : x.runFrom st with ⟨e | a, st₁⟩
  · have hbind : (x >>= f).runFrom st = (.error e, st₁) := by rw [runFrom_bind, hrun]
    have herror := hx.error
    rw [hrun] at hle hdrawn herror
    refine ⟨?_, ?_, ?_, ?_⟩ <;> rw [hbind]
    · exact hle
    · exact hdrawn
    · exact fun _ h => nomatch h
    · rintro _ ⟨⟩
      exact herror e rfl
  · have hbind : (x >>= f).runFrom st = (f a).runFrom st₁ := by rw [runFrom_bind, hrun]
    have hok := hx.ok
    rw [hrun] at hle hdrawn hok
    have hnext := hf a st₁ hle hdrawn (hok a rfl)
    refine ⟨?_, ?_, ?_, ?_⟩ <;> rw [hbind]
    · exact hle.trans hnext.count_le
    · exact hnext.drawn
    · exact hnext.ok
    · exact hnext.error

end Draws

theorem freshVar_draws (hst : st.Drawn) (k : Kind) :
    Draws st (freshVar k) fun n t => t.DrawnIn st.varCount n where
  count_le := Nat.le_succ _
  drawn := hst.draw (Nat.le_succ _)
  ok _ hok id hid := by
    cases hok
    rw [List.mem_singleton.1 hid]
    exact drawnIn_freshName.2 ⟨le_rfl, Nat.lt_succ_self _⟩
  error _ herror := by cases herror

/-- An instance of a scheme without variables has drawn variables only. -/
theorem types_inst_drawnIn {scheme : Scheme} (hscheme : freeVars scheme = []) (n : Nat) :
    ∀ t ∈ types (inst (freshVars n scheme.kinds) scheme.body), t.DrawnIn n (n + scheme.kinds.length) := by
  intro t ht id hid
  rw [inst, types_mapTypes] at ht
  obtain ⟨t₀, ht₀, rfl⟩ := List.mem_map.1 ht
  rcases Ty.mem_ids_inst hid with hid | ⟨u, hu, hid⟩
  · rw [Ty.ids, occurrences_eq_nil_of_freeVars hscheme t₀ ht₀] at hid
    cases hid
  · exact freshVars_drawnIn _ _ u hu id hid

theorem instantiate_draws (hst : st.Drawn) {scheme : Scheme} (hscheme : freeVars scheme = []) :
    Draws st (instantiate scheme) fun n q =>
      (∀ p ∈ q.context, p.ty.DrawnIn st.varCount n) ∧ q.head.DrawnIn st.varCount n := by
  refine ⟨?_, ?_, ?_, ?_⟩ <;> rw [runFrom_instantiate]
  · exact Nat.le_add_right _ _
  · exact hst.draw (Nat.le_add_right _ _)
  · rintro _ ⟨⟩
    obtain ⟨hcontext, hhead⟩ := forall_mem_types_qual.1 (types_inst_drawnIn hscheme st.varCount)
    exact ⟨hcontext, hhead _ List.mem_cons_self⟩
  · exact fun _ h => nomatch h

/-- Unification brings in no variables, neither in its answer nor in an error. -/
theorem unify_draws (hst : st.Drawn) {expected found : Ty} {origin : Origin}
    (h₁ : expected.DrawnIn 0 st.varCount) (h₂ : found.DrawnIn 0 st.varCount) :
    Draws st (unify expected found origin) fun _ _ => True := by
  have hleft := hst.subst h₁
  have hright := hst.subst h₂
  have hboth : ∀ id ∈ (expected.subst st.subst).ids ++ (found.subst st.subst).ids,
      DrawnIn 0 st.varCount id :=
    List.forall_mem_append.2 ⟨hleft, hright⟩
  cases hu : QualifiedTypes.unify (expected.subst st.subst) (found.subst st.subst) with
  | ok u =>
    have hrun : (unify expected found origin).runFrom st = (.ok (), { st with subst := u.compose st.subst }) :=
      runFrom_unify_iff.2 ⟨u, hu, rfl⟩
    refine ⟨?_, ?_, ?_, ?_⟩ <;> rw [hrun]
    · intro id hid
      rcases Subst.mem_allIds_compose hid with hid | hid
      · exact hboth id ((unify_solvedIn hu).mem_of_mem_allIds hid)
      · exact hst id hid
    · exact fun _ _ => trivial
    · exact fun _ h => nomatch h
  | error cause =>
    refine ⟨?_, ?_, ?_, ?_⟩ <;> rw [runFrom_unify, hu]
    · exact hst
    · exact fun _ h => nomatch h
    · rintro _ ⟨⟩ t ht
      rcases List.mem_append.1 ht with ht | ht
      · simp only [List.mem_cons, List.not_mem_nil, or_false] at ht
        obtain rfl | rfl | rfl | rfl := ht
        · exact h₁
        · exact h₂
        · exact hleft
        · exact hright
      · exact fun id hid => hboth id (unify_error_mem hu t ht id hid)

theorem applyTo_draws (hst : st.Drawn) {func arg : Ty} {origin : Origin}
    (hfunc : func.DrawnIn 0 st.varCount) (harg : arg.DrawnIn 0 st.varCount) :
    Draws st (applyTo func arg origin) fun n t => t.DrawnIn st.varCount n := by
  refine (freshVar_draws hst .star).bind fun result st₁ hle₁ hst₁ hresult => ?_
  have hfn : (Ty.fn arg result).DrawnIn 0 st₁.varCount :=
    (harg.mono le_rfl hle₁).fn (hresult.mono (Nat.zero_le _) le_rfl)
  refine (unify_draws hst₁ (hfunc.mono le_rfl hle₁) hfn).bind fun _ st₂ hle₂ hst₂ _ => ?_
  exact .pure hst₂ (hresult.mono le_rfl hle₂)

/-! ## Expressions -/

/-- No scheme has variables of its own. -/
def ClosedSchemes (env : TypeEnv) : Prop :=
  ∀ name scheme, env.find? name = some scheme → freeVars scheme = []

theorem closedSchemes_of_entries {env : TypeEnv} (h : ∀ entry ∈ env.entries, freeVars entry.2 = []) :
    ClosedSchemes env := by
  intro name scheme hfound
  obtain ⟨entry, hentry, rfl⟩ := Option.map_eq_some_iff.1 hfound
  exact h entry (List.mem_of_find?_eq_some hentry)

theorem name_draws {env : TypeEnv} (henv : ClosedSchemes env) (hst : st.Drawn) (token : Token) :
    Draws st (name env token) fun n q =>
      (∀ p ∈ q.context, p.ty.DrawnIn st.varCount n) ∧ q.head.DrawnIn st.varCount n := by
  unfold name
  cases hfound : env.find? token.lexeme with
  | none => exact .throw hst rfl
  | some scheme => exact instantiate_draws hst (henv _ _ hfound)

/-- The types were drawn while the counter went from `m` to `n`, and no two of them share a variable. -/
structure DrawnApart (m n : Nat) (ts : List Ty) : Prop where
  drawn : ∀ t ∈ ts, t.DrawnIn m n
  apart : ts.Pairwise fun t u => t.ids.Disjoint u.ids

namespace DrawnApart

variable {l m n : Nat} {t : Ty} {ts us : List Ty}

theorem singleton (h : t.DrawnIn m n) : DrawnApart m n [t] :=
  ⟨fun _ hu => List.mem_singleton.1 hu ▸ h, List.pairwise_singleton _ _⟩

theorem mono (h : DrawnApart m n ts) (hl : l ≤ m) : DrawnApart l n ts :=
  ⟨fun t ht => (h.drawn t ht).mono hl le_rfl, h.apart⟩

theorem perm (h : DrawnApart m n ts) (hperm : ts.Perm us) : DrawnApart m n us :=
  ⟨fun t ht => h.drawn t (hperm.mem_iff.2 ht), hperm.pairwise h.apart List.Disjoint.symm⟩

/-- What was drawn first and what was drawn next are apart. -/
theorem append (hts : DrawnApart l m ts) (hus : DrawnApart m n us) (hlm : l ≤ m) (hmn : m ≤ n) :
    DrawnApart l n (ts ++ us) where
  drawn := List.forall_mem_append.2
    ⟨fun t ht => (hts.drawn t ht).mono le_rfl hmn, fun u hu => (hus.drawn u hu).mono hlm le_rfl⟩
  apart := List.pairwise_append.2
    ⟨hts.apart, hus.apart, fun t ht u hu => (hts.drawn t ht).disjoint (hus.drawn u hu) le_rfl⟩

end DrawnApart

/-- **Inference returns variables that it has drawn itself, other ones at every node.** -/
theorem expr_draws {env : TypeEnv} (henv : ClosedSchemes env) (e : Expr) (hst : st.Drawn) :
    Draws st (expr env e) fun n r =>
      (∀ p ∈ r.1, p.ty.DrawnIn st.varCount n) ∧ DrawnApart st.varCount n (types r.2) := by
  induction e generalizing st with
  | literal token =>
    refine (freshVar_draws hst .star).bind fun t st₁ _ hst₁ ht => .pure hst₁ ?_
    exact ⟨fun p hp => List.mem_singleton.1 hp ▸ ht, .singleton ht⟩
  | name token =>
    refine (name_draws henv hst token).bind fun q st₁ _ hst₁ hq => .pure hst₁ ?_
    exact ⟨hq.1, .singleton hq.2⟩
  | grouping inner span ih => exact (ih hst).bind fun r st₁ _ hst₁ h => .pure hst₁ h
  | application func arg ihf iha =>
    refine (ihf hst).bind fun r₁ st₁ hle₁ hst₁ ⟨hp₁, ht₁⟩ => ?_
    refine (iha hst₁).bind fun r₂ st₂ hle₂ hst₂ ⟨hp₂, ht₂⟩ => ?_
    have hfunc := ht₁.drawn _ r₁.2.ty_mem_types
    have harg := ht₂.drawn _ r₂.2.ty_mem_types
    refine (applyTo_draws hst₂ (hfunc.mono (Nat.zero_le _) hle₂) (harg.mono (Nat.zero_le _) le_rfl)).bind
      fun t st₃ hle₃ hst₃ ht => .pure hst₃ ⟨List.forall_mem_append.2 ⟨fun p hp => ?_, fun p hp => ?_⟩, ?_⟩
    · exact (hp₁ p hp).mono le_rfl (hle₂.trans hle₃)
    · exact (hp₂ p hp).mono hle₁ hle₃
    · exact (ht₁.append ht₂ hle₁ hle₂).append (.singleton ht) (hle₁.trans hle₂) hle₃
  | binary left operator right ihl ihr =>
    refine (name_draws henv hst operator).bind fun q st₁ hle₁ hst₁ hq => ?_
    refine (ihl hst₁).bind fun r₁ st₂ hle₂ hst₂ ⟨hp₁, ht₁⟩ => ?_
    have hleft := ht₁.drawn _ r₁.2.ty_mem_types
    refine (applyTo_draws hst₂ (hq.2.mono (Nat.zero_le _) hle₂) (hleft.mono (Nat.zero_le _) le_rfl)).bind
      fun applied st₃ hle₃ hst₃ happlied => ?_
    refine (ihr hst₃).bind fun r₂ st₄ hle₄ hst₄ ⟨hp₂, ht₂⟩ => ?_
    have hright := ht₂.drawn _ r₂.2.ty_mem_types
    refine (applyTo_draws hst₄ (happlied.mono (Nat.zero_le _) hle₄)
      (hright.mono (Nat.zero_le _) le_rfl)).bind fun t st₅ hle₅ hst₅ ht => .pure hst₅ ⟨?_, ?_⟩
    · refine List.forall_mem_append.2
        ⟨List.forall_mem_append.2 ⟨fun p hp => ?_, fun p hp => ?_⟩, fun p hp => ?_⟩
      · exact (hq.1 p hp).mono le_rfl (by omega)
      · exact (hp₁ p hp).mono hle₁ (by omega)
      · exact (hp₂ p hp).mono (by omega) hle₅
    · -- the operator was drawn before its left operand, which stands before it
      have hop : DrawnApart st.varCount st₂.varCount (types r₁.2 ++ [q.head]) :=
        ((DrawnApart.singleton hq.2).append ht₁ hle₁ hle₂).perm List.perm_append_comm
      have hboth := hop.append (ht₂.mono hle₃) (by omega) (by omega)
      exact hboth.append (.singleton ht) (by omega) hle₅
  | assignment target value ih => exact .throw hst rfl

/-! ## Sessions -/

/-- The types in an answer. -/
def Answer.mentions : Answer → List Ty
  | .ty t => [t]
  | .qual q => types q
  | .solved => []
  | .typed preds e => types preds ++ types e

/-- The types in what a call returns, be it an answer or an error. -/
def mentioned : Except TypeError Answer → List Ty
  | .ok a => a.mentions
  | .error e => e.mentions

/-- The call brings in no variables from outside. -/
def Call.Closed : Call → Prop
  | .freshVar _ => True
  | .instantiate scheme => freeVars scheme = []
  | .unify _ _ _ => False
  | .expr env _ => ClosedSchemes env

/-- All variables of the answer were drawn while the counter went from `m` to `n`, other ones at every node of a
typed expression. -/
structure Answer.DrawnIn (m n : Nat) (a : Answer) : Prop where
  mentions : ∀ t ∈ a.mentions, t.DrawnIn m n
  apart : ∀ preds e, a = .typed preds e → (types e).Pairwise fun t u => t.ids.Disjoint u.ids

theorem Call.draws {c : Call} (hc : c.Closed) (hst : st.Drawn) :
    Draws st c.run fun n a => a.DrawnIn st.varCount n := by
  cases c with
  | freshVar kind =>
    refine (Infer.freshVar_draws hst kind).bind fun t st₁ _ hst₁ ht => .pure hst₁ ⟨?_, by simp⟩
    exact fun u hu => List.mem_singleton.1 hu ▸ ht
  | instantiate scheme =>
    refine (Infer.instantiate_draws hst hc).bind fun q st₁ _ hst₁ hq => .pure hst₁ ⟨?_, by simp⟩
    exact forall_mem_types_qual.2 ⟨hq.1, fun t ht => List.mem_singleton.1 ht ▸ hq.2⟩
  | unify expected found origin => exact hc.elim
  | expr env e =>
    refine (Infer.expr_draws hc e hst).bind fun r st₁ _ hst₁ ⟨hpreds, htypes⟩ => .pure hst₁ ⟨?_, ?_⟩
    · exact List.forall_mem_append.2 ⟨forall_mem_types_preds.2 hpreds, htypes.drawn⟩
    · rintro preds e' ⟨⟩
      exact htypes.apart

/-- What a call returns was drawn by then, also where it is an error. -/
theorem Call.mentioned_drawnIn {c : Call} (hc : c.Closed) (hst : st.Drawn) :
    ∀ t ∈ mentioned (c.run.runFrom st).1, t.DrawnIn 0 (c.run.runFrom st).2.varCount := by
  have h := draws hc hst
  intro t ht
  cases hrun : (c.run.runFrom st).1 with
  | ok a =>
    rw [hrun] at ht
    exact ((h.ok a hrun).mentions t ht).mono (Nat.zero_le _) le_rfl
  | error e =>
    rw [hrun] at ht
    exact h.error e hrun t ht

/-- What calls return, and the state after them. -/
theorem calls_draw {calls : List Call} (hcalls : ∀ c ∈ calls, c.Closed) (hst : st.Drawn) :
    st.varCount ≤ (after calls st).varCount ∧ (after calls st).Drawn ∧
    (∀ o ∈ outcomes calls st, ∀ t ∈ mentioned o, t.DrawnIn 0 (after calls st).varCount) ∧
    ∀ a, .ok a ∈ outcomes calls st → ∀ t ∈ a.mentions, t.DrawnIn st.varCount (after calls st).varCount := by
  induction calls generalizing st with
  | nil => exact ⟨le_rfl, hst, fun _ ho => (nomatch ho), fun _ ha => nomatch ha⟩
  | cons c calls ih =>
    obtain ⟨hc, hcalls⟩ := List.forall_mem_cons.1 hcalls
    have hcall := c.draws hc hst
    obtain ⟨hle', hdrawn', hmentioned, hanswers⟩ := ih hcalls hcall.drawn
    refine ⟨hcall.count_le.trans hle', hdrawn', List.forall_mem_cons.2 ⟨fun t ht => ?_, hmentioned⟩,
      fun a ha t ht => ?_⟩
    · exact (c.mentioned_drawnIn hc hst t ht).mono le_rfl hle'
    · rcases List.mem_cons.1 ha with ha | ha
      · exact ((hcall.ok a ha.symm).mentions t ht).mono le_rfl hle'
      · exact (hanswers a ha t ht).mono hcall.count_le le_rfl

/-- An answer shares no variable with anything that was returned before it. -/
theorem outcomes_pairwise {calls : List Call} (hcalls : ∀ c ∈ calls, c.Closed) (hst : st.Drawn) :
    (outcomes calls st).Pairwise fun o o' =>
      ∀ a, o' = .ok a → ∀ t ∈ mentioned o, ∀ u ∈ a.mentions, t.ids.Disjoint u.ids := by
  induction calls generalizing st with
  | nil => exact .nil
  | cons c calls ih =>
    obtain ⟨hc, hcalls⟩ := List.forall_mem_cons.1 hcalls
    have hdrawn := (c.draws hc hst).drawn
    refine List.pairwise_cons.2 ⟨?_, ih hcalls hdrawn⟩
    rintro _ ho a rfl t ht u hu
    obtain ⟨_, _, _, hanswers⟩ := calls_draw hcalls hdrawn
    exact (c.mentioned_drawnIn hc hst t ht).disjoint (hanswers a ho u hu) le_rfl

/-- **Fresh variables are fresh over whole sessions.**  Let no call bring in variables from outside.  Then a
call does not set the counter back, whether or not it succeeds; all variables in the substitution after it and
in what it returns, also in an error, are names below the counter, and those of an answer were drawn by the call
itself, other ones at every node of a typed expression; and what the call draws is neither in the substitution
before it nor in anything returned before it.  So answers share no variables. -/
theorem calls_fresh {calls : List Call} (hcalls : ∀ c ∈ calls, c.Closed) :
    (∀ before c later, calls = before ++ c :: later →
      let st := after before .initial
      let st' := (c.run.runFrom st).2
      st.varCount ≤ st'.varCount ∧
      (∀ id ∈ st'.subst.allIds, ∃ k < st'.varCount, id = freshName k) ∧
      (∀ t ∈ mentioned (c.run.runFrom st).1, ∀ id ∈ t.ids, ∃ k < st'.varCount, id = freshName k) ∧
      (∀ a, (c.run.runFrom st).1 = .ok a → ∀ t ∈ a.mentions, ∀ id ∈ t.ids,
        ∃ k, st.varCount ≤ k ∧ k < st'.varCount ∧ id = freshName k) ∧
      (∀ preds e, (c.run.runFrom st).1 = .ok (.typed preds e) →
        (types e).Pairwise fun t u => t.ids.Disjoint u.ids) ∧
      ∀ k, st.varCount ≤ k → k < st'.varCount → freshName k ∉ st.subst.allIds ∧
        ∀ o ∈ outcomes before .initial, ∀ t ∈ mentioned o, freshName k ∉ t.ids) ∧
    (outcomes calls .initial).Pairwise fun o o' =>
      ∀ a, o' = .ok a → ∀ t ∈ mentioned o, ∀ u ∈ a.mentions, t.ids.Disjoint u.ids := by
  refine ⟨?_, outcomes_pairwise hcalls InferState.drawn_initial⟩
  rintro before c later rfl
  obtain ⟨hbefore, hrest⟩ := List.forall_mem_append.1 hcalls
  have hc : c.Closed := hrest c List.mem_cons_self
  obtain ⟨_, hdrawn, hmentioned, _⟩ := calls_draw hbefore InferState.drawn_initial
  have hcall := c.draws hc hdrawn
  refine ⟨hcall.count_le, fun id hid => ?_, fun t ht id hid => ?_, fun a ha => (hcall.ok a ha).mentions,
    fun preds e h => (hcall.ok _ h).apart preds e rfl, fun k hk _ => ⟨fun hid => ?_, fun o ho t ht => ?_⟩⟩
  · obtain ⟨k, _, hk, hid⟩ := hcall.drawn id hid
    exact ⟨k, hk, hid⟩
  · obtain ⟨k, _, hk, hid⟩ := c.mentioned_drawnIn hc hdrawn t ht id hid
    exact ⟨k, hk, hid⟩
  · have := drawnIn_freshName.1 (hdrawn _ hid)
    omega
  · exact (hmentioned o ho t ht).freshName_notMem hk

/-! ## A scheme used twice -/

/-- The scheme of the identity. -/
def identity : Scheme := ⟨[.star], [], .fn (.gen 0) (.gen 0)⟩

/-- The identity, and something that is no function. -/
def identityEnv : TypeEnv := ⟨[("id", identity), ("unit", .ofTy (.con ⟨"Unit", .star⟩))]⟩

/-- Between two instances of the identity, the other name is applied to it. -/
def identityTwice : List Call :=
  [.instantiate identity,
    .expr identityEnv (.application (.name ⟨.identifier, "unit", .zero⟩) (.name ⟨.identifier, "id", .zero⟩)),
    .instantiate identity]

/-- The application fails, after it has drawn two variables. -/
theorem outcomes_identityTwice : ∃ clash, outcomes (identityTwice.take 2) .initial =
    [.ok (.qual ⟨[], .fn (.var ⟨"t0", .star⟩) (.var ⟨"t0", .star⟩)⟩), .error (.unification clash)] := by
  let unit := Ty.con ⟨"Unit", .star⟩
  let func := Ty.fn (.fn (.var ⟨"t1", .star⟩) (.var ⟨"t1", .star⟩)) (.var ⟨"t2", .star⟩)
  refine ⟨⟨unit, func, unit, func, .shapeMismatch unit func, .application .zero .zero⟩, ?_⟩
  cbv

theorem closed_identityTwice : ∀ c ∈ identityTwice, c.Closed := by
  have hidentity : freeVars identity = [] := by decide
  have henv : ClosedSchemes identityEnv := closedSchemes_of_entries (by decide)
  intro c hc
  simp only [identityTwice, List.mem_cons, List.not_mem_nil, or_false] at hc
  obtain rfl | rfl | rfl := hc
  · exact hidentity
  · exact henv
  · exact hidentity

theorem calls_fresh_identityTwice :
    (∀ c ∈ identityTwice, c.Closed) ∧
    (∃ clash, outcomes (identityTwice.take 2) .initial =
      [.ok (.qual ⟨[], .fn (.var ⟨"t0", .star⟩) (.var ⟨"t0", .star⟩)⟩), .error (.unification clash)]) ∧
    (∀ o ∈ outcomes (identityTwice.take 2) .initial, ∀ t ∈ mentioned o, "t3" ∉ t.ids) ∧
    (outcomes identityTwice .initial).Pairwise fun o o' =>
      ∀ a, o' = .ok a → ∀ t ∈ mentioned o, ∀ u ∈ a.mentions, t.ids.Disjoint u.ids := by
  obtain ⟨hcalls, hapart⟩ := calls_fresh closed_identityTwice
  obtain ⟨_, _, _, _, _, hnew⟩ := hcalls (identityTwice.take 2) (.instantiate identity) [] rfl
  have hcount : (after (identityTwice.take 2) .initial).varCount = 3 := by cbv
  have hcount' :
      ((Call.instantiate identity).run.runFrom (after (identityTwice.take 2) .initial)).2.varCount = 4 := by
    cbv
  refine ⟨closed_identityTwice, outcomes_identityTwice, (hnew 3 ?_ ?_).2, hapart⟩
  · rw [hcount]
  · rw [hcount']
    decide

end Infer

end QualifiedTypes
