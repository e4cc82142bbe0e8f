import QualifiedTypes.Infer.TypedExpr
import QualifiedTypes.Scheme
import QualifiedTypes.Unify.Solved

/-!
# The action of substitutions

How a substitution acts on a phrase is determined by what it does to the variables of the phrase, and the
action of a composition is the composition of the actions.

* `Ty.subst_eq_subst_iff`: two substitutions act alike on a type iff they agree on its variables.
* `Subst.apply_compose`: to act as a composition is to act twice.
* `occurrences_apply`: the variables of a substituted phrase are those of the images of its variables, in order.
* `Ty.subst_singleton_absorb`: whoever solves `v = t` does not notice that `v` was replaced by `t`.
* `Ty.subst_ne_of_mem`: no substitution makes a variable equal to a larger type that contains it.
* `freeVars_app`: the free variables of an application are those of its left side, and then the new ones.
* `inst_apply`: filling slots commutes with substitution where there are no variables.
-/

namespace QualifiedTypes

/-- Names that differ in their number differ. -/
theorem append_toString_injective {s : String} {m n : Nat} (h : s ++ toString m = s ++ toString n) :
    m = n := by
  have hrepr : Nat.repr m = Nat.repr n := (String.append_right_inj s).1 h
  have hdigits : Nat.toDigits 10 m = Nat.toDigits 10 n := by
    rw [← Nat.toList_repr, ← Nat.toList_repr, hrepr]
  rw [← Nat.ofDigitChars_ten_toDigits (n := m), hdigits, Nat.ofDigitChars_ten_toDigits]

namespace Subst

theorem exists_lookup_of_mem {s : Subst} {id : String} (h : id ∈ s.ids) : ∃ t, s.lookup id = some t :=
  Option.ne_none_iff_exists'.1 fun hnone => (s.lookup_eq_none_iff id).1 hnone h

/-- Bindings for new ids are found after the others. -/
theorem lookup_append_filter {bs : List (TyVar × Ty)} {r s : Subst} {id : String}
    (h : (Subst.mk bs).lookup id = none → r.binds id = false) :
    (Subst.mk (bs ++ s.bindings.filter fun b => !r.binds b.1.id)).lookup id =
      ((Subst.mk bs).lookup id).or (s.lookup id) := by
  unfold lookup at h ⊢
  rw [List.find?_append]
  cases hfind : bs.find? fun b => b.1.id == id with
  | some b => rfl
  | none =>
    have hunbound : r.binds id = false := h (by rw [hfind]; rfl)
    rw [Option.none_or, Option.map_none, Option.none_or, List.find?_filter]
    congr 2
    funext b
    by_cases hid : b.1.id = id
    · simp [hid, hunbound]
    · simp [hid]

/-- A composition looks into its second part first. -/
theorem lookup_compose (s₁ s₂ : Subst) (id : String) :
    (s₁.compose s₂).lookup id = ((s₂.lookup id).map (Ty.subst s₁)).or (s₁.lookup id) := by
  have hsecond : (Subst.mk (s₂.bindings.map fun b => (b.1, s₁.apply b.2))).lookup id =
      (s₂.lookup id).map (Ty.subst s₁) := by
    unfold lookup
    rw [List.find?_map, Option.map_map, Option.map_map]
    rfl
  rw [compose, lookup_append_filter, hsecond]
  intro hnone
  rw [hsecond, Option.map_eq_none_iff, lookup_eq_none_iff, ← binds_iff, Bool.not_eq_true] at hnone
  exact hnone

theorem lookup_singleton (v : TyVar) (t : Ty) (id : String) :
    (singleton v t).lookup id = if v.id = id then some t else none := by
  unfold lookup singleton
  by_cases h : v.id = id
  · simp [h]
  · simp [h]

theorem ids_mapIdx (vs : List TyVar) (f : Nat → TyVar → Ty) :
    (Subst.mk (vs.mapIdx fun i v => (v, f i v))).ids = vs.map TyVar.id := by
  simp only [ids, keys, List.mapIdx_eq_zipIdx_map, List.map_map, Function.comp_def]
  conv => rhs; rw [← List.zipIdx_map_fst 0 vs, List.map_map]
  rfl

/-- The variables of a list, each bound to a type that depends on its place. -/
theorem lookup_mapIdx {vs : List TyVar} {f : Nat → TyVar → Ty} {id : String}
    (h : id ∈ vs.map TyVar.id) :
    ∃ n v, vs[n]? = some v ∧ v.id = id ∧
      (Subst.mk (vs.mapIdx fun i v => (v, f i v))).lookup id = some (f n v) := by
  obtain ⟨t, hlook⟩ := exists_lookup_of_mem (ids_mapIdx vs f ▸ h)
  obtain ⟨v, hv, hid⟩ := exists_of_lookup hlook
  obtain ⟨n, hn, he⟩ := List.mem_mapIdx.1 hv
  cases he
  exact ⟨n, vs[n], List.getElem?_eq_getElem hn, hid, hlook⟩

end Subst

namespace Ty

@[simp] theorem subst_con (s : Subst) (c : TyCon) : (Ty.con c).subst s = .con c := rfl

@[simp] theorem subst_gen (s : Subst) (n : Nat) : (Ty.gen n).subst s = .gen n := rfl

@[simp] theorem subst_app (s : Subst) (f x : Ty) :
    (Ty.app f x).subst s = .app (f.subst s) (x.subst s) := rfl

@[simp] theorem subst_fn (s : Subst) (domain codomain : Ty) :
    (fn domain codomain).subst s = fn (domain.subst s) (codomain.subst s) := rfl

theorem subst_var_of_lookup {s : Subst} {v : TyVar} {t : Ty} (h : s.lookup v.id = some t) :
    (Ty.var v).subst s = t := by
  rw [subst, h, Option.getD_some]

theorem subst_singleton_self (v : TyVar) (t : Ty) : (Ty.var v).subst (.singleton v t) = t :=
  subst_var_of_lookup (by rw [Subst.lookup_singleton, if_pos rfl])

theorem subst_var_of_notMem {s : Subst} {v : TyVar} (h : v.id ∉ s.ids) :
    (Ty.var v).subst s = .var v := by
  rw [subst, (s.lookup_eq_none_iff v.id).2 h, Option.getD_none]

/-- A variable stays as it is, or becomes one of the bound types. -/
theorem subst_var_of_forall {P : Ty → Prop} {s : Subst} {v : TyVar} (hvar : P (.var v))
    (hrange : ∀ b ∈ s.bindings, P b.2) : P ((Ty.var v).subst s) := by
  cases hlook : s.lookup v.id with
  | none => rwa [subst_var_of_notMem ((s.lookup_eq_none_iff v.id).1 hlook)]
  | some t =>
    obtain ⟨w, hw, _⟩ := Subst.exists_of_lookup hlook
    rw [subst_var_of_lookup hlook]
    exact hrange _ hw

theorem mem_ids_of_mem_occurrences {v : TyVar} {t : Ty} (h : v ∈ t.occurrences) : v.id ∈ t.ids :=
  List.mem_map.2 ⟨v, h, rfl⟩

theorem exists_of_mem_ids {id : String} {t : Ty} (h : id ∈ t.ids) :
    ∃ v ∈ t.occurrences, v.id = id :=
  List.mem_map.1 h

/-- **Two substitutions act alike on a type iff they agree on its variables.** -/
theorem subst_eq_subst_iff {s s' : Subst} {t : Ty} :
    t.subst s = t.subst s' ↔ ∀ v ∈ t.occurrences, (Ty.var v).subst s = (Ty.var v).subst s' := by
  induction t with
  | var v => simp [occurrences]
  | con c => simp [occurrences]
  | gen n => simp [occurrences]
  | app f x ihf ihx =>
    simp only [subst_app, app.injEq, occurrences, List.mem_append, ihf, ihx]
    exact ⟨fun h v hv => hv.elim (h.1 v) (h.2 v), fun h => ⟨fun v hv => h v (.inl hv),
      fun v hv => h v (.inr hv)⟩⟩

theorem subst_congr {s s' : Subst} {t : Ty}
    (h : ∀ v ∈ t.occurrences, (Ty.var v).subst s = (Ty.var v).subst s') : t.subst s = t.subst s' :=
  subst_eq_subst_iff.2 h

theorem subst_congr_lookup {s s' : Subst} {t : Ty}
    (h : ∀ id ∈ t.ids, s.lookup id = s'.lookup id) : t.subst s = t.subst s' :=
  subst_congr fun v hv => by rw [subst, subst, h v.id (mem_ids_of_mem_occurrences hv)]

theorem subst_eq_self {s : Subst} {t : Ty} (h : ∀ id ∈ t.ids, id ∉ s.ids) : t.subst s = t := by
  have hempty : t.subst s = t.subst .empty :=
    subst_congr_lookup fun id hid => (s.lookup_eq_none_iff id).2 (h id hid)
  rw [hempty, subst_empty]

/-- To act as a composition is to act twice. -/
theorem subst_compose (s₁ s₂ : Subst) (t : Ty) :
    t.subst (s₁.compose s₂) = (t.subst s₂).subst s₁ := by
  induction t with
  | var v =>
    rw [subst, subst, Subst.lookup_compose]
    cases s₂.lookup v.id with
    | none => rfl
    | some u => rfl
  | con c => rfl
  | gen n => rfl
  | app f x ihf ihx => rw [subst_app, subst_app, subst_app, ihf, ihx]

/-- The variables of a substituted type are those of the images of its variables, from left to right. -/
theorem occurrences_subst (s : Subst) (t : Ty) :
    (t.subst s).occurrences = t.occurrences.flatMap fun v => ((Ty.var v).subst s).occurrences := by
  induction t with
  | var v => simp [occurrences]
  | con c => rfl
  | gen n => rfl
  | app f x ihf ihx => rw [subst_app, occurrences, ihf, ihx, occurrences, List.flatMap_append]

theorem mem_occurrences_subst {s : Subst} {t : Ty} {w : TyVar} :
    w ∈ (t.subst s).occurrences ↔ ∃ v ∈ t.occurrences, w ∈ ((Ty.var v).subst s).occurrences := by
  rw [occurrences_subst, List.mem_flatMap]

/-! ## Solutions of one equation -/

/-- If `u` makes `v` and `t` equal, then replacing `v` by `t` before `u` changes nothing, at any variable
that is equal to `v` as soon as it has its id. -/
theorem subst_singleton_absorb {u : Subst} {v : TyVar} {t : Ty} (h : (Ty.var v).subst u = t.subst u)
    {r : Ty} (hr : ∀ w ∈ r.occurrences, w.id = v.id → w = v) :
    (r.subst (.singleton v t)).subst u = r.subst u := by
  rw [← subst_compose]
  refine subst_congr fun w hw => ?_
  rw [subst_compose]
  by_cases hid : v.id = w.id
  · rw [subst_var_of_lookup (t := t) (by rw [Subst.lookup_singleton, if_pos hid]), ← h,
      hr w hw hid.symm]
  · rw [subst_var_of_notMem]
    simpa [Subst.singleton, Subst.ids, Subst.keys] using Ne.symm hid

theorem size_subst_var_le {u : Subst} {v : TyVar} {t : Ty} (h : v ∈ t.occurrences) :
    ((Ty.var v).subst u).size ≤ (t.subst u).size := by
  induction t with
  | var w =>
    rw [occurrences, List.mem_singleton] at h
    subst h
    exact Nat.le_refl _
  | con c => cases h
  | gen n => cases h
  | app f x ihf ihx =>
    rw [subst_app, size]
    rcases List.mem_append.1 h with h | h
    · have := ihf h
      omega
    · have := ihx h
      omega

/-- **No substitution makes a variable equal to a larger type that contains it.** -/
theorem subst_ne_of_mem {u : Subst} {v : TyVar} {t : Ty} (h : v ∈ t.occurrences) (ht : t ≠ .var v) :
    (Ty.var v).subst u ≠ t.subst u := by
  intro he
  cases t with
  | var w =>
    rw [occurrences, List.mem_singleton] at h
    exact ht (by rw [h])
  | con c => cases h
  | gen n => cases h
  | app f x =>
    have hsize := congrArg size he
    rw [subst_app, size] at hsize
    rcases List.mem_append.1 h with h | h
    · have := size_subst_var_le (u := u) h
      omega
    · have := size_subst_var_le (u := u) h
      omega

end Ty

/-! ## Phrases -/

theorem freeVars_ty (t : Ty) : freeVars t = distinctOn TyVar.id t.occurrences := by
  simp [freeVars, occurrences]

theorem freeVars_app (f x : Ty) :
    freeVars (Ty.app f x) = freeVars f ++ (freeVars x).filter fun v => v.id ∉ f.ids := by
  simp only [freeVars_ty, Ty.occurrences, distinctOn_append]
  rfl

section

variable {α : Type} [HasTypes α]

theorem Subst.apply_compose (s₁ s₂ : Subst) (x : α) : (s₁.compose s₂).apply x = s₁.apply (s₂.apply x) := by
  unfold apply
  rw [mapTypes_mapTypes]
  exact mapTypes_congr fun t _ => t.subst_compose s₁ s₂

theorem Subst.apply_congr {s s' : Subst} {x : α} (h : ∀ t ∈ types x, t.subst s = t.subst s') :
    s.apply x = s'.apply x :=
  mapTypes_congr h

theorem Subst.types_apply (s : Subst) (x : α) : types (s.apply x) = (types x).map (Ty.subst s) :=
  types_mapTypes _ _

theorem occurrences_apply (s : Subst) (x : α) :
    occurrences (s.apply x) = (occurrences x).flatMap fun v => ((Ty.var v).subst s).occurrences := by
  rw [occurrences, Subst.types_apply, List.flatMap_map, occurrences, List.flatMap_assoc]
  exact congrArg (List.flatMap · (types x)) (funext (Ty.occurrences_subst s))

theorem mem_ids_freeVars {x : α} {t : Ty} (ht : t ∈ types x) {v : TyVar} (hv : v ∈ t.occurrences) :
    v.id ∈ (freeVars x).map TyVar.id := by
  rw [freeVars, mem_keys_distinctOn]
  exact List.mem_map_of_mem (List.mem_flatMap.2 ⟨t, ht, hv⟩)

theorem exists_mem_freeVars {x : α} {v : TyVar} (hv : v ∈ occurrences x) : ∃ w ∈ freeVars x, w.id = v.id :=
  List.mem_map.1 ((mem_keys_distinctOn TyVar.id).2 (List.mem_map_of_mem hv))

theorem forall_mem_types_preds {ps : List Pred} {P : Ty → Prop} :
    (∀ t ∈ types ps, P t) ↔ ∀ p ∈ ps, P p.ty := by
  have htypes : types ps = ps.map Pred.ty := List.map_eq_flatMap.symm
  simp [htypes]

/-- The types of a qualified phrase are those of its context and its head. -/
theorem forall_mem_types_qual {q : Qual α} {P : Ty → Prop} :
    (∀ t ∈ types q, P t) ↔ (∀ p ∈ q.context, P p.ty) ∧ ∀ t ∈ types q.head, P t := by
  have htypes : types q = types q.context ++ types q.head := rfl
  rw [htypes, List.forall_mem_append, forall_mem_types_preds]

/-- Filling slots commutes with substitution in a type without variables. -/
theorem Ty.inst_subst {s : Subst} {ts : List Ty} {t : Ty} (h : t.occurrences = []) :
    (t.inst ts).subst s = t.inst (ts.map (Ty.subst s)) := by
  induction t with
  | var v => cases h
  | con c => rfl
  | gen n =>
    rw [inst, inst, List.getElem?_map]
    cases ts[n]? with
    | none => rfl
    | some u => rfl
  | app f x ihf ihx =>
    rw [occurrences, List.append_eq_nil_iff] at h
    rw [inst, inst, subst_app, ihf h.1, ihx h.2]

theorem inst_apply {s : Subst} {ts : List Ty} {x : α} (h : ∀ t ∈ types x, t.occurrences = []) :
    s.apply (inst ts x) = inst (ts.map (Ty.subst s)) x := by
  unfold Subst.apply inst
  rw [mapTypes_mapTypes]
  exact mapTypes_congr fun t ht => Ty.inst_subst (h t ht)

end

namespace Subst

variable (s : Subst)

@[simp] theorem apply_pred (p : Pred) : s.apply p = ⟨p.className, p.ty.subst s⟩ := rfl

@[simp] theorem apply_qual {α : Type} [HasTypes α] (q : Qual α) :
    s.apply q = ⟨s.apply q.context, s.apply q.head⟩ := rfl

theorem apply_context {α : Type} [HasTypes α] (q : Qual α) : (s.apply q).context = s.apply q.context := rfl

theorem apply_head {α : Type} [HasTypes α] (q : Qual α) : (s.apply q).head = s.apply q.head := rfl

theorem apply_append {α : Type} [HasTypes α] (xs ys : List α) :
    s.apply (xs ++ ys) = s.apply xs ++ s.apply ys :=
  List.map_append

@[simp] theorem apply_literal (token : Token) (ty : Ty) :
    s.apply (TypedExpr.literal token ty) = .literal token (ty.subst s) := rfl

@[simp] theorem apply_name (token : Token) (ty : Ty) :
    s.apply (TypedExpr.name token ty) = .name token (ty.subst s) := rfl

@[simp] theorem apply_grouping (inner : TypedExpr) (span : Span) :
    s.apply (TypedExpr.grouping inner span) = .grouping (s.apply inner) span := rfl

@[simp] theorem apply_application (func arg : TypedExpr) (ty : Ty) :
    s.apply (TypedExpr.application func arg ty) =
      .application (s.apply func) (s.apply arg) (ty.subst s) := rfl

@[simp] theorem apply_binary (left right : TypedExpr) (operator : Token) (operatorTy ty : Ty) :
    s.apply (TypedExpr.binary left operator operatorTy right ty) =
      .binary (s.apply left) operator (operatorTy.subst s) (s.apply right) (ty.subst s) := rfl

end Subst

end QualifiedTypes
