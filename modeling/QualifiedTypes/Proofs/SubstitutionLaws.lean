import QualifiedTypes.Proofs.Action

/-!
# The laws of substitution

Substitutions form a monoid that acts on phrases.  The laws hold of the lists of bindings and not only of the
functions that these stand for, whatever ids the substitutions share: the order of a list is what the next
composition, and every answer, shows.

The free variables of a phrase are all that a substitution sees of it.  They are listed by first occurrence, and
substitution keeps that order: the variables of the result are read off the images of the variables, one after
the other.

* `Subst.compose_assoc`, `Subst.empty_compose`, `Subst.compose_empty`: the laws of composition.
* `freeVars_apply`: the free variables of a substituted phrase, in order.
* `Subst.apply_congr_lookup`: what is bound elsewhere does not matter.
* `Ty.freeVars_eq_collect`, `freeVars_list`, `freeVars_qual`: walks that add the variables of a phrase to a list
  one by one, each unless its id is there already, end with the free variables.
-/

namespace QualifiedTypes

/-! ## Composition -/

namespace Subst

@[simp] theorem apply_empty {α : Type} [HasTypes α] (x : α) : empty.apply x = x :=
  (mapTypes_congr fun t _ => t.subst_empty).trans (mapTypes_id x)

theorem empty_compose (s : Subst) : empty.compose s = s := by
  have hbindings : empty.bindings = [] := rfl
  ext1
  simp [compose, hbindings]

theorem compose_empty (s : Subst) : s.compose empty = s := by
  ext1
  exact List.filter_eq_self.2 fun _ _ => rfl

/-- **Composition is associative**, binding by binding: the bindings of `s₃` are rewritten by `s₂` and `s₁`, those
that only `s₂` adds by `s₁`, and those that only `s₁` adds stand as they are. -/
theorem compose_assoc (s₁ s₂ s₃ : Subst) :
    s₁.compose (s₂.compose s₃) = (s₁.compose s₂).compose s₃ := by
  have hthird : (s₃.bindings.map fun b => (b.1, s₂.apply b.2)).map (fun b => (b.1, s₁.apply b.2)) =
      s₃.bindings.map fun b => (b.1, (s₁.compose s₂).apply b.2) := by
    simp only [List.map_map, Function.comp_def, apply_compose]
  have hsecond : (s₂.bindings.filter fun b => !s₃.binds b.1.id).map (fun b => (b.1, s₁.apply b.2)) =
      (s₂.bindings.map fun b => (b.1, s₁.apply b.2)).filter fun b => !s₃.binds b.1.id := by
    rw [List.filter_map, Function.comp_def]
  have hfirst : s₁.bindings.filter (fun b => !(s₂.compose s₃).binds b.1.id) =
      (s₁.bindings.filter fun b => !s₂.binds b.1.id).filter fun b => !s₃.binds b.1.id := by
    rw [List.filter_filter]
    refine List.filter_congr fun b _ => ?_
    rw [binds_compose, Bool.not_or]
  ext1
  calc (s₁.compose (s₂.compose s₃)).bindings
    _ = (s₃.bindings.map fun b => (b.1, s₂.apply b.2)).map (fun b => (b.1, s₁.apply b.2)) ++
          (s₂.bindings.filter fun b => !s₃.binds b.1.id).map (fun b => (b.1, s₁.apply b.2)) ++
          s₁.bindings.filter (fun b => !(s₂.compose s₃).binds b.1.id) := by
        rw [← List.map_append]
        rfl
    _ = s₃.bindings.map (fun b => (b.1, (s₁.compose s₂).apply b.2)) ++
          (s₁.compose s₂).bindings.filter fun b => !s₃.binds b.1.id := by
        rw [hthird, hsecond, hfirst, List.append_assoc, ← List.filter_append]
        rfl

/-- **Substitutions form a monoid that acts on phrases**, and composition keeps ids apart. -/
theorem compose_monoid_action :
    (∀ (α : Type) [HasTypes α] (x : α),
      empty.apply x = x ∧ ∀ s₁ s₂ : Subst, (s₁.compose s₂).apply x = s₁.apply (s₂.apply x)) ∧
    (∀ s₁ s₂ s₃ : Subst, (s₁.compose (s₂.compose s₃)).bindings = ((s₁.compose s₂).compose s₃).bindings) ∧
    (∀ s : Subst, empty.compose s = s ∧ s.compose empty = s) ∧
    ∀ s₁ s₂ : Subst, s₁.ids.Nodup → s₂.ids.Nodup →
      (s₁.compose s₂).ids.Nodup ∧
        (s₁.compose s₂).keys = s₂.keys ++ s₁.keys.filter fun v => !s₂.binds v.id := by
  refine ⟨fun α _ x => ⟨apply_empty x, fun s₁ s₂ => apply_compose s₁ s₂ x⟩, ?_, ?_, ?_⟩
  · intro s₁ s₂ s₃
    rw [compose_assoc]
  · intro s
    exact ⟨empty_compose s, compose_empty s⟩
  · intro s₁ s₂ h₁ h₂
    exact ⟨nodup_ids_compose h₁ h₂, keys_compose s₁ s₂⟩

/-- Two bindings, one for an id that `forwarding` binds too and one for an id that its types mention. -/
def wrapping : Subst :=
  ⟨[(⟨"a", .star⟩, .list (.var ⟨"b", .star⟩)), (⟨"c", .star⟩, .var ⟨"a", .star⟩)]⟩

/-- Two bindings, one for an id that the types of `wrapping` mention. -/
def forwarding : Subst :=
  ⟨[(⟨"b", .star⟩, .var ⟨"a", .star⟩), (⟨"c", .star⟩, .var ⟨"b", .star⟩)]⟩

theorem compose_monoid_action_overlapping :
    wrapping.ids.Nodup ∧ forwarding.ids.Nodup ∧ (wrapping.compose forwarding).ids.Nodup ∧
      (wrapping.compose forwarding).keys = [⟨"b", .star⟩, ⟨"c", .star⟩, ⟨"a", .star⟩] ∧
      (forwarding.compose wrapping).keys = [⟨"a", .star⟩, ⟨"c", .star⟩, ⟨"b", .star⟩] := by
  have hwrapping : wrapping.ids.Nodup := by decide
  have hforwarding : forwarding.ids.Nodup := by decide
  obtain ⟨_, _, _, hkeys⟩ := compose_monoid_action
  exact ⟨hwrapping, hforwarding, (hkeys _ _ hwrapping hforwarding).1, (hkeys _ _ hwrapping hforwarding).2,
    (hkeys _ _ hforwarding hwrapping).2⟩

end Subst

/-! ## Free variables under substitution -/

/-- Variables with one id have images with the same ids, also where they differ in kind. -/
theorem Ty.ids_subst_var {v w : TyVar} (h : v.id = w.id) (s : Subst) :
    ((Ty.var v).subst s).ids = ((Ty.var w).subst s).ids := by
  rw [subst, subst, h]
  cases s.lookup w.id with
  | none => simp [h]
  | some t => rfl

section

variable {α : Type} [HasTypes α]

theorem mem_ids_freeVars_iff (x : α) (id : String) :
    id ∈ (freeVars x).map TyVar.id ↔ ∃ t ∈ types x, t.occurs id = true := by
  rw [freeVars, mem_keys_distinctOn, occurrences, List.map_flatMap, List.mem_flatMap]
  simp only [Ty.occurs_iff]

/-- **Free variables commute with substitution**, in order of first occurrence. -/
theorem freeVars_apply (s : Subst) (x : α) :
    freeVars (s.apply x) =
      distinctOn TyVar.id ((freeVars x).flatMap fun v => freeVars (s.apply (Ty.var v))) := by
  -- A later occurrence of an id adds no ids to those that its first occurrence has added.
  have hids : ∀ v w : TyVar, v.id = w.id → ∀ id ∈ ((Ty.var v).subst s).occurrences.map TyVar.id,
      id ∈ ((Ty.var w).subst s).occurrences.map TyVar.id := by
    intro v w h id hid
    change id ∈ ((Ty.var v).subst s).ids at hid
    rw [Ty.ids_subst_var h s] at hid
    exact hid
  calc freeVars (s.apply x)
    _ = distinctOn TyVar.id ((occurrences x).flatMap fun v => ((Ty.var v).subst s).occurrences) := by
        rw [freeVars, occurrences_apply]
    _ = distinctOn TyVar.id ((freeVars x).flatMap fun v => ((Ty.var v).subst s).occurrences) := by
        rw [freeVars, distinctOn_distinctOn_flatMap TyVar.id hids]
    _ = distinctOn TyVar.id ((freeVars x).flatMap fun v => freeVars (s.apply (Ty.var v))) := by
        simp only [Subst.apply_ty, freeVars_ty, distinctOn_flatMap_distinctOn]

/-- Substitutions that bind the free variables of a phrase alike act on it alike. -/
theorem Subst.apply_congr_lookup {s s' : Subst} {x : α}
    (h : ∀ id ∈ (freeVars x).map TyVar.id, s.lookup id = s'.lookup id) : s.apply x = s'.apply x := by
  refine apply_congr fun t ht => Ty.subst_congr_lookup fun id hid => h id ?_
  obtain ⟨v, hv, rfl⟩ := Ty.exists_of_mem_ids hid
  exact mem_ids_freeVars ht hv

end

/-! ## Walks that collect variables -/

/-- Put a variable at the end of a list, unless its id is there already. -/
def addVar (found : List TyVar) (v : TyVar) : List TyVar :=
  if found.any fun u => u.id == v.id then found else found ++ [v]

/-- Add the variables of a type to a list, from left to right. -/
def Ty.collect : Ty → List TyVar → List TyVar
  | .var v, found => addVar found v
  | .app f x, found => x.collect (f.collect found)
  | _, found => found

theorem addVar_distinctOn (l : List TyVar) (v : TyVar) :
    addVar (distinctOn TyVar.id l) v = distinctOn TyVar.id (l ++ [v]) := by
  have hany : ((distinctOn TyVar.id l).any fun u => u.id == v.id) = true ↔ v.id ∈ l.map TyVar.id := by
    rw [← mem_keys_distinctOn]
    simp
  have hlast : distinctOn TyVar.id [v] = [v] := rfl
  rw [addVar, distinctOn_append, hlast, List.filter_cons, List.filter_nil]
  by_cases h : v.id ∈ l.map TyVar.id
  · rw [if_pos (hany.2 h), if_neg (by simpa using h), List.append_nil]
  · rw [if_neg (mt hany.1 h), if_pos (by simpa using h)]

/-- A walk over a list turns the variables found before into those found before or in the list. -/
theorem foldl_addVar (l m : List TyVar) :
    m.foldl addVar (distinctOn TyVar.id l) = distinctOn TyVar.id (l ++ m) := by
  induction m generalizing l with
  | nil => simp
  | cons v m ih => rw [List.foldl_cons, addVar_distinctOn, ih, List.append_assoc, List.singleton_append]

theorem Ty.collect_distinctOn (t : Ty) (l : List TyVar) :
    t.collect (distinctOn TyVar.id l) = distinctOn TyVar.id (l ++ t.occurrences) := by
  induction t generalizing l with
  | var v => exact addVar_distinctOn l v
  | con c => simp [collect, occurrences]
  | gen n => simp [collect, occurrences]
  | app f x ihf ihx => rw [collect, ihf, ihx, occurrences, List.append_assoc]

theorem Ty.freeVars_eq_collect (t : Ty) : freeVars t = t.collect [] := by
  rw [freeVars_ty]
  exact (t.collect_distinctOn []).symm

section

variable {α : Type} [HasTypes α]

theorem occurrences_cons (x : α) (xs : List α) : occurrences (x :: xs) = occurrences x ++ occurrences xs := by
  simp [occurrences]

/-- To add the free variables of a phrase is to add every occurrence. -/
theorem foldl_addVar_freeVars (l : List TyVar) (x : α) :
    (freeVars x).foldl addVar (distinctOn TyVar.id l) = distinctOn TyVar.id (l ++ occurrences x) := by
  rw [foldl_addVar, freeVars, distinctOn_append_distinctOn]

theorem foldl_foldl_addVar (l : List TyVar) (xs : List α) :
    xs.foldl (fun found x => (freeVars x).foldl addVar found) (distinctOn TyVar.id l) =
      distinctOn TyVar.id (l ++ occurrences xs) := by
  induction xs generalizing l with
  | nil => simp [occurrences]
  | cons x xs ih => rw [List.foldl_cons, foldl_addVar_freeVars, ih, List.append_assoc, occurrences_cons]

theorem freeVars_list (xs : List α) :
    freeVars xs = xs.foldl (fun found x => (freeVars x).foldl addVar found) [] :=
  (foldl_foldl_addVar [] xs).symm

theorem freeVars_qual (q : Qual α) : freeVars q = (freeVars q.head).foldl addVar (freeVars q.context) := by
  have hoccurrences : occurrences q = occurrences q.context ++ occurrences q.head := List.flatMap_append
  rw [freeVars.eq_def q.context, foldl_addVar_freeVars, ← hoccurrences, freeVars]

end

/-- **The free variables of a phrase are its variables by first occurrence, and they alone decide what a
substitution does.** -/
theorem freeVars_commute_apply (α : Type) [HasTypes α] :
    (∀ x : α, ((freeVars x).map TyVar.id).Nodup) ∧
    (∀ (x : α) (id : String), id ∈ (freeVars x).map TyVar.id ↔ ∃ t ∈ types x, t.occurs id = true) ∧
    (∀ (s : Subst) (x : α), freeVars (s.apply x) =
      distinctOn TyVar.id ((freeVars x).flatMap fun v => freeVars (s.apply (Ty.var v)))) ∧
    (∀ (s s' : Subst) (x : α),
      (∀ id ∈ (freeVars x).map TyVar.id, s.lookup id = s'.lookup id) → s.apply x = s'.apply x) ∧
    (∀ t : Ty, freeVars t = t.collect []) ∧
    (∀ xs : List α, freeVars xs = xs.foldl (fun found x => (freeVars x).foldl addVar found) []) ∧
    ∀ q : Qual α, freeVars q = (freeVars q.head).foldl addVar (freeVars q.context) := by
  refine ⟨?_, mem_ids_freeVars_iff, freeVars_apply, ?_, Ty.freeVars_eq_collect, freeVars_list, freeVars_qual⟩
  · intro x
    exact nodup_distinctOn TyVar.id (occurrences x)
  · intro s s' x h
    exact Subst.apply_congr_lookup h

/-- A qualified type with one id at two kinds. -/
def twoKinds : Qual Ty :=
  ⟨[⟨"Eq", .var ⟨"b", .star⟩⟩],
    .fn (.app (.var ⟨"m", .ofArity 1⟩) (.var ⟨"a", .star⟩)) (.fn (.var ⟨"m", .star⟩) (.var ⟨"b", .star⟩))⟩

/-- Bindings for two of its ids. -/
def crossing : Subst :=
  ⟨[(⟨"a", .star⟩, .list (.var ⟨"b", .star⟩)), (⟨"b", .star⟩, .fn (.var ⟨"a", .star⟩) (.var ⟨"c", .star⟩))]⟩

/-- The same bindings in another order, after one for an id that does not occur. -/
def crossingElsewhere : Subst := ⟨(⟨"d", .star⟩, .var ⟨"m", .star⟩) :: crossing.bindings.reverse⟩

theorem freeVars_commute_apply_twoKinds :
    (∀ id ∈ (freeVars twoKinds).map TyVar.id, crossing.lookup id = crossingElsewhere.lookup id) ∧
      crossing.apply twoKinds = crossingElsewhere.apply twoKinds ∧
      freeVars twoKinds = [⟨"b", .star⟩, ⟨"m", .ofArity 1⟩, ⟨"a", .star⟩] ∧
      freeVars (crossing.apply twoKinds) =
        [⟨"a", .star⟩, ⟨"c", .star⟩, ⟨"m", .ofArity 1⟩, ⟨"b", .star⟩] := by
  have hlookup : ∀ id ∈ (freeVars twoKinds).map TyVar.id, crossing.lookup id = crossingElsewhere.lookup id := by
    decide
  obtain ⟨_, _, hfree, hcongr, _⟩ := freeVars_commute_apply (Qual Ty)
  exact ⟨hlookup, hcongr _ _ _ hlookup, by decide, (hfree crossing twoKinds).trans (by decide)⟩

end QualifiedTypes
