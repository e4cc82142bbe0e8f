import QualifiedTypes.Proofs.Preludes
import QualifiedTypes.Proofs.Spellable

/-!
# Renaming variables

A substitution that sends variables to variables of the same kind, different ones to different ones, changes
the names in a phrase and nothing else.

* `Renames`: the substitution renames the variables of a phrase.
* `Renames.freeVars`: the variables keep their order.
* `Renames.usesAgree`: they keep their uses.
* `Renames.quantifyAll`: **schemes do not depend on the names of variables.**
-/

namespace QualifiedTypes

variable {α : Type} [HasTypes α] {s : Subst} {ρ : TyVar → TyVar} {x : α}

/-- The substitution renames the variables of a phrase. -/
structure Renames (s : Subst) (ρ : TyVar → TyVar) (x : α) : Prop where
  var : ∀ v ∈ occurrences x, (Ty.var v).subst s = .var (ρ v)
  kind : ∀ v ∈ occurrences x, (ρ v).kind = v.kind
  id : ∀ v ∈ occurrences x, ∀ w ∈ occurrences x, (ρ v).id = (ρ w).id ↔ v.id = w.id

/-! ## Types -/

namespace Ty

theorem uses_subst {t : Ty} (h : ∀ v ∈ t.occurrences, (Ty.var v).subst s = .var (ρ v)) (args : Nat) :
    (t.subst s).uses args = (t.uses args).map fun u => (ρ u.1, u.2) := by
  induction t generalizing args with
  | var v =>
    rw [h v List.mem_cons_self]
    rfl
  | con c => rfl
  | gen n => rfl
  | app f x ihf ihx =>
    obtain ⟨hf, hx⟩ := List.forall_mem_append.1 h
    rw [subst_app, uses, ihf hf, ihx hx, uses, List.map_append]

end Ty

/-! ## Phrases -/

namespace Renames

theorem occurrences (h : Renames s ρ x) :
    occurrences (s.apply x) = (QualifiedTypes.occurrences x).map ρ := by
  rw [occurrences_apply, List.map_eq_flatMap]
  refine List.flatMap_congr fun v hv => ?_
  rw [h.var v hv]
  rfl

theorem freeVars (h : Renames s ρ x) : freeVars (s.apply x) = (QualifiedTypes.freeVars x).map ρ := by
  unfold QualifiedTypes.freeVars
  rw [h.occurrences]
  exact distinctOn_map h.id

theorem usesAgree (h : Renames s ρ x) (huses : UsesAgree x) : UsesAgree (s.apply x) := by
  have hrenamed : uses (s.apply x) = (uses x).map fun u => (ρ u.1, u.2) := by
    unfold uses
    rw [Subst.types_apply, List.flatMap_map, List.map_flatMap]
    refine List.flatMap_congr fun t ht => Ty.uses_subst (fun v hv => h.var v ?_) 0
    exact List.mem_flatMap.2 ⟨t, ht, hv⟩
  have hmem : ∀ u ∈ uses x, u.1 ∈ QualifiedTypes.occurrences x := fun u hu => by
    obtain ⟨t, ht, hv⟩ := mem_occurrences_of_mem_uses hu
    exact List.mem_flatMap.2 ⟨t, ht, hv⟩
  constructor
  · rw [hrenamed]
    simp only [List.forall_mem_map]
    exact fun u hu w hw hid => huses.arity u hu w hw ((h.id _ (hmem u hu) _ (hmem w hw)).1 hid)
  · rw [hrenamed]
    simp only [List.forall_mem_map]
    exact fun u hu => (h.kind _ (hmem u hu)).trans (huses.kind u hu)

/-- A variable and its new name have the same slot. -/
theorem subst_slotsFor (h : Renames s ρ x) {v : TyVar} (hv : v ∈ QualifiedTypes.occurrences x) :
    (Ty.var (ρ v)).subst (Scheme.slotsFor ((QualifiedTypes.freeVars x).map ρ)) =
      (Ty.var v).subst (Scheme.slotsFor (QualifiedTypes.freeVars x)) := by
  have hocc : ∀ w ∈ QualifiedTypes.freeVars x, w ∈ QualifiedTypes.occurrences x :=
    fun w hw => mem_of_mem_distinctOn TyVar.id hw
  have hmem : v.id ∈ (QualifiedTypes.freeVars x).map TyVar.id :=
    (mem_keys_distinctOn TyVar.id).2 (List.mem_map_of_mem hv)
  have hmem' : (ρ v).id ∈ ((QualifiedTypes.freeVars x).map ρ).map TyVar.id := by
    obtain ⟨w, hw, hid⟩ := List.mem_map.1 hmem
    exact List.mem_map.2 ⟨ρ w, List.mem_map_of_mem hw, (h.id w (hocc w hw) v hv).2 hid⟩
  obtain ⟨n, w, hw, hid, hlook⟩ := Subst.lookup_mapIdx (f := fun i _ => .gen i) hmem
  obtain ⟨m, w', hw', hid', hlook'⟩ := Subst.lookup_mapIdx (f := fun i _ => .gen i) hmem'
  rw [List.getElem?_map, Option.map_eq_some_iff] at hw'
  obtain ⟨u, hu, rfl⟩ := hw'
  have huid : u.id = w.id := ((h.id u (hocc u (List.mem_of_getElem? hu)) v hv).1 hid').trans hid.symm
  have hplace : m = n := by
    have hlt : m < ((QualifiedTypes.freeVars x).map TyVar.id).length := by
      rw [List.length_map]
      exact (List.getElem?_eq_some_iff.1 hu).1
    refine (List.getElem?_inj hlt (nodup_distinctOn TyVar.id _)).1 ?_
    rw [List.getElem?_map, List.getElem?_map, hu, hw, Option.map_some, Option.map_some, huid]
  calc (Ty.var (ρ v)).subst (Scheme.slotsFor ((QualifiedTypes.freeVars x).map ρ))
    _ = .gen m := Ty.subst_var_of_lookup hlook'
    _ = .gen n := by rw [hplace]
    _ = (Ty.var v).subst (Scheme.slotsFor (QualifiedTypes.freeVars x)) := (Ty.subst_var_of_lookup hlook).symm

/-- **Schemes do not depend on the names of variables.** -/
theorem quantifyAll {q : Qual Ty} (h : Renames s ρ q) :
    Scheme.quantifyAll (s.apply q) = Scheme.quantifyAll q := by
  have hkinds : ((QualifiedTypes.freeVars q).map ρ).map TyVar.kind = (QualifiedTypes.freeVars q).map TyVar.kind := by
    rw [List.map_map]
    exact List.map_congr_left fun v hv => h.kind v (mem_of_mem_distinctOn TyVar.id hv)
  have hbody : (Scheme.slotsFor ((QualifiedTypes.freeVars q).map ρ)).apply (s.apply q) =
      (Scheme.slotsFor (QualifiedTypes.freeVars q)).apply q := by
    rw [← Subst.apply_compose]
    refine Subst.apply_congr fun t ht => Ty.subst_congr fun v hv => ?_
    have hocc : v ∈ QualifiedTypes.occurrences q := List.mem_flatMap.2 ⟨t, ht, hv⟩
    rw [Ty.subst_compose, h.var v hocc, h.subst_slotsFor hocc]
  rw [Scheme.quantifyAll_eq, Scheme.quantifyAll_eq, h.freeVars, hkinds, hbody]

end Renames

end QualifiedTypes
