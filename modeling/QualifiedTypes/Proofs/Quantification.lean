import QualifiedTypes.Proofs.Renaming
import QualifiedTypes.Proofs.WellKinded

/-!
# Quantification

To quantify is to forget names.  The bound variables become slots, numbered by first occurrence across the
context and the head, and the scheme keeps their kinds.  Nothing else is lost: the slots can be filled with
the variables again, and two qualified types have one scheme only if they differ in names.

* `Scheme.boundVars`: the variables of a qualified type that a list binds, in order.
* `Scheme.freeVars_quantify`: the other variables stay free.
* `Scheme.inst_boundVars`: to instantiate a scheme with the variables it binds gives back what was quantified.
* `Subst.IsRenaming.quantifyAll`, `Scheme.exists_isRenaming`: a scheme of all variables stands for what it
  quantifies, up to renaming.
-/

namespace QualifiedTypes

/-- A qualified type without slots, in which each variable id has one kind. -/
structure Qual.Unambiguous (q : Qual Ty) : Prop where
  slotFree : ∀ t ∈ types q, t.firstGen? = none
  kinds : ∀ v ∈ occurrences q, ∀ w ∈ occurrences q, v.id = w.id → v.kind = w.kind

theorem Qual.Unambiguous.eq_of_id_eq {q : Qual Ty} (h : q.Unambiguous) {v w : TyVar} (hv : v ∈ occurrences q)
    (hw : w ∈ occurrences q) (hid : v.id = w.id) : v = w :=
  congrArg₂ TyVar.mk hid (h.kinds v hv w hw hid)

theorem Qual.Unambiguous.mem_freeVars {q : Qual Ty} (h : q.Unambiguous) {v : TyVar} :
    v ∈ freeVars q ↔ v ∈ occurrences q := by
  refine ⟨mem_of_mem_distinctOn TyVar.id, fun hv => ?_⟩
  obtain ⟨w, hw, hid⟩ := exists_mem_freeVars hv
  rwa [h.eq_of_id_eq (mem_of_mem_distinctOn TyVar.id hw) hv hid] at hw

namespace Scheme

variable {vars : List TyVar} {q q₁ q₂ : Qual Ty} {v : TyVar}

/-! ## Bound variables -/

/-- The variables of a qualified type whose ids are listed, in order of first occurrence. -/
def boundVars (vars : List TyVar) (q : Qual Ty) : List TyVar :=
  (freeVars q).filter fun v => v.id ∈ vars.map TyVar.id

theorem quantify_eq (vars : List TyVar) (q : Qual Ty) :
    quantify vars q = ⟨(boundVars vars q).map TyVar.kind, (slotsFor (boundVars vars q)).apply q⟩ := by
  have hbound : ((freeVars q).filter fun v => vars.any fun w => w.id == v.id) = boundVars vars q :=
    List.filter_congr fun v _ => by rw [Bool.eq_iff_iff]; simp
  rw [quantify, hbound]

theorem boundVars_freeVars (q : Qual Ty) : boundVars (freeVars q) q = freeVars q :=
  List.filter_eq_self.2 fun _ hv => decide_eq_true (List.mem_map_of_mem hv)

theorem mem_ids_boundVars (hv : v ∈ occurrences q) :
    v.id ∈ (boundVars vars q).map TyVar.id ↔ v.id ∈ vars.map TyVar.id := by
  constructor
  · intro h
    obtain ⟨w, hw, hid⟩ := List.mem_map.1 h
    exact hid ▸ of_decide_eq_true (List.mem_filter.1 hw).2
  · intro h
    obtain ⟨w, hw, hid⟩ := exists_mem_freeVars hv
    exact List.mem_map.2 ⟨w, List.mem_filter.2 ⟨hw, decide_eq_true (hid ▸ h)⟩, hid⟩

/-- A variable that is not listed keeps out of the slots. -/
theorem lookup_slotsFor_of_notMem (hv : v ∈ occurrences q) (h : v.id ∉ vars.map TyVar.id) :
    (slotsFor (boundVars vars q)).lookup v.id = none := by
  rw [Subst.lookup_eq_none_iff, slotsFor, Subst.ids_mapIdx, mem_ids_boundVars hv]
  exact h

/-- A variable that is listed goes to the slot of its place. -/
theorem lookup_slotsFor_of_mem (hq : q.Unambiguous) (hv : v ∈ occurrences q) (h : v.id ∈ vars.map TyVar.id) :
    ∃ n, (boundVars vars q)[n]? = some v ∧ (slotsFor (boundVars vars q)).lookup v.id = some (.gen n) := by
  obtain ⟨n, w, hw, hid, hlook⟩ := Subst.lookup_mapIdx (f := fun i _ => .gen i) ((mem_ids_boundVars hv).2 h)
  have hocc : w ∈ occurrences q :=
    mem_of_mem_distinctOn TyVar.id (List.mem_filter.1 (List.mem_of_getElem? hw)).1
  rw [hq.eq_of_id_eq hocc hv hid] at hw
  exact ⟨n, hw, hlook⟩

/-- **What is not bound stays free**, in the same order. -/
theorem freeVars_quantify (hq : q.Unambiguous) (vars : List TyVar) :
    freeVars (quantify vars q) = (freeVars q).filter fun v => v.id ∉ vars.map TyVar.id := by
  have hvar : ∀ v ∈ occurrences q, ((Ty.var v).subst (slotsFor (boundVars vars q))).occurrences =
      [v].filter fun v => v.id ∉ vars.map TyVar.id := by
    intro v hv
    by_cases hmem : v.id ∈ vars.map TyVar.id
    · obtain ⟨n, _, hlook⟩ := lookup_slotsFor_of_mem hq hv hmem
      rw [Ty.subst_var_of_lookup hlook, List.filter_cons, if_neg (by simpa using hmem)]
      rfl
    · rw [Ty.subst, lookup_slotsFor_of_notMem hv hmem, List.filter_cons, if_pos (by simpa using hmem)]
      rfl
  have hocc : occurrences (quantify vars q) = (occurrences q).filter fun v => v.id ∉ vars.map TyVar.id := by
    rw [quantify_eq]
    change occurrences ((slotsFor (boundVars vars q)).apply q) = _
    rw [occurrences_apply, List.flatMap_congr hvar, ← List.filter_flatMap, List.flatMap_singleton']
  rw [freeVars, hocc]
  exact distinctOn_filter TyVar.id (fun id => decide (id ∉ vars.map TyVar.id)) (occurrences q)

/-- **To instantiate a scheme with the variables it binds undoes quantification.** -/
theorem inst_boundVars (hq : q.Unambiguous) (vars : List TyVar) :
    inst ((boundVars vars q).map .var) (quantify vars q).body = q := by
  have hvar : ∀ v ∈ occurrences q,
      (Ty.var v).subst (filling (boundVars vars q) ((boundVars vars q).map .var)) = .var v := by
    intro v hv
    rw [Ty.subst, lookup_filling]
    by_cases hmem : v.id ∈ vars.map TyVar.id
    · obtain ⟨n, hn, hlook⟩ := lookup_slotsFor_of_mem hq hv hmem
      rw [hlook, Option.map_some, Ty.inst, List.getElem?_map, hn]
      rfl
    · rw [lookup_slotsFor_of_notMem hv hmem]
      rfl
  have hself : ∀ t ∈ types q, t.subst (filling (boundVars vars q) ((boundVars vars q).map .var)) = t := by
    intro t ht
    have hempty : t.subst (filling (boundVars vars q) ((boundVars vars q).map .var)) = t.subst .empty :=
      Ty.subst_congr fun v hv => hvar v (List.mem_flatMap.2 ⟨t, ht, hv⟩)
    rw [hempty, Ty.subst_empty]
  rw [quantify_eq, inst_apply_slotsFor hq.slotFree]
  exact (mapTypes_congr hself).trans (mapTypes_id q)

end Scheme

/-! ## Renamings -/

/-- The substitution sends the variables of a qualified type to variables of the same kinds, and different ones
to different ones. -/
structure Subst.IsRenaming (r : Subst) (q : Qual Ty) : Prop where
  var : ∀ v ∈ freeVars q, ∃ w, (Ty.var v).subst r = .var w ∧ w.kind = v.kind
  injective : ∀ v ∈ freeVars q, ∀ w ∈ freeVars q, (Ty.var v).subst r = (Ty.var w).subst r → v = w

namespace Subst.IsRenaming

variable {r : Subst} {q : Qual Ty}

/-- Variables that are kept apart have different ids, since none of them gets two kinds. -/
theorem exists_renames (h : r.IsRenaming q) (hq : q.Unambiguous) (hrenamed : (r.apply q).Unambiguous) :
    ∃ ρ, Renames r ρ q := by
  have : Nonempty TyVar := ⟨"", .star⟩
  have hvar := h.var
  choose! ρ hρ using hvar
  have hsubst : ∀ v ∈ occurrences q, (Ty.var v).subst r = .var (ρ v) :=
    fun v hv => (hρ v (hq.mem_freeVars.2 hv)).1
  have hmem : ∀ v ∈ occurrences q, ρ v ∈ occurrences (r.apply q) := by
    intro v hv
    obtain ⟨t, ht, hvt⟩ := List.mem_flatMap.1 hv
    refine List.mem_flatMap.2 ⟨t.subst r, by rw [types_apply]; exact List.mem_map_of_mem ht, ?_⟩
    exact Ty.mem_occurrences_subst.2 ⟨v, hvt, by rw [hsubst v hv]; exact List.mem_cons_self⟩
  refine ⟨ρ, hsubst, fun v hv => (hρ v (hq.mem_freeVars.2 hv)).2, fun v hv w hw => ⟨fun hid => ?_, fun hid => ?_⟩⟩
  · have hsame : ρ v = ρ w := hrenamed.eq_of_id_eq (hmem v hv) (hmem w hw) hid
    have heq := h.injective v (hq.mem_freeVars.2 hv) w (hq.mem_freeVars.2 hw)
      (by rw [hsubst v hv, hsubst w hw, hsame])
    rw [heq]
  · rw [hq.eq_of_id_eq hv hw hid]

theorem quantifyAll (h : r.IsRenaming q) (hq : q.Unambiguous) (hrenamed : (r.apply q).Unambiguous) :
    Scheme.quantifyAll (r.apply q) = Scheme.quantifyAll q := by
  obtain ⟨ρ, hρ⟩ := h.exists_renames hq hrenamed
  exact hρ.quantifyAll

end Subst.IsRenaming

namespace Scheme

variable {q₁ q₂ : Qual Ty}

/-- **Qualified types with one scheme are renamings of each other**: the variables at the same places of the two
lists have the same slot. -/
theorem exists_isRenaming (h₁ : q₁.Unambiguous) (h₂ : q₂.Unambiguous) (h : quantifyAll q₁ = quantifyAll q₂) :
    ∃ r : Subst, r.IsRenaming q₁ ∧ q₂ = r.apply q₁ := by
  have hkinds : (freeVars q₁).map TyVar.kind = (freeVars q₂).map TyVar.kind := by
    have hfields := congrArg Scheme.kinds h
    rwa [quantifyAll_eq, quantifyAll_eq] at hfields
  have hvar : ∀ v ∈ freeVars q₁, ∃ (n : Nat) (w : TyVar), (freeVars q₁)[n]? = some v ∧ (freeVars q₂)[n]? = some w ∧
      w.kind = v.kind ∧ (Ty.var v).subst (filling (freeVars q₁) ((freeVars q₂).map .var)) = .var w := by
    intro v hv
    have hocc := h₁.mem_freeVars.1 hv
    obtain ⟨n, hn, hlook⟩ := lookup_slotsFor_of_mem h₁ hocc (List.mem_map_of_mem hv)
    rw [boundVars_freeVars] at hn hlook
    have hkind := congrArg (·[n]?) hkinds
    simp only [List.getElem?_map, hn, Option.map_some] at hkind
    obtain ⟨w, hw, hwk⟩ := Option.map_eq_some_iff.1 hkind.symm
    refine ⟨n, w, hn, hw, hwk, Ty.subst_var_of_lookup ?_⟩
    rw [lookup_filling, hlook, Option.map_some, Ty.inst, List.getElem?_map, hw]
    rfl
  refine ⟨filling (freeVars q₁) ((freeVars q₂).map .var), ⟨fun v hv => ?_, fun v hv w hw hsame => ?_⟩, ?_⟩
  · obtain ⟨_, w, _, _, hwk, hsubst⟩ := hvar v hv
    exact ⟨w, hsubst, hwk⟩
  · obtain ⟨n, v', hn, hn', _, hv'⟩ := hvar v hv
    obtain ⟨m, w', hm, hm', _, hw'⟩ := hvar w hw
    have heq : v' = w' := Ty.var.inj (by rw [← hv', ← hw', hsame])
    subst heq
    have hlt : n < (freeVars q₂).length := (List.getElem?_eq_some_iff.1 hn').1
    have hnodup : (freeVars q₂).Nodup := .of_map TyVar.id (nodup_distinctOn TyVar.id _)
    have hplace : n = m := (List.getElem?_inj hlt hnodup).1 (hn'.trans hm'.symm)
    exact Option.some.inj (by rw [← hn, ← hm, hplace])
  · have hinst := inst_boundVars h₂ (freeVars q₂)
    rw [boundVars_freeVars] at hinst
    calc q₂
      _ = inst ((freeVars q₂).map .var) (quantifyAll q₂).body := hinst.symm
      _ = inst ((freeVars q₂).map .var) (quantifyAll q₁).body := by rw [h]
      _ = (filling (freeVars q₁) ((freeVars q₂).map .var)).apply q₁ := inst_quantifyAll h₁.slotFree _

/-- **Quantification forgets names and nothing else.** -/
theorem quantify_up_to_renaming :
    (∀ (vars : List TyVar) (q : Qual Ty), q.Unambiguous →
      freeVars (quantify vars q) = ((freeVars q).filter fun v => v.id ∉ vars.map TyVar.id) ∧
      inst ((boundVars vars q).map .var) (quantify vars q).body = q ∧
      (quantify vars q).kinds = (boundVars vars q).map TyVar.kind) ∧
    ∀ q₁ q₂ : Qual Ty, q₁.Unambiguous → q₂.Unambiguous →
      (quantifyAll q₁ = quantifyAll q₂ ↔ ∃ r : Subst, r.IsRenaming q₁ ∧ q₂ = r.apply q₁) := by
  refine ⟨fun vars q hq => ⟨freeVars_quantify hq vars, inst_boundVars hq vars, ?_⟩, fun q₁ q₂ h₁ h₂ => ⟨?_, ?_⟩⟩
  · rw [quantify_eq]
  · exact exists_isRenaming h₁ h₂
  · rintro ⟨r, hr, rfl⟩
    exact (hr.quantifyAll h₁ h₂).symm

/-- The type of a map over a functor, with the given names for the types of elements. -/
def functorMap (x y : String) : Qual Ty :=
  ⟨[⟨"Functor", .var ⟨"m", .ofArity 1⟩⟩],
    .fn (.fn (.var ⟨x, .star⟩) (.var ⟨y, .star⟩))
      (.fn (.app (.var ⟨"m", .ofArity 1⟩) (.var ⟨x, .star⟩)) (.app (.var ⟨"m", .ofArity 1⟩) (.var ⟨y, .star⟩)))⟩

theorem quantify_up_to_renaming_swapped :
    (functorMap "a" "b").Unambiguous ∧ (functorMap "b" "a").Unambiguous ∧
      freeVars (quantify [⟨"b", .star⟩, ⟨"m", .star⟩] (functorMap "a" "b")) = [⟨"a", .star⟩] ∧
      inst [.var ⟨"m", .ofArity 1⟩, .var ⟨"b", .star⟩]
        (quantify [⟨"b", .star⟩, ⟨"m", .star⟩] (functorMap "a" "b")).body = functorMap "a" "b" ∧
      quantifyAll (functorMap "a" "b") = quantifyAll (functorMap "b" "a") ∧
      ∃ r : Subst, r.IsRenaming (functorMap "a" "b") ∧ functorMap "b" "a" = r.apply (functorMap "a" "b") := by
  have h : (functorMap "a" "b").Unambiguous := ⟨by decide, by decide⟩
  have h' : (functorMap "b" "a").Unambiguous := ⟨by decide, by decide⟩
  have hscheme : quantifyAll (functorMap "a" "b") = quantifyAll (functorMap "b" "a") := by decide
  obtain ⟨hfree, hinst, _⟩ := quantify_up_to_renaming.1 [⟨"b", .star⟩, ⟨"m", .star⟩] (functorMap "a" "b") h
  exact ⟨h, h', hfree, hinst, hscheme, (quantify_up_to_renaming.2 _ _ h h').1 hscheme⟩

end Scheme

end QualifiedTypes
