import QualifiedTypes.Proofs.StandardPrelude

/-!
# Well-formed preludes

What a prelude can rely on once it is built.  Its schemes are closed and well kinded, every class it names is
declared, and every constructor has the kind that the table gives it.

* `Ty.HasKind`: the kinds of types with slots.
* `Scheme.WellFormed`, `Scheme.quantifyAll_wellFormed`: the schemes of signatures are well formed.
* `Prelude.WellFormed`, `Config.build_wellFormed`: **every prelude that could be built is well formed.**
-/

namespace QualifiedTypes

/-! ## Kinds of types with slots -/

namespace Ty

/-- The kind of a type whose slots have these kinds. -/
inductive HasKind (slots : List Kind) : Ty → Kind → Prop where
  | var (v : TyVar) : HasKind slots (.var v) v.kind
  | con (c : TyCon) : HasKind slots (.con c) c.kind
  | gen {n : Nat} {k : Kind} (slot : slots[n]? = some k) : HasKind slots (.gen n) k
  | app {f x : Ty} {arg result : Kind} (fn : HasKind slots f (.fn arg result)) (arg : HasKind slots x arg) :
      HasKind slots (.app f x) result

/-- Types of the right kinds for variables leave the kind of a well-kinded type as it is. -/
theorem WellKinded.hasKind_subst {slots : List Kind} {s : Subst} {t : Ty} (ht : t.WellKinded)
    (hslots : t.firstGen? = none) (hs : ∀ v ∈ t.occurrences, ((Ty.var v).subst s).HasKind slots v.kind) :
    (t.subst s).HasKind slots t.kind := by
  induction t with
  | var v => exact hs v List.mem_cons_self
  | con c => exact .con c
  | gen n => cases hslots
  | app f x ihf ihx =>
    obtain ⟨hf, hx, result, hkind⟩ := ht
    rw [firstGen?_app] at hslots
    have hfn := ihf hf hslots.1 fun v hv => hs v (List.mem_append_left _ hv)
    have harg := ihx hx hslots.2 fun v hv => hs v (List.mem_append_right _ hv)
    rw [hkind] at hfn
    rw [kind, hkind]
    exact .app hfn harg

theorem mem_slots_subst {s : Subst} {t : Ty} {v : TyVar} {i : Nat} (hv : v ∈ t.occurrences)
    (h : (Ty.var v).subst s = .gen i) : i ∈ (t.subst s).slots := by
  induction t with
  | var w =>
    rw [List.mem_singleton.1 hv] at h
    rw [h]
    exact List.mem_cons_self
  | con c => cases hv
  | gen n => cases hv
  | app f x ihf ihx =>
    rcases List.mem_append.1 hv with hv | hv
    · exact List.mem_append_left _ (ihf hv)
    · exact List.mem_append_right _ (ihx hv)

end Ty

/-! ## Schemes -/

namespace Scheme

/-- There are no free variables, the slots are those that have kinds, and with these kinds every application
fits and the head is a proper type. -/
structure WellFormed (scheme : Scheme) : Prop where
  closed : freeVars scheme = []
  slots : ∀ i, (∃ t ∈ types scheme, i ∈ t.slots) ↔ i < scheme.kinds.length
  kinded : ∀ t ∈ types scheme, ∃ k, t.HasKind scheme.kinds k
  head : scheme.body.head.HasKind scheme.kinds .star

variable {K : KindTable} {q : Qual Ty}

/-- Every slot of a scheme is used: the variable that it stands for occurs somewhere. -/
theorem exists_mem_slots (hfits : ∀ t ∈ types q, t.Fits K) {i : Nat} (hi : i < (freeVars q).length) :
    ∃ t ∈ types (quantifyAll q), i ∈ t.slots := by
  have hmem := mem_of_mem_distinctOn TyVar.id (List.getElem_mem hi)
  obtain ⟨t, ht, hv⟩ := List.mem_flatMap.1 hmem
  obtain ⟨n, hn, hlook⟩ := lookup_slotsFor_freeVars (fun u hu => (hfits u hu).vars) ht hv
  have hnodup : (freeVars q).Nodup := (nodup_distinctOn TyVar.id (occurrences q)).of_map
  obtain rfl : i = n := by
    rw [← List.getElem?_eq_getElem hi] at hn
    exact (List.getElem?_inj hi hnodup).1 hn.symm
  refine ⟨t.subst (slotsFor (freeVars q)), ?_, Ty.mem_slots_subst hv (Ty.subst_var_of_lookup hlook)⟩
  rw [quantifyAll_eq]
  exact Subst.types_apply (slotsFor (freeVars q)) q ▸ List.mem_map_of_mem ht

/-- **The scheme of a well-kinded type is well formed.** -/
theorem quantifyAll_wellFormed (hfits : ∀ t ∈ types q, t.Fits K) (hwell : ∀ t ∈ types q, t.WellKinded)
    (hkind : q.head.kind = .star) : (quantifyAll q).WellFormed := by
  have hclosed := quantifyAll_closed hfits
  have hhasKind : ∀ t ∈ types q,
      (t.subst (slotsFor (freeVars q))).HasKind ((freeVars q).map TyVar.kind) t.kind := by
    intro t ht
    refine (hwell t ht).hasKind_subst (hfits t ht).slotFree fun v hv => ?_
    obtain ⟨n, hn, hlook⟩ := lookup_slotsFor_freeVars (fun u hu => (hfits u hu).vars) ht hv
    rw [Ty.subst_var_of_lookup hlook]
    exact .gen (by rw [List.getElem?_map, hn]; rfl)
  constructor
  · have hnone : occurrences (quantifyAll q) = [] := List.flatMap_eq_nil_iff.2 hclosed.vars
    rw [freeVars, hnone]
    rfl
  · intro i
    constructor
    · rintro ⟨t, ht, hi⟩
      exact hclosed.slots t ht i hi
    · intro hi
      rw [quantifyAll_eq, List.length_map] at hi
      exact exists_mem_slots hfits hi
  · rw [quantifyAll_eq]
    intro t ht
    obtain ⟨u, hu, rfl⟩ := List.mem_map.1 (Subst.types_apply (slotsFor (freeVars q)) q ▸ ht)
    exact ⟨_, hhasKind u hu⟩
  · have hhead := hhasKind q.head (List.mem_append_right _ (List.mem_singleton.2 rfl))
    rw [hkind] at hhead
    rw [quantifyAll_eq]
    exact hhead

/-- The scheme was read from a signature, and the classes of its context are declared. -/
def Declared (cons : Constructors) (env : ClassEnv) (scheme : Scheme) : Prop :=
  ∃ src q, readQual cons src = .ok q ∧ scheme = quantifyAll q ∧
    ∀ p ∈ scheme.body.context, env.isDefined p.className = true

variable {cons : Constructors} {env : ClassEnv} {scheme : Scheme}

theorem Declared.wellFormed (h : scheme.Declared cons env) (hcons : cons.HasBase) : scheme.WellFormed := by
  obtain ⟨src, q, hq, rfl, _⟩ := h
  obtain ⟨_, hfits⟩ := readQual_spelled hcons hq
  exact quantifyAll_wellFormed hfits (readQual_wellKinded hq) (readQual_spells hq).2

theorem Declared.consFit (h : scheme.Declared cons env) (hcons : cons.HasBase) :
    ∀ t ∈ types scheme, t.ConsFit cons.find? := by
  obtain ⟨src, q, hq, rfl, _⟩ := h
  obtain ⟨_, hfits⟩ := readQual_spelled hcons hq
  exact (quantifyAll_closed hfits).cons

end Scheme

/-! ## Preludes -/

/-- The types that a prelude is made of: those of its schemes, of its instances and its defaults. -/
def Prelude.allTypes (prelude : Prelude) : List Ty :=
  prelude.typeEnv.entries.flatMap (fun e => types e.2) ++
    types prelude.classEnv.instances ++ prelude.classEnv.defaults

theorem Prelude.forall_mem_allTypes {prelude : Prelude} {P : Ty → Prop} :
    (∀ t ∈ prelude.allTypes, P t) ↔
      (∀ e ∈ prelude.typeEnv.entries, ∀ t ∈ types e.2, P t) ∧
      (∀ i ∈ prelude.classEnv.instances, ∀ t ∈ types i, P t) ∧ ∀ t ∈ prelude.classEnv.defaults, P t := by
  rw [allTypes, List.forall_mem_append, List.forall_mem_append, List.forall_mem_flatMap, types_list,
    List.forall_mem_flatMap, and_assoc]

/-- Schemes are well formed, classes are declared wherever they are named, and constructors have the kinds of
the table everywhere. -/
structure Prelude.WellFormed (prelude : Prelude) : Prop where
  schemes : ∀ e ∈ prelude.typeEnv.entries, e.2.WellFormed
  contexts : ∀ e ∈ prelude.typeEnv.entries, ∀ p ∈ e.2.body.context,
    prelude.classEnv.isDefined p.className = true
  instances : ∀ i ∈ prelude.classEnv.instances, prelude.classEnv.Declares i
  superclasses : ∀ d ∈ prelude.classEnv.classes, ∀ c ∈ d.supers, prelude.classEnv.isDefined c = true
  constructors : ∀ t ∈ prelude.allTypes, ∀ c ∈ t.constructors, prelude.constructors.find? c.id = some c.kind
  arrow : prelude.constructors.find? "->" = some (.fn .star (.fn .star .star))
  list : prelude.constructors.find? "List" = some (.fn .star .star)

theorem Ordered.mem_of_mem_supers {classes : List ClassDecl} (h : Ordered classes) {d : ClassDecl}
    (hd : d ∈ classes) {c : String} (hc : c ∈ d.supers) : c ∈ classes.map ClassDecl.name := by
  induction classes with
  | nil => cases hd
  | cons d' older ih =>
    refine List.mem_cons_of_mem _ ?_
    rcases List.mem_cons.1 hd with rfl | hd
    · exact h.2.1 c hc
    · exact ih h.2.2 hd

namespace Config

variable {cons : Constructors} {config : Config} {prelude : Prelude}

/-- The invariant of declaring names. -/
theorem addBinding_declared {env : ClassEnv} {types types' : TypeEnv} {binding : String × String}
    (htypes : ∀ e ∈ types.entries, e.2.Declared cons env) (h : addBinding cons env types binding = .ok types') :
    ∀ e ∈ types'.entries, e.2.Declared cons env := by
  obtain ⟨q, hq, hcontext, rfl⟩ := addBinding_eq_ok_iff.1 h
  intro e he
  rcases NameMap.mem_insertEntry he with rfl | he
  · exact ⟨binding.2, q, hq, rfl, hcontext⟩
  · exact htypes e he

theorem defaultType_consFit (hcons : cons.HasBase) {src : String} {t : Ty} (h : defaultType cons src = .ok t) :
    t.ConsFit cons.find? := by
  obtain ⟨q, hq, h⟩ := bind_eq_ok.1 h
  rw [mapError_eq_ok] at hq
  obtain ⟨_, hfits⟩ := readQual_spelled hcons hq
  split at h
  · cases h
    exact (hfits q.head (List.mem_append_right _ (List.mem_singleton.2 rfl))).cons
  · cases h

/-- **Every prelude that could be built is well formed.** -/
theorem build_wellFormed (h : config.build = .ok prelude) : prelude.WellFormed := by
  have hsound := build_sound h
  obtain ⟨classes, env, defaults, hcons, hclasses, henv, hdefaults, hclassEnv, htypes⟩ := build_eq_ok_iff.1 h
  have hdeclared : ∀ e ∈ prelude.typeEnv.entries, e.2.Declared prelude.constructors prelude.classEnv :=
    foldlM_invariant (P := fun m : TypeEnv => ∀ e ∈ m.entries, e.2.Declared prelude.constructors prelude.classEnv)
      (fun m b m' hm hstep => addBinding_declared hm hstep) (fun e he => absurd he List.not_mem_nil) htypes
  constructor
  case schemes => exact fun e he => (hdeclared e he).wellFormed hsound.base
  case contexts =>
    intro e he
    obtain ⟨_, _, _, _, hcontext⟩ := hdeclared e he
    exact hcontext
  case instances =>
    obtain ⟨_, hempty⟩ := addClasses_reachable .empty hclasses
    obtain ⟨is, _, hdecls, _, rfl⟩ := (addInstances_iff_of_empty hsound.base hempty).1 henv
    rw [hclassEnv]
    exact fun i hi => hdecls i (List.mem_reverse.1 hi)
  case superclasses =>
    exact fun d hd c hc => ClassEnv.isDefined_iff.2 (hsound.reachable.ordered.mem_of_mem_supers hd hc)
  case constructors =>
    refine Prelude.forall_mem_allTypes.2
      ⟨fun e he => (hdeclared e he).consFit hsound.base, fun i hi t ht => ?_, fun t ht => ?_⟩
    · obtain ⟨_, hfits⟩ := hsound.instances i hi
      exact (hfits t ht).cons
    · rw [hclassEnv] at ht
      obtain ⟨src, _, hsrc⟩ := exists_of_mem_mapM hdefaults ht
      exact defaultType_consFit hsound.base hsrc
  case arrow => exact hsound.base.arrow
  case list => exact hsound.base.list

/-- The standard prelude is well formed, and has 38 names. -/
theorem build_wellFormed_standard :
    ∃ prelude, Prelude.standard = .ok prelude ∧ prelude.typeEnv.size = 38 ∧ prelude.WellFormed :=
  ⟨_, Prelude.standard_eq, by decide +kernel, build_wellFormed Prelude.standard_eq⟩

end Config

end QualifiedTypes
