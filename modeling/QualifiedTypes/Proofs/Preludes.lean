import Mathlib
import QualifiedTypes.Prelude.Build
import QualifiedTypes.Proofs.Spelling
import QualifiedTypes.Proofs.Superclasses
import QualifiedTypes.Proofs.Typing

/-!
# What a prelude guarantees

Signatures spell well-kinded types: each variable of a signature has one kind, and each constructor has the
kind that it was declared with.  A prelude that could be built is made from such types throughout.

* `spellingTable`: the variables and constructors that a signature can spell.
* `readQual_spelled`, `readInstance_spelled`: what is read from a signature fits such a table.
* `Scheme.quantifyAll_closed`: the scheme of a well-kinded type has no free variables and no loose slots.
* `Config.build_eq_ok_iff`: the steps of building a prelude.
* `Prelude.Sound`, `Config.build_sound`: what holds of every prelude that could be built.
-/

namespace QualifiedTypes

/-! ## Signatures -/

/-- What a signature can spell, with variables of these arities. -/
def spellingTable (cons : Constructors) (arities : Arities) : KindTable where
  var id := if isVarName id then some (.ofArity ((arities.find? id).getD 0)) else none
  con := cons.find?

theorem isVarName_of_spelled {cons : Constructors} {arities : Arities} {id : String} {k : Kind}
    (h : (spellingTable cons arities).var id = some k) : isVarName id = true := by
  unfold spellingTable at h
  dsimp only at h
  split at h
  · assumption
  · cases h

/-- The built-in constructors have their kinds. -/
structure Constructors.HasBase (cons : Constructors) : Prop where
  arrow : cons.find? TyCon.arrow.id = some TyCon.arrow.kind
  list : cons.find? TyCon.list.id = some TyCon.list.kind

variable {cons : Constructors} {arities : Arities}

namespace SignatureTree

/-- The type that a tree spells fits. -/
theorem Spells.fits (hcons : cons.HasBase) {tree : SignatureTree} {t : Ty} (h : Spells cons arities tree t) :
    t.Fits (spellingTable cons arities) := by
  induction h with
  | var offset name => exact Ty.fits_var.2 (if_pos name)
  | con offset name known => exact Ty.fits_con.2 known
  | app _ _ _ ihf ihx => exact Ty.fits_app.2 ⟨ihf, ihx⟩
  | arrow _ _ _ _ ihd ihc => exact Ty.Fits.fn hcons.arrow ihd ihc
  | list offset _ _ ih => exact Ty.fits_app.2 ⟨Ty.fits_con.2 hcons.list, ih⟩

end SignatureTree

/-- Every type of the phrase is one that a signature can spell. -/
def Spelled {α : Type} [HasTypes α] (cons : Constructors) (x : α) : Prop :=
  ∃ arities, ∀ t ∈ types x, t.Fits (spellingTable cons arities)

theorem readQual_spelled (hcons : cons.HasBase) {src : String} {q : Qual Ty}
    (h : readQual cons src = .ok q) : Spelled cons q := by
  obtain ⟨⟨arities, hspells⟩, _⟩ := readQual_spells h
  refine ⟨arities, fun t ht => ?_⟩
  obtain ⟨_, hspelled⟩ := hspells t ht
  exact hspelled.fits hcons

theorem readInstance_spelled (hcons : cons.HasBase) {src : String} {i : Instance}
    (h : readInstance cons src = .ok i) : Spelled cons i := by
  obtain ⟨arities, hspells⟩ := readInstance_spells h
  refine ⟨arities, fun t ht => ?_⟩
  obtain ⟨_, hspelled⟩ := hspells t ht
  exact hspelled.fits hcons

/-! ## Quantification -/

namespace Scheme

theorem lookup_slotsFor {vs : List TyVar} {id : String} (h : id ∈ vs.map TyVar.id) :
    ∃ n < vs.length, (slotsFor vs).lookup id = some (.gen n) := by
  obtain ⟨n, v, hv, _, hlook⟩ := Subst.lookup_mapIdx (f := fun i _ => .gen i) h
  exact ⟨n, (List.getElem?_eq_some_iff.1 hv).1, hlook⟩

/-- Where every variable is sent to one of `n` slots, slots and constructors are all that is left. -/
theorem subst_slots {s : Subst} {n : Nat} {t : Ty} (hslots : t.firstGen? = none)
    (h : ∀ v ∈ t.occurrences, ∃ i < n, s.lookup v.id = some (.gen i)) :
    (t.subst s).occurrences = [] ∧ (t.subst s).constructors = t.constructors ∧
      ∀ i ∈ (t.subst s).slots, i < n := by
  induction t with
  | var v =>
    obtain ⟨i, hi, hlook⟩ := h v List.mem_cons_self
    rw [Ty.subst_var_of_lookup hlook]
    exact ⟨rfl, rfl, fun j hj => List.mem_singleton.1 hj ▸ hi⟩
  | con c => exact ⟨rfl, rfl, fun i hi => nomatch hi⟩
  | gen m => cases hslots
  | app f x ihf ihx =>
    rw [Ty.firstGen?_app] at hslots
    obtain ⟨hf₁, hf₂, hf₃⟩ := ihf hslots.1 fun v hv => h v (List.mem_append_left _ hv)
    obtain ⟨hx₁, hx₂, hx₃⟩ := ihx hslots.2 fun v hv => h v (List.mem_append_right _ hv)
    refine ⟨?_, ?_, fun i hi => (List.mem_append.1 hi).elim (hf₃ i) (hx₃ i)⟩
    · rw [Ty.subst_app, Ty.occurrences, hf₁, hx₁, List.append_nil]
    · rw [Ty.subst_app, Ty.constructors, hf₂, hx₂, Ty.constructors]

theorem quantifyAll_eq (q : Qual Ty) :
    quantifyAll q = ⟨(freeVars q).map TyVar.kind, (slotsFor (freeVars q)).apply q⟩ := by
  have hbound : ((freeVars q).filter fun v => (freeVars q).any fun w => w.id == v.id) = freeVars q :=
    List.filter_eq_self.2 fun v hv => List.any_eq_true.2 ⟨v, hv, beq_self_eq_true _⟩
  rw [quantifyAll, quantify, hbound]

/-- **Quantifying all variables of a well-kinded type closes it.** -/
theorem quantifyAll_closed {K : KindTable} {q : Qual Ty} (h : ∀ t ∈ types q, t.Fits K) :
    (quantifyAll q).Closed K.con := by
  have hall : ∀ t ∈ types ((slotsFor (freeVars q)).apply q),
      t.occurrences = [] ∧ t.ConsFit K.con ∧ ∀ i ∈ t.slots, i < (freeVars q).length := by
    intro t ht
    rw [Subst.types_apply] at ht
    obtain ⟨u, hu, rfl⟩ := List.mem_map.1 ht
    obtain ⟨hvars, hcons, hslots⟩ := subst_slots (h u hu).slotFree fun v hv =>
      lookup_slotsFor (mem_ids_freeVars hu hv)
    refine ⟨hvars, fun c hc => ?_, hslots⟩
    rw [hcons] at hc
    exact (h u hu).cons c hc
  rw [quantifyAll_eq]
  refine ⟨fun t ht => (hall t ht).1, fun t ht => (hall t ht).2.1, fun t ht => ?_⟩
  rw [List.length_map]
  exact (hall t ht).2.2

end Scheme

/-! ## Preludes -/

/-- What holds of a prelude: constructors have one kind each, schemes are closed, classes and instances
were declared one after the other, and instances are well kinded. -/
structure Prelude.Sound (prelude : Prelude) : Prop where
  base : prelude.constructors.HasBase
  schemes : prelude.typeEnv.Closed prelude.constructors.find?
  reachable : prelude.classEnv.Reachable
  instances : ∀ i ∈ prelude.classEnv.instances, Spelled prelude.constructors i

namespace Config

/-- **Building a prelude, step by step.** -/
theorem build_eq_ok_iff {config : Config} {prelude : Prelude} :
    config.build = .ok prelude ↔ ∃ classes env defaults,
      config.constructors = .ok prelude.constructors ∧
      addClasses .empty config.classes = .ok classes ∧
      config.instances.foldlM (addInstance prelude.constructors) classes = .ok env ∧
      config.defaults.mapM (defaultType prelude.constructors) = .ok defaults ∧
      prelude.classEnv = env.setDefaults defaults ∧
      config.bindings.entries.foldlM (addBinding prelude.constructors prelude.classEnv) .empty =
        .ok prelude.typeEnv := by
  constructor
  · intro h
    obtain ⟨cons, hcons, h⟩ := bind_eq_ok.1 h
    obtain ⟨classes, hclasses, h⟩ := bind_eq_ok.1 h
    obtain ⟨env, henv, h⟩ := bind_eq_ok.1 h
    obtain ⟨defaults, hdefaults, h⟩ := bind_eq_ok.1 h
    obtain ⟨types, htypes, h⟩ := bind_eq_ok.1 h
    cases h
    exact ⟨classes, env, defaults, hcons, hclasses, henv, hdefaults, rfl, htypes⟩
  · rintro ⟨classes, env, defaults, hcons, hclasses, henv, hdefaults, hclassEnv, htypes⟩
    rw [hclassEnv] at htypes
    refine bind_eq_ok.2 ⟨_, hcons, bind_eq_ok.2 ⟨classes, hclasses, bind_eq_ok.2 ⟨env, henv, ?_⟩⟩⟩
    refine bind_eq_ok.2 ⟨defaults, hdefaults, bind_eq_ok.2 ⟨_, htypes, ?_⟩⟩
    rw [← hclassEnv]
    rfl

theorem checkClasses_eq_ok_iff {env : ClassEnv} {ps : List Pred} :
    checkClasses env ps = .ok () ↔ ∀ p ∈ ps, env.isDefined p.className = true := by
  unfold checkClasses
  split
  · rename_i p hp
    have hmem := List.mem_of_find?_eq_some hp
    have hnot := List.find?_some hp
    refine ⟨fun h => (nomatch h), fun h => ?_⟩
    rw [h p hmem] at hnot
    cases hnot
  · rename_i hnone
    simpa using hnone

theorem addInstance_eq_ok_iff {env env' : ClassEnv} {src : String} :
    addInstance cons env src = .ok env' ↔
      ∃ i, readInstance cons src = .ok i ∧ (∀ q ∈ i.context, env.isDefined q.className = true) ∧
        env.addInstance i = .ok env' := by
  constructor
  · intro h
    obtain ⟨i, hi, h⟩ := bind_eq_ok.1 h
    obtain ⟨_, hcontext, h⟩ := bind_eq_ok.1 h
    exact ⟨i, mapError_eq_ok.1 hi, checkClasses_eq_ok_iff.1 hcontext, mapError_eq_ok.1 h⟩
  · rintro ⟨i, hi, hcontext, h⟩
    exact bind_eq_ok.2 ⟨i, mapError_eq_ok.2 hi, bind_eq_ok.2 ⟨(), checkClasses_eq_ok_iff.2 hcontext,
      mapError_eq_ok.2 h⟩⟩

theorem addBinding_eq_ok_iff {env : ClassEnv} {types types' : TypeEnv} {binding : String × String} :
    addBinding cons env types binding = .ok types' ↔
      ∃ q, readQual cons binding.2 = .ok q ∧
        (∀ p ∈ (Scheme.quantifyAll q).body.context, env.isDefined p.className = true) ∧
        types' = types.insert binding.1 (.quantifyAll q) := by
  constructor
  · intro h
    obtain ⟨scheme, hscheme, h⟩ := bind_eq_ok.1 h
    obtain ⟨_, hcontext, h⟩ := bind_eq_ok.1 h
    cases h
    obtain ⟨q, hq, rfl⟩ := readScheme_eq_ok_iff.1 (mapError_eq_ok.1 hscheme)
    exact ⟨q, hq, checkClasses_eq_ok_iff.1 hcontext, rfl⟩
  · rintro ⟨q, hq, hcontext, rfl⟩
    have hscheme := readScheme_eq_ok_iff.2 ⟨q, hq, rfl⟩
    exact bind_eq_ok.2 ⟨_, mapError_eq_ok.2 hscheme, bind_eq_ok.2 ⟨(), checkClasses_eq_ok_iff.2 hcontext, rfl⟩⟩

theorem constructors_hasBase {config : Config} (h : config.constructors = .ok cons) : cons.HasBase := by
  refine foldlM_invariant (P := Constructors.HasBase) (fun cons e cons' hcons hstep => ?_)
    ⟨by decide, by decide⟩ h
  split at hstep
  · cases hstep
  · rename_i hnew
    cases hstep
    constructor
    · rw [NameMap.find?_insert_of_ne _ (fun he => hnew (by rw [← he]; decide)), hcons.arrow]
    · rw [NameMap.find?_insert_of_ne _ (fun he => hnew (by rw [← he]; decide)), hcons.list]

theorem addClasses_reachable {env env' : ClassEnv} {classes : List ClassDecl} (hr : env.Reachable)
    (h : addClasses env classes = .ok env') : env'.Reachable ∧ env'.instances = env.instances := by
  refine foldlM_invariant (P := fun e => e.Reachable ∧ e.instances = env.instances)
    (fun e d e' he hstep => ?_) ⟨hr, rfl⟩ h
  rw [mapError_eq_ok] at hstep
  refine ⟨.addClass he.1 hstep, ?_⟩
  obtain ⟨_, _, rfl⟩ := ClassEnv.addClass_eq_ok hstep
  exact he.2

/-- The invariant of declaring instances. -/
theorem addInstance_spelled (hcons : cons.HasBase) {env env' : ClassEnv} {src : String}
    (henv : env.Reachable ∧ ∀ i ∈ env.instances, Spelled cons i)
    (h : addInstance cons env src = .ok env') :
    env'.Reachable ∧ ∀ i ∈ env'.instances, Spelled cons i := by
  obtain ⟨new, hnew, _, h⟩ := addInstance_eq_ok_iff.1 h
  refine ⟨.addInstance henv.1 h, ?_⟩
  obtain ⟨_, rfl⟩ := ClassEnv.addInstance_eq_ok h
  intro i hi
  rcases List.mem_cons.1 hi with rfl | hi
  · exact readInstance_spelled hcons hnew
  · exact henv.2 i hi

/-- The invariant of declaring names. -/
theorem addBinding_closed (hcons : cons.HasBase) {env : ClassEnv} {types types' : TypeEnv}
    {binding : String × String} (htypes : types.Closed cons.find?)
    (h : addBinding cons env types binding = .ok types') : types'.Closed cons.find? := by
  obtain ⟨q, hq, _, rfl⟩ := addBinding_eq_ok_iff.1 h
  obtain ⟨arities, hfits⟩ := readQual_spelled hcons hq
  intro name scheme hfound
  by_cases hname : name = binding.1
  · rw [hname, NameMap.find?_insert_self] at hfound
    cases hfound
    exact Scheme.quantifyAll_closed hfits
  · rw [NameMap.find?_insert_of_ne _ hname] at hfound
    exact htypes name scheme hfound

/-- **A prelude that could be built is sound.** -/
theorem build_sound {config : Config} {prelude : Prelude} (h : config.build = .ok prelude) :
    prelude.Sound := by
  obtain ⟨classes, env, defaults, hcons, hclasses, henv, _, hclassEnv, htypes⟩ := build_eq_ok_iff.1 h
  have hbase := constructors_hasBase hcons
  obtain ⟨hreach, hnone⟩ := addClasses_reachable .empty hclasses
  have hinst : env.Reachable ∧ ∀ i ∈ env.instances, Spelled prelude.constructors i := by
    refine foldlM_invariant (P := fun e => e.Reachable ∧ ∀ i ∈ e.instances, Spelled prelude.constructors i)
      (fun e src e' he hstep => addInstance_spelled hbase he hstep) ⟨hreach, ?_⟩ henv
    intro i hi
    rw [hnone] at hi
    cases hi
  refine ⟨hbase, ?_, hclassEnv ▸ .setDefaults hinst.1 defaults, hclassEnv ▸ hinst.2⟩
  refine foldlM_invariant (P := TypeEnv.Closed prelude.constructors.find?)
    (fun e b e' he hstep => addBinding_closed hbase he hstep) ?_ htypes
  intro name scheme hfound
  cases hfound

end Config

/-! ## A small prelude -/

/-- Lists of ordered items are ordered. -/
def ordList : Instance := ⟨[⟨"Ord", .var ⟨"a", .star⟩⟩], ⟨"Ord", .list (.var ⟨"a", .star⟩)⟩⟩

/-- The scheme of `Ord a => a -> a -> a`. -/
def ordScheme : Scheme := ⟨[.star], [⟨"Ord", .gen 0⟩], .fn (.gen 0) (.fn (.gen 0) (.gen 0))⟩

/-- The scheme of `a -> [a]`. -/
def listScheme : Scheme := ⟨[.star], [], .fn (.gen 0) (.list (.gen 0))⟩

/-- Ordered items, the greater of two of them, and lists of one item. -/
def Config.small : Config where
  defaults := []
  types := .empty
  classes := [⟨"Eq", []⟩, ⟨"Ord", ["Eq"]⟩, ⟨"FromNumber", []⟩]
  instances := ["Ord a => Ord [a]"]
  bindings := ⟨[("++", "Ord a => a -> a -> a"), ("one", "a -> [a]")]⟩

/-- The prelude of these declarations. -/
def Prelude.small : Prelude where
  classEnv := ⟨[⟨"FromNumber", []⟩, ⟨"Ord", ["Eq"]⟩, ⟨"Eq", []⟩], [ordList], []⟩
  typeEnv := ⟨[("++", ordScheme), ("one", listScheme)]⟩
  constructors := .base

namespace Config

theorem addInstance_small :
    addInstance .base { Prelude.small.classEnv with instances := [] } "Ord a => Ord [a]" =
      .ok Prelude.small.classEnv := by
  have hread : readInstance .base "Ord a => Ord [a]" = .ok ordList := by cbv
  rw [addInstance, hread]
  rfl

theorem addBinding_small :
    addBinding .base Prelude.small.classEnv .empty ("++", "Ord a => a -> a -> a") =
      .ok ⟨[("++", ordScheme)]⟩ ∧
    addBinding .base Prelude.small.classEnv ⟨[("++", ordScheme)]⟩ ("one", "a -> [a]") =
      .ok Prelude.small.typeEnv := by
  have hord : readScheme .base "Ord a => a -> a -> a" = .ok ordScheme := by cbv
  have hlist : readScheme .base "a -> [a]" = .ok listScheme := by cbv
  rw [addBinding, addBinding, hord, hlist]
  exact ⟨rfl, rfl⟩

/-- The small prelude with other instances: the signatures of its names do not depend on them. -/
theorem build_small_with {srcs : List String} {is : List Instance}
    (h : srcs.foldlM (addInstance .base) { Prelude.small.classEnv with instances := [] } =
      .ok { Prelude.small.classEnv with instances := is }) :
    { small with instances := srcs }.build =
      .ok { Prelude.small with classEnv := { Prelude.small.classEnv with instances := is } } := by
  refine build_eq_ok_iff.2 ⟨{ Prelude.small.classEnv with instances := [] }, _, [], rfl, rfl, h, rfl, rfl, ?_⟩
  exact bind_eq_ok.2 ⟨_, addBinding_small.1, bind_eq_ok.2 ⟨_, addBinding_small.2, rfl⟩⟩

theorem build_small : small.build = .ok Prelude.small :=
  build_small_with (bind_eq_ok.2 ⟨_, addInstance_small, rfl⟩)

end Config

end QualifiedTypes
