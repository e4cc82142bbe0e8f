import QualifiedTypes.Proofs.Agreement

/-!
# The order of instances

A step takes the newest instance that matches, and a new instance is compared with the older ones only.  Both
depend on the order of declarations by their form alone: heads that overlap are refused in either order, and
of heads that do not overlap at most one matches.

* `ClassEnv.byInst_eq_of_perm`: where heads do not overlap, a step does not depend on the order of instances.
* `Config.addInstances_iff`: a list of instances is accepted if each can be read, its classes are declared, and
  no two heads overlap.
* `Config.build_perm`: declaring instances in another order gives a prelude that checks alike, or again none.
-/

namespace QualifiedTypes

theorem Instance.Apart.perm {is js : List Instance} (h : Instance.Apart is) (hperm : is.Perm js) :
    Instance.Apart js :=
  (hperm.pairwise_iff fun hij hji => hij hji.symm).1 h

namespace ClassEnv

variable {con : String → Option Kind} {env env' : ClassEnv}

/-- **Where heads do not overlap, a step does not depend on the order of the instances.** -/
theorem byInst_eq_of_perm (hapart : Instance.Apart env.instances)
    (hkinded : ∀ i ∈ env.instances, Instance.WellKinded con i) (hperm : env.instances.Perm env'.instances)
    {p : Pred} (hp : p.ty.ConsFit con) : env.byInst p = env'.byInst p := by
  by_cases hex : ∃ i ∈ env.instances, ∃ context, Instance.answer p i = some context
  · obtain ⟨i, hi, context, hanswer⟩ := hex
    have hkinded' : ∀ j ∈ env'.instances, Instance.WellKinded con j := fun j hj =>
      hkinded j (hperm.mem_iff.2 hj)
    rw [byInst_of_answer hapart hkinded hi hp hanswer,
      byInst_of_answer (hapart.perm hperm) hkinded' (hperm.mem_iff.1 hi) hp hanswer]
  · have hnone : ∀ i ∈ env.instances, Instance.answer p i = none := fun i hi =>
      Option.eq_none_iff_forall_ne_some.2 fun context h => hex ⟨i, hi, context, h⟩
    have hnone' : ∀ i ∈ env'.instances, Instance.answer p i = none := fun i hi =>
      hnone i (hperm.mem_iff.2 hi)
    rw [byInst_eq_findSome?, byInst_eq_findSome?, List.findSome?_eq_none_iff.2 hnone,
      List.findSome?_eq_none_iff.2 hnone']

/-- The class of the instance and those of its context are declared. -/
def Declares (env : ClassEnv) (i : Instance) : Prop :=
  env.isDefined i.head.className = true ∧ ∀ q ∈ i.context, env.isDefined q.className = true

instance (env : ClassEnv) (i : Instance) : Decidable (env.Declares i) :=
  inferInstanceAs (Decidable (env.isDefined i.head.className = true ∧
    ∀ q ∈ i.context, env.isDefined q.className = true))

end ClassEnv

namespace Config

variable {cons : Constructors} {env env' : ClassEnv} {config : Config} {prelude : Prelude}

/-- An instance is accepted if it can be read, its classes are declared, and it overlaps with no other. -/
theorem addInstance_iff (hcons : cons.HasBase)
    (hkinded : ∀ i ∈ env.instances, Instance.WellKinded cons.find? i) {src : String} :
    addInstance cons env src = .ok env' ↔
      ∃ i, readInstance cons src = .ok i ∧ env.Declares i ∧
        (∀ j ∈ env.instances, ¬ i.head.Overlaps j.head) ∧
        env' = { env with instances := i :: env.instances } := by
  have hcheck : ∀ i, readInstance cons src = .ok i →
      (env.overlapping? i.head = none ↔ ∀ j ∈ env.instances, ¬ i.head.Overlaps j.head) := fun i hi =>
    ClassEnv.overlapping?_eq_none_iff (readInstance_spelled hcons hi).wellKinded.head
      (fun j hj => (hkinded j hj).head) fun j hj => (hkinded j hj).unreserved
  rw [addInstance_eq_ok_iff]
  constructor
  · rintro ⟨i, hi, hcontext, h⟩
    obtain ⟨hnone, henv⟩ := ClassEnv.addInstance_eq_ok h
    refine ⟨i, hi, ⟨?_, hcontext⟩, (hcheck i hi).1 hnone, henv⟩
    unfold ClassEnv.addInstance at h
    split at h
    · assumption
    · cases h
  · rintro ⟨i, hi, ⟨hhead, hcontext⟩, hapart, rfl⟩
    refine ⟨i, hi, hcontext, ?_⟩
    rw [ClassEnv.addInstance, if_pos hhead, (hcheck i hi).2 hapart]

/-- **Which lists of instances are accepted**: the order of declarations plays no part, except for the order
of the result. -/
theorem addInstances_iff (hcons : cons.HasBase) {srcs : List String}
    (hkinded : ∀ i ∈ env.instances, Instance.WellKinded cons.find? i)
    (hapart : Instance.Apart env.instances) :
    srcs.foldlM (addInstance cons) env = .ok env' ↔
      ∃ is, List.Forall₂ (fun src i => readInstance cons src = .ok i) srcs is ∧ (∀ i ∈ is, env.Declares i) ∧
        Instance.Apart (is.reverse ++ env.instances) ∧
        env' = { env with instances := is.reverse ++ env.instances } := by
  induction srcs generalizing env with
  | nil =>
    constructor
    · intro h
      cases h
      exact ⟨[], .nil, fun i hi => (nomatch hi), hapart, rfl⟩
    · rintro ⟨is, hread, _, _, rfl⟩
      cases hread
      rfl
  | cons src srcs ih =>
    rw [List.foldlM_cons, bind_eq_ok]
    constructor
    · rintro ⟨env₁, hadd, hrest⟩
      obtain ⟨i, hi, hdecl, hnew, rfl⟩ := (addInstance_iff hcons hkinded).1 hadd
      have hkinded₁ : ∀ j ∈ i :: env.instances, Instance.WellKinded cons.find? j :=
        List.forall_mem_cons.2 ⟨(readInstance_spelled hcons hi).wellKinded, hkinded⟩
      obtain ⟨is, hread, hdecls, hall, henv'⟩ :=
        (@ih { env with instances := i :: env.instances } hkinded₁
          (List.pairwise_cons.2 ⟨hnew, hapart⟩)).1 hrest
      refine ⟨i :: is, .cons hi hread, List.forall_mem_cons.2 ⟨hdecl, hdecls⟩, ?_⟩
      rw [List.reverse_cons, List.append_assoc, List.singleton_append]
      exact ⟨hall, henv'⟩
    · rintro ⟨is, hread, hdecls, hall, rfl⟩
      cases hread with
      | @cons _ i _ is hi hread =>
        have hrev : (i :: is).reverse ++ env.instances = is.reverse ++ i :: env.instances := by
          rw [List.reverse_cons, List.append_assoc, List.singleton_append]
        rw [hrev] at hall
        obtain ⟨hdecl, hdecls⟩ := List.forall_mem_cons.1 hdecls
        have hkinded₁ : ∀ j ∈ i :: env.instances, Instance.WellKinded cons.find? j :=
          List.forall_mem_cons.2 ⟨(readInstance_spelled hcons hi).wellKinded, hkinded⟩
        have hfirst : Instance.Apart (i :: env.instances) := (List.pairwise_append.1 hall).2.1
        refine ⟨_, (addInstance_iff hcons hkinded).2
          ⟨i, hi, hdecl, (List.pairwise_cons.1 hfirst).1, rfl⟩, ?_⟩
        exact (@ih { env with instances := i :: env.instances } hkinded₁ hfirst).2
          ⟨is, hread, hdecls, hall, by rw [hrev]⟩

theorem addInstances_iff_of_empty (hcons : cons.HasBase) {srcs : List String} (hempty : env.instances = []) :
    srcs.foldlM (addInstance cons) env = .ok env' ↔
      ∃ is, List.Forall₂ (fun src i => readInstance cons src = .ok i) srcs is ∧ (∀ i ∈ is, env.Declares i) ∧
        Instance.Apart is ∧ env' = { env with instances := is.reverse } := by
  have hkinded : ∀ i ∈ env.instances, Instance.WellKinded cons.find? i := by
    rw [hempty]
    exact fun i hi => nomatch hi
  have hapart : Instance.Apart env.instances := by
    rw [hempty]
    exact .nil
  rw [addInstances_iff hcons hkinded hapart, hempty]
  simp only [List.append_nil]
  refine exists_congr fun is => and_congr_right fun _ => and_congr_right fun _ => and_congr_left fun _ => ?_
  exact ⟨fun h => h.perm is.reverse_perm, fun h => h.perm is.reverse_perm.symm⟩

theorem addInstances_perm (hcons : cons.HasBase) {srcs srcs' : List String} (hperm : srcs.Perm srcs')
    (hempty : env.instances = []) (h : srcs.foldlM (addInstance cons) env = .ok env') :
    ∃ is, env'.instances.Perm is ∧
      srcs'.foldlM (addInstance cons) env = .ok { env' with instances := is } := by
  obtain ⟨is, hread, hdecls, hapart, rfl⟩ := (addInstances_iff_of_empty hcons hempty).1 h
  obtain ⟨is', hread', hperm'⟩ := List.perm_comp_forall₂ hperm.symm hread
  refine ⟨is'.reverse, is.reverse_perm.trans (hperm'.symm.trans is'.reverse_perm.symm), ?_⟩
  exact (addInstances_iff_of_empty hcons hempty).2
    ⟨is', hread', fun i hi => hdecls i (hperm'.mem_iff.1 hi), hapart.perm hperm'.symm, rfl⟩

/-- Another order of instances gives the same prelude, up to the order of its instances. -/
theorem exists_build_of_perm {instances : List String} (hperm : config.instances.Perm instances)
    (h : config.build = .ok prelude) :
    ∃ is, prelude.classEnv.instances.Perm is ∧
      { config with instances }.build =
        .ok { prelude with classEnv := { prelude.classEnv with instances := is } } := by
  obtain ⟨classes, env, defaults, hcons, hclasses, henv, hdefaults, hclassEnv, htypes⟩ := build_eq_ok_iff.1 h
  obtain ⟨_, hempty⟩ := addClasses_reachable .empty hclasses
  obtain ⟨is, hsame, henv'⟩ := addInstances_perm (constructors_hasBase hcons) hperm hempty henv
  refine ⟨is, hclassEnv ▸ hsame, build_eq_ok_iff.2 ⟨classes, _, defaults, hcons, hclasses, henv', hdefaults, ?_, ?_⟩⟩
  · rw [hclassEnv]
    rfl
  · -- the signatures of names depend on the classes, and not on the instances
    exact htypes

/-- **The order of instances does not matter.**  Either all orders of the same instances give a prelude or
none does.  Two such preludes take the same step from every predicate without slots whose constructors have
the kinds of the prelude, and have the same answer to every expression. -/
theorem build_perm {instances : List String} (hperm : config.instances.Perm instances) :
    ((∃ prelude, config.build = .ok prelude) ↔ ∃ prelude, { config with instances }.build = .ok prelude) ∧
    ∀ prelude prelude', config.build = .ok prelude → { config with instances }.build = .ok prelude' →
      (∀ p : Pred, p.ty.firstGen? = none → p.ty.ConsFit prelude.constructors.find? →
        prelude.classEnv.byInst p = prelude'.classEnv.byInst p) ∧
      ∀ e, prelude.check e = prelude'.check e := by
  refine ⟨⟨fun ⟨prelude, h⟩ => ?_, fun ⟨prelude, h⟩ => ?_⟩, fun prelude prelude' h h' => ?_⟩
  · obtain ⟨_, _, h'⟩ := exists_build_of_perm hperm h
    exact ⟨_, h'⟩
  · obtain ⟨_, _, h'⟩ := exists_build_of_perm hperm.symm h
    exact ⟨_, h'⟩
  · obtain ⟨is, hsame, hbuild⟩ := exists_build_of_perm hperm h
    rw [h'] at hbuild
    cases hbuild
    have hprelude := build_sound h
    have hstep : ∀ p : Pred, p.ty.ConsFit prelude.constructors.find? →
        prelude.classEnv.byInst p = { prelude.classEnv with instances := is }.byInst p := fun p hp =>
      ClassEnv.byInst_eq_of_perm (hprelude.reachable.apart hprelude.wellKinded) hprelude.wellKinded hsame hp
    refine ⟨fun p _ hp => hstep p hp, Prelude.check_congr hprelude rfl ⟨rfl, fun p hp => hstep p hp.2, ?_⟩⟩
    exact fun p context hp hcontext => ClassEnv.byInst_fits hprelude.wellKinded hcontext hp.2

end Config

/-! ## Two instances -/

/-- Lists of comparable items are comparable. -/
def eqList : Instance := ⟨[⟨"Eq", .var ⟨"a", .star⟩⟩], ⟨"Eq", .list (.var ⟨"a", .star⟩)⟩⟩

/-- The small prelude, with lists that can also be compared. -/
def Prelude.comparing : Prelude :=
  { Prelude.small with classEnv := { Prelude.small.classEnv with instances := [eqList, ordList] } }

theorem Config.build_comparing :
    { Config.small with instances := ["Ord a => Ord [a]", "Eq a => Eq [a]"] }.build = .ok Prelude.comparing := by
  have hread : readInstance .base "Eq a => Eq [a]" = .ok eqList := by cbv
  have hadd : addInstance .base Prelude.small.classEnv "Eq a => Eq [a]" = .ok Prelude.comparing.classEnv := by
    rw [addInstance, hread]
    rfl
  exact build_small_with (bind_eq_ok.2 ⟨_, addInstance_small, bind_eq_ok.2 ⟨_, hadd, rfl⟩⟩)

theorem Config.build_perm_comparing :
    ∃ prelude,
      { Config.small with instances := ["Eq a => Eq [a]", "Ord a => Ord [a]"] }.build = .ok prelude ∧
      prelude.classEnv.byInst ⟨"Ord", .list (.list (.var ⟨"x", .star⟩))⟩ =
        .ok [⟨"Ord", .list (.var ⟨"x", .star⟩)⟩] ∧
      ∀ e, prelude.check e = Prelude.comparing.check e := by
  have hperm : ["Ord a => Ord [a]", "Eq a => Eq [a]"].Perm ["Eq a => Eq [a]", "Ord a => Ord [a]"] := by decide
  have hsame := @build_perm { Config.small with instances := _ } _ hperm
  obtain ⟨prelude, hprelude⟩ := hsame.1.1 ⟨_, build_comparing⟩
  obtain ⟨hstep, hcheck⟩ := hsame.2 _ _ build_comparing hprelude
  refine ⟨prelude, hprelude, ?_, fun e => (hcheck e).symm⟩
  rw [← hstep _ rfl (by decide)]
  decide +kernel

end QualifiedTypes
