import Mathlib.Logic.Relation
import QualifiedTypes.Classes.Entail

/-!
# Superclasses

Class environments grow by declarations, and a class names only classes declared before it.  That is why
a walk through the declarations from the newest to the oldest finds all superclasses.

* `ClassEnv.Reachable`: the environments that declarations lead to.
* `ClassEnv.Implies`: zero or more steps from a class to a direct superclass.
* `ClassEnv.Reachable.mem_bySuper`: what a predicate implies is listed by `bySuper`, and nothing else is.
-/

namespace QualifiedTypes

/-- The environments that can be built by declarations. -/
inductive ClassEnv.Reachable : ClassEnv → Prop where
  | empty : Reachable .empty
  | addClass {env env' : ClassEnv} {name : String} {supers : List String} (reachable : Reachable env)
      (added : env.addClass name supers = .ok env') : Reachable env'
  | addInstance {env env' : ClassEnv} {new : Instance} (reachable : Reachable env)
      (added : env.addInstance new = .ok env') : Reachable env'
  | setDefaults {env : ClassEnv} (reachable : Reachable env) (defaults : List Ty) :
      Reachable (env.setDefaults defaults)

/-! ## Declarations in order -/

/-- Every class is declared once, and after its superclasses. -/
def Ordered : List ClassDecl → Prop
  | [] => True
  | d :: older => d.name ∉ older.map ClassDecl.name ∧ (∀ c ∈ d.supers, c ∈ older.map ClassDecl.name) ∧
    Ordered older

theorem ClassEnv.isDefined_iff {env : ClassEnv} {c : String} :
    env.isDefined c = true ↔ c ∈ env.classes.map ClassDecl.name := by
  simp [isDefined]

theorem ClassEnv.addClass_eq_ok {env env' : ClassEnv} {name : String} {supers : List String}
    (h : env.addClass name supers = .ok env') :
    name ∉ env.classes.map ClassDecl.name ∧ (∀ c ∈ supers, c ∈ env.classes.map ClassDecl.name) ∧
      env' = { env with classes := ⟨name, supers⟩ :: env.classes } := by
  unfold addClass at h
  split at h
  · cases h
  · rename_i hnew
    split at h
    · cases h
    · rename_i hsupers
      cases h
      refine ⟨fun hc => hnew (isDefined_iff.2 hc), fun c hc => isDefined_iff.1 ?_, rfl⟩
      simpa using List.find?_eq_none.1 hsupers c hc

theorem ClassEnv.addInstance_eq_ok {env env' : ClassEnv} {new : Instance}
    (h : env.addInstance new = .ok env') :
    env.overlapping? new.head = none ∧ env' = { env with instances := new :: env.instances } := by
  unfold addInstance at h
  split at h
  · split at h
    · cases h
    · rename_i hnone
      cases h
      exact ⟨hnone, rfl⟩
  · cases h

theorem ClassEnv.Reachable.ordered {env : ClassEnv} (h : env.Reachable) : Ordered env.classes := by
  induction h with
  | empty => trivial
  | addClass _ added ih =>
    obtain ⟨hnew, hsupers, rfl⟩ := addClass_eq_ok added
    exact ⟨hnew, hsupers, ih⟩
  | addInstance _ added ih =>
    obtain ⟨_, rfl⟩ := addInstance_eq_ok added
    exact ih
  | setDefaults _ defaults ih => exact ih

/-! ## The closure -/

/-- The direct superclasses of a class in a list of declarations. -/
def supersIn (classes : List ClassDecl) (c : String) : List String :=
  match classes.find? fun d => d.name == c with
  | some d => d.supers
  | none => []

theorem supersIn_cons_self (d : ClassDecl) (older : List ClassDecl) :
    supersIn (d :: older) d.name = d.supers := by
  rw [supersIn, List.find?_cons_of_pos (by simp)]

theorem supersIn_cons_of_ne {d : ClassDecl} {c : String} (h : c ≠ d.name) (older : List ClassDecl) :
    supersIn (d :: older) c = supersIn older c := by
  rw [supersIn, List.find?_cons_of_neg (by simpa using Ne.symm h), supersIn]

theorem Ordered.mem_of_mem_supersIn {classes : List ClassDecl} (h : Ordered classes) {c s : String}
    (hs : s ∈ supersIn classes c) : s ∈ classes.map ClassDecl.name := by
  induction classes with
  | nil => cases hs
  | cons d older ih =>
    obtain ⟨_, hsupers, holder⟩ := h
    refine List.mem_cons_of_mem _ ?_
    by_cases hc : c = d.name
    · rw [hc, supersIn_cons_self] at hs
      exact hsupers s hs
    · rw [supersIn_cons_of_ne hc] at hs
      exact ih holder hs

/-- From another class, the newest declaration is never reached. -/
theorem Ordered.reach_cons {d : ClassDecl} {older : List ClassDecl} (h : Ordered (d :: older))
    {c s : String} (hc : c ≠ d.name) :
    Relation.ReflTransGen (fun a b => b ∈ supersIn (d :: older) a) c s ↔
      Relation.ReflTransGen (fun a b => b ∈ supersIn older a) c s := by
  obtain ⟨hnew, _, holder⟩ := h
  -- along a path of older declarations the names stay different from the newest
  have hne : ∀ {s}, Relation.ReflTransGen (fun a b => b ∈ supersIn older a) c s → s ≠ d.name := by
    intro s hs
    cases hs with
    | refl => exact hc
    | tail _ hstep => exact fun he => hnew (he ▸ holder.mem_of_mem_supersIn hstep)
  constructor
  · intro hs
    induction hs with
    | refl => exact .refl
    | tail _ hstep ih => exact ih.tail (by rwa [supersIn_cons_of_ne (hne ih)] at hstep)
  · intro hs
    induction hs with
    | refl => exact .refl
    | tail hpath hstep ih => exact ih.tail (by rwa [supersIn_cons_of_ne (hne hpath)])

theorem mem_distinctOn_id {l : List String} {c : String} : c ∈ distinctOn id l ↔ c ∈ l := by
  have := mem_keys_distinctOn id (k := c) (l := l)
  rwa [List.map_id, List.map_id] at this

/-- The walk through the declarations finds what the superclass relation reaches. -/
theorem Ordered.mem_superclasses {classes : List ClassDecl} (h : Ordered classes) {c s : String} :
    s ∈ superclasses classes c ↔ Relation.ReflTransGen (fun a b => b ∈ supersIn classes a) c s := by
  induction classes generalizing c with
  | nil =>
    rw [superclasses, List.mem_singleton]
    constructor
    · rintro rfl
      exact .refl
    · intro hs
      rcases hs.cases_head with rfl | ⟨_, hstep, _⟩
      · rfl
      · cases hstep
  | cons d older ih =>
    rw [superclasses]
    by_cases hc : d.name = c
    · have hsuper : ∀ b ∈ d.supers, b ≠ d.name := fun b hb he => h.1 (he ▸ h.2.1 b hb)
      rw [if_pos hc, mem_distinctOn_id, List.mem_cons, List.mem_flatMap, ← hc,
        Relation.ReflTransGen.cases_head_iff, eq_comm, supersIn_cons_self]
      refine or_congr_right (exists_congr fun b => and_congr_right fun hb => ?_)
      rw [ih h.2.2, h.reach_cons (hsuper b hb)]
    · rw [if_neg hc, ih h.2.2, h.reach_cons (Ne.symm hc)]

namespace ClassEnv

/-- A class implies another if zero or more steps to direct superclasses lead from one to the other. -/
def Implies (env : ClassEnv) : String → String → Prop :=
  Relation.ReflTransGen fun c s => s ∈ env.supers c

/-- **What a predicate implies through superclasses is exactly what `bySuper` lists.** -/
theorem Reachable.mem_bySuper {env : ClassEnv} (h : env.Reachable) {p q : Pred} :
    q ∈ env.bySuper p ↔ q.ty = p.ty ∧ env.Implies p.className q.className := by
  have hiff : ∀ s, s ∈ superclasses env.classes p.className ↔ env.Implies p.className s :=
    fun s => h.ordered.mem_superclasses
  simp only [bySuper, List.mem_map, hiff]
  constructor
  · rintro ⟨s, hs, rfl⟩
    exact ⟨rfl, hs⟩
  · rintro ⟨hty, hs⟩
    exact ⟨q.className, hs, by rw [← hty]⟩

theorem Reachable.givenImplies_iff {env : ClassEnv} (h : env.Reachable) {given : List Pred} {p : Pred} :
    env.givenImplies given p = true ↔ ∃ q ∈ given, p.ty = q.ty ∧ env.Implies q.className p.className := by
  simp [givenImplies, h.mem_bySuper]

end ClassEnv

end QualifiedTypes
