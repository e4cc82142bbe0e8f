import Mathlib.Data.List.Basic
import QualifiedTypes.Proofs.Superclasses

/-!
# The hierarchy of classes

A class can name as superclasses only what was declared before it.  This one check, made when the class is
declared, keeps the hierarchy free of cycles whatever else is called, and so the walk to the superclasses needs
no record of the classes that it has seen.

* `ClassEnv.Call`, `ClassEnv.after`: sequences of calls, of which some may fail.
* `ClassEnv.reachable_iff`: they lead to the environments that declarations lead to.
* `rank`, `ClassEnv.Reachable.rank_lt`: superclasses have a smaller rank.
* `ClassEnv.Reachable.bySuper_eq`: the walk is the recursion over direct superclasses.
* `ClassEnv.bySuper_exact`: what holds of the hierarchy, and of the walk, after any calls.
-/

namespace QualifiedTypes

/-! ## Calls -/

namespace ClassEnv

/-- One call that may change an environment. -/
inductive Call where
  | addClass (name : String) (supers : List String)
  | addInstance (new : Instance)
  | setDefaults (defaults : List Ty)

/-- Make a call. -/
def Call.run (env : ClassEnv) : Call → Except ClassEnvError ClassEnv
  | .addClass name supers => env.addClass name supers
  | .addInstance new => env.addInstance new
  | .setDefaults defaults => .ok (env.setDefaults defaults)

/-- The environment after some calls.  One that fails changes nothing, and the next is made. -/
def after (env : ClassEnv) : List Call → ClassEnv
  | [] => env
  | c :: calls => ((c.run env).toOption.getD env).after calls

variable {env env' : ClassEnv}

theorem after_append (env : ClassEnv) (calls more : List Call) :
    env.after (calls ++ more) = (env.after calls).after more := by
  induction calls generalizing env with
  | nil => rfl
  | cons c calls ih => exact ih _

theorem after_cons_ok {c : Call} (h : c.run env = .ok env') (calls : List Call) :
    env.after (c :: calls) = env'.after calls := by
  rw [after, h]
  rfl

theorem after_cons_error {c : Call} {e : ClassEnvError} (h : c.run env = .error e) (calls : List Call) :
    env.after (c :: calls) = env.after calls := by
  rw [after, h]
  rfl

theorem Reachable.run {c : Call} (h : env.Reachable) (hrun : c.run env = .ok env') : env'.Reachable := by
  cases c with
  | addClass name supers => exact .addClass h hrun
  | addInstance new => exact .addInstance h hrun
  | setDefaults defaults =>
    cases hrun
    exact .setDefaults h defaults

theorem Reachable.after (h : env.Reachable) (calls : List Call) : (env.after calls).Reachable := by
  induction calls generalizing env with
  | nil => exact h
  | cons c calls ih =>
    cases hrun : c.run env with
    | error e =>
      rw [after_cons_error hrun]
      exact ih h
    | ok env' =>
      rw [after_cons_ok hrun]
      exact ih (h.run hrun)

/-- Calls lead to the environments that declarations lead to. -/
theorem reachable_iff : env.Reachable ↔ ∃ calls, empty.after calls = env := by
  constructor
  · intro h
    -- every declaration is one more call at the end
    have hcall : ∀ {env env' : ClassEnv} (c : Call), c.run env = .ok env' →
        (∃ calls, empty.after calls = env) → ∃ calls, empty.after calls = env' := by
      rintro env env' c hrun ⟨calls, rfl⟩
      exact ⟨calls ++ [c], by rw [after_append, after_cons_ok hrun]; rfl⟩
    induction h with
    | empty => exact ⟨[], rfl⟩
    | @addClass _ _ name supers _ added ih => exact hcall (.addClass name supers) added ih
    | @addInstance _ _ new _ added ih => exact hcall (.addInstance new) added ih
    | setDefaults _ defaults ih => exact hcall (.setDefaults defaults) rfl ih
  · rintro ⟨calls, rfl⟩
    exact Reachable.empty.after calls

end ClassEnv

/-! ## Ranks -/

/-- The number of declarations from that of a class to the oldest, and none for a class without declaration. -/
def rank : List ClassDecl → String → Nat
  | [], _ => 0
  | d :: older, c => if d.name = c then older.length + 1 else rank older c

theorem rank_le_length (classes : List ClassDecl) (c : String) : rank classes c ≤ classes.length := by
  induction classes with
  | nil => exact Nat.le_refl 0
  | cons d older ih =>
    rw [rank, List.length_cons]
    split <;> omega

theorem rank_cons_of_mem {d : ClassDecl} {older : List ClassDecl} (hnew : d.name ∉ older.map ClassDecl.name)
    {c : String} (hc : c ∈ older.map ClassDecl.name) : rank (d :: older) c = rank older c := by
  have hne : d.name ≠ c := fun he => hnew (he ▸ hc)
  rw [rank, if_neg hne]

/-- Superclasses are older. -/
theorem Ordered.rank_lt {classes : List ClassDecl} (h : Ordered classes) {c s : String}
    (hs : s ∈ supersIn classes c) : rank classes s < rank classes c := by
  induction classes with
  | nil => cases hs
  | cons d older ih =>
    obtain ⟨hnew, hsupers, holder⟩ := h
    by_cases hc : c = d.name
    · rw [hc, supersIn_cons_self] at hs
      have hle := rank_le_length older s
      rw [rank_cons_of_mem hnew (hsupers s hs), rank, if_pos hc.symm]
      omega
    · rw [supersIn_cons_of_ne hc] at hs
      rw [rank_cons_of_mem hnew (holder.mem_of_mem_supersIn hs), rank, if_neg (Ne.symm hc)]
      exact ih holder hs

/-! ## The recursion over direct superclasses -/

theorem superclasses_cons_of_ne {d : ClassDecl} {c : String} (h : c ≠ d.name) (older : List ClassDecl) :
    superclasses (d :: older) c = superclasses older c := by
  rw [superclasses, if_neg (Ne.symm h)]

/-- The walk through older and older declarations gives what the recursion over direct superclasses gives, in
which every superclass is looked for among all declarations. -/
theorem Ordered.superclasses_eq {classes : List ClassDecl} (h : Ordered classes) (c : String) :
    superclasses classes c = distinctOn id (c :: (supersIn classes c).flatMap (superclasses classes)) := by
  induction classes generalizing c with
  | nil => rfl
  | cons d older ih =>
    obtain ⟨hnew, hsupers, holder⟩ := h
    have hsame : ∀ s ∈ older.map ClassDecl.name, superclasses (d :: older) s = superclasses older s :=
      fun s hs => superclasses_cons_of_ne (fun he => hnew (he ▸ hs)) older
    by_cases hc : c = d.name
    · rw [superclasses, if_pos hc.symm, hc, supersIn_cons_self,
        List.flatMap_congr fun s hs => (hsame s (hsupers s hs)).symm]
    · rw [superclasses_cons_of_ne hc, ih holder, supersIn_cons_of_ne hc,
        List.flatMap_congr fun s hs => (hsame s (holder.mem_of_mem_supersIn hs)).symm]

namespace ClassEnv

variable {env : ClassEnv}

theorem Reachable.isDefined_of_mem_supers (h : env.Reachable) {c s : String} (hs : s ∈ env.supers c) :
    env.isDefined s = true :=
  isDefined_iff.2 (h.ordered.mem_of_mem_supersIn hs)

theorem Reachable.rank_lt (h : env.Reachable) {c s : String} (hs : s ∈ env.supers c) :
    rank env.classes s < rank env.classes c :=
  h.ordered.rank_lt hs

/-- Steps to superclasses do not come back. -/
theorem Reachable.rank_lt_of_transGen (h : env.Reachable) {c s : String}
    (hs : Relation.TransGen (fun c s => s ∈ env.supers c) c s) : rank env.classes s < rank env.classes c := by
  induction hs with
  | single hstep => exact h.rank_lt hstep
  | tail _ hstep ih => exact Nat.lt_trans (h.rank_lt hstep) ih

/-- The recursion over direct superclasses ends. -/
theorem Reachable.wellFounded_supers (h : env.Reachable) : WellFounded fun s c => s ∈ env.supers c :=
  Subrelation.wf h.rank_lt (measure (rank env.classes)).wf

/-- **The walk is the recursion over direct superclasses**, which keeps the first of equal predicates. -/
theorem Reachable.bySuper_eq (h : env.Reachable) (p : Pred) :
    env.bySuper p = distinctOn id (p :: (env.supers p.className).flatMap fun s => env.bySuper ⟨s, p.ty⟩) := by
  have hclasses : superclasses env.classes p.className =
      distinctOn id (p.className :: (env.supers p.className).flatMap (superclasses env.classes)) :=
    h.ordered.superclasses_eq p.className
  have hmap : ∀ l : List String,
      distinctOn id (l.map fun c => (⟨c, p.ty⟩ : Pred)) = (distinctOn id l).map fun c => ⟨c, p.ty⟩ :=
    fun l => distinctOn_map fun a _ b _ => by simp
  rw [bySuper, hclasses, ← hmap, List.map_cons, List.map_flatMap]
  rfl

theorem Reachable.nodup_bySuper (h : env.Reachable) (p : Pred) : (env.bySuper p).Nodup := by
  have hnodup := nodup_distinctOn id (p :: (env.supers p.className).flatMap fun s => env.bySuper ⟨s, p.ty⟩)
  rwa [List.map_id, ← h.bySuper_eq] at hnodup

/-- **The superclasses of a class are found, each once, and nothing else is.**  After any calls, of which some
may have failed, superclasses are declared, no number of steps to direct superclasses leads back to where it
began, and the recursion over them ends.  It gives the predicate that it started from, then those of all other
superclasses of its class, for the same type. -/
theorem bySuper_exact (calls : List Call) :
    let env := empty.after calls
    (∀ c e, c.run env = .error e → empty.after (calls ++ [c]) = env) ∧
    (∀ c, env.isDefined c = true → ∀ s ∈ env.supers c, env.isDefined s = true) ∧
    (∀ c, ¬ Relation.TransGen (fun c s => s ∈ env.supers c) c c) ∧
    (WellFounded fun s c => s ∈ env.supers c) ∧
    ∀ p : Pred,
      env.bySuper p = distinctOn id (p :: (env.supers p.className).flatMap fun s => env.bySuper ⟨s, p.ty⟩) ∧
      (env.bySuper p).head? = some p ∧ (env.bySuper p).Nodup ∧
      ∀ q, q ∈ env.bySuper p ↔ ∃ c, env.Implies p.className c ∧ q = ⟨c, p.ty⟩ := by
  intro env
  have hreach : env.Reachable := Reachable.empty.after calls
  refine ⟨fun c e herror => ?_, fun c _ s hs => hreach.isDefined_of_mem_supers hs,
    fun c hcycle => Nat.lt_irrefl _ (hreach.rank_lt_of_transGen hcycle), hreach.wellFounded_supers,
    fun p => ⟨hreach.bySuper_eq p, ?_, hreach.nodup_bySuper p, fun q => ?_⟩⟩
  · rw [after_append, after_cons_error herror]
    rfl
  · rw [hreach.bySuper_eq, distinctOn_cons, List.head?_cons]
  · rw [hreach.mem_bySuper]
    constructor
    · rintro ⟨hty, himplies⟩
      exact ⟨q.className, himplies, by rw [← hty]⟩
    · rintro ⟨c, himplies, rfl⟩
      exact ⟨rfl, himplies⟩

/-- Two classes with a common superclass, and one below both. -/
def diamond : List Call :=
  [.addClass "Eq" [], .addClass "Ord" ["Eq"], .addClass "Num" ["Eq"], .addClass "Real" ["Num", "Ord"]]

/-- The call that would close a cycle fails.  `Eq` is reached in two ways, and listed once. -/
theorem bySuper_exact_diamond :
    let env := empty.after diamond
    let p : Pred := ⟨"Real", .var ⟨"a", .star⟩⟩
    empty.after (diamond ++ [.addClass "Eq" ["Real"]]) = env ∧
    env.bySuper p = [p, ⟨"Num", p.ty⟩, ⟨"Eq", p.ty⟩, ⟨"Ord", p.ty⟩] ∧ (env.bySuper p).Nodup ∧
    env.Implies "Real" "Eq" ∧ ¬ Relation.TransGen (fun c s => s ∈ env.supers c) "Eq" "Eq" := by
  intro env p
  obtain ⟨hfailed, _, hacyclic, _, hbySuper⟩ := bySuper_exact diamond
  obtain ⟨_, _, hnodup, hmem⟩ := hbySuper p
  have hlist : env.bySuper p = [p, ⟨"Num", p.ty⟩, ⟨"Eq", p.ty⟩, ⟨"Ord", p.ty⟩] := by decide
  refine ⟨hfailed _ (.classRedefinition "Eq") rfl, hlist, hnodup, ?_, hacyclic "Eq"⟩
  obtain ⟨c, himplies, heq⟩ := (hmem ⟨"Eq", p.ty⟩).1 (by decide)
  cases heq
  exact himplies

end ClassEnv

end QualifiedTypes
