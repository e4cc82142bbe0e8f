import QualifiedTypes.Proofs.InstanceOrder
import QualifiedTypes.Proofs.RoundTrip

/-!
# Declarations without their texts

To build a prelude is to read signatures.  Where the signatures are written forms of phrases, the prelude can be
told from the phrases, and no text has to be read to see what it is.

* `Pred.ClearOf`: a test for heads that do not overlap.
* `Declarations`: the declarations of a prelude, with phrases in the place of signatures.
* `Declarations.build_config`: **what can be spelled, and is declared in order, is built as it was declared.**
-/

namespace QualifiedTypes

/-! ## Heads that are clear of each other -/

theorem Ty.head_subst {t : Ty} (h : t.headedByVar = false) (s : Subst) : (t.subst s).head = t.head := by
  induction t with
  | var v => cases h
  | con c => rfl
  | gen n => rfl
  | app f x ihf _ => exact ihf h

namespace Pred

/-- The predicates are of different classes, or of types that begin with different constructors. -/
def ClearOf (p q : Pred) : Prop :=
  p.className ≠ q.className ∨
    p.ty.headedByVar = false ∧ q.ty.headedByVar = false ∧ p.ty.head ≠ q.ty.head

instance (p q : Pred) : Decidable (p.ClearOf q) :=
  inferInstanceAs (Decidable (p.className ≠ q.className ∨
    p.ty.headedByVar = false ∧ q.ty.headedByVar = false ∧ p.ty.head ≠ q.ty.head))

theorem ClearOf.not_overlaps {p q : Pred} (h : p.ClearOf q) : ¬p.Overlaps q := by
  rintro ⟨s₁, s₂, _, _, heq⟩
  rw [Subst.apply_pred, Subst.apply_pred, Pred.mk.injEq] at heq
  rcases h with hclass | ⟨hp, hq, hhead⟩
  · exact hclass heq.1
  · have heads := congrArg Ty.head heq.2
    rw [Ty.head_subst hp, Ty.head_subst hq] at heads
    exact hhead heads

end Pred

theorem Instance.apart_of_clear {is : List Instance} (h : is.Pairwise fun i j => i.head.ClearOf j.head) :
    Instance.Apart is :=
  h.imp Pred.ClearOf.not_overlaps

/-! ## Phrases as signatures -/

namespace Qual

/-- A qualified type as a signature. -/
def signature (q : Qual Ty) : String := contextSignature q.context ++ q.head.text

/-- An instance as a signature. -/
def instanceSignature (i : Instance) : String := contextSignature i.context ++ i.head.text

end Qual

/-- What a prelude declares, with phrases in the place of signatures. -/
structure Declarations where
  defaults : List Ty
  types : NameMap Nat
  classes : List ClassDecl
  instances : List Instance
  bindings : NameMap (Qual Ty)

namespace Declarations

variable {decls : Declarations} {cons : Constructors} {env : ClassEnv}

/-- The declarations as text. -/
def config (decls : Declarations) : Config where
  defaults := decls.defaults.map Ty.text
  types := decls.types
  classes := decls.classes
  instances := decls.instances.map Qual.instanceSignature
  bindings := ⟨decls.bindings.entries.map fun b => (b.1, b.2.signature)⟩

/-- The prelude that is declared, given its constructors and an environment of its classes. -/
def prelude (decls : Declarations) (cons : Constructors) (env : ClassEnv) : Prelude where
  classEnv := { env with instances := decls.instances.reverse, defaults := decls.defaults }
  typeEnv := .ofList (decls.bindings.entries.map fun b => (b.1, .quantifyAll b.2))
  constructors := cons

/-- The declarations are in order: constructors and classes can be added, every phrase can be spelled, its
classes are declared, and no two instances overlap. -/
structure Accepted (decls : Declarations) (cons : Constructors) (env : ClassEnv) : Prop where
  constructors : decls.config.constructors = .ok cons
  classes : Config.addClasses .empty decls.classes = .ok env
  defaults : ∀ t ∈ decls.defaults, Qual.Spellable cons ⟨[], t⟩
  instances : ∀ i ∈ decls.instances, Instance.Spellable cons i ∧ env.Declares i
  apart : Instance.Apart decls.instances
  bindings : ∀ b ∈ decls.bindings.entries,
    Qual.Spellable cons b.2 ∧ ∀ p ∈ b.2.context, env.isDefined p.className = true

namespace Accepted

theorem base (h : decls.Accepted cons env) : cons.HasBase := Config.constructors_hasBase h.constructors

theorem reservesList (h : decls.Accepted cons env) : cons.ReservesList :=
  fun _ hk => Option.some.inj (hk.symm.trans h.base.list)

/-- The instances are added. -/
theorem addInstances (h : decls.Accepted cons env) :
    (decls.instances.map Qual.instanceSignature).foldlM (Config.addInstance cons) env =
      .ok { env with instances := decls.instances.reverse } := by
  obtain ⟨_, hempty⟩ := Config.addClasses_reachable .empty h.classes
  refine (Config.addInstances_iff_of_empty h.base hempty).2
    ⟨decls.instances, ?_, fun i hi => (h.instances i hi).2, h.apart, rfl⟩
  rw [List.forall₂_map_left_iff, List.forall₂_same]
  exact fun i hi => readInstance_written writesContexts_contextSignature h.reservesList (h.instances i hi).1

/-- The defaults are read. -/
theorem readDefaults (h : decls.Accepted cons env) :
    (decls.defaults.map Ty.text).mapM (Config.defaultType cons) = .ok decls.defaults := by
  rw [mapM_eq_ok_iff, List.forall₂_map_left_iff, List.forall₂_same]
  intro t ht
  have hread : readQual cons t.text = .ok ⟨[], t⟩ := by
    have htext := readQual_text h.reservesList (h.defaults t ht)
    rwa [Qual.text, Qual.textWith, contextText, String.empty_append] at htext
  exact bind_eq_ok.2 ⟨_, mapError_eq_ok.2 hread, rfl⟩

/-- A name is added with the scheme of its type. -/
theorem addBinding (h : decls.Accepted cons env) {b : String × Qual Ty} (hb : b ∈ decls.bindings.entries)
    (types : TypeEnv) :
    Config.addBinding cons (decls.prelude cons env).classEnv types (b.1, b.2.signature) =
      .ok (types.insert b.1 (.quantifyAll b.2)) := by
  obtain ⟨hspellable, hdefined⟩ := h.bindings b hb
  have hread := readQual_written writesContexts_contextSignature h.reservesList hspellable
  refine Config.addBinding_eq_ok_iff.2 ⟨b.2, hread, fun p hp => ?_, rfl⟩
  rw [Scheme.quantifyAll_eq] at hp
  obtain ⟨q, hq, rfl⟩ := List.mem_map.1 hp
  exact hdefined q hq

/-- Names are added one after the other. -/
theorem addBindings (h : decls.Accepted cons env) {bs : List (String × Qual Ty)}
    (hbs : ∀ b ∈ bs, b ∈ decls.bindings.entries) (types : TypeEnv) :
    (bs.map fun b => (b.1, b.2.signature)).foldlM (Config.addBinding cons (decls.prelude cons env).classEnv)
        types =
      .ok ((bs.map fun b => (b.1, Scheme.quantifyAll b.2)).foldl (fun m e => m.insert e.1 e.2) types) := by
  induction bs generalizing types with
  | nil => rfl
  | cons b bs ih =>
    obtain ⟨hb, hbs⟩ := List.forall_mem_cons.1 hbs
    exact bind_eq_ok.2 ⟨_, h.addBinding hb types, ih hbs _⟩

end Accepted

/-- **What can be spelled, and is declared in order, is built as it was declared.** -/
theorem build_config (h : decls.Accepted cons env) : decls.config.build = .ok (decls.prelude cons env) :=
  Config.build_eq_ok_iff.2 ⟨env, _, decls.defaults, h.constructors, h.classes, h.addInstances, h.readDefaults,
    rfl, h.addBindings (fun _ hb => hb) .empty⟩

end Declarations

end QualifiedTypes
