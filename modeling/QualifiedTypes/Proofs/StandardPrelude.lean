import QualifiedTypes.Prelude.Standard
import QualifiedTypes.Proofs.Cut
import QualifiedTypes.Proofs.Declarations

/-!
# The standard prelude

The standard prelude is built from its declarations without an error, and its class environment is coherent.

* `Declarations.standard`: the phrases that the declarations of the standard prelude are the texts of.
* `Prelude.standard_eq`: **the standard prelude is what these declare.**
* `ClassEnv.entail_closed`: entailment is closed under superclasses and cut in coherent environments, such as
  that of the standard prelude.
-/

namespace QualifiedTypes

namespace Declarations

/-- A type without arguments. -/
def named (id : String) : Ty := .con ⟨id, .star⟩

/-- The type of patterns of `value`. -/
def pattern (value : Ty) : Ty := .app (.con ⟨"Pattern", .ofArity 1⟩) value

/-- The type of actions that result in `value`. -/
def io (value : Ty) : Ty := .app (.con ⟨"IO", .ofArity 1⟩) value

/-- The variable that the signatures of the standard prelude use. -/
def item : Ty := .var ⟨"a", .star⟩

/-- The instance of a class for a type on its own. -/
def plain (className id : String) : Instance := ⟨[], ⟨className, named id⟩⟩

/-- The instance that lifts a class from the items to a type of them. -/
def lifted (className : String) (of : Ty → Ty) : Instance := ⟨[⟨className, item⟩], ⟨className, of item⟩⟩

/-- The type of functions of two arguments. -/
def fn₂ (left right result : Ty) : Ty := .fn left (.fn right result)

/-- A type under a constraint on its variable. -/
def overloaded (className : String) (t : Ty) : Qual Ty := ⟨[⟨className, item⟩], t⟩

/-- The phrases that the declarations of the standard prelude are the texts of. -/
def standard : Declarations where
  defaults := [named "Number"]
  types := Config.standard.types
  classes := Config.standard.classes
  instances :=
    [plain "FromNumber" "Number", plain "FromNumber" "ID", lifted "FromNumber" pattern,
      plain "FromString" "String", plain "FromString" "ID", lifted "FromString" pattern,
      plain "Eq" "Number", plain "Eq" "String", plain "Eq" "Bool", lifted "Eq" .list,
      plain "Ord" "Number", plain "Ord" "String", lifted "Ord" .list,
      plain "Num" "Number", lifted "Num" pattern,
      plain "Fractional" "Number", lifted "Fractional" pattern,
      plain "Show" "Number", plain "Show" "String", plain "Show" "Bool"]
  bindings := .ofList <|
    ["+", "-", "*"].map (·, overloaded "Num" (fn₂ item item item)) ++
    [("/", overloaded "Fractional" (fn₂ item item item)), ("==", overloaded "Eq" (fn₂ item item (named "Bool"))),
      ("<", overloaded "Ord" (fn₂ item item (named "Bool"))), (">", overloaded "Ord" (fn₂ item item (named "Bool")))] ++
    Config.patternOperators.map (fun e => (e.1, overloaded "Num" (fn₂ (pattern item) (pattern item) (pattern item)))) ++
    [("#", ⟨[], fn₂ controls controls controls⟩), ("show", overloaded "Show" (.fn item (named "String"))),
      ("p", ⟨[], fn₂ (named "ID") controls action⟩)] ++
    Config.channels.map (fun e => (e.1, ⟨[], .fn controls action⟩)) ++
    [("hush", ⟨[], action⟩), ("s", ⟨[], .fn (pattern (named "String")) controls⟩),
      ("n", ⟨[], .fn numbers controls⟩), ("fast", ⟨[], fn₂ numbers (pattern item) (pattern item)⟩),
      ("slow", ⟨[], fn₂ numbers (pattern item) (pattern item)⟩), ("rev", ⟨[], .fn (pattern item) (pattern item)⟩),
      ("silence", ⟨[], pattern item⟩)]
where
  controls : Ty := pattern (named "Controls")
  numbers : Ty := pattern (named "Number")
  action : Ty := io (named "Unit")

theorem config_standard : standard.config = Config.standard := by decide +kernel

/-- The constructors of the standard prelude. -/
def standardConstructors : Constructors :=
  .ofList <| [("->", 2), ("List", 1), ("Number", 0), ("String", 0), ("Bool", 0), ("Unit", 0), ("ID", 0),
    ("Controls", 0), ("Pattern", 1), ("IO", 1)].map fun e => (e.1, .ofArity e.2)

/-- The classes of the standard prelude, before there are instances. -/
def standardClasses : ClassEnv := ⟨Config.standard.classes.reverse, [], []⟩

/-- The standard prelude, with its schemes and instances written out. -/
def standardPrelude : Prelude := standard.prelude standardConstructors standardClasses

theorem accepted_standard : standard.Accepted standardConstructors standardClasses where
  constructors := by decide +kernel
  classes := by decide +kernel
  defaults := by decide +kernel
  instances := by decide +kernel
  apart := Instance.apart_of_clear (by decide +kernel)
  bindings := by decide +kernel

end Declarations

/-- **The standard prelude is what its declarations say.** -/
theorem Prelude.standard_eq : Prelude.standard = .ok Declarations.standardPrelude := by
  rw [Prelude.standard, ← Declarations.config_standard]
  exact Declarations.build_config Declarations.accepted_standard

/-! ## Its classes -/

theorem Prelude.standard_coherent :
    ∃ prelude, Prelude.standard = .ok prelude ∧ prelude.classEnv.Coherent prelude.constructors.find? := by
  have hprelude := Config.build_sound Prelude.standard_eq
  refine ⟨_, Prelude.standard_eq, ⟨hprelude.reachable, hprelude.wellKinded, ?_⟩, ?_⟩
  · decide +kernel
  · decide +kernel

/-- **Entailment is closed under superclasses and under cut**, in every coherent environment and for predicates
without slots whose constructors have their kinds.  The environment of the standard prelude is coherent. -/
theorem ClassEnv.entail_closed :
    (∀ (con : String → Option Kind) (env : ClassEnv), env.Coherent con →
      (∀ (given : List Pred) (p q : Pred), p.ty.firstGen? = none ∧ p.ty.ConsFit con →
        env.entail given p = .done true → q ∈ env.bySuper p → env.entail given q = .done true) ∧
      ∀ (given ps : List Pred) (q : Pred), (∀ p ∈ ps, p.ty.firstGen? = none ∧ p.ty.ConsFit con) →
        q.ty.firstGen? = none ∧ q.ty.ConsFit con → (∀ p ∈ ps, env.entail given p = .done true) →
        env.entail ps q = .done true → env.entail given q = .done true) ∧
    ∃ prelude, Prelude.standard = .ok prelude ∧ prelude.classEnv.Coherent prelude.constructors.find? := by
  refine ⟨fun con env henv => ⟨fun given p q hp h hq => ?_, fun given ps q hps hq hgiven h => ?_⟩,
    Prelude.standard_coherent⟩
  · exact henv.entail_bySuper hp h hq
  · exact henv.entail_cut hps hq hgiven h

/-- In the standard prelude, ordered lists can be compared, and so can lists of them. -/
theorem ClassEnv.entail_closed_standard :
    ∃ prelude, Prelude.standard = .ok prelude ∧
      prelude.classEnv.entail [⟨"Ord", Declarations.item⟩] ⟨"Eq", .list Declarations.item⟩ = .done true ∧
      prelude.classEnv.entail [⟨"Ord", Declarations.item⟩] ⟨"Eq", .list (.list Declarations.item)⟩ =
        .done true := by
  obtain ⟨hclosed, prelude, hprelude, hcoherent⟩ := entail_closed
  obtain ⟨hsuper, hcut⟩ := hclosed _ _ hcoherent
  refine ⟨prelude, hprelude, ?_⟩
  rw [Prelude.standard_eq] at hprelude
  cases hprelude
  have hlist : Declarations.standardPrelude.classEnv.entail [⟨"Ord", Declarations.item⟩]
      ⟨"Ord", .list Declarations.item⟩ = .done true := by decide +kernel
  constructor
  · exact hsuper _ _ _ (by decide) hlist (by decide +kernel)
  · refine hcut _ [⟨"Ord", .list Declarations.item⟩] _ (by decide) (by decide) ?_ (by decide +kernel)
    exact List.forall_mem_singleton.2 hlist

end QualifiedTypes
