import QualifiedTypes.Unify

/-!
# Class environments

A class environment records the declared classes with their direct superclasses, the instances, and the
default types.  Both lists hold the newest declaration first.  A class may name as superclasses only
classes declared before it, so the superclass relation has no cycles and `superclasses` can follow it by
recursion on the list of declarations.

In Conch, the operations are `add_class`, `add_instance` and `set_defaults` of `ClassEnv`, and `Pred.renameApart` is
`rename_apart`.

* `ClassEnv.addClass` and `ClassEnv.addInstance` are the only ways to extend an environment.
* `ClassEnv.addInstance` refuses an instance whose head has a common instance with an earlier head.
-/

namespace QualifiedTypes

/-- A class with its direct superclasses. -/
structure ClassDecl where
  name : String
  supers : List String
  deriving DecidableEq

/-- The declared classes and instances, newest first, and the default types. -/
structure ClassEnv where
  classes : List ClassDecl
  instances : List Instance
  defaults : List Ty
  deriving DecidableEq

/-- Why a declaration is refused. -/
inductive ClassEnvError where
  | classRedefinition (className : String)
  | undefinedSuperclass (className superclass : String)
  | unknownClass (className : String)
  | overlappingInstance (new existing : Pred)
  deriving DecidableEq

/-- The wording of a refusal. -/
def ClassEnvError.message : ClassEnvError → String
  | .classRedefinition c => "class `" ++ c ++ "` is already defined"
  | .undefinedSuperclass c s => "superclass `" ++ s ++ "` of `" ++ c ++ "` is not defined"
  | .unknownClass c => "no class `" ++ c ++ "` for instance"
  | .overlappingInstance new existing =>
    "instance `" ++ new.text ++ "` overlaps with `" ++ existing.text ++ "`"

/-- The variables of a predicate renamed to `%0`, `%1`, …, names that no signature can spell. -/
def Pred.renameApart (p : Pred) : Pred :=
  Subst.apply ⟨(freeVars p).mapIdx fun i v => (v, .var ⟨"%" ++ toString i, v.kind⟩)⟩ p

namespace ClassEnv

/-- The environment without declarations. -/
def empty : ClassEnv := ⟨[], [], []⟩

/-- The declaration of a class. -/
def find? (env : ClassEnv) (className : String) : Option ClassDecl :=
  env.classes.find? fun d => d.name == className

/-- Whether a class is declared. -/
def isDefined (env : ClassEnv) (className : String) : Bool :=
  env.classes.any fun d => d.name == className

/-- The direct superclasses of a class.  An undeclared class has none. -/
def supers (env : ClassEnv) (className : String) : List String :=
  match env.find? className with
  | some d => d.supers
  | none => []

/-- The instances of a class, newest first. -/
def instancesOf (env : ClassEnv) (className : String) : List Instance :=
  env.instances.filter fun i => i.head.className == className

/-- Replace the default types. -/
def setDefaults (env : ClassEnv) (defaults : List Ty) : ClassEnv := { env with defaults }

/-- Declare a class.  Its superclasses have to be declared already. -/
def addClass (env : ClassEnv) (name : String) (supers : List String) :
    Except ClassEnvError ClassEnv :=
  if env.isDefined name then .error (.classRedefinition name)
  else match supers.find? fun s => !env.isDefined s with
    | some missing => .error (.undefinedSuperclass name missing)
    | none => .ok { env with classes := ⟨name, supers⟩ :: env.classes }

/-- The newest instance whose head has a common instance with a predicate. -/
def overlapping? (env : ClassEnv) (head : Pred) : Option Instance :=
  env.instances.find? fun i => (unifyPred i.head head.renameApart).toBool

/-- Declare an instance of a declared class, unless it overlaps with one declared before. -/
def addInstance (env : ClassEnv) (new : Instance) : Except ClassEnvError ClassEnv :=
  if env.isDefined new.head.className then
    match env.overlapping? new.head with
    | some existing => .error (.overlappingInstance new.head existing.head)
    | none => .ok { env with instances := new :: env.instances }
  else .error (.unknownClass new.head.className)

end ClassEnv

end QualifiedTypes
