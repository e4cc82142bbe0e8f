import QualifiedTypes.Infer.Rules
import QualifiedTypes.Prelude.Config
import QualifiedTypes.Signature.Resolve

/-!
# Preludes

A prelude is what expressions are checked against: a class environment, the schemes of the names in
scope, and the known type constructors.  It is built from its declarations in a fixed order: types,
classes, instances, defaults, bindings.  Types and bindings are taken in the order of their names.

* `Config.build` (in Conch, `build` of `PreludeConfig`) builds a prelude.
* `Config.checkClasses` (`check_classes`) refuses classes that are not declared.
-/

namespace QualifiedTypes

/-- The environments of a prelude. -/
structure Prelude where
  classEnv : ClassEnv
  typeEnv : TypeEnv
  constructors : Constructors
  deriving DecidableEq

/-- Why there is no prelude. -/
inductive PreludeError where
  /-- The document is no declaration of a prelude. -/
  | malformed
  | reservedType (name : String)
  | classEnv (cause : ClassEnvError)
  | badInstance (signature : String) (cause : SignatureError)
  | badBinding (name : String) (cause : SignatureError)
  | badDefault (signature : String) (cause : SignatureError)
  deriving DecidableEq

namespace PreludeError

/-- The wording of the error beneath, if there is one. -/
def source? : PreludeError → Option String
  | .malformed => none
  | .reservedType _ => none
  | .classEnv cause => some cause.message
  | .badInstance _ cause => some cause.message
  | .badBinding _ cause => some cause.message
  | .badDefault _ cause => some cause.message

/-- The wording of the error. -/
def message : PreludeError → String
  | .malformed => "failed to parse prelude"
  | .reservedType name => "type `" ++ name ++ "` is built in and cannot be redeclared"
  | .classEnv cause => cause.message
  | .badInstance signature cause => "in instance `" ++ signature ++ "`: " ++ cause.message
  | .badBinding name cause => "in signature of `" ++ name ++ "`: " ++ cause.message
  | .badDefault signature cause => "in default `" ++ signature ++ "`: " ++ cause.message

end PreludeError

namespace Config

/-- The constructor table of the declared types.  The built-in constructors stay as they are. -/
def constructors (config : Config) : Except PreludeError Constructors :=
  config.types.entries.foldlM
    (fun cons e =>
      if Constructors.base.contains e.1 then .error (.reservedType e.1)
      else .ok (cons.insert e.1 (.ofArity e.2)))
    Constructors.base

/-- Add the declared classes, in order. -/
def addClasses (env : ClassEnv) (classes : List ClassDecl) : Except PreludeError ClassEnv :=
  classes.foldlM (fun env d => (env.addClass d.name d.supers).mapError .classEnv) env

/-- Accept predicates whose classes are all declared. -/
def checkClasses (env : ClassEnv) (preds : List Pred) : Except PreludeError Unit :=
  match preds.find? fun p => !env.isDefined p.className with
  | some p => .error (.classEnv (.unknownClass p.className))
  | none => .ok ()

/-- Read an instance and add it. -/
def addInstance (cons : Constructors) (env : ClassEnv) (signature : String) :
    Except PreludeError ClassEnv := do
  let i ← (readInstance cons signature).mapError (.badInstance signature)
  checkClasses env i.context
  (env.addInstance i).mapError .classEnv

/-- Read a default type, which has no context. -/
def defaultType (cons : Constructors) (signature : String) : Except PreludeError Ty := do
  let q ← (readQual cons signature).mapError (.badDefault signature)
  if q.context.isEmpty then return q.head
  else throw (.badDefault signature ⟨.qualifiedDefault, 0⟩)

/-- Read the signature of a name and add it. -/
def addBinding (cons : Constructors) (classes : ClassEnv) (types : TypeEnv)
    (binding : String × String) : Except PreludeError TypeEnv := do
  let scheme ← (readScheme cons binding.2).mapError (.badBinding binding.1)
  checkClasses classes scheme.body.context
  return types.insert binding.1 scheme

/-- Build a prelude from its declarations. -/
def build (config : Config) : Except PreludeError Prelude := do
  let cons ← config.constructors
  let env ← addClasses .empty config.classes
  let env ← config.instances.foldlM (addInstance cons) env
  let defaults ← config.defaults.mapM (defaultType cons)
  let env := env.setDefaults defaults
  let types ← config.bindings.entries.foldlM (addBinding cons env) .empty
  return ⟨env, types, cons⟩

end Config

/-- Build a prelude from a document. -/
def Prelude.ofToml (src : String) : Except PreludeError Prelude :=
  match Config.ofToml? src with
  | some config => config.build
  | none => .error .malformed

end QualifiedTypes
