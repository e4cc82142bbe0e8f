import QualifiedTypes.NameMap
import QualifiedTypes.Scheme
import QualifiedTypes.Signature.Tree

/-!
# From signatures to types

Names that begin with a lower-case letter or an underscore are variables, all others are constructors or
classes.  A variable takes its kind from the number of arguments it is applied to, which has to be the
same wherever it stands.  A constructor takes its kind from a table.

* `Arities.note`, `SignatureTree.noteArities` (in Conch, `note_arity` and `collect_arities` of `Resolver`) count the
  arguments of variables.
* `SignatureTree.toTy`, `SignatureTree.proper`, `SignatureTree.toPred` (`ty`, `star_type` and `pred`) give types and
  predicates.
* `readQual` (`parse_qual_type`) reads a qualified type, `readScheme` (`parse_scheme`) quantifies it, `readInstance`
  (`parse_instance`) reads an instance.
-/

namespace QualifiedTypes

/-- The known constructors and their kinds. -/
abbrev Constructors := NameMap Kind

/-- The constructors that are always known. -/
def Constructors.base : Constructors :=
  .ofList [(TyCon.arrow.id, TyCon.arrow.kind), (TyCon.list.id, TyCon.list.kind)]

/-- Whether a name spells a variable. -/
def isVarName (name : String) : Bool :=
  match name.toList with
  | [] => false
  | c :: _ => Text.isLowercase c || c == '_'

/-- The number of arguments that each variable is applied to. -/
abbrev Arities := NameMap Nat

/-- Record that a variable is applied to a number of arguments. -/
def Arities.note (known : Arities) (name : String) (arity offset : Nat) :
    Except SignatureError Arities :=
  match known.find? name with
  | none => .ok (known.insert name arity)
  | some n => if n = arity then .ok known else .error ⟨.arityConflict name arity n, offset⟩

namespace SignatureTree

mutual

/-- Record the variables of a tree that is itself applied to `args` arguments. -/
def noteArities (known : Arities) (args : Nat) : SignatureTree → Except SignatureError Arities
  | .name s offset => if isVarName s then known.note s args offset else .ok known
  | .app fn arg => do
    let known ← fn.noteArities known (args + 1)
    arg.noteArities known 0
  | .arrow domain codomain => do
    let known ← domain.noteArities known 0
    codomain.noteArities known 0
  | .list elem _ => elem.noteArities known 0
  | .tuple items _ => noteAll known items

/-- Record the variables of some trees, from left to right. -/
def noteAll (known : Arities) : List SignatureTree → Except SignatureError Arities
  | [] => .ok known
  | tree :: rest => do
    let known ← tree.noteArities known 0
    noteAll known rest

end

/-- Accept a type that has values. -/
def proper (t : Ty) (offset : Nat) : Except SignatureError Ty :=
  if t.kind = .star then .ok t else .error ⟨.notProper t, offset⟩

/-- Apply one type to another that stands at an offset, if their kinds fit. -/
def applied (fn arg : Ty) (offset : Nat) : Except SignatureError Ty :=
  match fn.kind with
  | .star => .error ⟨.notConstructor fn, offset⟩
  | .fn expected _ =>
    if expected = arg.kind then .ok (.app fn arg)
    else .error ⟨.argumentKind fn expected arg, offset⟩

/-- The type that a tree spells. -/
def toTy (cons : Constructors) (arities : Arities) : SignatureTree → Except SignatureError Ty
  | .name s offset =>
    if isVarName s then .ok (.var ⟨s, .ofArity ((arities.find? s).getD 0)⟩)
    else match cons.find? s with
      | some kind => .ok (.con ⟨s, kind⟩)
      | none => .error ⟨.unknownConstructor s, offset⟩
  | .app fn arg => do
    let f ← fn.toTy cons arities
    let x ← arg.toTy cons arities
    applied f x arg.offset
  | .arrow domain codomain => do
    let d ← proper (← domain.toTy cons arities) domain.offset
    let r ← proper (← codomain.toTy cons arities) codomain.offset
    return .fn d r
  | .list elem _ => do
    let e ← proper (← elem.toTy cons arities) elem.offset
    return .list e
  | .tuple _ offset => .error ⟨.tupleType, offset⟩

/-- The predicate that a tree spells. -/
def toPred (cons : Constructors) (arities : Arities) : SignatureTree → Except SignatureError Pred
  | .app (.name s offset) arg =>
    if isVarName s then .error ⟨.expectedClassName, offset⟩
    else do return ⟨s, ← arg.toTy cons arities⟩
  | .app fn _ => .error ⟨.expectedClassName, fn.offset⟩
  | tree => .error ⟨.expectedConstraint, tree.offset⟩

end SignatureTree

namespace SignaturePhrase

/-- The number of arguments of each variable of a phrase. -/
def arities (phrase : SignaturePhrase) : Except SignatureError Arities :=
  SignatureTree.noteAll .empty (phrase.context ++ [phrase.head])

/-- The qualified type that a phrase spells. -/
def toQual (cons : Constructors) (phrase : SignaturePhrase) : Except SignatureError (Qual Ty) := do
  let arities ← phrase.arities
  let context ← phrase.context.mapM (SignatureTree.toPred cons arities)
  let head ← phrase.head.toTy cons arities
  return ⟨context, ← SignatureTree.proper head phrase.head.offset⟩

/-- The instance that a phrase spells. -/
def toInstance (cons : Constructors) (phrase : SignaturePhrase) : Except SignatureError Instance := do
  let arities ← phrase.arities
  let context ← phrase.context.mapM (SignatureTree.toPred cons arities)
  return ⟨context, ← phrase.head.toPred cons arities⟩

end SignaturePhrase

/-- Read a qualified type.  Its variables stay free. -/
def readQual (cons : Constructors) (src : String) : Except SignatureError (Qual Ty) := do
  (← SignaturePhrase.ofString src).toQual cons

/-- Read a qualified type and quantify all its variables. -/
def readScheme (cons : Constructors) (src : String) : Except SignatureError Scheme := do
  return .quantifyAll (← readQual cons src)

/-- Read an instance declaration. -/
def readInstance (cons : Constructors) (src : String) : Except SignatureError Instance := do
  (← SignaturePhrase.ofString src).toInstance cons

end QualifiedTypes
