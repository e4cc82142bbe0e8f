import QualifiedTypes.Display

/-!
# Faults in signatures

The causes for which a signature is refused, each with the byte offset that it points at: `SigError` of Conch.
-/

namespace QualifiedTypes

/-- What is wrong with a signature. -/
inductive SignatureFault where
  /-- A character that begins an arrow is not followed by `>`. -/
  | brokenArrow (c : Char)
  | unexpectedChar (c : Char)
  | expectedType
  /-- A group or list is not closed by this character. -/
  | expectedClosing (c : Char)
  | trailingInput
  | tupleType
  /-- A variable is applied to different numbers of arguments. -/
  | arityConflict (name : String) (arity known : Nat)
  | expectedClassName
  | expectedConstraint
  | unknownConstructor (name : String)
  /-- A constructor is applied to a type of the wrong kind. -/
  | argumentKind (fn : Ty) (expected : Kind) (arg : Ty)
  /-- A type without parameters is applied. -/
  | notConstructor (fn : Ty)
  /-- A constructor stands where a proper type is needed. -/
  | notProper (t : Ty)
  /-- A default type has a context. -/
  | qualifiedDefault
  deriving DecidableEq

namespace SignatureFault

/-- The wording of a fault. -/
def message : SignatureFault → String
  | brokenArrow c => "expected `" ++ String.singleton c ++ ">`"
  | unexpectedChar c => "unexpected character `" ++ String.singleton c ++ "`"
  | expectedType => "expected a type"
  | expectedClosing c => "expected `" ++ String.singleton c ++ "`"
  | trailingInput => "unexpected input after type"
  | tupleType => "tuple types are not supported"
  | arityConflict name arity known =>
    "type variable `" ++ name ++ "` is applied to " ++ toString arity ++
      " argument(s) here but " ++ toString known ++ " elsewhere"
  | expectedClassName => "expected a class name"
  | expectedConstraint => "expected a class constraint such as `Num a`"
  | unknownConstructor name => "unknown type constructor `" ++ name ++ "`"
  | argumentKind fn expected arg =>
    "`" ++ fn.text ++ "` expects an argument of kind `" ++ expected.text ++ "`, but `" ++ arg.text ++
      "` has kind `" ++ arg.kind.text ++ "`"
  | notConstructor fn => "`" ++ fn.text ++ "` is not a type constructor"
  | notProper t => "`" ++ t.text ++ "` has kind `" ++ t.kind.text ++ "`, expected `*`"
  | qualifiedDefault => "a default type cannot have a context"

end SignatureFault

/-- A fault at a byte offset of the signature. -/
structure SignatureError where
  fault : SignatureFault
  offset : Nat
  deriving DecidableEq

/-- The wording of a fault and its place. -/
def SignatureError.message (e : SignatureError) : String :=
  e.fault.message ++ " (at offset " ++ toString e.offset ++ ")"

end QualifiedTypes
