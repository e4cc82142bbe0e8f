/-!
# Kinds

Kinds classify types: `*` is the kind of types that have values, and `k → k'` the kind of type
constructors from `k` to `k'`.
-/

namespace QualifiedTypes

/-- The kind of a type or type constructor. -/
inductive Kind where
  | star
  | fn (arg result : Kind)
  deriving DecidableEq, Inhabited

namespace Kind

/-- The kind `* -> ... -> *` of a constructor that takes `n` proper types. -/
def ofArity : Nat → Kind
  | 0 => .star
  | n + 1 => .fn .star (ofArity n)

/-- The kind of an application of a constructor of this kind.  A kind without arguments is its own
result. -/
def result : Kind → Kind
  | .star => .star
  | .fn _ result => result

/-- The written form.  Arrows associate to the right, so only a compound argument is put in
parentheses. -/
def text : Kind → String
  | .star => "*"
  | .fn arg result =>
    (match arg with
      | .star => arg.text
      | .fn _ _ => "(" ++ arg.text ++ ")") ++ " -> " ++ result.text

@[simp] theorem result_ofArity_succ (n : Nat) : (ofArity (n + 1)).result = ofArity n := rfl

end Kind

end QualifiedTypes
