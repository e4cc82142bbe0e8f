import QualifiedTypes.Source.Span

/-!
# Tokens and expressions

The expressions that are type checked: literals, names, parenthesised groups, applications, binary
operators and assignments.  Every leaf is a token that remembers where it was read, so that
`Expr.span` can point at any expression.
-/

namespace QualifiedTypes

/-- What sort of token a lexeme is. -/
inductive TokenKind where
  | number
  | string
  | identifier
  | operator
  deriving DecidableEq

/-- A lexeme with its sort and place. -/
structure Token where
  kind : TokenKind
  lexeme : String
  span : Span
  deriving DecidableEq

/-- Expressions. -/
inductive Expr where
  | literal (token : Token)
  | name (token : Token)
  | grouping (inner : Expr) (span : Span)
  | application (func arg : Expr)
  | binary (left : Expr) (operator : Token) (right : Expr)
  | assignment (target : Token) (value : Expr)
  deriving DecidableEq

namespace Expr

/-- The text that an expression covers, from its first leaf to its last. -/
def span : Expr → Span
  | .literal token => token.span
  | .name token => token.span
  | .grouping _ span => span
  | .application func arg => func.span.merge arg.span
  | .binary left _ right => left.span.merge right.span
  | .assignment target value => target.span.merge value.span

/-- What a message calls an expression of this form. -/
def form : Expr → String
  | .literal token => match token.kind with
    | .string => "string literal"
    | _ => "numeric literal"
  | .name _ => "variable"
  | .grouping _ _ => "grouping"
  | .application _ _ => "application"
  | .binary _ _ _ => "binary operator"
  | .assignment _ _ => "assignment"

end Expr

/-- A program is a sequence of expression statements. -/
structure Program where
  statements : List Expr
  deriving DecidableEq

end QualifiedTypes
