import QualifiedTypes.Scheme

/-!
# Written forms

The text of types, predicates, qualified types, schemes and substitutions.  Function types are written
with an infix arrow that associates to the right, lists in brackets, and every other application as a
head followed by its arguments.

* `slotName` (in Conch, `gen_name`) names a slot.
* `Ty.render` (`write_type`) writes a type for the position in which it stands.
* `contextText` (`write_context`) writes a context, and `Qual.textWith` puts it in front of a written head.
-/

namespace QualifiedTypes

/-- The name of the `n`th bound variable of a scheme: a letter, or `a` with the number from 26 on. -/
def slotName (n : Nat) : String :=
  if n < 26 then String.singleton (Char.ofNat ('a'.toNat + n)) else "a" ++ toString n

/-- Where a type stands in a larger text. -/
inductive Position where
  /-- On its own, or at the right of an arrow. -/
  | outer
  /-- As an argument: compound types need parentheses. -/
  | atom
  /-- At the left of an argument, within one spine. -/
  | operator
  deriving DecidableEq

namespace Position

/-- Parentheses around a compound text, where the position needs them. -/
def wrap : Position → String → String
  | .atom, s => "(" ++ s ++ ")"
  | _, s => s

end Position

namespace Ty

/-- The position of a type at the left of an arrow: only a function type needs parentheses there. -/
def domainPosition (t : Ty) : Position := if t.asFun?.isSome then .atom else .outer

/-- A type as text.  The shorthands for functions and lists are for whole spines, so within a spine
(`Position.operator`) the constructor is spelled out. -/
def render : Position → Ty → String
  | _, .var v => v.id
  | _, .con c => if c.id = TyCon.arrow.id then "(->)" else c.id
  | _, .gen n => slotName n
  | pos, .app f x =>
    match pos, f with
    | .operator, f => f.render .operator ++ " " ++ x.render .atom
    | pos, .con c =>
      if c.id = TyCon.list.id then "[" ++ x.render .outer ++ "]"
      else pos.wrap ((Ty.con c).render .operator ++ " " ++ x.render .atom)
    | pos, .app (.con c) d =>
      if c.id = TyCon.arrow.id then
        pos.wrap (d.render d.domainPosition ++ " -> " ++ x.render .outer)
      else pos.wrap ((Ty.app (.con c) d).render .operator ++ " " ++ x.render .atom)
    | pos, f => pos.wrap (f.render .operator ++ " " ++ x.render .atom)

/-- A type on its own as text. -/
def text (t : Ty) : String := t.render .outer

end Ty

/-- A predicate as text. -/
def Pred.text (p : Pred) : String := p.className ++ " " ++ p.ty.render .atom

/-- A context as text, with the double arrow that follows it.  The empty context is not written. -/
def contextText : List Pred → String
  | [] => ""
  | ps => "(" ++ ", ".intercalate (ps.map Pred.text) ++ ") => "

namespace Qual

/-- A qualified phrase as text, given a text for its head. -/
def textWith {α : Type} (headText : α → String) (q : Qual α) : String :=
  contextText q.context ++ headText q.head

/-- A qualified type as text. -/
def text (q : Qual Ty) : String := q.textWith Ty.text

/-- An instance declaration as text. -/
def instanceText (i : Instance) : String := i.textWith Pred.text

end Qual

/-- A scheme as text: its bound variables by name, then its body. -/
def Scheme.text (s : Scheme) : String :=
  if s.kinds.isEmpty then s.body.text
  else
    "forall " ++ " ".intercalate ((List.range s.kinds.length).map slotName) ++ ". " ++ s.body.text

/-- A substitution as text. -/
def Subst.text (s : Subst) : String :=
  "\x7b" ++ ", ".intercalate (s.bindings.map fun b => b.1.id ++ " := " ++ b.2.text) ++ "\x7d"

end QualifiedTypes
