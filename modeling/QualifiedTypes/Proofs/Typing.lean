import QualifiedTypes.Infer.Rules
import QualifiedTypes.Proofs.Kinding

/-!
# Typing derivations

A typed expression is a derivation if the types at its nodes obey the rules: a literal has a type of the
class of strings or of numbers, a name has an instance of its scheme, and what is applied is a function
from the type of the argument to the type of the result.  `Typing env e ps` says that `e` is such a
derivation and that `ps` are the predicates that it rests on, in order.

The rules mention neither fresh variables nor substitutions.  Types may be built from any variables and
constructors; all that is asked is that types have the right kinds and that no slot is left in them.

* `TypedExpr.erase`: the expression that a derivation is about.
* `Scheme.FilledBy`: what may be put into the slots of a scheme.
* `Typing.literal`: the class that inference looks up for a literal is the one that the rules name.
* `Scheme.Closed`: a scheme without free variables, whose slots all have a kind.
-/

namespace QualifiedTypes

namespace TypedExpr

/-- The expression without its types. -/
def erase : TypedExpr → Expr
  | .literal token _ => .literal token
  | .name token _ => .name token
  | .grouping inner span => .grouping inner.erase span
  | .application func arg _ => .application func.erase arg.erase
  | .binary left operator _ right _ => .binary left.erase operator right.erase

@[simp] theorem erase_apply (s : Subst) (e : TypedExpr) : (s.apply e).erase = e.erase := by
  induction e with
  | literal token ty => rfl
  | name token ty => rfl
  | grouping inner span ih => rw [Subst.apply_grouping, erase, erase, ih]
  | application func arg ty ihf iha => rw [Subst.apply_application, erase, erase, ihf, iha]
  | binary left operator operatorTy right ty ihl ihr => rw [Subst.apply_binary, erase, erase, ihl, ihr]

@[simp] theorem ty_apply (s : Subst) (e : TypedExpr) : (s.apply e).ty = e.ty.subst s := by
  induction e with
  | grouping inner span ih => exact ih
  | _ => rfl

theorem ty_mem_types (e : TypedExpr) : e.ty ∈ types e := by
  induction e with
  | grouping inner span ih => exact ih
  | _ => simp [types, annotations, ty]

end TypedExpr

/-! ## The rules -/

/-- Types for the slots of a scheme: one of the right kind for each, without slots of their own. -/
structure Scheme.FilledBy (scheme : Scheme) (ts : List Ty) : Prop where
  kinds : ts.map Ty.kind = scheme.kinds
  slotFree : ∀ t ∈ ts, t.firstGen? = none

/-- `Typing env e ps`: the types of `e` obey the rules, and `ps` are the predicates that they rest on. -/
inductive Typing (env : TypeEnv) : TypedExpr → List Pred → Prop where
  /-- A string may have any type of class `FromString`. -/
  | stringLiteral {token : Token} {ty : Ty} (string : token.kind = .string) (slotFree : ty.firstGen? = none)
      (kind : ty.kind = .star) : Typing env (.literal token ty) [⟨"FromString", ty⟩]
  /-- Every other literal may have any type of class `FromNumber`. -/
  | numberLiteral {token : Token} {ty : Ty} (number : token.kind ≠ .string) (slotFree : ty.firstGen? = none)
      (kind : ty.kind = .star) : Typing env (.literal token ty) [⟨"FromNumber", ty⟩]
  /-- A name may have any instance of its scheme, under the same instance of the context. -/
  | name {token : Token} {scheme : Scheme} {ts : List Ty} (found : env.find? token.lexeme = some scheme)
      (filled : scheme.FilledBy ts) :
      Typing env (.name token (inst ts scheme.body).head) (inst ts scheme.body).context
  /-- A group stands for what it encloses. -/
  | grouping {inner : TypedExpr} {ps : List Pred} (span : Span) (typing : Typing env inner ps) :
      Typing env (.grouping inner span) ps
  /-- A function is applied to an argument of its domain. -/
  | application {func arg : TypedExpr} {ty : Ty} {ps qs : List Pred} (typingFunc : Typing env func ps)
      (typingArg : Typing env arg qs) (fits : func.ty = .fn arg.ty ty) (kind : ty.kind = .star) :
      Typing env (.application func arg ty) (ps ++ qs)
  /-- An operator is a function of two arguments. -/
  | binary {left right : TypedExpr} {operator : Token} {scheme : Scheme} {ts : List Ty} {ty : Ty}
      {ps qs : List Pred} (found : env.find? operator.lexeme = some scheme)
      (filled : scheme.FilledBy ts) (typingLeft : Typing env left ps) (typingRight : Typing env right qs)
      (fits : (inst ts scheme.body).head = .fn left.ty (.fn right.ty ty)) (kind : ty.kind = .star) :
      Typing env (.binary left operator (inst ts scheme.body).head right ty)
        ((inst ts scheme.body).context ++ ps ++ qs)

theorem literalClass_string {kind : TokenKind} (h : kind = .string) : literalClass kind = "FromString" := by
  rw [h, literalClass]

theorem literalClass_number {kind : TokenKind} (h : kind ≠ .string) : literalClass kind = "FromNumber" := by
  cases kind with
  | string => exact absurd rfl h
  | number | identifier | operator => rfl

/-- A literal may have any type of its class. -/
theorem Typing.literal {env : TypeEnv} (token : Token) {ty : Ty} (slotFree : ty.firstGen? = none)
    (kind : ty.kind = .star) : Typing env (.literal token ty) [⟨literalClass token.kind, ty⟩] := by
  by_cases h : token.kind = .string
  · rw [literalClass_string h]
    exact .stringLiteral h slotFree kind
  · rw [literalClass_number h]
    exact .numberLiteral h slotFree kind

/-! ## Schemes without free variables -/

namespace Ty

/-- The slots of a type, from left to right. -/
def slots : Ty → List Nat
  | .gen n => [n]
  | .app f x => f.slots ++ x.slots
  | _ => []

theorem slots_eq_nil_iff {t : Ty} : t.slots = [] ↔ t.firstGen? = none := by
  induction t with
  | app f x ihf ihx => rw [slots, List.append_eq_nil_iff, firstGen?_app, ihf, ihx]
  | _ => simp [slots, firstGen?]

/-- Types that fit, in slots that all are there, make a type that fits. -/
theorem fits_inst {K : KindTable} {ts : List Ty} {t : Ty} (hvars : t.occurrences = [])
    (hcons : t.ConsFit K.con) (hslots : ∀ i ∈ t.slots, i < ts.length) (hts : ∀ u ∈ ts, u.Fits K) :
    (t.inst ts).Fits K := by
  induction t with
  | var v => cases hvars
  | con c => exact fits_con.2 (consFit_con.1 hcons)
  | gen n =>
    have hn : n < ts.length := hslots n List.mem_cons_self
    rw [inst, List.getElem?_eq_getElem hn, Option.getD_some]
    exact hts _ (List.getElem_mem hn)
  | app f x ihf ihx =>
    rw [occurrences, List.append_eq_nil_iff] at hvars
    rw [consFit_app] at hcons
    simp only [slots, List.mem_append] at hslots
    exact fits_app.2 ⟨ihf hvars.1 hcons.1 fun i hi => hslots i (.inl hi),
      ihx hvars.2 hcons.2 fun i hi => hslots i (.inr hi)⟩

end Ty

/-- A scheme without free variables, whose slots have kinds and whose constructors are listed. -/
structure Scheme.Closed (con : String → Option Kind) (scheme : Scheme) : Prop where
  vars : ∀ t ∈ types scheme.body, t.occurrences = []
  cons : ∀ t ∈ types scheme.body, t.ConsFit con
  slots : ∀ t ∈ types scheme.body, ∀ i ∈ t.slots, i < scheme.kinds.length

/-- All schemes in scope are closed. -/
def TypeEnv.Closed (con : String → Option Kind) (env : TypeEnv) : Prop :=
  ∀ name scheme, env.find? name = some scheme → scheme.Closed con

theorem Scheme.Closed.fits {K : KindTable} {scheme : Scheme} (h : scheme.Closed K.con) {ts : List Ty}
    (hlength : ts.length = scheme.kinds.length) (hts : ∀ u ∈ ts, u.Fits K) :
    ∀ t ∈ types (inst ts scheme.body), t.Fits K := by
  intro t ht
  rw [inst, types_mapTypes, List.mem_map] at ht
  obtain ⟨u, hu, rfl⟩ := ht
  refine Ty.fits_inst (h.vars u hu) (h.cons u hu) ?_ hts
  rw [hlength]
  exact h.slots u hu

end QualifiedTypes
