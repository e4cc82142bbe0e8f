import QualifiedTypes.Proofs.Spellable
import QualifiedTypes.Proofs.WellKinded

/-!
# The kinds in what signatures spell

A signature does not mention kinds.  Those of its constructors come from the table, or from the arrows and brackets
that stand for them, and those of its variables from the number of their arguments.  The table can hold any kinds,
also of constructors that take constructors, and it can even list `List` with a kind that brackets do not have.

* `SignatureTree.writings`: the places where a tree writes a constructor.
* `Writes`: which constructor is written there, with its kind.
* `KindsFrom`: the kinds of a whole phrase, given where its constructors are written.
* `signature_kinds`: **what is read is well kinded, with the kinds that its spelling gives.**
-/

namespace QualifiedTypes

variable {cons : Constructors} {arities : Arities}

/-! ## Where constructors are written -/

/-- How a signature writes a constructor: by name, by an arrow, or by the brackets of a list. -/
inductive Writing where
  | named (s : String)
  | arrow
  | brackets
  deriving DecidableEq

/-- The constructor that is written.  Only one that is written by name has its kind from the table. -/
inductive Writes (cons : Constructors) : Writing → TyCon → Prop where
  | named {s : String} {k : Kind} (known : cons.find? s = some k) : Writes cons (.named s) ⟨s, k⟩
  | arrow : Writes cons .arrow ⟨"->", .ofArity 2⟩
  | brackets : Writes cons .brackets ⟨"List", .ofArity 1⟩

namespace SignatureTree

/-- The places where a tree writes a constructor, from left to right, but an arrow before both of its sides.  No
type is spelled by a tuple. -/
def writings : SignatureTree → List Writing
  | .name s _ => if isVarName s then [] else [.named s]
  | .app fn arg => fn.writings ++ arg.writings
  | .arrow domain codomain => .arrow :: (domain.writings ++ codomain.writings)
  | .list elem _ => .brackets :: elem.writings
  | .tuple _ _ => []

/-- The places in a constraint: the class in front of the type is not a constructor. -/
def constraintWritings : SignatureTree → List Writing
  | .app _ arg => arg.writings
  | _ => []

theorem Spells.writings {tree : SignatureTree} {t : Ty} (h : Spells cons arities tree t) :
    List.Forall₂ (Writes cons) tree.writings t.constructors := by
  induction h with
  | var offset name =>
    rw [SignatureTree.writings, if_pos name]
    exact .nil
  | con offset name known =>
    rw [SignatureTree.writings, if_neg (by rw [name]; decide)]
    exact .cons (.named known) .nil
  | app _ _ _ ihf ihx => exact List.rel_append ihf ihx
  | arrow _ _ _ _ ihd ihc => exact .cons .arrow (List.rel_append ihd ihc)
  | list offset _ _ ih => exact .cons .brackets ih

theorem SpellsPred.writings {tree : SignatureTree} {p : Pred} (h : SpellsPred cons arities tree p) :
    List.Forall₂ (Writes cons) tree.constraintWritings p.ty.constructors := by
  cases h with
  | intro offset name spells => exact spells.writings

end SignatureTree

open SignatureTree

namespace SignaturePhrase

/-- The places in a signature with a type under its context. -/
def qualWritings (phrase : SignaturePhrase) : List Writing :=
  phrase.context.flatMap constraintWritings ++ phrase.head.writings

/-- The places in a signature with a constraint under its context. -/
def instanceWritings (phrase : SignaturePhrase) : List Writing :=
  phrase.context.flatMap constraintWritings ++ phrase.head.constraintWritings

/-- The constructors of what a phrase spells are written by its context, and then by its head. -/
theorem forall₂_writes {α : Type} [HasTypes α] {phrase : SignaturePhrase} {q : Qual α} {headWritings : List Writing}
    (hcontext : List.Forall₂ (SpellsPred cons arities) phrase.context q.context)
    (hhead : List.Forall₂ (Writes cons) headWritings (constructors q.head)) :
    List.Forall₂ (Writes cons) (phrase.context.flatMap constraintWritings ++ headWritings) (constructors q) := by
  have hpreds : List.Forall₂ (Writes cons) (phrase.context.flatMap constraintWritings) (constructors q.context) := by
    unfold constructors
    rw [types_context, List.flatMap_map]
    exact List.rel_flatMap hcontext fun _ _ hp => hp.writings
  have hparts : constructors q = constructors q.context ++ constructors q.head := List.flatMap_append
  rw [hparts]
  exact List.rel_append hpreds hhead

end SignaturePhrase

/-! ## Whole signatures -/

/-- The kinds of a phrase whose constructors are written in these places: arguments have the kinds that are asked
for, each variable has one kind, by the number of its arguments, and constructors have the kinds that are written. -/
structure KindsFrom {α : Type} [HasTypes α] (cons : Constructors) (writings : List Writing) (x : α) : Prop where
  applied : ∀ t ∈ types x, t.WellKinded
  vars : UsesAgree x
  cons : List.Forall₂ (Writes cons) writings (constructors x)

theorem readQual_kindsFrom {src : String} {q : Qual Ty} (h : readQual cons src = .ok q) :
    ∃ phrase, SignaturePhrase.ofString src = .ok phrase ∧ KindsFrom cons phrase.qualWritings q := by
  obtain ⟨phrase, arities, hphrase, _, hcontext, hhead, _⟩ := readQual_eq_ok_iff.1 h
  have hwrites : List.Forall₂ (Writes cons) phrase.head.writings (constructors q.head) := by
    have hone : constructors q.head = q.head.constructors := List.append_nil _
    rw [hone]
    exact hhead.writings
  exact ⟨phrase, hphrase, readQual_wellKinded h, (readQual_spellable h).uses,
    SignaturePhrase.forall₂_writes hcontext hwrites⟩

theorem readInstance_kindsFrom {src : String} {i : Instance} (h : readInstance cons src = .ok i) :
    ∃ phrase, SignaturePhrase.ofString src = .ok phrase ∧ KindsFrom cons phrase.instanceWritings i := by
  obtain ⟨phrase, arities, hphrase, _, hcontext, hhead⟩ := readInstance_eq_ok_iff.1 h
  have hwrites : List.Forall₂ (Writes cons) phrase.head.constraintWritings (constructors i.head) := by
    have hone : constructors i.head = i.head.ty.constructors := List.append_nil _
    rw [hone]
    exact hhead.writings
  exact ⟨phrase, hphrase, readInstance_wellKinded h, (readInstance_spellable h).uses,
    SignaturePhrase.forall₂_writes hcontext hwrites⟩

/-- **What is read is well kinded, with the kinds that its spelling gives.**  A qualified type is moreover a proper
type, while the head of an instance can have any kind. -/
theorem signature_kinds (cons : Constructors) (src : String) :
    (∀ q, readQual cons src = .ok q → q.head.kind = .star ∧
      ∃ phrase, SignaturePhrase.ofString src = .ok phrase ∧ KindsFrom cons phrase.qualWritings q) ∧
    ∀ i, readInstance cons src = .ok i →
      ∃ phrase, SignaturePhrase.ofString src = .ok phrase ∧ KindsFrom cons phrase.instanceWritings i :=
  ⟨fun _ hq => ⟨(readQual_spellable hq).kind, readQual_kindsFrom hq⟩, fun _ hi => readInstance_kindsFrom hi⟩

/-- A table with constructors that take constructors, and with a `List` that takes two types. -/
def higherOrderTable : Constructors :=
  .ofList [("Fix", .fn (.ofArity 1) .star), ("Int", .star), ("Lift", .fn .star (.fn (.ofArity 1) .star)),
    ("List", .ofArity 2), ("Maybe", .ofArity 1)]

/-- `Eq (f a) => List Int [Fix Maybe] -> f a`. -/
def higherOrderPhrase : SignaturePhrase where
  context := [.app (.name "Eq" 0) (.app (.name "f" 4) (.name "a" 6))]
  head := .arrow
    (.app (.app (.name "List" 12) (.name "Int" 17)) (.list (.app (.name "Fix" 22) (.name "Maybe" 26)) 21))
    (.app (.name "f" 36) (.name "a" 38))

/-- The type that it spells. -/
def higherOrderQual : Qual Ty where
  context := [⟨"Eq", .app (.var ⟨"f", .ofArity 1⟩) (.var ⟨"a", .star⟩)⟩]
  head := .fn
    (.app (.app (.con ⟨"List", .ofArity 2⟩) (.con ⟨"Int", .star⟩))
      (.list (.app (.con ⟨"Fix", .fn (.ofArity 1) .star⟩) (.con ⟨"Maybe", .ofArity 1⟩))))
    (.app (.var ⟨"f", .ofArity 1⟩) (.var ⟨"a", .star⟩))

/-- `Eq a => Trans (Lift a)`. -/
def liftPhrase : SignaturePhrase where
  context := [.app (.name "Eq" 0) (.name "a" 3)]
  head := .app (.name "Trans" 8) (.app (.name "Lift" 15) (.name "a" 20))

/-- The instance that it spells. -/
def liftInstance : Instance where
  context := [⟨"Eq", .var ⟨"a", .star⟩⟩]
  head := ⟨"Trans", .app (.con ⟨"Lift", .fn .star (.fn (.ofArity 1) .star)⟩) (.var ⟨"a", .star⟩)⟩

theorem ofString_higherOrder :
    SignaturePhrase.ofString "Eq (f a) => List Int [Fix Maybe] -> f a" = .ok higherOrderPhrase := by
  cbv

theorem ofString_lift : SignaturePhrase.ofString "Eq a => Trans (Lift a)" = .ok liftPhrase := by
  cbv

theorem readQual_higherOrder :
    readQual higherOrderTable "Eq (f a) => List Int [Fix Maybe] -> f a" = .ok higherOrderQual := by
  rw [readQual, ofString_higherOrder]
  rfl

theorem readInstance_lift : readInstance higherOrderTable "Eq a => Trans (Lift a)" = .ok liftInstance := by
  rw [readInstance, ofString_lift]
  rfl

/-- A list by name and a list by brackets have different kinds here, and the head of the instance is not a proper
type. -/
theorem signature_kinds_higherOrder :
    (readQual higherOrderTable "Eq (f a) => List Int [Fix Maybe] -> f a" = .ok higherOrderQual ∧
      higherOrderQual.head.kind = .star ∧ KindsFrom higherOrderTable
        [.arrow, .named "List", .named "Int", .brackets, .named "Fix", .named "Maybe"] higherOrderQual) ∧
    readInstance higherOrderTable "Eq a => Trans (Lift a)" = .ok liftInstance ∧
      liftInstance.head.ty.kind = .fn (.ofArity 1) .star ∧
      KindsFrom higherOrderTable [.named "Lift"] liftInstance := by
  obtain ⟨hkind, phrase, hphrase, hqual⟩ := (signature_kinds _ _).1 _ readQual_higherOrder
  obtain ⟨phrase', hphrase', hinstance⟩ := (signature_kinds _ _).2 _ readInstance_lift
  obtain rfl := Except.ok.inj (hphrase.symm.trans ofString_higherOrder)
  obtain rfl := Except.ok.inj (hphrase'.symm.trans ofString_lift)
  exact ⟨⟨readQual_higherOrder, hkind, hqual⟩, readInstance_lift, rfl, hinstance⟩

end QualifiedTypes
