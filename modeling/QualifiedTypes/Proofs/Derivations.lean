import QualifiedTypes.Proofs.Grammar

/-!
# Derivations of signatures

The grammar

    qual  := type "=>" type | type
    type  := btype ["->" type]
    btype := atype {atype}
    atype := name | "(" type {"," type} ")" | "[" type "]"

with its derivations as data.  A derivation keeps what a tree forgets, such as spare parentheses, so it can be asked
how many derivations the same lexemes have.

* `Derivation`, `Derivation.lexemes`, `Derivation.meaning`: derivations of the parts of a signature, what they
  derive, and what that denotes.
* `Derivation.unique`: lexemes begin with one part in one way, if what comes next cannot go on with it.
* `PhraseDerivation`: derivations of whole signatures.
* `ofLexemes_iff_derivation`: **the reader accepts what has a derivation, and there is only one.**
-/

namespace QualifiedTypes

open SignatureTree

/-- The symbols of the grammar below a whole signature. -/
inductive Nonterminal where
  | type
  /-- A type without an arrow at the top. -/
  | applied
  /-- A name, or something in parentheses or brackets. -/
  | atom
  /-- The repetition of atoms after a first one. -/
  | atoms
  /-- The repetition of a comma and a type after a first type. -/
  | items

/-- What is denoted: one tree, or a list of trees for a repetition. -/
abbrev Nonterminal.Meaning : Nonterminal → Type
  | .type | .applied | .atom => SignatureTree
  | .atoms | .items => List SignatureTree

/-- Derivations, with the offsets of the lexemes that are derived. -/
inductive Derivation : Nonterminal → Type where
  | plain (left : Derivation .applied) : Derivation .type
  | arrow (left : Derivation .applied) (offset : Nat) (right : Derivation .type) : Derivation .type
  | applied (head : Derivation .atom) (args : Derivation .atoms) : Derivation .applied
  | name (s : String) (offset : Nat) : Derivation .atom
  | parens (opening : Nat) (first : Derivation .type) (others : Derivation .items) (closing : Nat) : Derivation .atom
  | brackets (opening : Nat) (elem : Derivation .type) (closing : Nat) : Derivation .atom
  | noAtoms : Derivation .atoms
  | moreAtoms (arg : Derivation .atom) (args : Derivation .atoms) : Derivation .atoms
  | noItems : Derivation .items
  | moreItems (comma : Nat) (item : Derivation .type) (others : Derivation .items) : Derivation .items

/-- What parentheses denote: the type in them, or a tuple if there are several. -/
def SignatureTree.parenthesized (offset : Nat) (first : SignatureTree) (others : List SignatureTree) : SignatureTree :=
  if others.isEmpty then first else .tuple (first :: others) offset

/-- Items in parentheses. -/
theorem SignatureTree.Derives.parenthesized {ts : List Lexeme} {first : SignatureTree} {others : List SignatureTree}
    (h : Derives .items ts (first :: others)) (offset : Nat) :
    Derives .atom (⟨.openParen, offset⟩ :: ts) [.parenthesized offset first others] := by
  cases h with
  | last closing item => exact .group offset closing item
  | more comma item others =>
    cases others with
    | last closing item' => exact .tuple offset comma item (.last closing item')
    | more comma' item' others => exact .tuple offset comma item (.more comma' item' others)

namespace Derivation

variable {s : Nonterminal} {rest rest' : List Lexeme}

/-- The lexemes that are derived. -/
def lexemes : {s : Nonterminal} → Derivation s → List Lexeme
  | _, .plain left => left.lexemes
  | _, .arrow left offset right => left.lexemes ++ ⟨.arrow, offset⟩ :: right.lexemes
  | _, .applied head args => head.lexemes ++ args.lexemes
  | _, .name s offset => [⟨.name s, offset⟩]
  | _, .parens opening first others closing =>
    ⟨.openParen, opening⟩ :: (first.lexemes ++ (others.lexemes ++ [⟨.closeParen, closing⟩]))
  | _, .brackets opening elem closing => ⟨.openBracket, opening⟩ :: (elem.lexemes ++ [⟨.closeBracket, closing⟩])
  | _, .noAtoms => []
  | _, .moreAtoms arg args => arg.lexemes ++ args.lexemes
  | _, .noItems => []
  | _, .moreItems comma item others => ⟨.comma, comma⟩ :: (item.lexemes ++ others.lexemes)

/-- What is denoted.  Applications nest to the left and arrows to the right. -/
def meaning : {s : Nonterminal} → Derivation s → s.Meaning
  | _, .plain left => left.meaning
  | _, .arrow left _ right => .arrow left.meaning right.meaning
  | _, .applied head args => args.meaning.foldl .app head.meaning
  | _, .name s offset => .name s offset
  | _, .parens opening first others _ => .parenthesized opening first.meaning others.meaning
  | _, .brackets opening elem _ => .list elem.meaning opening
  | _, .noAtoms => []
  | _, .moreAtoms arg args => arg.meaning :: args.meaning
  | _, .noItems => []
  | _, .moreItems _ item others => item.meaning :: others.meaning

/-! ## One derivation at most -/

/-- The lexemes do not go on with what the symbol derives.  After items comes the parenthesis that closes them. -/
def Ends : Nonterminal → List Lexeme → Prop
  | .type, rest => Stops rest
  | .applied, rest | .atoms, rest => startsAtom rest = false
  | .atom, _ => True
  | .items, rest => ∃ closing after, rest = ⟨.closeParen, closing⟩ :: after

theorem startsAtom_lexemes (d : Derivation .atom) (rest : List Lexeme) : startsAtom (d.lexemes ++ rest) = true := by
  cases d with
  | name | parens | brackets => rfl

theorem stops_items (d : Derivation .items) (h : Ends .items rest) : Stops (d.lexemes ++ rest) := by
  obtain ⟨closing, after, rfl⟩ := h
  cases d with
  | noItems => exact .cons (.inl rfl)
  | moreItems comma item others => exact .cons (.inr (.inr (.inl rfl)))

/-- **Lexemes begin with what a symbol derives in one way only**, if what comes next cannot go on with it. -/
theorem unique (d d' : Derivation s) (h : d.lexemes ++ rest = d'.lexemes ++ rest') (hrest : Ends s rest)
    (hrest' : Ends s rest') : d = d' ∧ rest = rest' := by
  induction d generalizing rest rest' with
  | plain left ih =>
    cases d' with
    | plain left' =>
      obtain ⟨rfl, rfl⟩ := ih left' h hrest.noAtom hrest'.noAtom
      exact ⟨rfl, rfl⟩
    | arrow left' offset' right' =>
      simp only [lexemes, List.append_assoc] at h
      obtain ⟨-, rfl⟩ := ih left' h hrest.noAtom rfl
      cases hrest.noArrow
  | arrow left offset right ihl ihr =>
    simp only [lexemes, List.append_assoc] at h
    cases d' with
    | plain left' =>
      obtain ⟨-, rfl⟩ := ihl left' h rfl hrest'.noAtom
      cases hrest'.noArrow
    | arrow left' offset' right' =>
      simp only [lexemes, List.append_assoc] at h
      obtain ⟨rfl, hright⟩ := ihl left' h rfl rfl
      obtain ⟨harrow, hright⟩ := List.cons.inj hright
      obtain ⟨rfl, rfl⟩ := ihr right' hright hrest hrest'
      cases harrow
      exact ⟨rfl, rfl⟩
  | applied head args ihh iha =>
    cases d' with
    | applied head' args' =>
      simp only [lexemes, List.append_assoc] at h
      obtain ⟨rfl, hargs⟩ := ihh head' h trivial trivial
      obtain ⟨rfl, rfl⟩ := iha args' hargs hrest hrest'
      exact ⟨rfl, rfl⟩
  | name s offset =>
    cases d' with
    | name s' offset' =>
      cases h
      exact ⟨rfl, rfl⟩
    | parens | brackets => cases h
  | parens opening first others closing ihf iho =>
    cases d' with
    | name | brackets => cases h
    | parens opening' first' others' closing' =>
      simp only [lexemes, List.cons_append, List.append_assoc, List.nil_append] at h
      obtain ⟨hopening, hinner⟩ := List.cons.inj h
      obtain ⟨rfl, hothers⟩ := ihf first' hinner (others.stops_items ⟨_, _, rfl⟩) (others'.stops_items ⟨_, _, rfl⟩)
      obtain ⟨rfl, hclosing⟩ := iho others' hothers ⟨_, _, rfl⟩ ⟨_, _, rfl⟩
      cases hopening
      cases hclosing
      exact ⟨rfl, rfl⟩
  | brackets opening elem closing ih =>
    cases d' with
    | name | parens => cases h
    | brackets opening' elem' closing' =>
      simp only [lexemes, List.cons_append, List.append_assoc, List.nil_append] at h
      obtain ⟨hopening, hinner⟩ := List.cons.inj h
      obtain ⟨rfl, hclosing⟩ := ih elem' hinner (.cons (.inr (.inl rfl))) (.cons (.inr (.inl rfl)))
      cases hopening
      cases hclosing
      exact ⟨rfl, rfl⟩
  | noAtoms =>
    cases d' with
    | noAtoms => exact ⟨rfl, h⟩
    | moreAtoms arg' args' =>
      simp only [lexemes, List.nil_append, List.append_assoc] at h
      rw [h] at hrest
      cases hrest.symm.trans (arg'.startsAtom_lexemes _)
  | moreAtoms arg args ihx iha =>
    simp only [lexemes, List.append_assoc] at h
    cases d' with
    | noAtoms =>
      rw [lexemes, List.nil_append] at h
      rw [← h] at hrest'
      cases hrest'.symm.trans (arg.startsAtom_lexemes _)
    | moreAtoms arg' args' =>
      simp only [lexemes, List.append_assoc] at h
      obtain ⟨rfl, hargs⟩ := ihx arg' h trivial trivial
      obtain ⟨rfl, rfl⟩ := iha args' hargs hrest hrest'
      exact ⟨rfl, rfl⟩
  | noItems =>
    cases d' with
    | noItems => exact ⟨rfl, h⟩
    | moreItems comma' item' others' =>
      obtain ⟨closing, after, rfl⟩ := hrest
      cases h
  | moreItems comma item others ihi iho =>
    cases d' with
    | noItems =>
      obtain ⟨closing, after, rfl⟩ := hrest'
      cases h
    | moreItems comma' item' others' =>
      simp only [lexemes, List.cons_append, List.append_assoc] at h
      obtain ⟨hcomma, hitem⟩ := List.cons.inj h
      obtain ⟨rfl, hothers⟩ := ihi item' hitem (others.stops_items hrest) (others'.stops_items hrest')
      obtain ⟨rfl, rfl⟩ := iho others' hothers hrest hrest'
      cases hcomma
      exact ⟨rfl, rfl⟩

/-! ## Derivations and what is read -/

/-- The lexemes are derived with this meaning, where a repetition stands behind whatever it repeats. -/
def Denotes : (s : Nonterminal) → List Lexeme → s.Meaning → Prop
  | .type, ls, t => Derives .type ls [t]
  | .applied, ls, t => Derives .applied ls [t]
  | .atom, ls, t => Derives .atom ls [t]
  | .atoms, ls, args => ∀ us f, Derives .applied us [f] → Derives .applied (us ++ ls) [args.foldl .app f]
  | .items, ls, items => ∀ us t closing, Derives .type us [t] →
      Derives .items (us ++ (ls ++ [⟨.closeParen, closing⟩])) (t :: items)

/-- A derivation derives its lexemes, with its meaning. -/
theorem denotes (d : Derivation s) : Denotes s d.lexemes d.meaning := by
  induction d with
  | plain left ih => exact .plain ih
  | arrow left offset right ihl ihr => exact .arrow offset ihl ihr
  | applied head args ihh iha => exact iha _ _ (.head ihh)
  | name s offset => exact .name s offset
  | parens opening first others closing ihf iho =>
    exact (iho _ _ closing ihf).parenthesized opening
  | brackets opening elem closing ih => exact .list opening closing ih
  | noAtoms =>
    intro us f hf
    rw [lexemes, List.append_nil]
    exact hf
  | moreAtoms arg args ihx iha =>
    intro us f hf
    rw [lexemes, ← List.append_assoc]
    exact iha _ _ (.app hf ihx)
  | noItems => exact fun us t closing ht => .last closing ht
  | moreItems comma item others ihi iho =>
    intro us t closing ht
    rw [lexemes, List.cons_append, List.append_assoc]
    exact .more comma ht (iho _ _ closing ihi)

/-- One more atom at the end of a repetition. -/
def snoc : Derivation .atoms → Derivation .atom → Derivation .atoms
  | .noAtoms, last => .moreAtoms last .noAtoms
  | .moreAtoms arg args, last => .moreAtoms arg (args.snoc last)

theorem lexemes_snoc : (args : Derivation .atoms) → (last : Derivation .atom) →
    (args.snoc last).lexemes = args.lexemes ++ last.lexemes
  | .noAtoms, last => by simp [snoc, lexemes]
  | .moreAtoms arg args, last => by simp [snoc, lexemes, lexemes_snoc args last]

theorem meaning_snoc : (args : Derivation .atoms) → (last : Derivation .atom) →
    (args.snoc last).meaning = args.meaning ++ [last.meaning]
  | .noAtoms, last => by simp [snoc, meaning]
  | .moreAtoms arg args, last => by simp [snoc, meaning, meaning_snoc args last]

end Derivation

/-- The lexemes have a derivation with this meaning. -/
def Derivable : Part → List Lexeme → List SignatureTree → Prop
  | .type, ls, trees => ∃ d : Derivation .type, d.lexemes = ls ∧ [d.meaning] = trees
  | .applied, ls, trees => ∃ d : Derivation .applied, d.lexemes = ls ∧ [d.meaning] = trees
  | .atom, ls, trees => ∃ d : Derivation .atom, d.lexemes = ls ∧ [d.meaning] = trees
  | .items, ls, trees => ∃ (first : Derivation .type) (others : Derivation .items) (closing : Nat),
      first.lexemes ++ (others.lexemes ++ [⟨.closeParen, closing⟩]) = ls ∧ first.meaning :: others.meaning = trees

theorem SignatureTree.Derives.derivable {part : Part} {ls : List Lexeme} {trees : List SignatureTree}
    (h : Derives part ls trees) : Derivable part ls trees := by
  induction h with
  | name s offset => exact ⟨.name s offset, rfl, rfl⟩
  | group offset closing inner ih =>
    obtain ⟨d, rfl, hmeaning⟩ := ih
    exact ⟨.parens offset d .noItems closing, rfl, hmeaning⟩
  | tuple offset comma _ _ ihf iho =>
    obtain ⟨first, rfl, hfirst⟩ := ihf
    obtain ⟨item, others, closing, rfl, rfl⟩ := iho
    cases hfirst
    refine ⟨.parens offset first (.moreItems comma item others) closing, ?_, rfl⟩
    simp [Derivation.lexemes]
  | list offset closing elem ih =>
    obtain ⟨d, rfl, helem⟩ := ih
    cases helem
    exact ⟨.brackets offset d closing, rfl, rfl⟩
  | head atom ih =>
    obtain ⟨d, rfl, hmeaning⟩ := ih
    exact ⟨.applied d .noAtoms, List.append_nil _, hmeaning⟩
  | app fn arg ihf ihx =>
    obtain ⟨d, rfl, hfn⟩ := ihf
    obtain ⟨last, rfl, harg⟩ := ihx
    cases d with
    | applied head args =>
      cases hfn
      cases harg
      refine ⟨.applied head (args.snoc last), ?_, ?_⟩
      · rw [Derivation.lexemes, Derivation.lexemes_snoc, Derivation.lexemes, List.append_assoc]
      · rw [Derivation.meaning, Derivation.meaning_snoc, List.foldl_append]
        rfl
  | plain inner ih =>
    obtain ⟨d, rfl, hmeaning⟩ := ih
    exact ⟨.plain d, rfl, hmeaning⟩
  | arrow offset domain codomain ihd ihc =>
    obtain ⟨d, rfl, hd⟩ := ihd
    obtain ⟨c, rfl, hc⟩ := ihc
    cases hd
    cases hc
    exact ⟨.arrow d offset c, rfl, rfl⟩
  | last closing item ih =>
    obtain ⟨d, rfl, hmeaning⟩ := ih
    exact ⟨d, .noItems, closing, rfl, hmeaning⟩
  | more comma _ _ ihi iho =>
    obtain ⟨first, rfl, hfirst⟩ := ihi
    obtain ⟨item, others, closing, rfl, rfl⟩ := iho
    cases hfirst
    refine ⟨first, .moreItems comma item others, closing, ?_, rfl⟩
    simp [Derivation.lexemes]

/-! ## Whole signatures -/

/-- Derivations of whole signatures.  A tuple is a context, and not a type. -/
inductive PhraseDerivation where
  | plain (head : Derivation .type) (single : ∀ items offset, head.meaning ≠ .tuple items offset)
  | qualified (context : Derivation .type) (offset : Nat) (head : Derivation .type)

namespace PhraseDerivation

/-- The lexemes that are derived. -/
def lexemes : PhraseDerivation → List Lexeme
  | .plain head _ => head.lexemes
  | .qualified context offset head => context.lexemes ++ ⟨.fatArrow, offset⟩ :: head.lexemes

/-- What is denoted.  A tuple before the arrow lists the constraints, and anything else is the only one. -/
def phrase : PhraseDerivation → SignaturePhrase
  | .plain head _ => ⟨[], head.meaning⟩
  | .qualified context _ head =>
    match context.meaning with
    | .tuple items _ => ⟨items, head.meaning⟩
    | single => ⟨[single], head.meaning⟩

theorem phrase_qualified (context : Derivation .type) (offset : Nat) (head : Derivation .type) :
    (qualified context offset head).phrase = ⟨SignaturePhrase.constraints context.meaning, head.meaning⟩ := by
  rw [phrase]
  cases context.meaning with
  | tuple | name | app | list | arrow => rfl

/-- The lexemes of a signature determine its derivation. -/
theorem lexemes_injective : Function.Injective lexemes := by
  intro d d' h
  cases d with
  | plain head single =>
    cases d' with
    | plain head' single' =>
      obtain ⟨rfl, -⟩ := head.unique head' (congrArg (· ++ []) h) .nil .nil
      rfl
    | qualified context' offset' head' =>
      have h : head.lexemes ++ [] = _ := (List.append_nil _).trans h
      obtain ⟨-, hrest⟩ := head.unique context' h .nil (.cons (.inr (.inr (.inr rfl))))
      cases hrest
  | qualified context offset head =>
    cases d' with
    | plain head' single' =>
      have h : _ = head'.lexemes ++ [] := h.trans (List.append_nil _).symm
      obtain ⟨-, hrest⟩ := context.unique head' h (.cons (.inr (.inr (.inr rfl)))) .nil
      cases hrest
    | qualified context' offset' head' =>
      obtain ⟨rfl, hrest⟩ := context.unique context' h (.cons (.inr (.inr (.inr rfl))))
        (.cons (.inr (.inr (.inr rfl))))
      obtain ⟨harrow, hhead⟩ := List.cons.inj hrest
      obtain ⟨rfl, -⟩ := head.unique head' (congrArg (· ++ []) hhead) .nil .nil
      cases harrow
      rfl

theorem exists_iff_derives {ts : List Lexeme} {phrase : SignaturePhrase} :
    (∃ d : PhraseDerivation, d.lexemes = ts ∧ d.phrase = phrase) ↔ SignaturePhrase.Derives ts phrase := by
  constructor
  · rintro ⟨d, rfl, rfl⟩
    cases d with
    | plain head single => exact .plain head.denotes single
    | qualified context offset head =>
      rw [phrase_qualified]
      exact .qualified offset context.denotes head.denotes
  · intro h
    cases h with
    | plain head single =>
      obtain ⟨d, rfl, hd⟩ := head.derivable
      cases hd
      exact ⟨.plain d single, rfl, rfl⟩
    | qualified offset context head =>
      obtain ⟨c, rfl, hc⟩ := context.derivable
      obtain ⟨d, rfl, hd⟩ := head.derivable
      cases hc
      cases hd
      exact ⟨.qualified c offset d, rfl, phrase_qualified c offset d⟩

end PhraseDerivation

/-- **A signature is accepted iff all of its lexemes have a derivation.**  There is then only one, and the phrase that
is read is what it denotes. -/
theorem ofLexemes_iff_derivation :
    (∀ (stop : Nat) (ts : List Lexeme) (phrase : SignaturePhrase), SignaturePhrase.ofLexemes stop ts = .ok phrase ↔
      ∃ d : PhraseDerivation, d.lexemes = ts ∧ d.phrase = phrase) ∧
    ∀ d d' : PhraseDerivation, d.lexemes = d'.lexemes → d = d' :=
  ⟨fun _ _ _ => SignaturePhrase.ofLexemes_eq_ok_iff.trans PhraseDerivation.exists_iff_derives.symm,
    fun _ _ h => PhraseDerivation.lexemes_injective h⟩

/-- `((Eq a, Ord (b))) => f a [b] -> c`. -/
def spareParens : PhraseDerivation :=
  .qualified
    (.plain (.applied
      (.parens 0
        (.plain (.applied
          (.parens 1
            (.plain (.applied (.name "Eq" 2) (.moreAtoms (.name "a" 5) .noAtoms)))
            (.moreItems 6
              (.plain (.applied (.name "Ord" 8)
                (.moreAtoms (.parens 12 (.plain (.applied (.name "b" 13) .noAtoms)) .noItems 14) .noAtoms)))
              .noItems)
            15)
          .noAtoms))
        .noItems 16)
      .noAtoms))
    18
    (.arrow
      (.applied (.name "f" 21) (.moreAtoms (.name "a" 23)
        (.moreAtoms (.brackets 25 (.plain (.applied (.name "b" 26) .noAtoms)) 27) .noAtoms)))
      29
      (.plain (.applied (.name "c" 32) .noAtoms)))

/-- `Eq a => [a]`. -/
def singleConstraint : PhraseDerivation :=
  .qualified (.plain (.applied (.name "Eq" 0) (.moreAtoms (.name "a" 3) .noAtoms))) 5
    (.plain (.applied (.brackets 8 (.plain (.applied (.name "a" 9) .noAtoms)) 10) .noAtoms))

/-- Spare parentheses stand around the context and around `b`, and are derived in one way.  A single constraint needs
none. -/
theorem ofLexemes_iff_derivation_spareParens :
    (SignaturePhrase.ofLexemes 33 spareParens.lexemes = .ok
        ⟨[.app (.name "Eq" 2) (.name "a" 5), .app (.name "Ord" 8) (.name "b" 13)],
          .arrow (.app (.app (.name "f" 21) (.name "a" 23)) (.list (.name "b" 26) 25)) (.name "c" 32)⟩ ∧
      ∀ d : PhraseDerivation, d.lexemes = spareParens.lexemes → d = spareParens) ∧
    SignaturePhrase.ofLexemes 11 singleConstraint.lexemes =
      .ok ⟨[.app (.name "Eq" 0) (.name "a" 3)], .list (.name "a" 9) 8⟩ :=
  ⟨⟨(ofLexemes_iff_derivation.1 _ _ _).2 ⟨spareParens, rfl, rfl⟩, fun d h => ofLexemes_iff_derivation.2 d _ h⟩,
    (ofLexemes_iff_derivation.1 _ _ _).2 ⟨singleConstraint, rfl, rfl⟩⟩

end QualifiedTypes
