import QualifiedTypes.Proofs.Action
import QualifiedTypes.Proofs.Outcomes
import QualifiedTypes.Signature.Resolve

/-!
# Which types signatures spell

The rules by which a tree spells a type, apart from the order in which they are checked, and from the
messages for what breaks them.

* `SignatureTree.Spells`: the rules for types, with `SignatureTree.toTy_eq_ok_iff`.
* `SignatureTree.SpellsPred`: the rule for predicates, with `SignatureTree.toPred_eq_ok_iff`.
* `readQual_eq_ok_iff`, `readInstance_eq_ok_iff`, `readScheme_eq_ok_iff`: what is read from a signature.
-/

namespace QualifiedTypes

variable {cons : Constructors} {arities : Arities}

namespace SignatureTree

/-- The tree spells the type, with variables of these arities and constructors of these kinds. -/
inductive Spells (cons : Constructors) (arities : Arities) : SignatureTree → Ty → Prop where
  | var {s : String} (offset : Nat) (name : isVarName s = true) :
      Spells cons arities (.name s offset) (.var ⟨s, .ofArity ((arities.find? s).getD 0)⟩)
  | con {s : String} {k : Kind} (offset : Nat) (name : isVarName s = false) (known : cons.find? s = some k) :
      Spells cons arities (.name s offset) (.con ⟨s, k⟩)
  | app {fn arg : SignatureTree} {f x : Ty} {result : Kind} (left : Spells cons arities fn f)
      (right : Spells cons arities arg x) (kind : f.kind = .fn x.kind result) :
      Spells cons arities (.app fn arg) (.app f x)
  | arrow {domain codomain : SignatureTree} {d c : Ty} (left : Spells cons arities domain d)
      (right : Spells cons arities codomain c) (leftKind : d.kind = .star) (rightKind : c.kind = .star) :
      Spells cons arities (.arrow domain codomain) (.fn d c)
  | list {elem : SignatureTree} {e : Ty} (offset : Nat) (spells : Spells cons arities elem e)
      (kind : e.kind = .star) : Spells cons arities (.list elem offset) (.list e)

theorem proper_eq_ok_iff {t u : Ty} {offset : Nat} : proper t offset = .ok u ↔ t.kind = .star ∧ t = u := by
  unfold proper
  split
  · rename_i hkind
    simp [hkind]
  · rename_i hkind
    simp [hkind]

theorem applied_eq_ok_iff {f x t : Ty} {offset : Nat} :
    applied f x offset = .ok t ↔ (∃ result, f.kind = .fn x.kind result) ∧ t = .app f x := by
  unfold applied
  split
  · rename_i hkind
    simp [hkind]
  · rename_i expected result hkind
    split
    · rename_i hexpected
      simp [hkind, hexpected, eq_comm]
    · rename_i hexpected
      simp [hkind, hexpected]

/-- **A tree gives a type iff it spells that type.** -/
theorem toTy_eq_ok_iff {tree : SignatureTree} {t : Ty} :
    tree.toTy cons arities = .ok t ↔ Spells cons arities tree t := by
  constructor
  · intro h
    fun_induction toTy cons arities tree generalizing t with
    | case1 s offset hvar =>
      cases h
      exact .var offset hvar
    | case2 s offset hvar kind hkind =>
      cases h
      exact .con offset (Bool.eq_false_iff.2 hvar) hkind
    | case3 s offset hvar hkind => cases h
    | case4 fn arg ihf ihx =>
      obtain ⟨f, hf, h⟩ := bind_eq_ok.1 h
      obtain ⟨x, hx, h⟩ := bind_eq_ok.1 h
      obtain ⟨⟨result, hkind⟩, rfl⟩ := applied_eq_ok_iff.1 h
      exact .app (ihf hf) (ihx hx) hkind
    | case5 domain codomain ihd ihc =>
      obtain ⟨d, hd, h⟩ := bind_eq_ok.1 h
      obtain ⟨d', hd', h⟩ := bind_eq_ok.1 h
      obtain ⟨c, hc, h⟩ := bind_eq_ok.1 h
      obtain ⟨c', hc', h⟩ := bind_eq_ok.1 h
      cases h
      obtain ⟨hdk, rfl⟩ := proper_eq_ok_iff.1 hd'
      obtain ⟨hck, rfl⟩ := proper_eq_ok_iff.1 hc'
      exact .arrow (ihd hd) (ihc hc) hdk hck
    | case6 elem offset ih =>
      obtain ⟨e, he, h⟩ := bind_eq_ok.1 h
      obtain ⟨e', he', h⟩ := bind_eq_ok.1 h
      cases h
      obtain ⟨hek, rfl⟩ := proper_eq_ok_iff.1 he'
      exact .list offset (ih he) hek
    | case7 items offset => cases h
  · intro h
    induction h with
    | var offset name => rw [toTy, if_pos name]
    | con offset name known => rw [toTy, if_neg (by rw [name]; decide), known]
    | app _ _ kind ihf ihx =>
      rw [toTy]
      exact bind_eq_ok.2 ⟨_, ihf, bind_eq_ok.2 ⟨_, ihx, applied_eq_ok_iff.2 ⟨⟨_, kind⟩, rfl⟩⟩⟩
    | arrow _ _ leftKind rightKind ihd ihc =>
      rw [toTy]
      refine bind_eq_ok.2 ⟨_, ihd, bind_eq_ok.2 ⟨_, proper_eq_ok_iff.2 ⟨leftKind, rfl⟩, ?_⟩⟩
      exact bind_eq_ok.2 ⟨_, ihc, bind_eq_ok.2 ⟨_, proper_eq_ok_iff.2 ⟨rightKind, rfl⟩, rfl⟩⟩
    | list offset _ kind ih =>
      rw [toTy]
      exact bind_eq_ok.2 ⟨_, ih, bind_eq_ok.2 ⟨_, proper_eq_ok_iff.2 ⟨kind, rfl⟩, rfl⟩⟩

/-- The tree spells the predicate: a class applied to one type. -/
inductive SpellsPred (cons : Constructors) (arities : Arities) : SignatureTree → Pred → Prop where
  | intro {s : String} {arg : SignatureTree} {t : Ty} (offset : Nat) (name : isVarName s = false)
      (spells : Spells cons arities arg t) : SpellsPred cons arities (.app (.name s offset) arg) ⟨s, t⟩

theorem toPred_eq_ok_iff {tree : SignatureTree} {p : Pred} :
    tree.toPred cons arities = .ok p ↔ SpellsPred cons arities tree p := by
  constructor
  · intro h
    unfold toPred at h
    split at h
    · split at h
      · cases h
      · rename_i hname
        obtain ⟨t, ht, h⟩ := bind_eq_ok.1 h
        cases h
        exact .intro _ (Bool.eq_false_iff.2 hname) (toTy_eq_ok_iff.1 ht)
    · cases h
    · cases h
  · rintro ⟨offset, name, spells⟩
    rw [toPred, if_neg (by rw [name]; decide)]
    exact bind_eq_ok.2 ⟨_, toTy_eq_ok_iff.2 spells, rfl⟩

theorem toPreds_eq_ok_iff {trees : List SignatureTree} {ps : List Pred} :
    trees.mapM (toPred cons arities) = .ok ps ↔ List.Forall₂ (SpellsPred cons arities) trees ps := by
  rw [mapM_eq_ok_iff]
  simp only [toPred_eq_ok_iff]

end SignatureTree

/-! ## Whole signatures -/

open SignatureTree

theorem readQual_eq_ok_iff {src : String} {q : Qual Ty} :
    readQual cons src = .ok q ↔ ∃ phrase arities, SignaturePhrase.ofString src = .ok phrase ∧
      phrase.arities = .ok arities ∧ List.Forall₂ (SpellsPred cons arities) phrase.context q.context ∧
      Spells cons arities phrase.head q.head ∧ q.head.kind = .star := by
  constructor
  · intro h
    obtain ⟨phrase, hphrase, h⟩ := bind_eq_ok.1 h
    obtain ⟨arities, harities, h⟩ := bind_eq_ok.1 h
    obtain ⟨context, hcontext, h⟩ := bind_eq_ok.1 h
    obtain ⟨head, hhead, h⟩ := bind_eq_ok.1 h
    obtain ⟨head', hhead', h⟩ := bind_eq_ok.1 h
    cases h
    obtain ⟨hkind, rfl⟩ := proper_eq_ok_iff.1 hhead'
    exact ⟨phrase, arities, hphrase, harities, toPreds_eq_ok_iff.1 hcontext, toTy_eq_ok_iff.1 hhead, hkind⟩
  · rintro ⟨phrase, arities, hphrase, harities, hcontext, hhead, hkind⟩
    refine bind_eq_ok.2 ⟨phrase, hphrase, bind_eq_ok.2 ⟨arities, harities, ?_⟩⟩
    refine bind_eq_ok.2 ⟨_, toPreds_eq_ok_iff.2 hcontext, bind_eq_ok.2 ⟨_, toTy_eq_ok_iff.2 hhead, ?_⟩⟩
    exact bind_eq_ok.2 ⟨_, proper_eq_ok_iff.2 ⟨hkind, rfl⟩, rfl⟩

theorem readInstance_eq_ok_iff {src : String} {i : Instance} :
    readInstance cons src = .ok i ↔ ∃ phrase arities, SignaturePhrase.ofString src = .ok phrase ∧
      phrase.arities = .ok arities ∧ List.Forall₂ (SpellsPred cons arities) phrase.context i.context ∧
      SpellsPred cons arities phrase.head i.head := by
  constructor
  · intro h
    obtain ⟨phrase, hphrase, h⟩ := bind_eq_ok.1 h
    obtain ⟨arities, harities, h⟩ := bind_eq_ok.1 h
    obtain ⟨context, hcontext, h⟩ := bind_eq_ok.1 h
    obtain ⟨head, hhead, h⟩ := bind_eq_ok.1 h
    cases h
    exact ⟨phrase, arities, hphrase, harities, toPreds_eq_ok_iff.1 hcontext, toPred_eq_ok_iff.1 hhead⟩
  · rintro ⟨phrase, arities, hphrase, harities, hcontext, hhead⟩
    refine bind_eq_ok.2 ⟨phrase, hphrase, bind_eq_ok.2 ⟨arities, harities, ?_⟩⟩
    exact bind_eq_ok.2 ⟨_, toPreds_eq_ok_iff.2 hcontext, bind_eq_ok.2 ⟨_, toPred_eq_ok_iff.2 hhead, rfl⟩⟩

theorem exists_spells_of_spellsPreds {trees : List SignatureTree} {ps : List Pred}
    (h : List.Forall₂ (SpellsPred cons arities) trees ps) :
    ∀ p ∈ ps, ∃ tree, Spells cons arities tree p.ty := by
  induction h with
  | nil => exact fun p hp => nomatch hp
  | cons hp _ ih =>
    refine List.forall_mem_cons.2 ⟨?_, ih⟩
    cases hp with
    | intro offset name spells => exact ⟨_, spells⟩

/-- Every type that is read was spelled. -/
theorem readQual_spells {src : String} {q : Qual Ty} (h : readQual cons src = .ok q) :
    (∃ arities, ∀ t ∈ types q, ∃ tree, Spells cons arities tree t) ∧ q.head.kind = .star := by
  obtain ⟨phrase, arities, _, _, hcontext, hhead, hkind⟩ := readQual_eq_ok_iff.1 h
  refine ⟨⟨arities, forall_mem_types_qual.2 ⟨exists_spells_of_spellsPreds hcontext, fun t ht => ?_⟩⟩, hkind⟩
  rw [List.mem_singleton.1 ht]
  exact ⟨_, hhead⟩

theorem readInstance_spells {src : String} {i : Instance} (h : readInstance cons src = .ok i) :
    ∃ arities, ∀ t ∈ types i, ∃ tree, Spells cons arities tree t := by
  obtain ⟨phrase, arities, _, _, hcontext, hhead⟩ := readInstance_eq_ok_iff.1 h
  refine ⟨arities, forall_mem_types_qual.2 ⟨exists_spells_of_spellsPreds hcontext, fun t ht => ?_⟩⟩
  rw [List.mem_singleton.1 ht]
  exact exists_spells_of_spellsPreds (.cons hhead .nil) _ List.mem_cons_self

theorem readScheme_eq_ok_iff {src : String} {scheme : Scheme} :
    readScheme cons src = .ok scheme ↔ ∃ q, readQual cons src = .ok q ∧ scheme = .quantifyAll q := by
  unfold readScheme
  rw [bind_eq_ok]
  refine exists_congr fun q => and_congr_right fun _ => ?_
  constructor
  · intro h
    cases h
    rfl
  · rintro rfl
    rfl

end QualifiedTypes
