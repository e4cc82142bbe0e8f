import QualifiedTypes.Proofs.Spellable

/-!
# Written phrases

Written phrases are put together from pieces of text in the same way as the grammar puts together signatures, so
what they are read as can be told piece by piece.

* `Reads`: with names spelled in some way, the text is read as a part of a signature, and denotes a tree with a
  property.  `Written` is the case of names that are spelled as they are.
* `Ty.Legible`: so is the text of a type in every position.
* `Ty.Spellable.legible`: types that can be spelled are written as trees that spell them, in every position.
* `WritesContexts`: contexts are written so that phrases are read back, as by `contextText` and
  `contextSignature`.
-/

namespace QualifiedTypes

open Lexeme SignatureTree

variable {cons : Constructors} {arities : Arities}

/-! ## Written parts -/

/-- Tokens other than names are spelled as they are. -/
def KeepsPunctuation (spell : SignatureToken → List SignatureToken) : Prop :=
  ∀ token, (∀ s, token ≠ .name s) → spell token = [token]

/-- The text has the lexemes of a part of a signature, whatever their offsets, with names spelled in the given way,
and denotes a tree with the property. -/
def Reads (spell : SignatureToken → List SignatureToken) (part : Part) (s : String) (P : SignatureTree → Prop) : Prop :=
  ∃ toks : List SignatureToken, Lexes s (toks.flatMap spell) ∧
    ∀ ls, ls.map Lexeme.token = toks → ∃ tree, Derives part ls [tree] ∧ P tree

/-- The text is read as a part of a signature with names spelled as they are. -/
abbrev Written (part : Part) (s : String) (P : SignatureTree → Prop) : Prop := Reads (fun token => [token]) part s P

theorem written_iff {part : Part} {s : String} {P : SignatureTree → Prop} : Written part s P ↔ ∃ toks, Lexes s toks ∧
    ∀ ls, ls.map Lexeme.token = toks → ∃ tree, Derives part ls [tree] ∧ P tree := by
  simp only [Written, Reads, List.flatMap_singleton']

theorem map_token_singleton {ls : List Lexeme} {a : SignatureToken} (h : ls.map Lexeme.token = [a]) :
    ∃ offset, ls = [⟨a, offset⟩] := by
  obtain ⟨l, rfl, rfl⟩ := List.map_eq_singleton_iff.1 h
  exact ⟨l.offset, rfl⟩

theorem map_token_enclosed {ls : List Lexeme} {a b : SignatureToken} {toks : List SignatureToken}
    (h : ls.map Lexeme.token = [a] ++ toks ++ [b]) :
    ∃ offset closing ls', ls = ⟨a, offset⟩ :: (ls' ++ [⟨b, closing⟩]) ∧ ls'.map Lexeme.token = toks := by
  obtain ⟨ls₁, ls₂, rfl, h₁, h₂⟩ := List.map_eq_append_iff.1 h
  obtain ⟨ls₀, ls', rfl, h₀, h'⟩ := List.map_eq_append_iff.1 h₁
  obtain ⟨offset, rfl⟩ := map_token_singleton h₀
  obtain ⟨closing, rfl⟩ := map_token_singleton h₂
  exact ⟨offset, closing, ls', rfl, h'⟩

theorem map_token_joined {ls : List Lexeme} {a : SignatureToken} {toks toks' : List SignatureToken}
    (h : ls.map Lexeme.token = toks ++ [a] ++ toks') :
    ∃ offset ls₁ ls₂, ls = ls₁ ++ ⟨a, offset⟩ :: ls₂ ∧ ls₁.map Lexeme.token = toks ∧
      ls₂.map Lexeme.token = toks' := by
  obtain ⟨ls', ls₂, rfl, h', h₂⟩ := List.map_eq_append_iff.1 h
  obtain ⟨ls₁, ls₀, rfl, h₁, h₀⟩ := List.map_eq_append_iff.1 h'
  obtain ⟨offset, rfl⟩ := map_token_singleton h₀
  exact ⟨offset, ls₁, ls₂, by rw [List.append_assoc]; rfl, h₁, h₂⟩

namespace Reads

variable {spell : SignatureToken → List SignatureToken} {s s' : String} {P P' Q : SignatureTree → Prop}

theorem imp {part : Part} (h : Reads spell part s P) (hPQ : ∀ tree, P tree → Q tree) : Reads spell part s Q := by
  obtain ⟨toks, hlexes, hderives⟩ := h
  refine ⟨toks, hlexes, fun ls hls => ?_⟩
  obtain ⟨tree, htree, hP⟩ := hderives ls hls
  exact ⟨tree, htree, hPQ tree hP⟩

theorem name (h : IsName s) (hspell : spell (.name s) = [.name s]) (hP : ∀ offset, P (.name s offset)) :
    Reads spell .atom s P := by
  refine ⟨[.name s], ?_, fun ls hls => ?_⟩
  · rw [List.flatMap_singleton, hspell]
    exact h.lexes
  · obtain ⟨offset, rfl⟩ := map_token_singleton hls
    exact ⟨_, .name s offset, hP offset⟩

theorem applied (h : Reads spell .atom s P) : Reads spell .applied s P := by
  obtain ⟨toks, hlexes, hderives⟩ := h
  refine ⟨toks, hlexes, fun ls hls => ?_⟩
  obtain ⟨tree, htree, hP⟩ := hderives ls hls
  exact ⟨tree, .head htree, hP⟩

theorem type (h : Reads spell .applied s P) : Reads spell .type s P := by
  obtain ⟨toks, hlexes, hderives⟩ := h
  refine ⟨toks, hlexes, fun ls hls => ?_⟩
  obtain ⟨tree, htree, hP⟩ := hderives ls hls
  exact ⟨tree, .plain htree, hP⟩

theorem app (h : Reads spell .applied s P) (h' : Reads spell .atom s' P')
    (hQ : ∀ fn arg, P fn → P' arg → Q (.app fn arg)) : Reads spell .applied (s ++ " " ++ s') Q := by
  obtain ⟨toks, hlexes, hderives⟩ := h
  obtain ⟨toks', hlexes', hderives'⟩ := h'
  refine ⟨toks ++ toks', ?_, fun ls hls => ?_⟩
  · rw [List.flatMap_append, ← List.append_nil (toks.flatMap spell)]
    exact hlexes.join separates_blank hlexes'
  · obtain ⟨ls₁, ls₂, rfl, h₁, h₂⟩ := List.map_eq_append_iff.1 hls
    obtain ⟨fn, hfn, hP⟩ := hderives ls₁ h₁
    obtain ⟨arg, harg, hP'⟩ := hderives' ls₂ h₂
    exact ⟨_, .app hfn harg, hQ fn arg hP hP'⟩

variable (hspell : KeepsPunctuation spell)
include hspell

/-- Tokens between two that are spelled as they are. -/
theorem lexes_enclosed {a b : SignatureToken} {opening closing : String} {toks : List SignatureToken}
    (hopen : Separates opening [a]) (hclose : Separates closing [b]) (ha : ∀ s, a ≠ .name s) (hb : ∀ s, b ≠ .name s)
    (h : Lexes s (toks.flatMap spell)) : Lexes (opening ++ s ++ closing) (([a] ++ toks ++ [b]).flatMap spell) := by
  rw [List.flatMap_append, List.flatMap_append, List.flatMap_singleton, List.flatMap_singleton, hspell a ha,
    hspell b hb]
  exact (hopen.append_lexes h).append_separates hclose

theorem group (h : Reads spell .type s P) : Reads spell .atom ("(" ++ s ++ ")") P := by
  obtain ⟨toks, hlexes, hderives⟩ := h
  have hopen : Separates "(" [.openParen] := separates_punctuation rfl rfl
  have hclose : Separates ")" [.closeParen] := separates_punctuation rfl rfl
  refine ⟨_, lexes_enclosed hspell hopen hclose nofun nofun hlexes, fun ls hls => ?_⟩
  obtain ⟨offset, closing, ls', rfl, hls'⟩ := map_token_enclosed hls
  obtain ⟨tree, htree, hP⟩ := hderives ls' hls'
  exact ⟨tree, .group offset closing htree, hP⟩

theorem list (h : Reads spell .type s P) (hQ : ∀ elem offset, P elem → Q (.list elem offset)) :
    Reads spell .atom ("[" ++ s ++ "]") Q := by
  obtain ⟨toks, hlexes, hderives⟩ := h
  have hopen : Separates "[" [.openBracket] := separates_punctuation rfl rfl
  have hclose : Separates "]" [.closeBracket] := separates_punctuation rfl rfl
  refine ⟨_, lexes_enclosed hspell hopen hclose nofun nofun hlexes, fun ls hls => ?_⟩
  obtain ⟨offset, closing, ls', rfl, hls'⟩ := map_token_enclosed hls
  obtain ⟨elem, helem, hP⟩ := hderives ls' hls'
  exact ⟨_, .list offset closing helem, hQ elem offset hP⟩

theorem arrow (h : Reads spell .applied s P) (h' : Reads spell .type s' P')
    (hQ : ∀ domain codomain, P domain → P' codomain → Q (.arrow domain codomain)) :
    Reads spell .type (s ++ " -> " ++ s') Q := by
  obtain ⟨toks, hlexes, hderives⟩ := h
  obtain ⟨toks', hlexes', hderives'⟩ := h'
  refine ⟨toks ++ [.arrow] ++ toks', ?_, fun ls hls => ?_⟩
  · rw [List.flatMap_append, List.flatMap_append, List.flatMap_singleton, hspell .arrow nofun]
    exact hlexes.join separates_arrow hlexes'
  · obtain ⟨offset, ls₁, ls₂, rfl, h₁, h₂⟩ := map_token_joined hls
    obtain ⟨domain, hdomain, hP⟩ := hderives ls₁ h₁
    obtain ⟨codomain, hcodomain, hP'⟩ := hderives' ls₂ h₂
    exact ⟨_, .arrow offset hdomain hcodomain, hQ domain codomain hP hP'⟩

end Reads

theorem keepsPunctuation_singleton : KeepsPunctuation fun token => [token] := fun _ _ => rfl

/-! ## Written types -/

theorem ne_arrow_of_isName {s : String} (h : IsName s) : s ≠ TyCon.arrow.id := by
  rintro rfl
  obtain ⟨c, cs, hcs, hbegins, _⟩ := h
  obtain ⟨rfl, rfl⟩ := List.cons.inj hcs
  exact absurd hbegins (by decide)

/-- `List` names the constructor of lists, or nothing. -/
def Constructors.ReservesList (cons : Constructors) : Prop :=
  ∀ k, cons.find? TyCon.list.id = some k → k = TyCon.list.kind

namespace Ty

/-- The head of a list or of a function, which is not written as an application. -/
def HasShorthand : Ty → Prop
  | .con c => c.id = TyCon.list.id
  | .app (.con c) _ => c.id = TyCon.arrow.id
  | _ => False

theorem render_app {f : Ty} (h : ¬f.HasShorthand) (x : Ty) (pos : Position) :
    (Ty.app f x).render pos = pos.wrap (f.render .operator ++ " " ++ x.render .atom) := by
  cases pos with
  | operator => rw [render]; rfl
  | outer | atom =>
    match f with
    | .var v => rfl
    | .gen n => rfl
    | .con c => exact if_neg h
    | .app (.con c) d => exact if_neg h
    | .app (.var v) d => rfl
    | .app (.gen v) d => rfl
    | .app (.app f x) d => rfl

theorem asFun?_app {f : Ty} (h : ¬f.HasShorthand) (x : Ty) : (Ty.app f x).asFun? = none := by
  match f with
  | .var v => rfl
  | .gen n => rfl
  | .con c => rfl
  | .app (.con c) d => exact if_neg h
  | .app (.var v) d => rfl
  | .app (.gen v) d => rfl
  | .app (.app f x) d => rfl

theorem Spellable.not_hasShorthand {f : Ty} (h : f.Spellable cons)
    (hlist : ∀ c, f = .con c → c.id ≠ TyCon.list.id) : ¬f.HasShorthand := by
  cases h with
  | var name var => exact fun h => h
  | con name con known => exact hlist _ rfl
  | arrow domain codomain _ _ => exact fun h => h
  | list elem _ => exact show TyCon.list.id ≠ TyCon.arrow.id by decide
  | app fn arg kind =>
    cases fn with
    | con name con known => exact ne_arrow_of_isName name
    | var | app | arrow | list => exact fun h => h

/-- In every position, the text of a type is read as a tree with the property. -/
structure Legible (spell : SignatureToken → List SignatureToken) (P : SignatureTree → Prop) (t : Ty) : Prop where
  operator : t.kind ≠ .star → Reads spell .applied (t.render .operator) P
  atom : Reads spell .atom (t.render .atom) P
  outer : Reads spell .type (t.render .outer) P
  domain : Reads spell .applied (t.render t.domainPosition) P

namespace Legible

variable {spell : SignatureToken → List SignatureToken} {P P' Q : SignatureTree → Prop}

theorem leaf {t : Ty} {s : String} (hrender : ∀ pos, t.render pos = s) (h : Reads spell .atom s P) :
    Legible spell P t where
  operator _ := hrender _ ▸ h.applied
  atom := hrender _ ▸ h
  outer := hrender _ ▸ h.applied.type
  domain := hrender _ ▸ h.applied

variable (hspell : KeepsPunctuation spell)
include hspell

theorem app {f x : Ty} {result : Kind} (hf : Legible spell P f) (hx : Legible spell P' x)
    (hkind : f.kind = .fn x.kind result) (hshort : ¬f.HasShorthand)
    (hQ : ∀ fn arg, P fn → P' arg → Q (.app fn arg)) : Legible spell Q (.app f x) := by
  have hrender := render_app hshort x
  have happ := (hf.operator (by rw [hkind]; exact Kind.noConfusion)).app hx.atom hQ
  have hpos : (Ty.app f x).domainPosition = .outer := by rw [domainPosition, asFun?_app hshort]; rfl
  exact ⟨fun _ => hrender _ ▸ happ, hrender _ ▸ happ.type.group hspell, hrender _ ▸ happ.type,
    hpos ▸ hrender _ ▸ happ⟩

theorem arrow {d c : Ty} (hd : Legible spell P d) (hc : Legible spell P' c)
    (hQ : ∀ domain codomain, P domain → P' codomain → Q (.arrow domain codomain)) : Legible spell Q (.fn d c) := by
  have harrow := hd.domain.arrow hspell hc.outer hQ
  exact ⟨fun hkind => absurd rfl hkind, harrow.group hspell, harrow, (harrow.group hspell).applied⟩

theorem list {e : Ty} (he : Legible spell P e) (hQ : ∀ elem offset, P elem → Q (.list elem offset)) :
    Legible spell Q (.list e) := by
  have hlist := he.outer.list hspell hQ
  exact ⟨fun hkind => absurd rfl hkind, hlist, hlist.applied.type, hlist.applied⟩

end Legible

/-- **Types that can be spelled are written so that they are read back.** -/
theorem Spellable.legible (hlist : cons.ReservesList) {t : Ty} (h : t.Spellable cons) (hkind : arities.GivesKinds t) :
    Legible (fun token => [token]) (Spells cons arities · t) t := by
  induction h with
  | @var v name var =>
    refine .leaf (s := v.id) (fun _ => rfl) (.name name rfl fun offset => ?_)
    have hspells : Spells cons arities (.name v.id offset) (.var ⟨v.id, .ofArity ((arities.find? v.id).getD 0)⟩) :=
      .var offset var
    rwa [← hkind v List.mem_cons_self] at hspells
  | @con c name con known =>
    refine .leaf (fun _ => if_neg (ne_arrow_of_isName name)) (.name name rfl fun offset => ?_)
    exact .con offset con known
  | @app f x result fn arg kind ihf ihx =>
    obtain ⟨hf, hx⟩ := List.forall_mem_append.1 hkind
    by_cases hcon : f = .con TyCon.list
    · -- A list whose constructor was spelled out is written in brackets all the same.
      subst hcon
      exact (ihx hx).list keepsPunctuation_singleton fun _ offset helem =>
        .list offset helem (Kind.fn.inj kind).1.symm
    · refine (ihf hf).app keepsPunctuation_singleton (ihx hx) kind (fn.not_hasShorthand fun c hc hid => hcon ?_)
        fun _ _ hfn harg => .app hfn harg kind
      subst hc
      cases fn with
      | con name con known =>
        rw [hid] at known
        exact congrArg Ty.con (congrArg₂ TyCon.mk hid (hlist _ known))
  | arrow _ _ domainKind codomainKind ihd ihc =>
    obtain ⟨hd, hc⟩ := List.forall_mem_append.1 hkind
    exact (ihd hd).arrow keepsPunctuation_singleton (ihc hc) fun _ _ hdomain hcodomain =>
      .arrow hdomain hcodomain domainKind codomainKind
  | list _ kind ih =>
    exact (ih hkind).list keepsPunctuation_singleton fun _ offset helem => .list offset helem kind

end Ty

/-! ## Written phrases -/

theorem Pred.Spellable.written (hlist : cons.ReservesList) {p : Pred}
    (h : p.Spellable cons) (hkind : arities.GivesKinds p.ty) :
    Written .type p.text (SpellsPred cons arities · p) := by
  have hclass : Written .atom p.className fun tree => ∃ o, tree = .name p.className o :=
    .name h.name rfl fun o => ⟨o, rfl⟩
  refine (hclass.applied.app (h.ty.legible hlist hkind).atom fun fn arg hfn harg => ?_).type
  obtain ⟨offset, rfl⟩ := hfn
  exact .intro offset h.className harg

variable {p : Pred} {ps : List Pred}

/-- The items of a context, up to the parenthesis that closes it. -/
theorem exists_items (h : ∀ q ∈ p :: ps, Written .type q.text (SpellsPred cons arities · q)) :
    ∃ toks, Lexes (", ".intercalate ((p :: ps).map Pred.text)) toks ∧
      ∀ ls closing, ls.map Lexeme.token = toks → ∃ trees,
        Derives .items (ls ++ [⟨.closeParen, closing⟩]) trees ∧
          List.Forall₂ (SpellsPred cons arities) trees (p :: ps) := by
  induction ps generalizing p with
  | nil =>
    obtain ⟨toks, hlexes, hderives⟩ := written_iff.1 (h p List.mem_cons_self)
    refine ⟨toks, by rwa [List.map_singleton, String.intercalate_singleton], fun ls closing hls => ?_⟩
    obtain ⟨tree, htree, hspells⟩ := hderives ls hls
    exact ⟨[tree], .last closing htree, .cons hspells .nil⟩
  | cons p' ps ih =>
    obtain ⟨hp, hps⟩ := List.forall_mem_cons.1 h
    obtain ⟨toks, hlexes, hderives⟩ := written_iff.1 hp
    obtain ⟨toks', hlexes', hderives'⟩ := ih hps
    have htext : ", ".intercalate ((p :: p' :: ps).map Pred.text) =
        p.text ++ ", " ++ ", ".intercalate ((p' :: ps).map Pred.text) := String.intercalate_cons_cons
    rw [htext]
    refine ⟨_, hlexes.join separates_comma hlexes', fun ls closing hls => ?_⟩
    obtain ⟨comma, ls₁, ls₂, rfl, h₁, h₂⟩ := map_token_joined hls
    obtain ⟨tree, htree, hspells⟩ := hderives ls₁ h₁
    obtain ⟨trees, htrees, hspells'⟩ := hderives' ls₂ closing h₂
    refine ⟨tree :: trees, ?_, .cons hspells hspells'⟩
    rw [List.append_assoc]
    exact .more comma htree htrees

theorem constraints_spell {first : SignatureTree} {trees : List SignatureTree}
    (h : List.Forall₂ (SpellsPred cons arities) trees ps)
    (hfirst : (∃ offset, first = .tuple trees offset) ∨ trees = [first]) :
    List.Forall₂ (SpellsPred cons arities) (SignaturePhrase.constraints first) ps := by
  rcases hfirst with ⟨_, rfl⟩ | rfl
  · exact h
  · cases h with
    | cons hspells hnil =>
      cases hspells with
      | intro offset name spells => exact .cons (.intro offset name spells) hnil

/-- The text is read as constraints on these predicates. -/
def WrittenContext (cons : Constructors) (arities : Arities) (s : String) (ps : List Pred) : Prop :=
  Written .type s fun tree => List.Forall₂ (SpellsPred cons arities) (SignaturePhrase.constraints tree) ps

/-- Constraints in parentheses. -/
theorem writtenContext_items (h : ∀ q ∈ p :: ps, Written .type q.text (SpellsPred cons arities · q)) :
    WrittenContext cons arities ("(" ++ ", ".intercalate ((p :: ps).map Pred.text) ++ ")") (p :: ps) := by
  obtain ⟨toks, hlexes, hderives⟩ := exists_items h
  have hopen : Separates "(" [.openParen] := separates_punctuation rfl rfl
  have hclose : Separates ")" [.closeParen] := separates_punctuation rfl rfl
  refine written_iff.2 ⟨_, (hopen.append_lexes hlexes).append_separates hclose, fun ls hls => ?_⟩
  obtain ⟨offset, closing, ls', rfl, hls'⟩ := map_token_enclosed hls
  obtain ⟨trees, htrees, hspells⟩ := hderives ls' closing hls'
  obtain ⟨first, hfirst, hcases⟩ := htrees.enclosed offset
  exact ⟨first, .plain (.head hfirst), constraints_spell hspells (hcases.imp_left fun h => ⟨offset, h⟩)⟩

/-- A single constraint needs no parentheses. -/
theorem writtenContext_singleton (h : Written .type p.text (SpellsPred cons arities · p)) :
    WrittenContext cons arities p.text [p] :=
  h.imp fun _ hspells => constraints_spell (.cons hspells .nil) (.inr rfl)

/-- A head on its own is read as a phrase. -/
theorem exists_ofString_plain {s : String} {P : SignatureTree → Prop} (hhead : Written .type s P)
    (hsingle : ∀ items offset, ¬P (.tuple items offset)) :
    ∃ phrase, SignaturePhrase.ofString s = .ok phrase ∧
      List.Forall₂ (SpellsPred cons arities) phrase.context [] ∧ P phrase.head := by
  obtain ⟨toks, hlexes, hderives⟩ := written_iff.1 hhead
  obtain ⟨ls, hscan, hls⟩ := exists_scan_iff.2 hlexes.scans
  obtain ⟨tree, htree, hP⟩ := hderives ls hls
  have hphrase : SignaturePhrase.Derives ls ⟨[], tree⟩ := .plain htree fun items offset he =>
    hsingle items offset (he ▸ hP)
  exact ⟨⟨[], tree⟩, bind_eq_ok.2 ⟨ls, hscan, SignaturePhrase.ofLexemes_eq_ok_iff.2 hphrase⟩, .nil, hP⟩

/-- A context and a head are read as a phrase. -/
theorem exists_ofString_qualified {c s : String} {P : SignatureTree → Prop}
    (hcontext : WrittenContext cons arities c ps) (hhead : Written .type s P) :
    ∃ phrase, SignaturePhrase.ofString (c ++ " => " ++ s) = .ok phrase ∧
      List.Forall₂ (SpellsPred cons arities) phrase.context ps ∧ P phrase.head := by
  obtain ⟨toks, hlexes, hderives⟩ := written_iff.1 hcontext
  obtain ⟨toks', hlexes', hderives'⟩ := written_iff.1 hhead
  obtain ⟨ls, hscan, hls⟩ := exists_scan_iff.2 (hlexes.join separates_fatArrow hlexes').scans
  obtain ⟨arrow, ls₁, ls₂, rfl, h₁, h₂⟩ := map_token_joined hls
  obtain ⟨first, hfirst, hspells⟩ := hderives ls₁ h₁
  obtain ⟨tree, htree, hP⟩ := hderives' ls₂ h₂
  have hphrase := SignaturePhrase.Derives.qualified arrow hfirst htree
  exact ⟨⟨SignaturePhrase.constraints first, tree⟩,
    bind_eq_ok.2 ⟨_, hscan, SignaturePhrase.ofLexemes_eq_ok_iff.2 hphrase⟩, hspells, hP⟩

theorem contextText_cons (p : Pred) (ps : List Pred) :
    contextText (p :: ps) = "(" ++ ", ".intercalate ((p :: ps).map Pred.text) ++ ")" ++ " => " := by
  have hend : ")" ++ " => " = ") => " := by decide
  rw [String.append_assoc, hend]
  rfl

/-- The way of writing contexts gives phrases that are read back, in front of every head. -/
def WritesContexts (text : List Pred → String) : Prop :=
  ∀ {cons : Constructors} {arities : Arities} {ps : List Pred} {s : String} {P : SignatureTree → Prop},
    (∀ p ∈ ps, Written .type p.text (SpellsPred cons arities · p)) → Written .type s P →
    (∀ items offset, ¬P (.tuple items offset)) →
    ∃ phrase, SignaturePhrase.ofString (text ps ++ s) = .ok phrase ∧
      List.Forall₂ (SpellsPred cons arities) phrase.context ps ∧ P phrase.head

theorem writesContexts_contextText : WritesContexts contextText := by
  intro cons arities ps s P hcontext hhead hsingle
  cases ps with
  | nil =>
    rw [contextText, String.empty_append]
    exact exists_ofString_plain hhead hsingle
  | cons p ps =>
    rw [contextText_cons]
    exact exists_ofString_qualified (writtenContext_items hcontext) hhead

/-- A context as text, where a single constraint stands without parentheses. -/
def contextSignature : List Pred → String
  | [p] => p.text ++ " => "
  | ps => contextText ps

theorem writesContexts_contextSignature : WritesContexts contextSignature := by
  intro cons arities ps s P hcontext hhead hsingle
  match ps with
  | [] => exact writesContexts_contextText hcontext hhead hsingle
  | [p] => exact exists_ofString_qualified (writtenContext_singleton (hcontext p List.mem_cons_self)) hhead
  | p :: p' :: ps => exact writesContexts_contextText hcontext hhead hsingle

end QualifiedTypes
