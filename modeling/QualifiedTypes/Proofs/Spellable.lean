import QualifiedTypes.Proofs.Grammar
import QualifiedTypes.Proofs.Lexing
import QualifiedTypes.Proofs.Spelling

/-!
# The phrases that signatures can spell

What is read from a signature is of a particular form, which does not mention the signature: names are names,
constructors have their kinds from the table, and variables have theirs from the number of arguments they are
applied to.

* `Ty.uses`: the variables of a type, each with the number of its arguments.
* `Ty.Spellable`, `Pred.Spellable`: the form of a type and of a predicate, with `Ty.canSpell` to test for it.
* `UsesAgree`: the condition on the variables of a whole phrase.
* `readQual_spellable`, `readInstance_spellable`: what is read is of this form.
-/

namespace QualifiedTypes

variable {cons : Constructors} {arities : Arities}

/-! ## Uses of variables -/

/-- The variables of a type that is itself applied to `args` arguments, from left to right, each with the
number of arguments that it is applied to. -/
def Ty.uses : Nat → Ty → List (TyVar × Nat)
  | args, .var v => [(v, args)]
  | args, .app f x => f.uses (args + 1) ++ x.uses 0
  | _, _ => []

theorem Ty.map_fst_uses (t : Ty) (args : Nat) : (t.uses args).map Prod.fst = t.occurrences := by
  induction t generalizing args with
  | var v => rfl
  | con c => rfl
  | gen n => rfl
  | app f x ihf ihx => rw [uses, List.map_append, ihf, ihx, occurrences]

/-- The uses of variables in a phrase. -/
def uses {α : Type} [HasTypes α] (x : α) : List (TyVar × Nat) := (types x).flatMap (Ty.uses 0)

/-- Each variable of a phrase is applied to the same number of arguments wherever it stands, and that is where
its kind comes from. -/
structure UsesAgree {α : Type} [HasTypes α] (x : α) : Prop where
  arity : ∀ u ∈ uses x, ∀ w ∈ uses x, u.1.id = w.1.id → u.2 = w.2
  kind : ∀ u ∈ uses x, u.1.kind = .ofArity u.2

instance {α : Type} [HasTypes α] (x : α) : Decidable (UsesAgree x) :=
  decidable_of_iff ((∀ u ∈ uses x, ∀ w ∈ uses x, u.1.id = w.1.id → u.2 = w.2) ∧ ∀ u ∈ uses x, u.1.kind = .ofArity u.2)
    ⟨fun h => ⟨h.1, h.2⟩, fun h => ⟨h.arity, h.kind⟩⟩

/-! ## The first pass over a signature -/

namespace Arities

theorem note_eq_ok_iff {known known' : Arities} {s : String} {n offset : Nat} :
    known.note s n offset = .ok known' ↔ (known.find? s = none ∧ known' = known.insert s n) ∨
      (known.find? s = some n ∧ known' = known) := by
  unfold note
  split
  · rename_i hnone
    simp [hnone, eq_comm]
  · rename_i m hsome
    split
    · rename_i hm
      simp [hsome, hm, eq_comm]
    · rename_i hm
      simp [hsome, hm]

/-- Record some uses, from left to right. -/
def noteUses (known : Arities) (us : List (TyVar × Nat)) : Except SignatureError Arities :=
  us.foldlM (fun known u => known.note u.1.id u.2 0) known

theorem noteUses_cons {known known' : Arities} {u : TyVar × Nat} {us : List (TyVar × Nat)} :
    known.noteUses (u :: us) = .ok known' ↔
      ∃ mid, known.note u.1.id u.2 0 = .ok mid ∧ mid.noteUses us = .ok known' := by
  unfold noteUses
  rw [List.foldlM_cons]
  exact bind_eq_ok

theorem noteUses_append {known known' : Arities} {us us' : List (TyVar × Nat)} :
    known.noteUses (us ++ us') = .ok known' ↔
      ∃ mid, known.noteUses us = .ok mid ∧ mid.noteUses us' = .ok known' := by
  unfold noteUses
  rw [List.foldlM_append]
  exact bind_eq_ok

/-- What has been recorded is kept. -/
theorem find?_of_noteUses {known known' : Arities} {us : List (TyVar × Nat)} (h : known.noteUses us = .ok known')
    {s : String} {n : Nat} (hs : known.find? s = some n) : known'.find? s = some n := by
  induction us generalizing known with
  | nil =>
    cases h
    exact hs
  | cons u us ih =>
    obtain ⟨mid, hmid, h⟩ := noteUses_cons.1 h
    refine ih h ?_
    rcases note_eq_ok_iff.1 hmid with ⟨hnone, rfl⟩ | ⟨_, rfl⟩
    · have hne : s ≠ u.1.id := fun he => by rw [he, hnone] at hs; cases hs
      rw [NameMap.find?_insert_of_ne _ hne, hs]
    · exact hs

/-- Every use is recorded. -/
theorem find?_of_mem_uses {known known' : Arities} {us : List (TyVar × Nat)} (h : known.noteUses us = .ok known') :
    ∀ u ∈ us, known'.find? u.1.id = some u.2 := by
  induction us generalizing known with
  | nil => exact fun u hu => nomatch hu
  | cons u us ih =>
    obtain ⟨mid, hmid, h⟩ := noteUses_cons.1 h
    refine List.forall_mem_cons.2 ⟨find?_of_noteUses h ?_, ih h⟩
    rcases note_eq_ok_iff.1 hmid with ⟨_, rfl⟩ | ⟨hsome, rfl⟩
    · exact NameMap.find?_insert_self ..
    · exact hsome

/-- Uses that agree with each other and with what is known can be recorded. -/
theorem exists_noteUses {known : Arities} {us : List (TyVar × Nat)}
    (h : ∀ u ∈ us, ∀ w ∈ us, u.1.id = w.1.id → u.2 = w.2)
    (hknown : ∀ u ∈ us, ∀ n, known.find? u.1.id = some n → n = u.2) :
    ∃ known', known.noteUses us = .ok known' := by
  induction us generalizing known with
  | nil => exact ⟨known, rfl⟩
  | cons u us ih =>
    obtain ⟨hu, hus⟩ := List.forall_mem_cons.1 hknown
    have hrest := fun v hv w hw => h v (List.mem_cons_of_mem _ hv) w (List.mem_cons_of_mem _ hw)
    cases hfind : known.find? u.1.id with
    | none =>
      have hinsert : ∀ w ∈ us, ∀ n, (known.insert u.1.id u.2).find? w.1.id = some n → n = w.2 := by
        intro w hw n hn
        by_cases he : w.1.id = u.1.id
        · rw [he, NameMap.find?_insert_self] at hn
          rw [← Option.some.inj hn, h u List.mem_cons_self w (List.mem_cons_of_mem _ hw) he.symm]
        · rw [NameMap.find?_insert_of_ne _ he] at hn
          exact hus w hw n hn
      obtain ⟨known', hknown'⟩ := ih hrest hinsert
      exact ⟨known', noteUses_cons.2 ⟨_, note_eq_ok_iff.2 (.inl ⟨hfind, rfl⟩), hknown'⟩⟩
    | some n =>
      obtain ⟨known', hknown'⟩ := ih hrest hus
      exact ⟨known', noteUses_cons.2 ⟨known, note_eq_ok_iff.2 (.inr ⟨hu n hfind ▸ hfind, rfl⟩), hknown'⟩⟩

/-- The kinds of the variables of a type are those of the recorded arities. -/
def GivesKinds (arities : Arities) (t : Ty) : Prop :=
  ∀ v ∈ t.occurrences, v.kind = .ofArity ((arities.find? v.id).getD 0)

end Arities

/-- The pass records these uses, apart from the offsets in its errors. -/
def Records (pass : Arities → Except SignatureError Arities) (us : List (TyVar × Nat)) : Prop :=
  ∀ known known', pass known = .ok known' ↔ known.noteUses us = .ok known'

namespace Records

theorem nothing : Records .ok [] := fun _ _ => Iff.rfl

theorem note (v : TyVar) (n offset : Nat) : Records (fun known => known.note v.id n offset) [(v, n)] := by
  intro known known'
  rw [Arities.noteUses_cons]
  constructor
  · exact fun h => ⟨known', Arities.note_eq_ok_iff.2 (Arities.note_eq_ok_iff.1 h), rfl⟩
  · rintro ⟨mid, hmid, h⟩
    cases h
    exact Arities.note_eq_ok_iff.2 (Arities.note_eq_ok_iff.1 hmid)

theorem andThen {pass pass' : Arities → Except SignatureError Arities} {us us' : List (TyVar × Nat)}
    (h : Records pass us) (h' : Records pass' us') :
    Records (fun known => pass known >>= pass') (us ++ us') := by
  intro known known'
  rw [bind_eq_ok, Arities.noteUses_append]
  exact exists_congr fun mid => and_congr (h known mid) (h' mid known')

end Records

namespace SignatureTree

/-- The uses that are recorded from a tree are those of the type that it spells. -/
theorem Spells.records {tree : SignatureTree} {t : Ty} (h : Spells cons arities tree t) (args : Nat) :
    Records (fun known => tree.noteArities known args) (t.uses args) := by
  induction h generalizing args with
  | @var s offset name =>
    simp only [noteArities, name, if_true]
    exact .note ⟨s, _⟩ args offset
  | con offset name known =>
    simp only [noteArities, name, Bool.false_eq_true, if_false]
    exact .nothing
  | app _ _ _ ihf ihx =>
    simp only [noteArities]
    exact (ihf (args + 1)).andThen (ihx 0)
  | arrow _ _ _ _ ihd ihc =>
    simp only [noteArities]
    exact (ihd 0).andThen (ihc 0)
  | list offset _ _ ih =>
    simp only [noteArities]
    exact ih 0

theorem SpellsPred.records {tree : SignatureTree} {p : Pred} (h : SpellsPred cons arities tree p) :
    Records (fun known => tree.noteArities known 0) (p.ty.uses 0) := by
  cases h with
  | intro offset name spells =>
    simp only [noteArities, name, Bool.false_eq_true, if_false]
    exact Records.nothing.andThen (spells.records 0)

theorem records_noteAll {trees : List SignatureTree} {ts : List Ty}
    (h : List.Forall₂ (fun tree t => Records (fun known => tree.noteArities known 0) (t.uses 0)) trees ts) :
    Records (fun known => noteAll known trees) (ts.flatMap (Ty.uses 0)) := by
  induction h with
  | nil =>
    simp only [noteAll]
    exact .nothing
  | cons htree _ ih =>
    simp only [noteAll]
    exact htree.andThen ih

end SignatureTree

theorem types_context (ps : List Pred) : types ps = ps.map Pred.ty := by
  induction ps with
  | nil => rfl
  | cons p ps ih => exact congrArg (p.ty :: ·) ih

open SignatureTree in
/-- The uses that are recorded from a phrase are those of what it spells. -/
theorem SignaturePhrase.records {α : Type} [HasTypes α] {phrase : SignaturePhrase} {q : Qual α} {t : Ty}
    (hcontext : List.Forall₂ (SpellsPred cons arities) phrase.context q.context) (ht : types q.head = [t])
    (hhead : Records (fun known => phrase.head.noteArities known 0) (t.uses 0)) :
    Records (fun known => noteAll known (phrase.context ++ [phrase.head])) (uses q) := by
  have hpreds : List.Forall₂ (fun tree t => Records (fun known => tree.noteArities known 0) (t.uses 0))
      phrase.context (types q.context) := by
    rw [types_context, List.forall₂_map_right_iff]
    exact hcontext.imp fun _ _ hp => hp.records
  have htypes : types q = types q.context ++ [t] := by rw [← ht]; rfl
  unfold uses
  rw [htypes]
  exact records_noteAll (List.rel_append hpreds (.cons hhead .nil))

/-! ## The form of what is spelled -/

open Lexeme

/-- The types that can be spelled, given the kinds of their variables. -/
inductive Ty.Spellable (cons : Constructors) : Ty → Prop where
  | var {v : TyVar} (name : IsName v.id) (var : isVarName v.id = true) : Spellable cons (.var v)
  | con {c : TyCon} (name : IsName c.id) (con : isVarName c.id = false)
      (known : cons.find? c.id = some c.kind) : Spellable cons (.con c)
  | app {f x : Ty} {result : Kind} (fn : Spellable cons f) (arg : Spellable cons x)
      (kind : f.kind = .fn x.kind result) : Spellable cons (.app f x)
  | arrow {d c : Ty} (domain : Spellable cons d) (codomain : Spellable cons c) (domainKind : d.kind = .star)
      (codomainKind : c.kind = .star) : Spellable cons (.fn d c)
  | list {e : Ty} (elem : Spellable cons e) (kind : e.kind = .star) : Spellable cons (.list e)

/-- The predicates that can be spelled, given the kinds of their variables. -/
structure Pred.Spellable (cons : Constructors) (p : Pred) : Prop where
  name : IsName p.className
  className : isVarName p.className = false
  ty : p.ty.Spellable cons

namespace Ty

/-- Whether an argument of a kind can follow. -/
def takes (f : Ty) (k : Kind) : Bool :=
  match f.kind with
  | .fn arg _ => arg = k
  | .star => false

theorem takes_iff {f : Ty} {k : Kind} : f.takes k = true ↔ ∃ result, f.kind = .fn k result := by
  unfold takes
  split
  · rename_i arg result hf
    rw [decide_eq_true_iff, hf]
    constructor
    · rintro rfl
      exact ⟨result, rfl⟩
    · rintro ⟨_, he⟩
      exact (Kind.fn.inj he).1
  · rename_i hf
    rw [hf]
    exact ⟨fun h => (nomatch h), fun ⟨_, h⟩ => nomatch h⟩

/-- Whether a type can be spelled. -/
def canSpell (cons : Constructors) : Ty → Bool
  | .var v => IsName v.id ∧ isVarName v.id = true
  | .con c => IsName c.id ∧ isVarName c.id = false ∧ cons.find? c.id = some c.kind
  | .gen _ => false
  | .app (.con c) x =>
    x.canSpell cons && (decide (c = .list ∧ x.kind = .star) || (Ty.con c).canSpell cons && (Ty.con c).takes x.kind)
  | .app (.app (.con c) d) x =>
    x.canSpell cons && (d.canSpell cons && decide (c = .arrow ∧ d.kind = .star ∧ x.kind = .star) ||
      (Ty.app (.con c) d).canSpell cons && (Ty.app (.con c) d).takes x.kind)
  | .app f x => x.canSpell cons && (f.canSpell cons && f.takes x.kind)

theorem canSpell_iff {t : Ty} : t.canSpell cons = true ↔ t.Spellable cons := by
  fun_induction t.canSpell cons with
  | case1 v =>
    rw [decide_eq_true_iff]
    exact ⟨fun h => .var h.1 h.2, fun h => by cases h with | var name var => exact ⟨name, var⟩⟩
  | case2 c =>
    rw [decide_eq_true_iff]
    exact ⟨fun h => .con h.1 h.2.1 h.2.2, fun h => by cases h with | con name con known => exact ⟨name, con, known⟩⟩
  | case3 n => exact ⟨fun h => (nomatch h), fun h => nomatch h⟩
  | case4 c x ihx ihf =>
    simp only [Bool.and_eq_true, Bool.or_eq_true, decide_eq_true_iff, ihx, ihf, takes_iff]
    constructor
    · rintro ⟨hx, ⟨rfl, hkind⟩ | ⟨hf, _, hkind⟩⟩
      · exact .list hx hkind
      · exact .app hf hx hkind
    · intro h
      cases h with
      | app fn arg kind => exact ⟨arg, .inr ⟨fn, _, kind⟩⟩
      | list elem kind => exact ⟨elem, .inl ⟨rfl, kind⟩⟩
  | case5 c d x ihx ihd ihf =>
    simp only [Bool.and_eq_true, Bool.or_eq_true, decide_eq_true_iff, ihx, ihd, ihf, takes_iff]
    constructor
    · rintro ⟨hx, ⟨hd, rfl, hdk, hxk⟩ | ⟨hf, _, hkind⟩⟩
      · exact .arrow hd hx hdk hxk
      · exact .app hf hx hkind
    · intro h
      cases h with
      | app fn arg kind => exact ⟨arg, .inr ⟨fn, _, kind⟩⟩
      | arrow domain codomain dk ck => exact ⟨codomain, .inl ⟨domain, rfl, dk, ck⟩⟩
  | case6 f x hcon happ ihx ihf =>
    simp only [Bool.and_eq_true, ihx, ihf, takes_iff]
    constructor
    · rintro ⟨hx, hf, _, hkind⟩
      exact .app hf hx hkind
    · intro h
      cases h with
      | app fn arg kind => exact ⟨arg, fn, _, kind⟩
      | arrow => exact (happ _ _ rfl).elim
      | list => exact (hcon _ rfl).elim

instance (t : Ty) : Decidable (t.Spellable cons) := decidable_of_iff _ canSpell_iff

end Ty

instance (p : Pred) : Decidable (p.Spellable cons) :=
  decidable_of_iff (IsName p.className ∧ isVarName p.className = false ∧ p.ty.Spellable cons)
    ⟨fun h => ⟨h.1, h.2.1, h.2.2⟩, fun h => ⟨h.name, h.className, h.ty⟩⟩

/-- The name that a lexeme holds. -/
def Lexeme.name? (l : Lexeme) : Option String :=
  match l.token with
  | .name s => some s
  | _ => none

namespace SignatureTree

mutual

/-- The names of a tree, from left to right. -/
def names : SignatureTree → List String
  | .name s _ => [s]
  | .app fn arg => fn.names ++ arg.names
  | .arrow domain codomain => domain.names ++ codomain.names
  | .list elem _ => elem.names
  | .tuple items _ => namesAll items

/-- The names of some trees, from left to right. -/
def namesAll : List SignatureTree → List String
  | [] => []
  | tree :: rest => tree.names ++ namesAll rest

end

/-- The trees that lexemes denote have the names of the lexemes. -/
theorem Derives.namesAll {part : Part} {ls : List Lexeme} {trees : List SignatureTree}
    (h : Derives part ls trees) : namesAll trees = ls.filterMap Lexeme.name? := by
  induction h with
  | name s offset => rfl
  | group _ _ _ ih => simpa [Lexeme.name?, List.filterMap_cons] using ih
  | tuple _ _ _ _ ih ih' => simp [SignatureTree.namesAll, names, Lexeme.name?, List.filterMap_cons, ← ih, ← ih']
  | list _ _ _ ih => simp [SignatureTree.namesAll, names, Lexeme.name?, List.filterMap_cons, ← ih]
  | head _ ih => exact ih
  | app _ _ ih ih' => simp [SignatureTree.namesAll, names, ← ih, ← ih']
  | plain _ ih => exact ih
  | arrow _ _ _ ih ih' => simp [SignatureTree.namesAll, names, Lexeme.name?, List.filterMap_cons, ← ih, ← ih']
  | last _ _ ih => simp [SignatureTree.namesAll, Lexeme.name?, List.filterMap_cons, ← ih]
  | more _ _ _ ih ih' => simp [SignatureTree.namesAll, Lexeme.name?, List.filterMap_cons, ← ih, ← ih']

theorem Spells.givesKinds {tree : SignatureTree} {t : Ty} (h : Spells cons arities tree t) :
    arities.GivesKinds t := by
  induction h with
  | var offset name => exact List.forall_mem_singleton.2 rfl
  | con offset name known => exact fun v hv => nomatch hv
  | app _ _ _ ihf ihx => exact List.forall_mem_append.2 ⟨ihf, ihx⟩
  | arrow _ _ _ _ ihd ihc => exact List.forall_mem_append.2 ⟨ihd, ihc⟩
  | list offset _ _ ih => exact ih

theorem Spells.spellable {tree : SignatureTree} {t : Ty} (h : Spells cons arities tree t)
    (hnames : ∀ s ∈ tree.names, IsName s) : t.Spellable cons := by
  induction h with
  | var offset name => exact .var (hnames _ List.mem_cons_self) name
  | con offset name known => exact .con (hnames _ List.mem_cons_self) name known
  | app _ _ kind ihf ihx =>
    obtain ⟨hf, hx⟩ := List.forall_mem_append.1 hnames
    exact .app (ihf hf) (ihx hx) kind
  | arrow _ _ leftKind rightKind ihd ihc =>
    obtain ⟨hd, hc⟩ := List.forall_mem_append.1 hnames
    exact .arrow (ihd hd) (ihc hc) leftKind rightKind
  | list offset _ kind ih => exact .list (ih hnames) kind

theorem SpellsPred.spellable {tree : SignatureTree} {p : Pred} (h : SpellsPred cons arities tree p)
    (hnames : ∀ s ∈ tree.names, IsName s) : p.Spellable cons := by
  cases h with
  | intro offset name spells =>
    obtain ⟨hclass, harg⟩ := List.forall_mem_append.1 hnames
    exact ⟨hclass _ List.mem_cons_self, name, spells.spellable harg⟩

theorem spellable_of_spellsPreds {trees : List SignatureTree} {ps : List Pred}
    (h : List.Forall₂ (SpellsPred cons arities) trees ps) (hnames : ∀ s ∈ namesAll trees, IsName s) :
    ∀ p ∈ ps, p.Spellable cons := by
  induction h with
  | nil => exact fun p hp => nomatch hp
  | cons hp _ ih =>
    obtain ⟨htree, hrest⟩ := List.forall_mem_append.1 hnames
    exact List.forall_mem_cons.2 ⟨hp.spellable htree, ih hrest⟩

end SignatureTree

open SignatureTree

theorem namesAll_constraints (tree : SignatureTree) :
    namesAll (SignaturePhrase.constraints tree) = tree.names := by
  cases tree <;> simp [SignaturePhrase.constraints, namesAll, names]

theorem SignaturePhrase.Derives.names {ls : List Lexeme} {phrase : SignaturePhrase}
    (h : SignaturePhrase.Derives ls phrase) :
    namesAll phrase.context ++ phrase.head.names = ls.filterMap Lexeme.name? := by
  cases h with
  | plain head single =>
    have hhead := head.namesAll
    simpa [namesAll] using hhead
  | qualified offset context head =>
    have hcontext := context.namesAll
    have hhead := head.namesAll
    simp only [namesAll, List.append_nil] at hcontext hhead
    simp [namesAll_constraints, Lexeme.name?, List.filterMap_cons, hcontext, hhead]

/-- The names of a phrase that is read are names. -/
theorem isName_of_ofString {src : String} {phrase : SignaturePhrase}
    (h : SignaturePhrase.ofString src = .ok phrase) :
    (∀ s ∈ namesAll phrase.context, IsName s) ∧ ∀ s ∈ phrase.head.names, IsName s := by
  obtain ⟨ls, hscan, hphrase⟩ := bind_eq_ok.1 h
  have hscans := exists_scan_iff.1 ⟨ls, hscan, rfl⟩
  have hnames := (SignaturePhrase.ofLexemes_eq_ok_iff.1 hphrase).names
  rw [← List.forall_mem_append, hnames]
  intro s hs
  obtain ⟨l, hl, hname⟩ := List.mem_filterMap.1 hs
  refine hscans.isName s (List.mem_map.2 ⟨l, hl, ?_⟩)
  unfold Lexeme.name? at hname
  split at hname
  · rename_i htoken
    cases hname
    exact htoken
  · cases hname

theorem mem_occurrences_of_mem_uses {α : Type} [HasTypes α] {x : α} {u : TyVar × Nat} (h : u ∈ uses x) :
    ∃ t ∈ types x, u.1 ∈ t.occurrences := by
  obtain ⟨t, ht, hu⟩ := List.mem_flatMap.1 h
  exact ⟨t, ht, t.map_fst_uses 0 ▸ List.mem_map_of_mem hu⟩

/-- Uses that were recorded agree. -/
theorem usesAgree_of_noteUses {α : Type} [HasTypes α] {x : α} (h : Arities.noteUses .empty (uses x) = .ok arities)
    (hspells : ∀ t ∈ types x, ∃ tree, Spells cons arities tree t) : UsesAgree x where
  arity u hu w hw hid := by
    have hfind := Arities.find?_of_mem_uses h u hu
    rw [hid, Arities.find?_of_mem_uses h w hw] at hfind
    exact (Option.some.inj hfind).symm
  kind u hu := by
    obtain ⟨t, ht, hv⟩ := mem_occurrences_of_mem_uses hu
    obtain ⟨tree, hspells⟩ := hspells t ht
    rw [hspells.givesKinds _ hv, Arities.find?_of_mem_uses h u hu]
    rfl

/-- Uses that agree can be recorded, and the kinds of the variables are then those of the record. -/
theorem UsesAgree.exists_noteUses {α : Type} [HasTypes α] {x : α} (h : UsesAgree x) :
    ∃ arities, Arities.noteUses .empty (uses x) = .ok arities ∧ ∀ t ∈ types x, arities.GivesKinds t := by
  have hempty : ∀ u ∈ uses x, ∀ n, (NameMap.empty : Arities).find? u.1.id = some n → n = u.2 :=
    fun u _ n hn => nomatch hn
  obtain ⟨arities, harities⟩ := Arities.exists_noteUses h.arity hempty
  refine ⟨arities, harities, fun t ht v hv => ?_⟩
  rw [← t.map_fst_uses 0] at hv
  obtain ⟨u, hu, rfl⟩ := List.mem_map.1 hv
  have hmem : u ∈ uses x := List.mem_flatMap.2 ⟨t, ht, hu⟩
  rw [h.kind u hmem, Arities.find?_of_mem_uses harities u hmem]
  rfl

/-- The qualified types that can be spelled. -/
structure Qual.Spellable (cons : Constructors) (q : Qual Ty) : Prop where
  context : ∀ p ∈ q.context, p.Spellable cons
  head : q.head.Spellable cons
  kind : q.head.kind = .star
  uses : UsesAgree q

instance (q : Qual Ty) : Decidable (q.Spellable cons) :=
  decidable_of_iff ((∀ p ∈ q.context, p.Spellable cons) ∧ q.head.Spellable cons ∧ q.head.kind = .star ∧ UsesAgree q)
    ⟨fun h => ⟨h.1, h.2.1, h.2.2.1, h.2.2.2⟩, fun h => ⟨h.context, h.head, h.kind, h.uses⟩⟩

/-- The instances that can be spelled. -/
structure Instance.Spellable (cons : Constructors) (i : Instance) : Prop where
  context : ∀ p ∈ i.context, p.Spellable cons
  head : i.head.Spellable cons
  uses : UsesAgree i

instance (i : Instance) : Decidable (Instance.Spellable cons i) :=
  decidable_of_iff ((∀ p ∈ i.context, p.Spellable cons) ∧ i.head.Spellable cons ∧ UsesAgree i)
    ⟨fun h => ⟨h.1, h.2.1, h.2.2⟩, fun h => ⟨h.context, h.head, h.uses⟩⟩

/-- **What is read as a qualified type can be spelled.** -/
theorem readQual_spellable {src : String} {q : Qual Ty} (h : readQual cons src = .ok q) : q.Spellable cons := by
  obtain ⟨phrase, arities, hphrase, harities, hcontext, hhead, hkind⟩ := readQual_eq_ok_iff.1 h
  obtain ⟨hnames, hnames'⟩ := isName_of_ofString hphrase
  have hrecords := SignaturePhrase.records hcontext rfl (hhead.records 0)
  have hspells : ∀ t ∈ types q, ∃ tree, Spells cons arities tree t :=
    forall_mem_types_qual.2 ⟨exists_spells_of_spellsPreds hcontext, List.forall_mem_singleton.2 ⟨_, hhead⟩⟩
  exact ⟨spellable_of_spellsPreds hcontext hnames, hhead.spellable hnames', hkind,
    usesAgree_of_noteUses ((hrecords _ _).1 harities) hspells⟩

/-- **What is read as an instance can be spelled.** -/
theorem readInstance_spellable {src : String} {i : Instance} (h : readInstance cons src = .ok i) :
    i.Spellable cons := by
  obtain ⟨phrase, arities, hphrase, harities, hcontext, hhead⟩ := readInstance_eq_ok_iff.1 h
  obtain ⟨hnames, hnames'⟩ := isName_of_ofString hphrase
  have hrecords := SignaturePhrase.records hcontext rfl hhead.records
  have hspells : ∀ t ∈ types i, ∃ tree, Spells cons arities tree t :=
    forall_mem_types_qual.2 ⟨exists_spells_of_spellsPreds hcontext, List.forall_mem_singleton.2
      (exists_spells_of_spellsPreds (.cons hhead .nil) _ List.mem_cons_self)⟩
  exact ⟨spellable_of_spellsPreds hcontext hnames, hhead.spellable hnames',
    usesAgree_of_noteUses ((hrecords _ _).1 harities) hspells⟩

end QualifiedTypes
