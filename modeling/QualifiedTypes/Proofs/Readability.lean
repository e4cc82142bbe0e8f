import QualifiedTypes.Proofs.Printing
import QualifiedTypes.Proofs.WellKinded

/-!
# Unique readability

The text of a type tells which type it is, as long as its names are those of signatures and each of them has one
kind.  Signatures cannot spell the arrow on its own, but the grammar still applies to a text that holds it: its
three tokens are taken for a name first.

* `Lexeme.beginsName_iff`: letters are neither white space nor punctuation, so they can only begin names.
* `SignatureToken.written`, `joinArrows`: tokens with arrows as names, and the tokens that they are written with.
* `Reads.exists_common_tree`: a text is read as one tree, whatever is known about it.
* `SignatureTree.asTy?`, `Ty.Presentable.shown`: the text of a type with such names is read as a tree that denotes
  it, in every position.
* `Ty.eq_of_text_eq`: **types with one text are equal.**
-/

namespace QualifiedTypes

open Lexeme SignatureTree

/-! ## Names -/

/-- White space is not alphabetic. -/
theorem Text.isAlphabetic_of_isBlank {c : Char} (h : isBlank c = true) : isAlphabetic c = false := by
  have hascii : ∀ n < 0x80, isBlank (Char.ofNat n) = true → isAlphabetic (Char.ofNat n) = false := by decide
  -- Beyond ASCII, no range of one table meets a range of the other.
  have hapart : ∀ b ∈ blankRanges, ∀ a ∈ alphabeticRanges, b.2 < a.1 ∨ a.2 < b.1 := by decide +kernel
  by_cases hc : c.toNat < 0x80
  · rw [← Char.ofNat_toNat c] at h ⊢
    exact hascii _ hc h
  · rw [isBlank, if_neg hc, inRanges, List.any_eq_true] at h
    obtain ⟨b, hb, hin⟩ := h
    rw [isAlphabetic, if_neg hc, inRanges, List.any_eq_false]
    intro a ha hin'
    simp only [Bool.and_eq_true, decide_eq_true_eq] at hin hin'
    have := hapart b hb a ha
    omega

namespace Lexeme

theorem isNameStart_of_isBlank {c : Char} (h : Text.isBlank c = true) : isNameStart c = false := by
  have hne : c ≠ '_' := by
    rintro rfl
    exact absurd h (by decide)
  rw [isNameStart, Text.isAlphabetic_of_isBlank h, beq_false_of_ne hne, Bool.or_false]

theorem isNameStart_of_punctuation? {c : Char} {token : SignatureToken} (h : punctuation? c = some token) :
    isNameStart c = false := by
  unfold punctuation? at h
  split at h
  case h_6 => cases h
  all_goals decide

theorem isNameStart_of_arrow? {c : Char} {token : SignatureToken} (h : arrow? c = some token) :
    isNameStart c = false := by
  unfold arrow? at h
  split at h
  case h_3 => cases h
  all_goals decide

theorem beginsName_iff {c : Char} : BeginsName c ↔ isNameStart c = true := by
  refine ⟨BeginsName.start, fun h => ⟨?_, ?_, ?_, h⟩⟩
  · exact Bool.eq_false_iff.2 fun hblank => Bool.false_ne_true ((isNameStart_of_isBlank hblank).symm.trans h)
  · exact Option.eq_none_iff_forall_ne_some.2 fun token htoken =>
      Bool.false_ne_true ((isNameStart_of_punctuation? htoken).symm.trans h)
  · exact Option.eq_none_iff_forall_ne_some.2 fun token htoken =>
      Bool.false_ne_true ((isNameStart_of_arrow? htoken).symm.trans h)

end Lexeme

/-- Whether the text begins with such a character, and goes on with letters, digits, underscores and primes. -/
def beginsWith (start : Char → Bool) (s : String) : Bool :=
  match s.toList with
  | [] => false
  | c :: cs => start c && cs.all isNameRest

/-- Whether a text is the name of a variable: it begins with a lower-case letter or an underscore. -/
def isVarId : String → Bool := beginsWith fun c => Text.isAlphabetic c && Text.isLowercase c || c == '_'

/-- Whether a text is the name of a constructor: it begins with a letter that is not lower-case. -/
def isConId : String → Bool := beginsWith fun c => Text.isAlphabetic c && !Text.isLowercase c

theorem exists_of_beginsWith {start : Char → Bool} {s : String} (h : beginsWith start s = true) :
    ∃ c cs, s.toList = c :: cs ∧ start c = true ∧ ∀ d ∈ cs, isNameRest d = true := by
  unfold beginsWith at h
  split at h
  · cases h
  · rename_i c cs hs
    obtain ⟨hc, hcs⟩ := Bool.and_eq_true_iff.1 h
    exact ⟨c, cs, hs, hc, List.all_eq_true.1 hcs⟩

theorem isName_and_isVarName_of_isVarId {s : String} (h : isVarId s = true) : IsName s ∧ isVarName s = true := by
  obtain ⟨c, cs, hs, hc, hcs⟩ := exists_of_beginsWith h
  have hstart : isNameStart c = true ∧ (Text.isLowercase c || c == '_') = true := by
    unfold isNameStart
    grind
  refine ⟨⟨c, cs, hs, beginsName_iff.2 hstart.1, hcs⟩, ?_⟩
  rw [isVarName, hs]
  exact hstart.2

theorem isName_and_isVarName_of_isConId {s : String} (h : isConId s = true) : IsName s ∧ isVarName s = false := by
  obtain ⟨c, cs, hs, hc, hcs⟩ := exists_of_beginsWith h
  obtain ⟨halpha, hlower⟩ := Bool.and_eq_true_iff.1 hc
  have hne : c ≠ '_' := by
    rintro rfl
    exact absurd halpha (by decide)
  refine ⟨⟨c, cs, hs, beginsName_iff.2 (by rw [isNameStart, halpha, Bool.true_or]), hcs⟩, ?_⟩
  rw [isVarName, hs]
  exact Bool.or_eq_false_iff.2 ⟨by simpa using hlower, beq_false_of_ne hne⟩

/-! ## Arrows as names -/

/-- The tokens that a token is written with: an arrow that stands for itself is put in parentheses. -/
def SignatureToken.written : SignatureToken → List SignatureToken
  | .name s => if s = TyCon.arrow.id then [.openParen, .arrow, .closeParen] else [.name s]
  | token => [token]

/-- Take an arrow in parentheses for a name. -/
def joinArrows : List SignatureToken → List SignatureToken
  | .openParen :: .arrow :: .closeParen :: rest => .name TyCon.arrow.id :: joinArrows rest
  | token :: rest => token :: joinArrows rest
  | [] => []

/-- Whether something other than an arrow comes after every opening parenthesis. -/
def opensWell : List SignatureToken → Bool
  | .openParen :: rest => rest.head?.any (· ≠ .arrow) && opensWell rest
  | _ :: rest => opensWell rest
  | [] => true

theorem opensWell_append {toks toks' : List SignatureToken} (h : opensWell toks = true)
    (h' : opensWell toks' = true) : opensWell (toks ++ toks') = true := by
  fun_induction opensWell toks with
  | case1 rest ih =>
    obtain ⟨hhead, hrest⟩ := Bool.and_eq_true_iff.1 h
    cases rest with
    | nil => cases hhead
    | cons token rest => exact Bool.and_eq_true_iff.2 ⟨hhead, ih hrest⟩
  | case2 token rest hopen ih =>
    rw [List.cons_append, opensWell.eq_2 _ _ hopen]
    exact ih h
  | case3 => exact h'

theorem SignatureTree.Derives.starts {part : Part} {ls : List Lexeme} {trees : List SignatureTree}
    (h : Derives part ls trees) : startsAtom ls = true := by
  induction h with
  | name | group | tuple | list => rfl
  | head _ ih | plain _ ih => exact ih
  | @app ts _ _ _ _ _ ih | @arrow ts _ _ _ _ _ _ ih | @last ts _ _ _ ih | @more ts _ _ _ _ _ _ ih =>
    cases ts with
    | nil => cases ih
    | cons l ts => exact ih

/-- What is derived opens with an atom within every parenthesis. -/
theorem SignatureTree.Derives.opens {part : Part} {ls : List Lexeme} {trees : List SignatureTree}
    (h : Derives part ls trees) : opensWell (ls.map Lexeme.token) = true := by
  have hopen : ∀ {ts us : List Lexeme} {offset : Nat}, startsAtom ts = true →
      opensWell ((ts ++ us).map Lexeme.token) = true →
      opensWell ((⟨.openParen, offset⟩ :: (ts ++ us)).map Lexeme.token) = true := by
    intro ts us offset hstarts hwell
    refine Bool.and_eq_true_iff.2 ⟨?_, hwell⟩
    match ts, hstarts with
    | ⟨.name _, _⟩ :: _, _ | ⟨.openParen, _⟩ :: _, _ | ⟨.openBracket, _⟩ :: _, _ => rfl
  induction h with
  | name => rfl
  | group offset closing inner ih =>
    refine hopen inner.starts ?_
    rw [List.map_append]
    exact opensWell_append ih rfl
  | tuple offset comma first others ihFirst ihOthers =>
    refine hopen first.starts ?_
    rw [List.map_append]
    exact opensWell_append ihFirst ihOthers
  | list offset closing elem ih =>
    rw [List.map_cons, List.map_append]
    exact opensWell_append ih rfl
  | head _ ih | plain _ ih => exact ih
  | app _ _ ih ih' | arrow _ _ _ ih ih' | more _ _ _ ih ih' =>
    rw [List.map_append]
    exact opensWell_append ih ih'
  | last closing item ih =>
    rw [List.map_append]
    exact opensWell_append ih rfl

theorem head?_flatMap_written {toks : List SignatureToken} (h : toks.head?.any (· ≠ .arrow) = true) :
    (toks.flatMap SignatureToken.written).head? ≠ some .arrow := by
  cases toks with
  | nil => cases h
  | cons token toks =>
    cases token with
    | name s =>
      rw [List.flatMap_cons, SignatureToken.written]
      split <;> exact fun h => nomatch h
    | arrow => simp at h
    | _ => exact fun h => nomatch h

theorem joinArrows_cons {token : SignatureToken} {toks : List SignatureToken}
    (h : token = .openParen → toks.head? ≠ some .arrow) : joinArrows (token :: toks) = token :: joinArrows toks := by
  rw [joinArrows]
  rintro rest rfl rfl
  exact h rfl rfl

/-- The tokens can be told from those that they are written with. -/
theorem joinArrows_flatMap_written {toks : List SignatureToken} (h : opensWell toks = true) :
    joinArrows (toks.flatMap SignatureToken.written) = toks := by
  induction toks with
  | nil => rfl
  | cons token toks ih =>
    rw [List.flatMap_cons]
    cases token with
    | name s =>
      rw [SignatureToken.written]
      split
      · rename_i hs
        rw [hs]
        exact congrArg _ (ih h)
      · exact Eq.trans (joinArrows_cons nofun) (congrArg _ (ih h))
    | openParen =>
      obtain ⟨hhead, hrest⟩ := Bool.and_eq_true_iff.1 h
      exact Eq.trans (joinArrows_cons fun _ => head?_flatMap_written hhead) (congrArg _ (ih hrest))
    | _ => exact Eq.trans (joinArrows_cons nofun) (congrArg _ (ih h))

/-! ## One text, one tree -/

theorem Lexeme.Scans.unique {cs : List Char} {toks toks' : List SignatureToken} (h : Scans cs toks)
    (h' : Scans cs toks') : toks = toks' := by
  obtain ⟨ls, hls, rfl⟩ := h.exists_scanFrom 0
  obtain ⟨ls', hls', rfl⟩ := h'.exists_scanFrom 0
  rw [Except.ok.inj (hls.symm.trans hls')]

theorem keepsPunctuation_written : KeepsPunctuation SignatureToken.written := by
  intro token h
  cases token with
  | name s => exact absurd rfl (h s)
  | _ => rfl

theorem reads_bareArrow {P : SignatureTree → Prop} (hP : ∀ offset, P (.name TyCon.arrow.id offset)) :
    Reads SignatureToken.written .atom "(->)" P := by
  refine ⟨[.name TyCon.arrow.id], fun rest toks _ hscans => ?_, fun ls hls => ?_⟩
  · exact .punctuation (by decide) rfl (.arrow (by decide) rfl rfl (.punctuation (by decide) rfl hscans))
  · obtain ⟨offset, rfl⟩ := map_token_singleton hls
    exact ⟨_, .name _ offset, hP offset⟩

/-- **A text is read as one tree**, up to the offsets: there is one tree that has every property it is read with. -/
theorem Reads.exists_common_tree {s : String} {P Q : SignatureTree → Prop} (h : Reads SignatureToken.written .type s P)
    (h' : Reads SignatureToken.written .type s Q) : ∃ tree, P tree ∧ Q tree := by
  obtain ⟨toks, hlexes, hderives⟩ := h
  obtain ⟨toks', hlexes', hderives'⟩ := h'
  have htokens : ∀ toks : List SignatureToken, (toks.map (Lexeme.mk · 0)).map Lexeme.token = toks := by
    intro toks
    rw [List.map_map]
    exact List.map_id toks
  obtain ⟨tree, htree, hP⟩ := hderives _ (htokens toks)
  obtain ⟨tree', htree', hQ⟩ := hderives' _ (htokens toks')
  have hjoin := joinArrows_flatMap_written htree.opens
  have hjoin' := joinArrows_flatMap_written htree'.opens
  rw [htokens] at hjoin hjoin'
  have htoks : toks = toks' := by rw [← hjoin, hlexes.scans.unique hlexes'.scans, hjoin']
  subst htoks
  have hread := htree.accepts 0 [] tree rfl .nil
  have hsame := Except.ok.inj (hread.symm.trans (htree'.accepts 0 [] tree' rfl .nil))
  cases hsame
  exact ⟨tree, hP, hQ⟩

/-! ## One text, one type -/

/-- The type that a tree denotes, if it does, with the kinds of a table. -/
def SignatureTree.asTy? (K : KindTable) : SignatureTree → Option Ty
  | .name s _ => some (if isVarName s then .var ⟨s, (K.var s).getD .star⟩ else .con ⟨s, (K.con s).getD .star⟩)
  | .app fn arg => do return .app (← fn.asTy? K) (← arg.asTy? K)
  | .arrow domain codomain => do return .fn (← domain.asTy? K) (← codomain.asTy? K)
  | .list elem _ => do return .list (← elem.asTy? K)
  | .tuple _ _ => none

namespace Ty

/-- The type has the names of signatures and no slots, every application in it fits, and the arrow and the
constructor of lists have their own kinds. -/
structure Presentable (t : Ty) : Prop where
  slotFree : t.firstGen? = none
  wellKinded : t.WellKinded
  vars : ∀ v ∈ t.occurrences, isVarId v.id = true
  cons : ∀ c ∈ t.constructors, isConId c.id = true ∨ c.id = TyCon.arrow.id
  arrow : ∀ c ∈ t.constructors, c.id = TyCon.arrow.id → c.kind = TyCon.arrow.kind
  list : ∀ c ∈ t.constructors, c.id = TyCon.list.id → c.kind = TyCon.list.kind

variable {K : KindTable} {f x : Ty}

/-- In every position, the text of a type is read as a tree that denotes it. -/
def Shown (K : KindTable) (t : Ty) : Prop := Legible SignatureToken.written (fun tree => tree.asTy? K = some t) t

namespace Presentable

theorem fn (h : (Ty.app f x).Presentable) : f.Presentable where
  slotFree := (Option.or_eq_none_iff.1 h.slotFree).1
  wellKinded := h.wellKinded.1
  vars v hv := h.vars v (List.mem_append_left _ hv)
  cons c hc := h.cons c (List.mem_append_left _ hc)
  arrow c hc := h.arrow c (List.mem_append_left _ hc)
  list c hc := h.list c (List.mem_append_left _ hc)

theorem arg (h : (Ty.app f x).Presentable) : x.Presentable where
  slotFree := (Option.or_eq_none_iff.1 h.slotFree).2
  wellKinded := h.wellKinded.2.1
  vars v hv := h.vars v (List.mem_append_right _ hv)
  cons c hc := h.cons c (List.mem_append_right _ hc)
  arrow c hc := h.arrow c (List.mem_append_right _ hc)
  list c hc := h.list c (List.mem_append_right _ hc)

theorem shown_var {v : TyVar} (h : (Ty.var v).Presentable) (hfits : (Ty.var v).Fits K) : Shown K (.var v) := by
  obtain ⟨hname, hvar⟩ := isName_and_isVarName_of_isVarId (h.vars v List.mem_cons_self)
  refine .leaf (fun _ => rfl) (.name hname (if_neg (ne_arrow_of_isName hname)) fun offset => ?_)
  rw [asTy?, if_pos hvar, varsFit_var.1 hfits.vars]
  rfl

theorem shown_con {c : TyCon} (h : (Ty.con c).Presentable) (hfits : (Ty.con c).Fits K) : Shown K (.con c) := by
  have hkind := consFit_con.1 hfits.cons
  rcases h.cons c List.mem_cons_self with hcon | harrow
  · obtain ⟨hname, hvar⟩ := isName_and_isVarName_of_isConId hcon
    have hne := ne_arrow_of_isName hname
    refine .leaf (fun _ => if_neg hne) (.name hname (if_neg hne) fun offset => ?_)
    rw [asTy?, hvar, hkind]
    rfl
  · obtain rfl : c = TyCon.arrow :=
      congrArg₂ TyCon.mk harrow (h.arrow c List.mem_cons_self harrow)
    refine .leaf (fun _ => rfl) (reads_bareArrow fun offset => ?_)
    rw [asTy?, hkind]
    rfl

/-- A shorthand is for a list or a function, and not for constructors that only share their ids. -/
theorem eq_of_hasShorthand (h : f.Presentable) (hshort : f.HasShorthand) :
    f = .con TyCon.list ∨ ∃ d, f = .app (.con TyCon.arrow) d := by
  match f, hshort with
  | .con c, hid =>
    exact .inl (congrArg Ty.con (congrArg₂ TyCon.mk hid (h.list c List.mem_cons_self hid)))
  | .app (.con c) d, hid =>
    have hc : c = TyCon.arrow := congrArg₂ TyCon.mk hid (h.arrow c List.mem_cons_self hid)
    exact .inr ⟨d, by rw [hc]⟩

/-- **A presentable type is shown by its text.**  The induction is on the size, since an arrow is written with
the domain that stands two applications below it. -/
theorem shown {t : Ty} (h : t.Presentable) (hfits : t.Fits K) : Shown K t := by
  induction hn : t.size using Nat.strongRecOn generalizing t with
  | ind n ih =>
    subst hn
    cases t with
    | var v => exact h.shown_var hfits
    | con c => exact h.shown_con hfits
    | gen n => exact nomatch h.slotFree
    | app f x =>
      obtain ⟨_, _, result, hkind⟩ := h.wellKinded
      obtain ⟨hfitsf, hfitsx⟩ := fits_app.1 hfits
      have hx : Shown K x := ih x.size (by rw [size]; omega) h.arg hfitsx rfl
      by_cases hshort : f.HasShorthand
      · rcases h.fn.eq_of_hasShorthand hshort with rfl | ⟨d, rfl⟩
        · exact hx.list keepsPunctuation_written fun elem _ helem => by rw [asTy?, helem]; rfl
        · have hd : Shown K d := ih d.size (by rw [size, size]; omega) h.fn.arg (fits_app.1 hfitsf).2 rfl
          exact hd.arrow keepsPunctuation_written hx fun domain codomain hdomain hcodomain => by
            rw [asTy?, hdomain, hcodomain]
            rfl
      · have hf : Shown K f := ih f.size (by rw [size]; omega) h.fn hfitsf rfl
        exact hf.app keepsPunctuation_written hx hkind hshort fun fn arg hfn harg => by
          rw [asTy?, hfn, harg]
          rfl

end Presentable

/-- **Presentable types with one kind for each id and the same text are equal.** -/
theorem eq_of_text_eq {t u : Ty} (ht : t.Presentable) (hu : u.Presentable) (hkinds : OneKindPerId [t, u])
    (htext : t.text = u.text) : t = u := by
  have hfits := hkinds.fits (by
    intro v hv
    rcases List.mem_pair.1 hv with rfl | rfl
    · exact ht.slotFree
    · exact hu.slotFree)
  have htshown := ht.shown (hfits t List.mem_cons_self)
  have hushown := hu.shown (hfits u (List.mem_cons_of_mem _ List.mem_cons_self))
  have houter := hushown.outer
  rw [show u.render .outer = t.render .outer from htext.symm] at houter
  obtain ⟨tree, htree, hutree⟩ := htshown.outer.exists_common_tree houter
  exact Option.some.inj (htree.symm.trans hutree)

/-- A variable applied to the bare arrow, to the bare `List`, and to the given type. -/
def bareArguments (x : Ty) : Ty :=
  .app (.app (.app (.var ⟨"h", .fn (.ofArity 2) (.fn (.ofArity 1) (.fn (.ofArity 1) .star))⟩)
    (.con TyCon.arrow)) (.con TyCon.list)) x

/-- A partial application of the arrow, to `m [a]`. -/
def arrowFromLists : Ty :=
  .app (.con TyCon.arrow) (.app (.var ⟨"m", .ofArity 1⟩) (.list (.var ⟨"a", .star⟩)))

theorem presentable_bareArguments : (bareArguments arrowFromLists).Presentable where
  slotFree := rfl
  wellKinded := ⟨⟨⟨trivial, trivial, _, rfl⟩, trivial, _, rfl⟩,
    ⟨trivial, ⟨trivial, ⟨trivial, trivial, _, rfl⟩, _, rfl⟩, _, rfl⟩, _, rfl⟩
  vars := by decide
  cons := by decide
  arrow := by decide
  list := by decide

theorem eq_of_text_eq_bareArguments :
    (bareArguments arrowFromLists).Presentable ∧
      OneKindPerId [(bareArguments (.gen 0)).inst [arrowFromLists], bareArguments arrowFromLists] ∧
      ((bareArguments (.gen 0)).inst [arrowFromLists]).text = "h (->) List ((->) (m [a]))" ∧
      (bareArguments (.gen 0)).inst [arrowFromLists] = bareArguments arrowFromLists := by
  have hkinds : OneKindPerId [(bareArguments (.gen 0)).inst [arrowFromLists], bareArguments arrowFromLists] :=
    ⟨by decide, by decide⟩
  exact ⟨presentable_bareArguments, hkinds, by decide,
    eq_of_text_eq presentable_bareArguments presentable_bareArguments hkinds (by decide)⟩

end Ty

end QualifiedTypes
