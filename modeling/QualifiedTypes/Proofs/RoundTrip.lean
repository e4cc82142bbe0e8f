import QualifiedTypes.Proofs.Printing
import QualifiedTypes.Proofs.Renaming
import QualifiedTypes.Proofs.WellKinded

/-!
# Reading what was written

What is read from a signature can be spelled, and what can be spelled is written so that it is read back.  Schemes are
written with new names for their variables, which makes no difference to the scheme that is read.

* `readQual_written`, `readInstance_written`: phrases that can be spelled are read back.
* `Ty.NamesSlots.render_inst`: slots are written like the variables that are named after them.
* `readScheme_text`: schemes are read back.
* `signature_roundTrip`: **printing and reading agree.**
-/

namespace QualifiedTypes

open Lexeme SignatureTree

variable {cons : Constructors}

/-! ## Reading back -/

theorem readQual_written {text : List Pred → String} (htext : WritesContexts text) (hlist : cons.ReservesList)
    {q : Qual Ty} (h : q.Spellable cons) : readQual cons (text q.context ++ q.head.text) = .ok q := by
  obtain ⟨arities, harities, hkinds⟩ := h.uses.exists_noteUses
  obtain ⟨hcontext, hhead⟩ := forall_mem_types_qual.1 hkinds
  have hwritten := h.head.legible hlist (hhead _ List.mem_cons_self)
  obtain ⟨phrase, hphrase, hpreds, hspells⟩ := htext
    (fun p hp => (h.context p hp).written hlist (hcontext p hp)) hwritten.outer fun _ _ hs => nomatch hs
  have hrecords := SignaturePhrase.records hpreds rfl (hspells.records 0)
  exact readQual_eq_ok_iff.2 ⟨phrase, arities, hphrase, (hrecords _ _).2 harities, hpreds, hspells, h.kind⟩

theorem readInstance_written {text : List Pred → String} (htext : WritesContexts text) (hlist : cons.ReservesList)
    {i : Instance} (h : i.Spellable cons) : readInstance cons (text i.context ++ i.head.text) = .ok i := by
  obtain ⟨arities, harities, hkinds⟩ := h.uses.exists_noteUses
  obtain ⟨hcontext, hhead⟩ := forall_mem_types_qual.1 hkinds
  have hwritten := h.head.written hlist (hhead _ List.mem_cons_self)
  obtain ⟨phrase, hphrase, hpreds, hspells⟩ := htext
    (fun p hp => (h.context p hp).written hlist (hcontext p hp)) hwritten fun _ _ hs => nomatch hs
  have hrecords := SignaturePhrase.records hpreds rfl hspells.records
  exact readInstance_eq_ok_iff.2 ⟨phrase, arities, hphrase, (hrecords _ _).2 harities, hpreds, hspells⟩

theorem readQual_text (hlist : cons.ReservesList) {q : Qual Ty}
    (h : q.Spellable cons) : readQual cons q.text = .ok q :=
  readQual_written writesContexts_contextText hlist h

theorem readInstance_text (hlist : cons.ReservesList) {i : Instance}
    (h : i.Spellable cons) : readInstance cons i.instanceText = .ok i :=
  readInstance_written writesContexts_contextText hlist h

/-! ## Schemes -/

namespace Ty

/-- The list fills slots with variables that are written like the slots. -/
def NamesSlots (ts : List Ty) : Prop := ∀ (n : Nat) (t : Ty), ts[n]? = some t → ∃ k, t = .var ⟨slotName n, k⟩

namespace NamesSlots

variable {ts : List Ty}

theorem inst_gen (h : NamesSlots ts) (n : Nat) :
    (Ty.gen n).inst ts = .gen n ∨ ∃ k, (Ty.gen n).inst ts = .var ⟨slotName n, k⟩ := by
  rw [inst]
  cases hn : ts[n]? with
  | none => exact .inl rfl
  | some t => exact .inr (h n t hn)

theorem hasShorthand_inst (h : NamesSlots ts) (f : Ty) : (f.inst ts).HasShorthand ↔ f.HasShorthand := by
  match f with
  | .var v => exact Iff.rfl
  | .con c => exact Iff.rfl
  | .gen n =>
    rcases h.inst_gen n with he | ⟨k, he⟩
    · rw [he]
    · rw [he]
      exact Iff.rfl
  | .app (.var v) d => exact Iff.rfl
  | .app (.con c) d => exact Iff.rfl
  | .app (.gen n) d => rcases h.inst_gen n with he | ⟨k, he⟩ <;> (rw [inst, he]; exact Iff.rfl)
  | .app (.app f x) d => exact Iff.rfl

theorem domainPosition_inst (h : NamesSlots ts) (t : Ty) : (t.inst ts).domainPosition = t.domainPosition := by
  match t with
  | .var v => rfl
  | .con c => rfl
  | .gen n =>
    rcases h.inst_gen n with he | ⟨k, he⟩
    · rw [he]
    · rw [he]
      rfl
  | .app f x =>
    by_cases hshort : f.HasShorthand
    · match f, hshort with
      | .con c, _ => rfl
      | .app (.con c) d, hc => simp [inst, domainPosition, asFun?, show c.id = TyCon.arrow.id from hc]
    · have hshort' := (h.hasShorthand_inst f).not.2 hshort
      rw [inst, domainPosition, domainPosition, asFun?_app hshort, asFun?_app hshort']

theorem render_inst (h : NamesSlots ts) (pos : Position) (t : Ty) : (t.inst ts).render pos = t.render pos := by
  fun_induction Ty.render pos t with
  | case1 pos v => rfl
  | case2 pos c hc => exact if_pos hc
  | case3 pos c hc => exact if_neg hc
  | case4 pos n => rcases h.inst_gen n with he | ⟨k, he⟩ <;> (rw [he]; rfl)
  | case5 x f ihf ihx => rw [inst, render, ihf, ihx]
  | case6 x pos c hpos hc ihx =>
    cases pos with
    | operator => exact absurd rfl hpos
    | outer | atom => exact (if_pos hc).trans (by rw [ihx])
  | case7 x pos c hpos hc ihc ihx =>
    rw [inst, render_app ((h.hasShorthand_inst (.con c)).not.2 hc), ihc, ihx]
  | case8 x pos c d hpos hc ihd ihx =>
    cases pos with
    | operator => exact absurd rfl hpos
    | outer | atom => exact (if_pos hc).trans (by rw [ihx, h.domainPosition_inst, ihd])
  | case9 x pos c d hpos hc ihf ihx =>
    rw [inst, render_app ((h.hasShorthand_inst (.app (.con c) d)).not.2 hc), ihf, ihx]
  | case10 x pos f hpos hcon happ ihf ihx =>
    have hshort : ¬f.HasShorthand := by
      unfold HasShorthand
      split
      · exact (hcon _ rfl).elim
      · exact (happ _ _ rfl).elim
      · exact fun h => h
    rw [inst, render_app ((h.hasShorthand_inst f).not.2 hshort), ihf, ihx]

theorem text_inst (h : NamesSlots ts) (q : Qual Ty) : (QualifiedTypes.inst ts q).text = q.text := by
  have hpred : ∀ p : Pred, (QualifiedTypes.inst ts p).text = p.text := fun p => by
    rw [Pred.text, Pred.text, ← h.render_inst .atom p.ty]
    rfl
  have hcontext : contextText (QualifiedTypes.inst ts q.context) = contextText q.context := by
    cases hq : q.context with
    | nil => rfl
    | cons p ps =>
      have hmap : (QualifiedTypes.inst ts (p :: ps)).map Pred.text = (p :: ps).map Pred.text := by
        rw [QualifiedTypes.inst, mapTypes_list, List.map_map]
        exact List.map_congr_left fun p _ => hpred p
      exact congrArg (fun texts => "(" ++ ", ".intercalate texts ++ ") => ") hmap
  rw [Qual.text, Qual.textWith, Qual.text, Qual.textWith, ← hcontext, Ty.text, Ty.text, ← h.render_inst .outer q.head]
  rfl

end NamesSlots

theorem Spellable.slotFree {t : Ty} (h : t.Spellable cons) : t.firstGen? = none := by
  induction h with
  | var name var => rfl
  | con name con known => rfl
  | app _ _ _ ihf ihx => rw [firstGen?, ihf, ihx]; rfl
  | arrow _ _ _ _ ihd ihc => simp [Ty.fn, firstGen?, ihd, ihc]
  | list _ _ ih => simp [Ty.list, firstGen?, ih]

theorem kind_rename {s : Subst} {ρ : TyVar → TyVar} {t : Ty}
    (h : ∀ v ∈ t.occurrences, (Ty.var v).subst s = .var (ρ v) ∧ (ρ v).kind = v.kind) :
    (t.subst s).kind = t.kind := by
  refine kind_subst_of_forall fun v hv => ?_
  rw [(h v hv).1]
  exact (h v hv).2

theorem Spellable.rename {s : Subst} {ρ : TyVar → TyVar} {t : Ty} (h : t.Spellable cons)
    (hrenames : ∀ v ∈ t.occurrences, (Ty.var v).subst s = .var (ρ v) ∧ (ρ v).kind = v.kind)
    (hname : ∀ v, IsName (ρ v).id ∧ isVarName (ρ v).id = true) : (t.subst s).Spellable cons := by
  induction h with
  | @var v name var =>
    rw [(hrenames v List.mem_cons_self).1]
    exact .var (hname v).1 (hname v).2
  | con name con known => exact .con name con known
  | app _ _ kind ihf ihx =>
    obtain ⟨hf, hx⟩ := List.forall_mem_append.1 hrenames
    exact .app (ihf hf) (ihx hx) (by rw [kind_rename hf, kind_rename hx, kind])
  | @arrow d c _ _ domainKind codomainKind ihd ihc =>
    obtain ⟨hd, hc⟩ := List.forall_mem_append.1 hrenames
    have hdk : (d.subst s).kind = .star := (kind_rename (t := d) hd).trans domainKind
    have hck : (c.subst s).kind = .star := (kind_rename hc).trans codomainKind
    exact .arrow (ihd hd) (ihc hc) hdk hck
  | @list e _ kind ih =>
    have hek : (e.subst s).kind = .star := (kind_rename (t := e) hrenames).trans kind
    exact .list (ih hrenames) hek

end Ty

/-- Renaming to names of variables keeps a qualified type spellable. -/
theorem Qual.Spellable.rename {s : Subst} {ρ : TyVar → TyVar} {q : Qual Ty} (h : q.Spellable cons)
    (hrenames : Renames s ρ q) (hname : ∀ v, IsName (ρ v).id ∧ isVarName (ρ v).id = true) :
    Qual.Spellable cons (s.apply q) := by
  have htypes : ∀ t ∈ types q, ∀ v ∈ t.occurrences, (Ty.var v).subst s = .var (ρ v) ∧ (ρ v).kind = v.kind := by
    intro t ht v hv
    have hocc : v ∈ occurrences q := List.mem_flatMap.2 ⟨t, ht, hv⟩
    exact ⟨hrenames.var v hocc, hrenames.kind v hocc⟩
  obtain ⟨hpreds, hhead⟩ := forall_mem_types_qual.1 htypes
  have hhead := hhead q.head List.mem_cons_self
  refine ⟨fun p hp => ?_, h.head.rename hhead hname, (Ty.kind_rename hhead).trans h.kind, hrenames.usesAgree h.uses⟩
  obtain ⟨p, hmem, rfl⟩ := List.mem_map.1 hp
  have hp := h.context p hmem
  exact ⟨hp.name, hp.className, hp.ty.rename (hpreds p hmem) hname⟩

/-! ### The variables that are written for slots -/

/-- Variables that are written like the slots of these variables. -/
def slotVars (vs : List TyVar) : List Ty := vs.mapIdx fun n v => .var ⟨slotName n, v.kind⟩

/-- The variable that is written like the slot of a variable. -/
def slotVar (vs : List TyVar) (v : TyVar) : TyVar := ⟨slotName (vs.idxOf v), v.kind⟩

theorem getElem?_slotVars (vs : List TyVar) (n : Nat) :
    (slotVars vs)[n]? = vs[n]?.map fun v => .var ⟨slotName n, v.kind⟩ := by
  unfold slotVars
  rw [List.getElem?_mapIdx]

theorem namesSlots_slotVars (vs : List TyVar) : Ty.NamesSlots (slotVars vs) := by
  intro n t ht
  rw [getElem?_slotVars] at ht
  obtain ⟨v, _, rfl⟩ := Option.map_eq_some_iff.1 ht
  exact ⟨v.kind, rfl⟩

/-- To fill the slots of a scheme with these variables is to rename the variables it was made from. -/
theorem renames_slotVars {q : Qual Ty} (h : UsesAgree q) :
    Renames (Scheme.filling (freeVars q) (slotVars (freeVars q))) (slotVar (freeVars q)) q := by
  obtain ⟨arities, _, hkinds⟩ := h.exists_noteUses
  have hfit : ∀ t ∈ types q, t.VarsFit fun s => some (.ofArity ((arities.find? s).getD 0)) :=
    fun t ht v hv => congrArg some (hkinds t ht v hv).symm
  have hnodup : (freeVars q).Nodup := (nodup_distinctOn TyVar.id (occurrences q)).of_map
  have hslot : ∀ v ∈ occurrences q, v ∈ freeVars q ∧
      (Ty.var v).subst (Scheme.filling (freeVars q) (slotVars (freeVars q))) = .var (slotVar (freeVars q) v) := by
    intro v hv
    obtain ⟨t, ht, hv⟩ := List.mem_flatMap.1 hv
    obtain ⟨n, hn, hsubst⟩ := Scheme.subst_filling hfit ht hv (slotVars (freeVars q))
    obtain ⟨hlt, hget⟩ := List.getElem?_eq_some_iff.1 hn
    refine ⟨List.mem_of_getElem? hn, ?_⟩
    rw [hsubst, Ty.inst, getElem?_slotVars, hn, slotVar, ← hget, hnodup.idxOf_getElem n hlt]
    rfl
  refine ⟨fun v hv => (hslot v hv).2, fun v hv => rfl, fun v hv w hw => ⟨fun hid => ?_, fun hid => ?_⟩⟩
  · have hidx := slotName_injective hid
    rw [(List.idxOf_inj (hslot v hv).1).1 hidx]
  · obtain ⟨t, ht, hv⟩ := List.mem_flatMap.1 hv
    obtain ⟨u, hu, hw⟩ := List.mem_flatMap.1 hw
    rw [(hfit t ht).eq_of_id_eq (hfit u hu) hv hw hid]

/-- The body of a scheme that was read is read as that scheme. -/
theorem readScheme_text (hlist : cons.ReservesList) {q : Qual Ty}
    (h : q.Spellable cons) :
    readScheme cons (Scheme.quantifyAll q).body.text = .ok (Scheme.quantifyAll q) := by
  have hslots : ∀ t ∈ types q, t.firstGen? = none :=
    forall_mem_types_qual.2 ⟨fun p hp => (h.context p hp).ty.slotFree, List.forall_mem_singleton.2 h.head.slotFree⟩
  have hrenames := renames_slotVars h.uses
  have hspellable := h.rename hrenames fun v => ⟨isName_slotName _, isVarName_slotName _⟩
  refine readScheme_eq_ok_iff.2 ⟨_, ?_, hrenames.quantifyAll.symm⟩
  rw [← (namesSlots_slotVars (freeVars q)).text_inst, Scheme.inst_quantifyAll hslots]
  exact readQual_text hlist hspellable

/-! ## The round trip -/

/-- **What is read from a signature is written as a signature for the same thing**, as long as `List` names the
constructor of lists, or nothing. -/
theorem signature_roundTrip (hlist : ∀ k, cons.find? TyCon.list.id = some k → k = TyCon.list.kind) (src : String) :
    (∀ q, readQual cons src = .ok q → readQual cons q.text = .ok q) ∧
      (∀ i, readInstance cons src = .ok i → readInstance cons i.instanceText = .ok i) ∧
        ∀ scheme, readScheme cons src = .ok scheme → readScheme cons scheme.body.text = .ok scheme := by
  refine ⟨fun q hq => readQual_text hlist (readQual_spellable hq),
    fun i hi => readInstance_text hlist (readInstance_spellable hi), fun scheme hscheme => ?_⟩
  obtain ⟨q, hq, rfl⟩ := readScheme_eq_ok_iff.1 hscheme
  exact readScheme_text hlist (readQual_spellable hq)

/-- The scheme of `Eq (f a) => (a -> f a) -> [[f a]]`. -/
def nestedScheme : Scheme where
  kinds := [.ofArity 1, .star]
  body := ⟨[⟨"Eq", .app (.gen 0) (.gen 1)⟩],
    .fn (.fn (.gen 1) (.app (.gen 0) (.gen 1))) (.list (.list (.app (.gen 0) (.gen 1))))⟩

theorem readScheme_nested :
    readScheme .base "Eq(f a)=>(a->((f a)))->(List [f a])" = .ok nestedScheme := by
  cbv

theorem nestedScheme_text : nestedScheme.body.text = "(Eq (a b)) => (b -> a b) -> [[a b]]" := by
  decide

/-- Spare parentheses, missing blanks, a list by name and the names of variables are not kept. -/
theorem signature_roundTrip_nested :
    Constructors.base.find? TyCon.list.id = some TyCon.list.kind ∧
      readScheme .base "Eq(f a)=>(a->((f a)))->(List [f a])" = .ok nestedScheme ∧
        readScheme .base "(Eq (a b)) => (b -> a b) -> [[a b]]" = .ok nestedScheme := by
  have hfind : Constructors.base.find? TyCon.list.id = some TyCon.list.kind := by decide
  have hlist : ∀ k, Constructors.base.find? TyCon.list.id = some k → k = TyCon.list.kind :=
    fun k hk => Option.some.inj (hk.symm.trans hfind)
  have hback := (signature_roundTrip hlist _).2.2 nestedScheme readScheme_nested
  rw [nestedScheme_text] at hback
  exact ⟨hfind, readScheme_nested, hback⟩

end QualifiedTypes
