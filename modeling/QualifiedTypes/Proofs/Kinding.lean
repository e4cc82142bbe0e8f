import QualifiedTypes.Proofs.Action

/-!
# Types that agree with a table of kinds

Variables and constructors carry their kinds with them, but are looked up and compared by id.  The two
views are the same as long as every id has one kind throughout.  A `KindTable` says which ids there are,
and their kinds.

* `Ty.Fits`: the variables and constructors of a type have the kinds of a table, and no slot is left.
* `Subst.Fits`: every bound type fits, and has the kind listed for the variable it stands for.
* `Ty.kind_subst`, `Ty.Fits.subst`: such a substitution changes no kind and keeps types in the table.
* `OneKindPerId`, `OneKindPerId.fits`: when there is a table for a phrase.
* `Subst.Fits.kind_of_agree`, `Subst.Fits.absorbs_of_agree`: what holds of the variables of a phrase holds of all
  that agree with it on kinds.
* `Ty.eq_of_eraseConKinds`: in one table, types that differ at most in the kinds of their constructors are equal.
-/

namespace QualifiedTypes

/-- The listed ids of variables and of constructors, with their kinds. -/
structure KindTable where
  var : String → Option Kind
  con : String → Option Kind

/-- A larger table lists what a smaller one does. -/
instance : LE KindTable where
  le K K' := (∀ id k, K.var id = some k → K'.var id = some k) ∧
    ∀ id k, K.con id = some k → K'.con id = some k

theorem KindTable.le_refl (K : KindTable) : K ≤ K := ⟨fun _ _ h => h, fun _ _ h => h⟩

theorem KindTable.le_trans {K₁ K₂ K₃ : KindTable} (h₁ : K₁ ≤ K₂) (h₂ : K₂ ≤ K₃) : K₁ ≤ K₃ :=
  ⟨fun id k h => h₂.1 id k (h₁.1 id k h), fun id k h => h₂.2 id k (h₁.2 id k h)⟩

namespace Ty

/-- The constructors of a type, from left to right. -/
def constructors : Ty → List TyCon
  | .con c => [c]
  | .app f x => f.constructors ++ x.constructors
  | _ => []

/-- Every variable is listed, with the kind that it carries. -/
def VarsFit (var : String → Option Kind) (t : Ty) : Prop := ∀ v ∈ t.occurrences, var v.id = some v.kind

/-- Every constructor is listed, with the kind that it carries. -/
def ConsFit (con : String → Option Kind) (t : Ty) : Prop := ∀ c ∈ t.constructors, con c.id = some c.kind

instance (var : String → Option Kind) (t : Ty) : Decidable (t.VarsFit var) :=
  inferInstanceAs (Decidable (∀ v ∈ t.occurrences, var v.id = some v.kind))

instance (con : String → Option Kind) (t : Ty) : Decidable (t.ConsFit con) :=
  inferInstanceAs (Decidable (∀ c ∈ t.constructors, con c.id = some c.kind))

/-- Variables and constructors have the kinds of a table, and there are no slots. -/
structure Fits (K : KindTable) (t : Ty) : Prop where
  vars : t.VarsFit K.var
  cons : t.ConsFit K.con
  slotFree : t.firstGen? = none

@[simp] theorem varsFit_var {var : String → Option Kind} {v : TyVar} :
    (Ty.var v).VarsFit var ↔ var v.id = some v.kind := by
  simp [VarsFit, occurrences]

@[simp] theorem varsFit_app {var : String → Option Kind} {f x : Ty} :
    (Ty.app f x).VarsFit var ↔ f.VarsFit var ∧ x.VarsFit var := by
  simp only [VarsFit, occurrences, List.mem_append]
  exact ⟨fun h => ⟨fun v hv => h v (.inl hv), fun v hv => h v (.inr hv)⟩,
    fun h v hv => hv.elim (h.1 v) (h.2 v)⟩

@[simp] theorem consFit_var {con : String → Option Kind} {v : TyVar} : (Ty.var v).ConsFit con := by
  simp [ConsFit, constructors]

@[simp] theorem consFit_con {con : String → Option Kind} {c : TyCon} :
    (Ty.con c).ConsFit con ↔ con c.id = some c.kind := by
  simp [ConsFit, constructors]

@[simp] theorem consFit_app {con : String → Option Kind} {f x : Ty} :
    (Ty.app f x).ConsFit con ↔ f.ConsFit con ∧ x.ConsFit con := by
  simp only [ConsFit, constructors, List.mem_append]
  exact ⟨fun h => ⟨fun c hc => h c (.inl hc), fun c hc => h c (.inr hc)⟩,
    fun h c hc => hc.elim (h.1 c) (h.2 c)⟩

@[simp] theorem firstGen?_app {f x : Ty} :
    (Ty.app f x).firstGen? = none ↔ f.firstGen? = none ∧ x.firstGen? = none := by
  rw [firstGen?, Option.or_eq_none_iff]

@[simp] theorem fits_var {K : KindTable} {v : TyVar} : (Ty.var v).Fits K ↔ K.var v.id = some v.kind :=
  ⟨fun h => varsFit_var.1 h.vars, fun h => ⟨varsFit_var.2 h, consFit_var, rfl⟩⟩

@[simp] theorem fits_con {K : KindTable} {c : TyCon} : (Ty.con c).Fits K ↔ K.con c.id = some c.kind :=
  ⟨fun h => consFit_con.1 h.cons, fun h => ⟨fun _ hv => (nomatch hv), consFit_con.2 h, rfl⟩⟩

@[simp] theorem fits_app {K : KindTable} {f x : Ty} : (Ty.app f x).Fits K ↔ f.Fits K ∧ x.Fits K := by
  constructor
  · rintro ⟨hv, hc, hg⟩
    rw [varsFit_app] at hv
    rw [consFit_app] at hc
    rw [firstGen?_app] at hg
    exact ⟨⟨hv.1, hc.1, hg.1⟩, ⟨hv.2, hc.2, hg.2⟩⟩
  · rintro ⟨⟨hv, hc, hg⟩, ⟨hv', hc', hg'⟩⟩
    exact ⟨varsFit_app.2 ⟨hv, hv'⟩, consFit_app.2 ⟨hc, hc'⟩, firstGen?_app.2 ⟨hg, hg'⟩⟩

theorem Fits.fn {K : KindTable} (harrow : K.con TyCon.arrow.id = some TyCon.arrow.kind) {t u : Ty}
    (ht : t.Fits K) (hu : u.Fits K) : (Ty.fn t u).Fits K :=
  fits_app.2 ⟨fits_app.2 ⟨fits_con.2 harrow, ht⟩, hu⟩

@[simp] theorem not_fits_gen {K : KindTable} {n : Nat} : ¬ (Ty.gen n).Fits K :=
  fun h => nomatch h.slotFree

theorem VarsFit.mono {K K' : KindTable} {t : Ty} (ht : t.VarsFit K.var) (h : K ≤ K') :
    t.VarsFit K'.var :=
  fun v hv => h.1 _ _ (ht v hv)

theorem Fits.mono {K K' : KindTable} {t : Ty} (ht : t.Fits K) (h : K ≤ K') : t.Fits K' :=
  ⟨ht.vars.mono h, fun c hc => h.2 _ _ (ht.cons c hc), ht.slotFree⟩

/-- In one table a variable is known by its id. -/
theorem VarsFit.eq_of_id_eq {var : String → Option Kind} {t u : Ty} {v w : TyVar} (ht : t.VarsFit var)
    (hu : u.VarsFit var) (hv : v ∈ t.occurrences) (hw : w ∈ u.occurrences) (h : v.id = w.id) :
    v = w := by
  have hk : v.kind = w.kind := Option.some.inj (by rw [← ht v hv, ← hu w hw, h])
  cases v
  cases w
  simp only at h hk
  rw [h, hk]

theorem VarsFit.mem_occurrences {var : String → Option Kind} {t : Ty} {v : TyVar} (ht : t.VarsFit var)
    (hv : var v.id = some v.kind) (hid : v.id ∈ t.ids) : v ∈ t.occurrences := by
  obtain ⟨w, hw, hid⟩ := exists_of_mem_ids hid
  have hv' : (Ty.var v).VarsFit var := varsFit_var.2 hv
  rwa [ht.eq_of_id_eq hv' hw List.mem_cons_self hid] at hw

end Ty

/-! ## Substitutions that keep kinds -/

namespace Subst

/-- Every listed id that is bound is bound to a type of its kind. -/
def KeepsKinds (var : String → Option Kind) (s : Subst) : Prop :=
  ∀ id k t, var id = some k → s.lookup id = some t → t.kind = k

/-- Every bound id is listed, and bound to a type of its kind that fits the table. -/
def Fits (K : KindTable) (s : Subst) : Prop :=
  ∀ b ∈ s.bindings, b.2.Fits K ∧ K.var b.1.id = some b.2.kind

theorem Fits.of_lookup {K : KindTable} {s : Subst} (hs : s.Fits K) {id : String} {t : Ty}
    (h : s.lookup id = some t) : t.Fits K ∧ K.var id = some t.kind := by
  obtain ⟨v, hv, rfl⟩ := exists_of_lookup h
  exact hs _ hv

theorem Fits.notMem_ids {K : KindTable} {s : Subst} (hs : s.Fits K) {id : String} (h : K.var id = none) :
    id ∉ s.ids := by
  intro hid
  cases hlook : s.lookup id with
  | none => exact (s.lookup_eq_none_iff id).1 hlook hid
  | some t =>
    have hlisted := (hs.of_lookup hlook).2
    rw [h] at hlisted
    cases hlisted

theorem Fits.keepsKinds {K : KindTable} {s : Subst} (hs : s.Fits K) : s.KeepsKinds K.var :=
  fun _ _ _ hk h => Option.some.inj ((hs.of_lookup h).2.symm.trans hk)

theorem Fits.mono {K K' : KindTable} {s : Subst} (hs : s.Fits K) (h : K ≤ K') : s.Fits K' :=
  fun b hb => ⟨(hs b hb).1.mono h, h.1 _ _ (hs b hb).2⟩

theorem fits_empty (K : KindTable) : empty.Fits K := fun _ h => nomatch h

theorem fits_singleton {K : KindTable} {v : TyVar} {t : Ty} (ht : t.Fits K)
    (hk : K.var v.id = some t.kind) : (singleton v t).Fits K := by
  intro b hb
  rw [List.mem_singleton.1 hb]
  exact ⟨ht, hk⟩

end Subst

namespace Ty

theorem kind_subst_of_forall {s : Subst} {t : Ty}
    (h : ∀ v ∈ t.occurrences, ((Ty.var v).subst s).kind = v.kind) : (t.subst s).kind = t.kind := by
  induction t with
  | var v => exact h v List.mem_cons_self
  | con c => rfl
  | gen n => rfl
  | app f x ihf _ => rw [subst_app, kind, kind, ihf fun v hv => h v (List.mem_append_left _ hv)]

/-- A substitution that keeps kinds leaves every type at its kind. -/
theorem kind_subst {var : String → Option Kind} {s : Subst} {t : Ty} (ht : t.VarsFit var)
    (hs : s.KeepsKinds var) : (t.subst s).kind = t.kind := by
  refine kind_subst_of_forall fun v hv => ?_
  rw [subst]
  cases h : s.lookup v.id with
  | none => rfl
  | some u => exact hs _ _ _ (ht v hv) h

theorem Fits.kind_subst {K : KindTable} {s : Subst} {t : Ty} (ht : t.Fits K) (hs : s.Fits K) :
    (t.subst s).kind = t.kind :=
  Ty.kind_subst ht.vars hs.keepsKinds

theorem VarsFit.subst {K : KindTable} {s : Subst} {t : Ty} (ht : t.VarsFit K.var) (hs : s.Fits K) :
    (t.subst s).VarsFit K.var := by
  intro w hw
  obtain ⟨v, hv, hw⟩ := mem_occurrences_subst.1 hw
  rw [Ty.subst] at hw
  cases h : s.lookup v.id with
  | none =>
    rw [h, Option.getD_none, occurrences, List.mem_singleton] at hw
    rw [hw]
    exact ht v hv
  | some u =>
    rw [h, Option.getD_some] at hw
    exact (hs.of_lookup h).1.vars w hw

theorem Fits.subst {K : KindTable} {s : Subst} {t : Ty} (ht : t.Fits K) (hs : s.Fits K) :
    (t.subst s).Fits K := by
  induction t with
  | var v =>
    rw [Ty.subst]
    cases h : s.lookup v.id with
    | none => exact ht
    | some u => exact (hs.of_lookup h).1
  | con c => exact ht
  | gen n => exact absurd ht not_fits_gen
  | app f x ihf ihx => exact fits_app.2 ⟨ihf (fits_app.1 ht).1, ihx (fits_app.1 ht).2⟩

/-- The constructors of a substituted type are its own and those of the images of its variables. -/
theorem consFit_subst {con : String → Option Kind} {s : Subst} {t : Ty} :
    (t.subst s).ConsFit con ↔
      t.ConsFit con ∧ ∀ v ∈ t.occurrences, ((Ty.var v).subst s).ConsFit con := by
  induction t with
  | var v => simp [occurrences]
  | con c => simp [occurrences]
  | gen n => simp [occurrences]
  | app f x ihf ihx =>
    rw [subst_app, consFit_app, consFit_app, ihf, ihx, occurrences, List.forall_mem_append,
      and_and_and_comm]

/-- Slots of a substituted type are its own and those of the images of its variables. -/
theorem firstGen?_subst {s : Subst} {t : Ty} :
    (t.subst s).firstGen? = none ↔
      t.firstGen? = none ∧ ∀ v ∈ t.occurrences, ((Ty.var v).subst s).firstGen? = none := by
  induction t with
  | var v =>
    have hvar : (Ty.var v).firstGen? = none := rfl
    simp [occurrences, hvar]
  | con c => simp [occurrences]
  | gen n => simp [occurrences]
  | app f x ihf ihx =>
    rw [subst_app, firstGen?_app, firstGen?_app, ihf, ihx, occurrences, List.forall_mem_append,
      and_and_and_comm]

/-- Bound types without slots and loose constructors bring in neither. -/
theorem slotFree_consFit_subst {con : String → Option Kind} {s : Subst} {t : Ty}
    (hrange : ∀ b ∈ s.bindings, b.2.firstGen? = none ∧ b.2.ConsFit con)
    (ht : t.firstGen? = none ∧ t.ConsFit con) : (t.subst s).firstGen? = none ∧ (t.subst s).ConsFit con := by
  have hvar : ∀ v : TyVar, ((Ty.var v).subst s).firstGen? = none ∧ ((Ty.var v).subst s).ConsFit con :=
    fun v => subst_var_of_forall (P := fun t => t.firstGen? = none ∧ t.ConsFit con) ⟨rfl, consFit_var⟩ hrange
  exact ⟨firstGen?_subst.2 ⟨ht.1, fun v _ => (hvar v).1⟩, consFit_subst.2 ⟨ht.2, fun v _ => (hvar v).2⟩⟩

end Ty

theorem Subst.Fits.compose {K : KindTable} {s₁ s₂ : Subst} (h₁ : s₁.Fits K) (h₂ : s₂.Fits K) :
    (s₁.compose s₂).Fits K := by
  intro b hb
  rcases List.mem_append.1 hb with hb | hb
  · obtain ⟨c, hc, rfl⟩ := List.mem_map.1 hb
    obtain ⟨hfit, hkind⟩ := h₂ c hc
    refine ⟨hfit.subst h₁, ?_⟩
    rw [hkind, ← hfit.kind_subst h₁]
    rfl
  · exact h₁ b (List.mem_filter.1 hb).1

/-! ## The table of a phrase -/

section

variable {α : Type} [HasTypes α]

/-- The constructors of a phrase, from left to right. -/
def constructors (x : α) : List TyCon := (types x).flatMap Ty.constructors

/-- Throughout a phrase, each id has one kind as a variable and one as a constructor. -/
structure OneKindPerId (x : α) : Prop where
  vars : ∀ v ∈ occurrences x, ∀ w ∈ occurrences x, v.id = w.id → v.kind = w.kind
  cons : ∀ c ∈ constructors x, ∀ d ∈ constructors x, c.id = d.id → c.kind = d.kind

/-- The ids of a phrase, each with the kind of its first occurrence. -/
def KindTable.of (x : α) : KindTable where
  var id := ((occurrences x).find? fun v => v.id == id).map TyVar.kind
  con id := ((constructors x).find? fun c => c.id == id).map TyCon.kind

theorem map_find?_eq_some {β : Type} {id : β → String} {kind : β → Kind} {l : List β} {b : β} (hb : b ∈ l)
    (h : ∀ a ∈ l, id a = id b → kind a = kind b) :
    (l.find? fun a => id a == id b).map kind = some (kind b) := by
  cases hfind : l.find? fun a => id a == id b with
  | none => exact absurd (List.find?_eq_none.1 hfind b hb) (by simp)
  | some a =>
    rw [Option.map_some, h a (List.mem_of_find?_eq_some hfind) (by simpa using List.find?_some hfind)]

/-- A phrase without slots and with one kind for each id fits its own table. -/
theorem OneKindPerId.fits {x : α} (h : OneKindPerId x) (hslots : ∀ t ∈ types x, t.firstGen? = none) :
    ∀ t ∈ types x, t.Fits (.of x) := by
  intro t ht
  refine ⟨fun v hv => ?_, fun c hc => ?_, hslots t ht⟩
  · have hmem : v ∈ occurrences x := List.mem_flatMap.2 ⟨t, ht, hv⟩
    exact map_find?_eq_some hmem fun w hw hid => h.vars w hw v hmem hid
  · have hmem : c ∈ constructors x := List.mem_flatMap.2 ⟨t, ht, hc⟩
    exact map_find?_eq_some hmem fun d hd hid => h.cons d hd c hmem hid

/-- The table of a phrase lists variables of the phrase only. -/
theorem KindTable.exists_of_var {x : α} {id : String} {k : Kind} (h : (of x).var id = some k) :
    ∃ v ∈ occurrences x, v.id = id ∧ v.kind = k := by
  obtain ⟨v, hfind, hk⟩ := Option.map_eq_some_iff.1 h
  exact ⟨v, List.mem_of_find?_eq_some hfind, by simpa using List.find?_some hfind, hk⟩

/-- To keep the kinds of the table of a phrase is to keep those of the variables of the phrase. -/
theorem Subst.keepsKinds_of {x : α} {u : Subst}
    (h : ∀ v ∈ occurrences x, ((Ty.var v).subst u).kind = v.kind) : u.KeepsKinds (KindTable.of x).var := by
  intro id k t hk ht
  obtain ⟨v, hv, rfl, rfl⟩ := KindTable.exists_of_var hk
  rw [← h v hv, Ty.subst_var_of_lookup ht]

/-- A variable that agrees with a phrase on kinds is listed with its kind, or not at all. -/
theorem KindTable.of_var_of_agree {x : α} {v : TyVar}
    (h : ∀ w ∈ occurrences x, v.id = w.id → v.kind = w.kind) :
    (of x).var v.id = none ∨ (of x).var v.id = some v.kind := by
  cases hvar : (of x).var v.id with
  | none => exact .inl rfl
  | some k =>
    obtain ⟨w, hw, hid, rfl⟩ := exists_of_var hvar
    exact .inr (by rw [h w hw hid.symm])

/-- A substitution that fits the table of a phrase keeps the kinds of all variables that agree with it. -/
theorem Subst.Fits.kind_of_agree {x : α} {s : Subst} (hs : s.Fits (.of x)) {v : TyVar}
    (hv : ∀ w ∈ occurrences x, v.id = w.id → v.kind = w.kind) : ((Ty.var v).subst s).kind = v.kind := by
  rcases KindTable.of_var_of_agree hv with hvar | hvar
  · rw [Ty.subst_var_of_notMem (hs.notMem_ids hvar)]
    rfl
  · exact (Ty.fits_var.2 hvar).kind_subst hs

/-- What is absorbed on the variables of a phrase is absorbed on all types that agree with the phrase on kinds,
since the other variables are not bound. -/
theorem Subst.Fits.absorbs_of_agree {x : α} {θ s : Subst} (hs : s.Fits (.of x))
    (h : ∀ r : Ty, r.VarsFit (KindTable.of x).var → (r.subst s).subst θ = r.subst θ) {t : Ty}
    (ht : ∀ v ∈ t.occurrences, ∀ w ∈ occurrences x, v.id = w.id → v.kind = w.kind) :
    (t.subst s).subst θ = t.subst θ := by
  rw [← Ty.subst_compose]
  refine Ty.subst_congr fun v hv => ?_
  rw [Ty.subst_compose]
  rcases KindTable.of_var_of_agree (ht v hv) with hvar | hvar
  · rw [Ty.subst_var_of_notMem (hs.notMem_ids hvar)]
  · exact h _ (Ty.varsFit_var.2 hvar)

end

/-! ## Types without the kinds of constructors -/

namespace Ty

/-- The type with all constructors at kind `*`.  Variables keep their kinds. -/
def eraseConKinds : Ty → Ty
  | .con c => .con { c with kind := .star }
  | .app f x => .app f.eraseConKinds x.eraseConKinds
  | t => t

@[simp] theorem size_eraseConKinds (t : Ty) : t.eraseConKinds.size = t.size := by
  induction t with
  | app f x ihf ihx => rw [eraseConKinds, size, size, ihf, ihx]
  | _ => rfl

/-- In one table, types that differ at most in the kinds of their constructors are equal. -/
theorem eq_of_eraseConKinds {con : String → Option Kind} {t u : Ty} (ht : t.ConsFit con) (hu : u.ConsFit con)
    (h : t.eraseConKinds = u.eraseConKinds) : t = u := by
  induction t generalizing u with
  | var v => cases u <;> simp_all [eraseConKinds]
  | gen n => cases u <;> simp_all [eraseConKinds]
  | con c =>
    cases u with
    | con d =>
      have hid : c.id = d.id := by simpa [eraseConKinds] using h
      have hk : c.kind = d.kind :=
        Option.some.inj (by rw [← consFit_con.1 ht, ← consFit_con.1 hu, hid])
      cases c
      cases d
      simp only at hid hk
      rw [hid, hk]
    | var v => simp [eraseConKinds] at h
    | gen n => simp [eraseConKinds] at h
    | app g y => simp [eraseConKinds] at h
  | app f x ihf ihx =>
    cases u with
    | app g y =>
      rw [consFit_app] at ht hu
      simp only [eraseConKinds, app.injEq] at h
      rw [ihf ht.1 hu.1 h.1, ihx ht.2 hu.2 h.2]
    | var v => simp [eraseConKinds] at h
    | gen n => simp [eraseConKinds] at h
    | con c => simp [eraseConKinds] at h

end Ty

end QualifiedTypes
