import QualifiedTypes.Subst

/-!
# Substitutions in solved form

A substitution is solved over a set of ids if it binds only those ids, mentions only those ids, and
mentions none that it binds.  Applying such a substitution removes every id that it binds and brings in
none from outside.  This is what makes unification end.

* `Subst.SolvedIn.compose`: solving what is left of a problem keeps the form.
* `varCount_lt`: a solved substitution that binds something leaves fewer distinct variables.
* `problemSize_left_lt`, `problemSize_right_lt`: the problems that two applications are split into are smaller.
-/

namespace QualifiedTypes

namespace Ty

/-- The ids of the variables of a type, with repetitions. -/
def ids (t : Ty) : List String := t.occurrences.map TyVar.id

@[simp] theorem ids_var (v : TyVar) : (Ty.var v).ids = [v.id] := rfl

@[simp] theorem ids_con (c : TyCon) : (Ty.con c).ids = [] := rfl

@[simp] theorem ids_gen (n : Nat) : (Ty.gen n).ids = [] := rfl

@[simp] theorem ids_app (f x : Ty) : (Ty.app f x).ids = f.ids ++ x.ids := by
  simp [ids, occurrences]

theorem occurs_iff_mem_ids (id : String) (t : Ty) : t.occurs id = true ↔ id ∈ t.ids :=
  occurs_iff id t

/-- An id of a substituted type was there before and is unbound, or comes from a bound type. -/
theorem mem_ids_subst {s : Subst} {t : Ty} {id : String} (h : id ∈ (t.subst s).ids) :
    (id ∈ t.ids ∧ id ∉ s.ids) ∨ ∃ b ∈ s.bindings, id ∈ b.2.ids := by
  induction t with
  | var v =>
    rw [subst] at h
    cases hv : s.lookup v.id with
    | none =>
      rw [hv] at h
      have hid : id = v.id := by simpa using h
      exact .inl ⟨by simp [hid], hid ▸ (s.lookup_eq_none_iff v.id).1 hv⟩
    | some u =>
      rw [hv] at h
      obtain ⟨w, hw, _⟩ := Subst.exists_of_lookup hv
      exact .inr ⟨_, hw, h⟩
  | con c => simp [subst] at h
  | gen n => simp [subst] at h
  | app f x ihf ihx =>
    rw [subst, ids_app, List.mem_append] at h
    rcases h with h | h
    · exact (ihf h).imp_left (And.imp_left fun h => by simp [h])
    · exact (ihx h).imp_left (And.imp_left fun h => by simp [h])

end Ty

namespace Subst

/-- The substitution binds and mentions only ids of `V`, and mentions no id that it binds. -/
structure SolvedIn (V : List String) (s : Subst) : Prop where
  bound_mem : ∀ id ∈ s.ids, id ∈ V
  range_mem : ∀ b ∈ s.bindings, ∀ id ∈ b.2.ids, id ∈ V
  range_unbound : ∀ b ∈ s.bindings, ∀ id ∈ b.2.ids, id ∉ s.ids

theorem solvedIn_empty (V : List String) : SolvedIn V empty where
  bound_mem := by simp [empty, ids, keys]
  range_mem := by simp [empty]
  range_unbound := by simp [empty]

theorem solvedIn_singleton {V : List String} {v : TyVar} {t : Ty} (hv : v.id ∈ V)
    (ht : ∀ id ∈ t.ids, id ∈ V) (hvt : v.id ∉ t.ids) : SolvedIn V (singleton v t) where
  bound_mem := by simpa [singleton, ids, keys] using hv
  range_mem := by simpa [singleton] using ht
  range_unbound := by
    simp only [singleton, ids, keys, List.mem_singleton, List.map_cons, List.map_nil, forall_eq]
    intro id hid h
    exact hvt (h ▸ hid)

namespace SolvedIn

variable {V W : List String} {s s₁ s₂ : Subst}

theorem mono (h : SolvedIn V s) (hV : ∀ id ∈ V, id ∈ W) : SolvedIn W s where
  bound_mem id hid := hV id (h.bound_mem id hid)
  range_mem b hb id hid := hV id (h.range_mem b hb id hid)
  range_unbound := h.range_unbound

/-- A bound id is gone from every substituted type. -/
theorem notMem_subst (h : SolvedIn V s) {id : String} (hid : id ∈ s.ids) (t : Ty) :
    id ∉ (t.subst s).ids := by
  intro ht
  rcases Ty.mem_ids_subst ht with ⟨_, hs⟩ | ⟨b, hb, hbid⟩
  · exact hs hid
  · exact h.range_unbound b hb id hbid hid

/-- No id comes in from outside. -/
theorem mem_of_mem_subst (h : SolvedIn V s) {id : String} {t : Ty} (hid : id ∈ (t.subst s).ids) :
    id ∈ t.ids ∨ id ∈ V := by
  rcases Ty.mem_ids_subst hid with ⟨ht, _⟩ | ⟨b, hb, hbid⟩
  · exact .inl ht
  · exact .inr (h.range_mem b hb id hbid)

end SolvedIn

/-- If `s₂` solves a problem from which the ids bound by `s₁` are gone, then `s₁` followed by `s₂` is
solved. -/
theorem SolvedIn.compose {V W : List String} {s₁ s₂ : Subst} (h₁ : SolvedIn V s₁)
    (h₂ : SolvedIn W s₂) (hW : ∀ id ∈ W, id ∈ V) (hs : ∀ id ∈ s₁.ids, id ∉ W) :
    SolvedIn V (s₂.compose s₁) where
  bound_mem id hid := by
    rcases mem_ids_compose.1 hid with h | h
    · exact h₁.bound_mem id h
    · exact hW id (h₂.bound_mem id h)
  range_mem b hb id hid := by
    rcases List.mem_append.1 hb with hb | hb
    · obtain ⟨c, hc, rfl⟩ := List.mem_map.1 hb
      rcases h₂.mem_of_mem_subst hid with h | h
      · exact h₁.range_mem c hc id h
      · exact hW id h
    · exact hW id (h₂.range_mem b (List.mem_filter.1 hb).1 id hid)
  range_unbound b hb id hid := by
    rw [mem_ids_compose]
    rintro (h | h)
    · rcases List.mem_append.1 hb with hb | hb
      · obtain ⟨c, hc, rfl⟩ := List.mem_map.1 hb
        rcases Ty.mem_ids_subst hid with ⟨hc', _⟩ | ⟨d, hd, hd'⟩
        · exact h₁.range_unbound c hc id hc' h
        · exact hs id h (h₂.range_mem d hd id hd')
      · exact hs id h (h₂.range_mem b (List.mem_filter.1 hb).1 id hid)
    · rcases List.mem_append.1 hb with hb | hb
      · obtain ⟨c, hc, rfl⟩ := List.mem_map.1 hb
        exact h₂.notMem_subst h c.2 hid
      · exact h₂.range_unbound b (List.mem_filter.1 hb).1 id hid h

end Subst

/-! ## The measure of a unification problem -/

/-- The number of distinct variable ids in a pair of types. -/
def varCount (t₁ t₂ : Ty) : Nat := (freeVars [t₁, t₂]).length

theorem ids_occurrences_pair (t₁ t₂ : Ty) :
    (occurrences [t₁, t₂]).map TyVar.id = t₁.ids ++ t₂.ids := by
  simp [occurrences, Ty.ids]

theorem varCount_le {t₁ t₂ u₁ u₂ : Ty} (h : ∀ id ∈ t₁.ids ++ t₂.ids, id ∈ u₁.ids ++ u₂.ids) :
    varCount t₁ t₂ ≤ varCount u₁ u₂ :=
  length_distinctOn_le TyVar.id (by simpa only [ids_occurrences_pair] using h)

/-- Solving the left halves of two applications, unless nothing had to be bound, leaves fewer distinct
variables in the right halves than there were in the whole. -/
theorem varCount_lt {l₁ l₂ r₁ r₂ : Ty} {s : Subst} (h : s.SolvedIn (l₁.ids ++ l₂.ids))
    (hs : s.bindings ≠ []) :
    varCount (s.apply r₁) (s.apply r₂) < varCount (.app l₁ r₁) (.app l₂ r₂) := by
  obtain ⟨b, bs, hb⟩ := List.exists_cons_of_ne_nil hs
  have hk : b.1.id ∈ s.ids := by simp [Subst.ids, Subst.keys, hb]
  refine length_distinctOn_lt TyVar.id (k := b.1.id) ?_ ?_ ?_
  · simp only [ids_occurrences_pair, List.mem_append, Ty.ids_app, Subst.apply_ty]
    rintro id (hid | hid) <;>
      rcases (h.mem_of_mem_subst hid).imp_right List.mem_append.1 with h | h | h <;> simp [h]
  · simp only [ids_occurrences_pair, List.mem_append, Subst.apply_ty]
    rintro (hid | hid) <;> exact h.notMem_subst hk _ hid
  · have := h.bound_mem _ hk
    simp only [ids_occurrences_pair, List.mem_append, Ty.ids_app] at this ⊢
    rcases this with h | h <;> simp [h]

/-- The number of distinct variable ids in a pair of types, and then the number of nodes. -/
def problemSize (t₁ t₂ : Ty) : Nat × Nat := (varCount t₁ t₂, t₁.size + t₂.size)

theorem problemSize_left_lt (l₁ r₁ l₂ r₂ : Ty) :
    Prod.Lex (· < ·) (· < ·) (problemSize l₁ l₂) (problemSize (.app l₁ r₁) (.app l₂ r₂)) := by
  refine Prod.Lex.right' _ (varCount_le ?_) ?_
  · simp only [List.mem_append, Ty.ids_app]
    rintro id (h | h) <;> simp [h]
  · simp only [Ty.size]
    omega

/-- The right halves may have grown, but then there are fewer variables in them. -/
theorem problemSize_right_lt {l₁ l₂ : Ty} {s : Subst} (h : s.SolvedIn (l₁.ids ++ l₂.ids)) (r₁ r₂ : Ty) :
    Prod.Lex (· < ·) (· < ·) (problemSize (s.apply r₁) (s.apply r₂))
      (problemSize (.app l₁ r₁) (.app l₂ r₂)) := by
  by_cases hs : s.bindings = []
  · have hs : s = .empty := Subst.ext hs
    subst hs
    refine Prod.Lex.right' _ (varCount_le ?_) ?_
    · simp only [List.mem_append, Ty.ids_app, Subst.apply_ty, Ty.subst_empty]
      rintro id (h | h) <;> simp [h]
    · simp only [Ty.size, Subst.apply_ty, Ty.subst_empty]
      omega
  · exact Prod.Lex.left _ _ (varCount_lt h hs)

end QualifiedTypes
