import QualifiedTypes.HasTypes

/-!
# Substitutions

A substitution is a finite map from variables to types that keeps the order in which its bindings were
made.  Variables are looked up by id alone.

In Conch, these are `lookup`, `compose` and `merge` of `Subst`, and `apply` of what has types.

* `Subst.apply` acts on every phrase built from types.
* `Subst.compose s₁ s₂` acts as `s₂` followed by `s₁`; it lists the bindings of `s₂` first.
* `Subst.merge` joins two substitutions that agree where both are defined.
-/

namespace QualifiedTypes

/-- Bindings of variables to types, in order. -/
@[ext]
structure Subst where
  bindings : List (TyVar × Ty)
  deriving DecidableEq

namespace Subst

/-- The substitution that binds nothing. -/
def empty : Subst := ⟨[]⟩

/-- The substitution that binds one variable. -/
def singleton (v : TyVar) (t : Ty) : Subst := ⟨[(v, t)]⟩

/-- The bindings of a list.  Of two bindings for one id, the first counts. -/
def ofList (bs : List (TyVar × Ty)) : Subst := ⟨distinctOn (fun b => b.1.id) bs⟩

/-- The type bound to an id. -/
def lookup (s : Subst) (id : String) : Option Ty :=
  (s.bindings.find? fun b => b.1.id == id).map Prod.snd

/-- Whether an id is bound. -/
def binds (s : Subst) (id : String) : Bool := s.bindings.any fun b => b.1.id == id

/-- The bound variables, in order. -/
def keys (s : Subst) : List TyVar := s.bindings.map Prod.fst

/-- The ids of the bound variables, in order. -/
def ids (s : Subst) : List String := s.keys.map TyVar.id

/-- The number of bindings. -/
def size (s : Subst) : Nat := s.bindings.length

end Subst

/-- Replace each bound variable of a type, all at once. -/
def Ty.subst (s : Subst) : Ty → Ty
  | .var v => (s.lookup v.id).getD (.var v)
  | .app f x => .app (f.subst s) (x.subst s)
  | t => t

namespace Subst

/-- Replace each bound variable of a phrase, all at once. -/
def apply {α : Type} [HasTypes α] (s : Subst) (x : α) : α := mapTypes (Ty.subst s) x

/-- The substitution that acts as `s₂` and then as `s₁`. -/
def compose (s₁ s₂ : Subst) : Subst :=
  ⟨s₂.bindings.map (fun b => (b.1, s₁.apply b.2)) ++ s₁.bindings.filter fun b => !s₂.binds b.1.id⟩

/-- Whether two substitutions send a variable to one type. -/
def agreeOn (s₁ s₂ : Subst) (v : TyVar) : Bool := s₁.apply (Ty.var v) == s₂.apply (Ty.var v)

/-- The union of two substitutions, or the first variable that both bind, to different types. -/
def merge (s₁ s₂ : Subst) : Except TyVar Subst :=
  match s₁.keys.find? fun v => s₂.binds v.id && !s₁.agreeOn s₂ v with
  | some v => .error v
  | none => .ok ⟨s₁.bindings ++ s₂.bindings.filter fun b => !s₁.binds b.1.id⟩

/-! ## Looking up and acting -/

@[simp] theorem apply_ty (s : Subst) (t : Ty) : s.apply t = t.subst s := rfl

@[simp] theorem apply_list {α : Type} [HasTypes α] (s : Subst) (xs : List α) :
    s.apply xs = xs.map s.apply := rfl

theorem binds_iff (s : Subst) (id : String) : s.binds id = true ↔ id ∈ s.ids := by
  simp [binds, ids, keys]

theorem lookup_eq_none_iff (s : Subst) (id : String) : s.lookup id = none ↔ id ∉ s.ids := by
  simp [lookup, ids, keys]

theorem exists_of_lookup {s : Subst} {id : String} {t : Ty} (h : s.lookup id = some t) :
    ∃ v, (v, t) ∈ s.bindings ∧ v.id = id := by
  simp only [lookup, Option.map_eq_some_iff] at h
  obtain ⟨⟨v, u⟩, hb, rfl⟩ := h
  exact ⟨v, List.mem_of_find?_eq_some hb, by simpa using List.find?_some hb⟩

/-- Composition binds what the first substitution binds, and then what only the second does. -/
theorem keys_compose (s₁ s₂ : Subst) :
    (s₁.compose s₂).keys = s₂.keys ++ s₁.keys.filter fun v => !s₂.binds v.id := by
  simp [compose, keys, List.filter_map, Function.comp_def]

theorem mem_ids_compose {s₁ s₂ : Subst} {id : String} :
    id ∈ (s₁.compose s₂).ids ↔ id ∈ s₂.ids ∨ id ∈ s₁.ids := by
  have h : ∀ id, s₂.binds id = false ↔ id ∉ s₂.ids := fun id => by
    rw [← binds_iff, Bool.not_eq_true]
  simp only [ids, keys_compose, List.map_append, List.mem_append, List.mem_map, List.mem_filter,
    Bool.not_eq_true', h]
  constructor
  · exact fun h => h.imp_right fun ⟨v, hv, e⟩ => ⟨v, hv.1, e⟩
  · rintro (h | ⟨v, hv, rfl⟩)
    · exact .inl h
    · by_cases hid : v.id ∈ s₂.ids
      · exact .inl (List.mem_map.1 hid)
      · exact .inr ⟨v, ⟨hv, fun h => hid (List.mem_map.2 h)⟩, rfl⟩

theorem binds_compose (s₁ s₂ : Subst) (id : String) :
    (s₁.compose s₂).binds id = (s₂.binds id || s₁.binds id) := by
  rw [Bool.eq_iff_iff, Bool.or_eq_true, binds_iff, binds_iff, binds_iff, mem_ids_compose]

theorem nodup_ids_compose {s₁ s₂ : Subst} (h₁ : s₁.ids.Nodup) (h₂ : s₂.ids.Nodup) :
    (s₁.compose s₂).ids.Nodup := by
  unfold ids at h₁ h₂ ⊢
  rw [keys_compose, List.map_append, List.nodup_append]
  refine ⟨h₂, h₁.sublist (List.filter_sublist.map _), fun id hid id' hid' he => ?_⟩
  obtain ⟨v, hv, rfl⟩ := List.mem_map.1 hid'
  have hunbound : s₂.binds v.id = false := by simpa using (List.mem_filter.1 hv).2
  rw [he, ← ids, ← binds_iff, hunbound] at hid
  cases hid

@[simp] theorem lookup_empty (id : String) : empty.lookup id = none := rfl

end Subst

@[simp] theorem Ty.subst_empty (t : Ty) : t.subst .empty = t := by
  induction t with
  | app f x ihf ihx => simp only [subst, ihf, ihx]
  | _ => rfl

end QualifiedTypes
