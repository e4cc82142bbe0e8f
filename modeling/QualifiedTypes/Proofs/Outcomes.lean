import Mathlib.Data.List.Forall2
import QualifiedTypes.Classes.Search

/-!
# Outcomes of computations

When a computation in steps ends well, and what its steps gave.  Each lemma reads one way of putting
computations together.

* `bind_eq_ok`, `bind_eq_error`, `mapError_eq_ok`, `mapM_eq_ok_iff`, `exists_of_mapM_error`: reading and declaring,
  where a step may fail.
* `foldlM_invariant`: what every step keeps, a sequence of declarations keeps.
* `Search.bind_eq_done`, `Search.mapM_eq_done`, `Search.mapM_eq_missing`, `Search.mapM_cases`, `Search.exists_mapM`:
  searches, which may also be cut off.
-/

namespace QualifiedTypes

/-! ## Steps that may fail -/

section Except

variable {ε ε' α β : Type}

theorem bind_eq_ok {x : Except ε α} {f : α → Except ε β} {b : β} :
    (x >>= f) = .ok b ↔ ∃ a, x = .ok a ∧ f a = .ok b := by
  cases x with
  | error e => simp [bind, Except.bind]
  | ok a => simp [bind, Except.bind]

theorem bind_eq_error {x : Except ε α} {f : α → Except ε β} {e : ε} :
    (x >>= f) = .error e ↔ x = .error e ∨ ∃ a, x = .ok a ∧ f a = .error e := by
  cases x with
  | error e' => simp [bind, Except.bind]
  | ok a => simp [bind, Except.bind]

theorem mapError_eq_ok {x : Except ε α} {f : ε → ε'} {a : α} : x.mapError f = .ok a ↔ x = .ok a := by
  cases x with
  | error e =>
    constructor
    · intro h
      cases h
    · intro h
      cases h
  | ok b =>
    constructor
    · intro h
      cases h
      rfl
    · intro h
      cases h
      rfl

theorem mapM_eq_ok_iff {f : α → Except ε β} {l : List α} {l' : List β} :
    l.mapM f = .ok l' ↔ List.Forall₂ (fun a b => f a = .ok b) l l' := by
  induction l generalizing l' with
  | nil =>
    constructor
    · intro h
      cases h
      exact .nil
    · intro h
      cases h
      rfl
  | cons a l ih =>
    rw [List.mapM_cons, bind_eq_ok]
    constructor
    · rintro ⟨b, hb, h⟩
      obtain ⟨bs, hbs, h⟩ := bind_eq_ok.1 h
      cases h
      exact .cons hb (ih.1 hbs)
    · intro h
      cases h with
      | cons hb hbs => exact ⟨_, hb, bind_eq_ok.2 ⟨_, ih.2 hbs, rfl⟩⟩

theorem exists_of_mem_mapM {f : α → Except ε β} {l : List α} {l' : List β} (h : l.mapM f = .ok l') {b : β}
    (hb : b ∈ l') : ∃ a ∈ l, f a = .ok b := by
  rw [mapM_eq_ok_iff] at h
  induction h with
  | nil => cases hb
  | cons hfirst _ ih =>
    rcases List.mem_cons.1 hb with rfl | hb
    · exact ⟨_, List.mem_cons_self, hfirst⟩
    · obtain ⟨a, ha, hrest⟩ := ih hb
      exact ⟨a, List.mem_cons_of_mem _ ha, hrest⟩

theorem exists_of_mapM_error {f : α → Except ε β} {l : List α} {e : ε} (h : l.mapM f = .error e) :
    ∃ a ∈ l, f a = .error e := by
  induction l with
  | nil => cases h
  | cons a l ih =>
    rw [List.mapM_cons] at h
    rcases bind_eq_error.1 h with h | ⟨b, -, h⟩
    · exact ⟨a, List.mem_cons_self, h⟩
    · rcases bind_eq_error.1 h with h | ⟨bs, -, h⟩
      · obtain ⟨x, hx, hfx⟩ := ih h
        exact ⟨x, List.mem_cons_of_mem _ hx, hfx⟩
      · cases h

/-- What every step keeps, a fold keeps. -/
theorem foldlM_invariant {P : β → Prop} {f : β → α → Except ε β}
    (hstep : ∀ b a b', P b → f b a = .ok b' → P b') {l : List α} {b b' : β} (hb : P b)
    (h : l.foldlM f b = .ok b') : P b' := by
  induction l generalizing b with
  | nil =>
    cases h
    exact hb
  | cons a l ih =>
    rw [List.foldlM_cons] at h
    obtain ⟨b₁, hb₁, h⟩ := bind_eq_ok.1 h
    exact ih (hstep b a b₁ hb hb₁) h

end Except

/-! ## Steps of a search -/

namespace Search

variable {α β : Type} {f : α → Search β} {l : List α}

theorem bind_eq_done {x : Search α} {b : β} : (x >>= f) = .done b ↔ ∃ a, x = .done a ∧ f a = .done b := by
  cases x <;> simp

theorem bind_eq_missing {x : Search α} {e : MissingInstance} :
    (x >>= f) = .missing e ↔ x = .missing e ∨ ∃ a, x = .done a ∧ f a = .missing e := by
  cases x <;> simp

theorem succeeds_eq_true {x : Search α} : x.succeeds = .done true ↔ ∃ a, x = .done a := by
  cases x <;> simp [succeeds]

theorem succeeds_eq_false {x : Search α} : x.succeeds = .done false ↔ ∃ e, x = .missing e := by
  cases x <;> simp [succeeds]

theorem mapM_eq_done {bs : List β} (h : l.mapM f = .done bs) :
    (∀ a ∈ l, ∃ b ∈ bs, f a = .done b) ∧ ∀ b ∈ bs, ∃ a ∈ l, f a = .done b := by
  induction l generalizing bs with
  | nil =>
    cases h
    exact ⟨fun a ha => (nomatch ha), fun b hb => (nomatch hb)⟩
  | cons a l ih =>
    rw [List.mapM_cons] at h
    obtain ⟨b, hb, h⟩ := bind_eq_done.1 h
    obtain ⟨bs', hbs, h⟩ := bind_eq_done.1 h
    cases h
    obtain ⟨hall, hback⟩ := ih hbs
    constructor
    · rintro x (_ | ⟨_, hx⟩)
      · exact ⟨b, List.mem_cons_self, hb⟩
      · obtain ⟨y, hy, hxy⟩ := hall x hx
        exact ⟨y, List.mem_cons_of_mem _ hy, hxy⟩
    · rintro y (_ | ⟨_, hy⟩)
      · exact ⟨a, List.mem_cons_self, hb⟩
      · obtain ⟨x, hx, hxy⟩ := hback y hy
        exact ⟨x, List.mem_cons_of_mem _ hx, hxy⟩

theorem mapM_congr {g : α → Search β} (h : ∀ a ∈ l, f a = g a) : l.mapM f = l.mapM g := by
  induction l with
  | nil => rfl
  | cons a l ih =>
    rw [List.mapM_cons, List.mapM_cons, h a List.mem_cons_self, ih fun b hb => h b (List.mem_cons_of_mem _ hb)]

/-- A search through a list ends well, or as the search for one of its elements does. -/
theorem mapM_cases (f : α → Search β) (l : List α) :
    (∃ bs, l.mapM f = .done bs) ∨ (∃ a ∈ l, ∃ e, f a = .missing e ∧ l.mapM f = .missing e) ∨
      ∃ a ∈ l, f a = .exhausted ∧ l.mapM f = .exhausted := by
  induction l with
  | nil => exact .inl ⟨[], rfl⟩
  | cons a l ih =>
    rw [List.mapM_cons]
    cases hfa : f a with
    | exhausted => exact .inr (.inr ⟨a, List.mem_cons_self, hfa, rfl⟩)
    | missing e => exact .inr (.inl ⟨a, List.mem_cons_self, e, hfa, rfl⟩)
    | done b =>
      rw [done_bind]
      rcases ih with ⟨bs, hbs⟩ | ⟨x, hx, e, hfx, hl⟩ | ⟨x, hx, hfx, hl⟩
      · exact .inl ⟨b :: bs, by rw [hbs]; rfl⟩
      · exact .inr (.inl ⟨x, List.mem_cons_of_mem _ hx, e, hfx, by rw [hl]; rfl⟩)
      · exact .inr (.inr ⟨x, List.mem_cons_of_mem _ hx, hfx, by rw [hl]; rfl⟩)

/-- A search through a list ends well if the search for each of its elements does. -/
theorem exists_mapM (h : ∀ a ∈ l, ∃ b, f a = .done b) : ∃ bs, l.mapM f = .done bs := by
  rcases mapM_cases f l with hdone | ⟨a, ha, e, hfa, _⟩ | ⟨a, ha, hfa, _⟩
  · exact hdone
  · exact absurd (h a ha) (by simp [hfa])
  · exact absurd (h a ha) (by simp [hfa])

theorem mapM_eq_missing {e : MissingInstance} (h : l.mapM f = .missing e) : ∃ a ∈ l, f a = .missing e := by
  rcases mapM_cases f l with ⟨bs, hbs⟩ | ⟨a, ha, e', hfa, hl⟩ | ⟨a, _, _, hl⟩
  · rw [hbs] at h
    cases h
  · rw [hl] at h
    cases h
    exact ⟨a, ha, hfa⟩
  · rw [hl] at h
    cases h

end Search

end QualifiedTypes
