/-!
# Keeping first occurrences

`distinctOn key l` drops from `l` every element whose key an earlier element already has.  The order of
the survivors is that of their first occurrences.

* `mem_keys_distinctOn`: no key is lost and none is added.
* `nodup_distinctOn`: the keys of the result are pairwise different.
* `distinctOn_append`: what a list adds to the keys of another.
* `distinctOn_filter`: elements may be chosen by their keys before or after.
* `distinctOn_flatMap_distinctOn`, `distinctOn_distinctOn_flatMap`: what is dropped from the parts of a list, or
  before they are put together, would be dropped from the whole.
* `distinctOn_map`: a map that keeps keys apart may be applied before or after.
* `length_distinctOn_lt`: fewer keys give a shorter result.
-/

namespace QualifiedTypes

variable {α κ : Type} [DecidableEq κ] (key : α → κ)

/-- The elements of a list with a key that no earlier element has. -/
def distinctOn : List α → List α
  | [] => []
  | a :: l => a :: (distinctOn l).filter fun b => key b ≠ key a

@[simp] theorem distinctOn_nil : distinctOn key [] = [] := rfl

theorem distinctOn_cons (a : α) (l : List α) :
    distinctOn key (a :: l) = a :: (distinctOn key l).filter fun b => key b ≠ key a := rfl

theorem mem_of_mem_distinctOn {a : α} {l : List α} (h : a ∈ distinctOn key l) : a ∈ l := by
  induction l with
  | nil => exact h
  | cons b l ih =>
    rw [distinctOn_cons, List.mem_cons, List.mem_filter] at h
    rcases h with rfl | ⟨h, _⟩
    · exact List.mem_cons_self
    · exact List.mem_cons_of_mem _ (ih h)

theorem mem_keys_distinctOn {k : κ} {l : List α} :
    k ∈ (distinctOn key l).map key ↔ k ∈ l.map key := by
  induction l with
  | nil => exact Iff.rfl
  | cons a l ih =>
    simp only [distinctOn_cons, List.map_cons, List.mem_cons, List.mem_map, List.mem_filter,
      decide_eq_true_eq, ne_eq] at ih ⊢
    by_cases hk : k = key a
    · simp [hk]
    · constructor
      · rintro (h | ⟨b, ⟨hb, _⟩, rfl⟩)
        · exact .inl h
        · exact .inr (ih.1 ⟨b, hb, rfl⟩)
      · rintro (h | h)
        · exact .inl h
        · obtain ⟨b, hb, rfl⟩ := ih.2 h
          exact .inr ⟨b, ⟨hb, hk⟩, rfl⟩

theorem nodup_distinctOn (l : List α) : ((distinctOn key l).map key).Nodup := by
  induction l with
  | nil => exact List.nodup_nil
  | cons a l ih =>
    rw [distinctOn_cons, List.map_cons, List.nodup_cons]
    refine ⟨?_, ?_⟩
    · simp only [List.mem_map, List.mem_filter, decide_eq_true_eq, not_exists, not_and]
      rintro b ⟨_, hb⟩ h
      exact hb h
    · exact ih.sublist (List.Sublist.map key List.filter_sublist)

/-- After another list, the elements of a list survive that have a key which is new to both. -/
theorem distinctOn_append (l m : List α) :
    distinctOn key (l ++ m) = distinctOn key l ++ (distinctOn key m).filter fun b => key b ∉ l.map key := by
  induction l with
  | nil => exact (List.filter_eq_self.2 fun b _ => by simp).symm
  | cons a l ih =>
    rw [List.cons_append, distinctOn_cons, distinctOn_cons, ih, List.filter_append, List.filter_filter,
      List.cons_append]
    congr 2
    refine List.filter_congr fun b _ => ?_
    simp [not_or]

/-- Elements that are chosen by their keys keep their order. -/
theorem distinctOn_filter (p : κ → Bool) (l : List α) :
    distinctOn key (l.filter fun a => p (key a)) = (distinctOn key l).filter fun a => p (key a) := by
  induction l with
  | nil => rfl
  | cons a l ih =>
    by_cases ha : p (key a) = true
    · rw [List.filter_cons, if_pos ha, distinctOn_cons, distinctOn_cons, List.filter_cons, if_pos ha, ih,
        List.filter_filter, List.filter_filter]
      exact congrArg _ (List.filter_congr fun b _ => Bool.and_comm ..)
    · rw [List.filter_cons, if_neg ha, distinctOn_cons, List.filter_cons, if_neg ha, ih, List.filter_filter]
      -- An element with the key of `a` is not chosen either.
      refine List.filter_congr fun b _ => ?_
      by_cases hb : key b = key a
      · simp [hb, ha]
      · simp [hb]

@[simp] theorem distinctOn_distinctOn (l : List α) : distinctOn key (distinctOn key l) = distinctOn key l := by
  induction l with
  | nil => rfl
  | cons a l ih =>
    rw [distinctOn_cons, distinctOn_cons, distinctOn_filter key (fun k => k ≠ key a), ih, List.filter_filter]
    simp only [Bool.and_self]

theorem distinctOn_append_distinctOn (l m : List α) :
    distinctOn key (l ++ distinctOn key m) = distinctOn key (l ++ m) := by
  rw [distinctOn_append, distinctOn_distinctOn, ← distinctOn_append]

theorem distinctOn_distinctOn_append (l m : List α) :
    distinctOn key (distinctOn key l ++ m) = distinctOn key (l ++ m) := by
  rw [distinctOn_append, distinctOn_append, distinctOn_distinctOn]
  simp only [mem_keys_distinctOn]

/-- Repetitions within the parts may be dropped first. -/
theorem distinctOn_flatMap_distinctOn {β : Type} (f : β → List α) (l : List β) :
    distinctOn key (l.flatMap fun b => distinctOn key (f b)) = distinctOn key (l.flatMap f) := by
  induction l with
  | nil => rfl
  | cons b l ih =>
    rw [List.flatMap_cons, List.flatMap_cons, distinctOn_distinctOn_append, distinctOn_append, ih,
      ← distinctOn_append]

/-- Elements that give nothing may be dropped first. -/
theorem flatMap_filter_of_eq_nil {β : Type} {f : β → List α} {p : β → Bool} (h : ∀ b, p b = false → f b = [])
    (l : List β) : (l.filter p).flatMap f = l.flatMap f := by
  induction l with
  | nil => rfl
  | cons b l ih =>
    cases hb : p b with
    | false => rw [List.filter_cons_of_neg (by simp [hb]), ih, List.flatMap_cons, h b hb, List.nil_append]
    | true => rw [List.filter_cons_of_pos hb, List.flatMap_cons, ih, List.flatMap_cons]

/-- Repeated parts may be dropped first, where elements with one key give parts with the same keys. -/
theorem distinctOn_distinctOn_flatMap {β μ : Type} [DecidableEq μ] {key' : β → μ} {f : β → List α}
    (h : ∀ a b, key' a = key' b → ∀ k ∈ (f a).map key, k ∈ (f b).map key) (l : List β) :
    distinctOn key ((distinctOn key' l).flatMap f) = distinctOn key (l.flatMap f) := by
  induction l with
  | nil => rfl
  | cons b l ih =>
    -- Of a part with the key of `b`, nothing is left after the part of `b`.
    have hpart : ∀ a, decide (key' a ≠ key' b) = false → (f a).filter (fun c => key c ∉ (f b).map key) = [] := by
      intro a ha
      refine List.filter_eq_nil_iff.2 fun c hc => ?_
      simpa using h a b (by simpa using ha) (key c) (List.mem_map_of_mem hc)
    rw [distinctOn_cons, List.flatMap_cons, List.flatMap_cons, distinctOn_append, distinctOn_append, ← ih]
    refine congrArg _ ?_
    rw [← distinctOn_filter key (fun k => k ∉ (f b).map key), List.filter_flatMap, flatMap_filter_of_eq_nil hpart,
      ← List.filter_flatMap, distinctOn_filter key (fun k => k ∉ (f b).map key)]

/-- Elements whose keys stay different keep their order. -/
theorem distinctOn_map {β μ : Type} [DecidableEq μ] {key : α → κ} {key' : β → μ} {g : α → β} {l : List α}
    (h : ∀ a ∈ l, ∀ b ∈ l, key' (g a) = key' (g b) ↔ key a = key b) :
    distinctOn key' (l.map g) = (distinctOn key l).map g := by
  induction l with
  | nil => rfl
  | cons a l ih =>
    have hrest := ih fun b hb c hc => h b (List.mem_cons_of_mem _ hb) c (List.mem_cons_of_mem _ hc)
    rw [List.map_cons, distinctOn_cons, distinctOn_cons, hrest, List.map_cons, List.filter_map]
    refine congrArg _ (congrArg _ (List.filter_congr fun b hb => decide_eq_decide.2 ?_))
    exact not_congr (h b (List.mem_cons_of_mem _ (mem_of_mem_distinctOn key hb)) a List.mem_cons_self)

/-- A list without repetition is no longer than a list that has all of its elements. -/
theorem length_le_of_nodup_of_subset {l m : List κ} (hl : l.Nodup) (h : ∀ x ∈ l, x ∈ m) :
    l.length ≤ m.length := by
  induction l generalizing m with
  | nil => exact Nat.zero_le _
  | cons a l ih =>
    rw [List.nodup_cons] at hl
    have ha : a ∈ m := h a List.mem_cons_self
    have := ih hl.2 (m := m.erase a) fun x hx =>
      (List.mem_erase_of_ne fun (e : x = a) => hl.1 (e ▸ hx)).2 (h x (List.mem_cons_of_mem _ hx))
    rw [List.length_erase_of_mem ha] at this
    have := List.length_pos_of_mem ha
    rw [List.length_cons]
    omega

theorem length_distinctOn_le {l m : List α} (h : ∀ k ∈ l.map key, k ∈ m.map key) :
    (distinctOn key l).length ≤ (distinctOn key m).length := by
  have := length_le_of_nodup_of_subset (nodup_distinctOn key l) fun k hk =>
    (mem_keys_distinctOn key).2 (h k ((mem_keys_distinctOn key).1 hk))
  rw [List.length_map, List.length_map] at this
  exact this

theorem length_distinctOn_lt {l m : List α} {k : κ} (h : ∀ k ∈ l.map key, k ∈ m.map key)
    (hl : k ∉ l.map key) (hm : k ∈ m.map key) :
    (distinctOn key l).length < (distinctOn key m).length := by
  have hnodup : (k :: (distinctOn key l).map key).Nodup :=
    List.nodup_cons.2 ⟨fun hk => hl ((mem_keys_distinctOn key).1 hk), nodup_distinctOn key l⟩
  have := length_le_of_nodup_of_subset (m := (distinctOn key m).map key) hnodup fun x hx => by
    rcases List.mem_cons.1 hx with rfl | hx
    · exact (mem_keys_distinctOn key).2 hm
    · exact (mem_keys_distinctOn key).2 (h x ((mem_keys_distinctOn key).1 hx))
  rw [List.length_cons, List.length_map, List.length_map] at this
  exact this

end QualifiedTypes
