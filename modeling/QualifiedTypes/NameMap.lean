/-!
# Maps from names

A map from names to values, listed in the order of the names.  Names are compared by code point.

* `NameMap.find?_insert_self`: the value just inserted is found.
* `NameMap.find?_insert_of_ne`: every other name is unaffected.
* `NameMap.mem_insertEntry`: no other entry comes in.
-/

namespace QualifiedTypes

/-- Values under names, in the order of the names. -/
structure NameMap (α : Type) where
  entries : List (String × α)
  deriving DecidableEq

namespace NameMap

variable {α β : Type}

/-- The map without entries. -/
def empty : NameMap α := ⟨[]⟩

instance : Inhabited (NameMap α) := ⟨empty⟩

/-- The value under a name. -/
def find? (m : NameMap α) (name : String) : Option α :=
  (m.entries.find? fun e => e.1 == name).map Prod.snd

/-- Whether there is a value under a name. -/
def contains (m : NameMap α) (name : String) : Bool := (m.find? name).isSome

/-- Put an entry in its place in an ordered list, over any entry of the same name. -/
def insertEntry (name : String) (value : α) : List (String × α) → List (String × α)
  | [] => [(name, value)]
  | e :: rest =>
    if e.1 = name then (name, value) :: rest
    else if name < e.1 then (name, value) :: e :: rest
    else e :: insertEntry name value rest

/-- Put a value under a name, in place of any value that was there. -/
def insert (m : NameMap α) (name : String) (value : α) : NameMap α :=
  ⟨insertEntry name value m.entries⟩

/-- The map of a list of entries.  Of two entries for one name, the last counts. -/
def ofList (entries : List (String × α)) : NameMap α :=
  entries.foldl (fun m e => m.insert e.1 e.2) empty

/-- The number of entries. -/
def size (m : NameMap α) : Nat := m.entries.length

/-- The names in order. -/
def names (m : NameMap α) : List String := m.entries.map Prod.fst

@[simp] theorem find?_empty (name : String) : (empty : NameMap α).find? name = none := rfl

theorem find?_insertEntry_self (name : String) (value : α) (entries : List (String × α)) :
    (insertEntry name value entries).find? (fun e => e.1 == name) = some (name, value) := by
  induction entries with
  | nil => simp [insertEntry]
  | cons e rest ih =>
    rw [insertEntry]
    split
    · simp
    · rename_i h
      split
      · simp
      · rw [List.find?_cons_of_neg (by simpa using h), ih]

theorem find?_insertEntry_of_ne {name other : String} (h : other ≠ name) (value : α)
    (entries : List (String × α)) :
    (insertEntry name value entries).find? (fun e => e.1 == other) =
      entries.find? fun e => e.1 == other := by
  have hn : (name == other) = false := by simpa using Ne.symm h
  induction entries with
  | nil => simp [insertEntry, hn]
  | cons e rest ih =>
    rw [insertEntry]
    split
    · rename_i he
      simp [he, hn]
    · split
      · simp [List.find?_cons, hn]
      · simp [List.find?_cons, ih]

@[simp] theorem find?_insert_self (m : NameMap α) (name : String) (value : α) :
    (m.insert name value).find? name = some value := by
  simp [find?, insert, find?_insertEntry_self]

theorem mem_insertEntry {name : String} {value : α} {e : String × α} {entries : List (String × α)}
    (h : e ∈ insertEntry name value entries) : e = (name, value) ∨ e ∈ entries := by
  induction entries with
  | nil => exact .inl (List.mem_singleton.1 h)
  | cons e' rest ih =>
    rw [insertEntry] at h
    split at h
    · exact (List.mem_cons.1 h).imp_right fun h => List.mem_cons_of_mem _ h
    · split at h
      · exact List.mem_cons.1 h
      · rcases List.mem_cons.1 h with rfl | h
        · exact .inr List.mem_cons_self
        · exact (ih h).imp_right fun h => List.mem_cons_of_mem _ h

theorem find?_insert_of_ne (m : NameMap α) {name other : String} (h : other ≠ name) (value : α) :
    (m.insert name value).find? other = m.find? other := by
  simp [find?, insert, find?_insertEntry_of_ne h]

end NameMap

end QualifiedTypes
