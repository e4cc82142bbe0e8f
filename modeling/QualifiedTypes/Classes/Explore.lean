import QualifiedTypes.Classes.Search

/-!
# Following predicates to their ends

A search replaces a predicate by others, and those again, until each is settled or one is stuck.  The
predicates form a tree, which is followed from left to right.

* `explore` reads the tree by recursion on its depth, as `entail` and `to_hnf` do in Conch.
* `exploreAll` keeps an agenda of predicates still to be followed, each with the depth left below it.
  It needs no more room for a deep tree than for a wide one.
* `exploreAll_eq` says that the agenda gives what the recursion gives.
-/

namespace QualifiedTypes

/-- What becomes of a predicate in one step. -/
inductive Step where
  /-- The predicate needs no more work, and these remain of it. -/
  | settled (found : List Pred)
  /-- The predicate comes down to these. -/
  | replaced (parts : List Pred)
  /-- Nothing can be done about the predicate. -/
  | stuck (e : MissingInstance)

/-- What a predicate comes down to, by at most `depth` steps on top of each other. -/
def explore (step : Pred → Step) : (depth : Nat) → Pred → Search (List Pred)
  | 0, _ => .exhausted
  | depth + 1, p =>
    match step p with
    | .settled found => .done found
    | .replaced parts => do
      let found ← parts.mapM (explore step depth)
      return found.flatten
    | .stuck e => .missing e

/-! ## The agenda -/

/-- The number of predicates to look at below a predicate, itself included. -/
def visits (step : Pred → Step) : (depth : Nat) → Pred → Nat
  | 0, _ => 1
  | depth + 1, p =>
    match step p with
    | .replaced parts => parts.foldr (fun q n => visits step depth q + n) 1
    | _ => 1

/-- The number of predicates to look at before an agenda is done. -/
def pending (step : Pred → Step) (agenda : List (Nat × Pred)) : Nat :=
  agenda.foldr (fun e n => visits step e.1 e.2 + n) 0

theorem pending_cons (step : Pred → Step) (depth : Nat) (p : Pred) (rest : List (Nat × Pred)) :
    pending step ((depth, p) :: rest) = visits step depth p + pending step rest := rfl

theorem visits_pos (step : Pred → Step) (depth : Nat) (p : Pred) : 0 < visits step depth p := by
  cases depth with
  | zero => exact Nat.one_pos
  | succ depth =>
    rw [visits]
    split
    · next parts h =>
      clear h
      induction parts with
      | nil => exact Nat.one_pos
      | cons q parts ih => exact Nat.lt_of_lt_of_le ih (Nat.le_add_left _ _)
    · exact Nat.one_pos

/-- A predicate accounts for one visit more than its parts. -/
theorem pending_parts (step : Pred → Step) (depth : Nat) (parts : List Pred)
    (rest : List (Nat × Pred)) :
    pending step (parts.map (fun q => (depth, q)) ++ rest) + 1 =
      parts.foldr (fun q n => visits step depth q + n) 1 + pending step rest := by
  induction parts with
  | nil => exact Nat.add_comm _ _
  | cons q parts ih =>
    rw [List.map_cons, List.cons_append, pending_cons, List.foldr_cons, Nat.add_assoc, ih,
      Nat.add_assoc]

/-- What the predicates of an agenda come down to, after what was found before, which is kept in
reverse order. -/
def exploreAll (step : Pred → Step) (agenda : List (Nat × Pred)) (found : List Pred) :
    Search (List Pred) :=
  match agenda with
  | [] => .done found.reverse
  | (0, _) :: _ => .exhausted
  | (depth + 1, p) :: rest =>
    match _h : step p with
    | .settled new => exploreAll step rest (new.reverse ++ found)
    | .replaced parts => exploreAll step (parts.map (fun q => (depth, q)) ++ rest) found
    | .stuck e => .missing e
termination_by pending step agenda
decreasing_by
  · rw [pending_cons]
    exact Nat.lt_add_of_pos_left (visits_pos step _ p)
  · have := pending_parts step depth parts rest
    rw [pending_cons, visits, _h]
    dsimp only
    omega

/-- The agenda gives what the recursion gives, predicate after predicate. -/
theorem exploreAll_eq (step : Pred → Step) (agenda : List (Nat × Pred)) (found : List Pred) :
    exploreAll step agenda found =
      (agenda.mapM fun e => explore step e.1 e.2) >>= fun parts =>
        pure (found.reverse ++ parts.flatten) := by
  fun_induction exploreAll step agenda found with
  | case1 found => simp
  | case2 found p rest => simp [explore]
  | case3 found depth p rest new h ih => simp [explore, h, ih]
  | case4 found depth p rest parts h ih => simp [explore, h, ih, Function.comp_def]
  | case5 found depth p rest e h => simp [explore, h]

end QualifiedTypes
