import Mathlib
import QualifiedTypes.Proofs.Grammar
import QualifiedTypes.Proofs.LexemeOffsets

/-!
# Where errors in signatures point

Errors carry a byte offset.  It comes from the lexer, from one of the readers, or, through the tree that was read,
from a pass over names and kinds.  Trees forget parentheses, but record the offsets of all other first lexemes.

* `SignatureTree.Begins`, `SignaturePhrase.Begins`: lexemes that can be continued to a part, or to a signature.
* `SignatureTree.FailsAt`: where reading fails, with `SignaturePhrase.failsAt_of_ofLexemes`.
* `SignatureTree.offsets`: what trees record, and what later errors point at.
* `PointsAt`: what an error points at in a text.
* `signature_errors_point`: **errors in signatures point into the text.**
-/

namespace QualifiedTypes

/-! ## Reading lexemes -/

namespace SignatureTree

variable {stop n : Nat} {part part' : Part} {ts rest : List Lexeme} {e : SignatureError}

/-- The lexemes are the beginning of what a part derives. -/
def Begins (part : Part) (ts : List Lexeme) : Prop := ∃ us trees, Derives part (ts ++ us) trees

theorem Derives.exists_tree {trees : List SignatureTree} (h : Derives part ts trees) (hpart : part ≠ .items) :
    ∃ t, trees = [t] := by
  cases h with
  | last | more => exact absurd rfl hpart
  | _ => exact ⟨_, rfl⟩

namespace Begins

theorem of_derives {us : List Lexeme} {trees : List SignatureTree} (h : Derives part us trees) : Begins part us :=
  ⟨[], trees, by rwa [List.append_nil]⟩

theorem exists_tree (h : Begins part ts) (hpart : part ≠ .items) : ∃ us t, Derives part (ts ++ us) [t] := by
  obtain ⟨us, trees, h⟩ := h
  obtain ⟨t, rfl⟩ := h.exists_tree hpart
  exact ⟨us, t, h⟩

theorem nil : Begins .atom [] := ⟨_, _, .name "a" 0⟩

theorem parens (h : Begins .type ts) (offset : Nat) : Begins .atom (⟨.openParen, offset⟩ :: ts) := by
  obtain ⟨us, t, h⟩ := h.exists_tree nofun
  refine ⟨us ++ [⟨.closeParen, 0⟩], [t], ?_⟩
  rw [List.cons_append, ← List.append_assoc]
  exact .group offset 0 h

theorem tuple {us : List Lexeme} {t : SignatureTree} (hfirst : Derives .type us [t]) (h : Begins .items ts)
    (offset comma : Nat) : Begins .atom (⟨.openParen, offset⟩ :: (us ++ ⟨.comma, comma⟩ :: ts)) := by
  obtain ⟨vs, items, h⟩ := h
  refine ⟨vs, [.tuple (t :: items) offset], ?_⟩
  rw [List.cons_append, List.append_assoc]
  exact .tuple offset comma hfirst h

theorem brackets (h : Begins .type ts) (offset : Nat) : Begins .atom (⟨.openBracket, offset⟩ :: ts) := by
  obtain ⟨us, t, h⟩ := h.exists_tree nofun
  refine ⟨us ++ [⟨.closeBracket, 0⟩], [.list t offset], ?_⟩
  rw [List.cons_append, ← List.append_assoc]
  exact .list offset 0 h

theorem head (h : Begins .atom ts) : Begins .applied ts := by
  obtain ⟨us, t, h⟩ := h.exists_tree nofun
  exact ⟨us, [t], .head h⟩

theorem app {us : List Lexeme} {f : SignatureTree} (hfn : Derives .applied us [f]) (h : Begins .atom ts) :
    Begins .applied (us ++ ts) := by
  obtain ⟨vs, t, h⟩ := h.exists_tree nofun
  refine ⟨vs, [.app f t], ?_⟩
  rw [List.append_assoc]
  exact .app hfn h

theorem plain (h : Begins .applied ts) : Begins .type ts := by
  obtain ⟨us, t, h⟩ := h.exists_tree nofun
  exact ⟨us, [t], .plain h⟩

theorem arrow {us : List Lexeme} {d : SignatureTree} (hdomain : Derives .applied us [d]) (h : Begins .type ts)
    (offset : Nat) : Begins .type (us ++ ⟨.arrow, offset⟩ :: ts) := by
  obtain ⟨vs, c, h⟩ := h.exists_tree nofun
  refine ⟨vs, [.arrow d c], ?_⟩
  rw [List.append_assoc]
  exact .arrow offset hdomain h

theorem items (h : Begins .type ts) : Begins .items ts := by
  obtain ⟨us, t, h⟩ := h.exists_tree nofun
  refine ⟨us ++ [⟨.closeParen, 0⟩], [t], ?_⟩
  rw [← List.append_assoc]
  exact .last 0 h

theorem more {us : List Lexeme} {t : SignatureTree} (hitem : Derives .type us [t]) (h : Begins .items ts)
    (comma : Nat) : Begins .items (us ++ ⟨.comma, comma⟩ :: ts) := by
  obtain ⟨vs, items, h⟩ := h
  refine ⟨vs, t :: items, ?_⟩
  rw [List.append_assoc]
  exact .more comma hitem h

end Begins

/-- Where reading fails: at a lexeme, or behind all of them, if they are the beginning of what is read. -/
inductive FailsAt (stop : Nat) (begins : List Lexeme → Prop) (ts : List Lexeme) (e : SignatureError) : Prop where
  | lexeme (l : Lexeme) (mem : l ∈ ts) (offset : e.offset = l.offset)
  | ending (offset : e.offset = stop) (continues : begins ts)

namespace FailsAt

variable {begins begins' : List Lexeme → Prop}

/-- Reading fails where it fails behind what was read before. -/
theorem behind (us : List Lexeme) (h : FailsAt stop begins rest e) (hbegins : begins rest → begins' (us ++ rest)) :
    FailsAt stop begins' (us ++ rest) e := by
  cases h with
  | lexeme l mem offset => exact .lexeme l (List.mem_append_right us mem) offset
  | ending offset continues => exact .ending offset (hbegins continues)

theorem imp (h : FailsAt stop begins ts e) (hbegins : begins ts → begins' ts) : FailsAt stop begins' ts e :=
  h.behind [] hbegins

/-- Reading fails at the next lexeme, or behind the last one. -/
theorem next {fault : SignatureFault} {us : List Lexeme} (hbegins : begins us) :
    FailsAt stop begins (us ++ rest) ⟨fault, nextOffset stop rest⟩ := by
  cases rest with
  | nil => exact .ending rfl (by rwa [List.append_nil])
  | cons l rest => exact .lexeme l (by simp) rfl

theorem of_mem (h : e.offset ∈ ts.map Lexeme.offset) : FailsAt stop begins ts e := by
  obtain ⟨l, hl, hoffset⟩ := List.mem_map.1 h
  exact .lexeme l hl hoffset.symm

end FailsAt

theorem parseAtom_error (h : startsAtom ts = false) :
    parseAtom stop ts = .error ⟨.expectedType, nextOffset stop ts⟩ := by
  unfold parseAtom
  rw [readAtom.eq_def]
  split
  · rfl
  · rename_i token offset rest
    cases token with
    | name | openParen | openBracket => cases h
    | arrow | fatArrow | closeParen | closeBracket | comma => rfl

theorem elim_error_eq_error {ε α β : Type} {o : Option α} {e e' : ε} {f : α → β} :
    o.elim (.error e) (fun a => .ok (f a)) = (.error e' : Except ε β) ↔ o = none ∧ e = e' := by
  cases o <;> simp

/-- The readers fail as they should on lists of fewer than `n` lexemes. -/
structure FailsBelow (stop n : Nat) : Prop where
  type : ∀ {ts e}, ts.length < n → parse stop ts = .error e → FailsAt stop (Begins .type) ts e
  items : ∀ {ts e}, ts.length < n → parseItems stop ts = .error e → FailsAt stop (Begins .items) ts e

namespace FailsBelow

theorem atom (h : FailsBelow stop n) (hlength : ts.length ≤ n) (hread : parseAtom stop ts = .error e) :
    FailsAt stop (Begins .atom) ts e := by
  cases hstarts : startsAtom ts with
  | false =>
    rw [parseAtom_error hstarts] at hread
    cases hread
    exact .next Begins.nil
  | true =>
    match ts, hstarts with
    | ⟨.name s, offset⟩ :: ts, _ =>
      rw [parseAtom_name] at hread
      cases hread
    | ⟨.openParen, offset⟩ :: ts, _ =>
      rw [parseAtom_openParen] at hread
      rcases bind_eq_error.1 hread with hfirst | ⟨⟨first, rest⟩, hfirst, hafter⟩
      · exact (h.type hlength hfirst).behind [_] fun hbegins => hbegins.parens offset
      · obtain ⟨us, hus, rfl⟩ := derives_of_parse hfirst
        dsimp only at hafter
        cases hcomma : eat? .comma rest with
        | some rest' =>
          rw [hcomma] at hafter
          obtain ⟨comma, rfl⟩ := eat?_eq_some_iff.1 hcomma
          rcases bind_eq_error.1 hafter with hitems | ⟨items, -, hdone⟩
          · have hfails := h.items (by simp at hlength; omega) hitems
            rw [List.append_cons, ← List.cons_append]
            refine hfails.behind _ fun hbegins => ?_
            rw [List.cons_append, ← List.append_cons]
            exact .tuple hus hbegins offset comma
          · cases hdone
        | none =>
          rw [hcomma] at hafter
          obtain ⟨-, rfl⟩ := elim_error_eq_error.1 hafter
          exact .next ((Begins.of_derives hus).parens offset)
    | ⟨.openBracket, offset⟩ :: ts, _ =>
      rw [parseAtom_openBracket] at hread
      rcases bind_eq_error.1 hread with helem | ⟨⟨elem, rest⟩, helem, hafter⟩
      · exact (h.type hlength helem).behind [_] fun hbegins => hbegins.brackets offset
      · obtain ⟨us, hus, rfl⟩ := derives_of_parse helem
        obtain ⟨-, rfl⟩ := elim_error_eq_error.1 hafter
        exact .next ((Begins.of_derives hus).brackets offset)

/-- The loop over arguments fails within them. -/
theorem args (h : FailsBelow stop n) {us : List Lexeme} {head : SignatureTree} (hlength : ts.length ≤ n)
    (hhead : Derives .applied us [head]) (hread : parseArgs stop head ts = .error e) :
    FailsAt stop (Begins .applied) (us ++ ts) e := by
  induction hn : ts.length using Nat.strongRecOn generalizing ts us head with
  | ind m ih =>
    rw [parseArgs_eq] at hread
    split at hread
    · rcases bind_eq_error.1 hread with harg | ⟨⟨arg, rest⟩, harg, hargs⟩
      · exact (h.atom hlength harg).behind us fun hbegins => .app hhead hbegins
      · obtain ⟨hlt, _⟩ := exists_of_map_val harg
        obtain ⟨vs, hvs, rfl⟩ := (soundBelow stop n).atom hlength harg
        have hfails := ih _ (hn ▸ hlt) (Nat.le_trans (Nat.le_of_lt hlt) hlength) (.app hhead hvs) hargs rfl
        rwa [List.append_assoc] at hfails
    · cases hread

theorem applied (h : FailsBelow stop n) (hlength : ts.length ≤ n) (hread : parseApplied stop ts = .error e) :
    FailsAt stop (Begins .applied) ts e := by
  rw [parseApplied_eq] at hread
  rcases bind_eq_error.1 hread with hatom | ⟨⟨head, rest⟩, hatom, hargs⟩
  · exact (h.atom hlength hatom).imp Begins.head
  · obtain ⟨hlt, _⟩ := exists_of_map_val hatom
    obtain ⟨us, hus, rfl⟩ := (soundBelow stop n).atom hlength hatom
    exact h.args (Nat.le_of_lt (Nat.lt_of_lt_of_le hlt hlength)) (.head hus) hargs

theorem succ (h : FailsBelow stop n) : FailsBelow stop (n + 1) := by
  have type : ∀ {ts e}, ts.length < n + 1 → parse stop ts = .error e → FailsAt stop (Begins .type) ts e := by
    intro ts e hlength hread
    rw [parse_eq] at hread
    rcases bind_eq_error.1 hread with hleft | ⟨⟨left, rest⟩, hleft, hafter⟩
    · exact (h.applied (by omega) hleft).imp Begins.plain
    · obtain ⟨hlt, _⟩ := exists_of_map_val hleft
      obtain ⟨us, hus, rfl⟩ := (soundBelow stop n).applied (by omega) hleft
      dsimp only at hafter
      cases harrow : eat? .arrow rest with
      | none =>
        rw [harrow] at hafter
        cases hafter
      | some rest' =>
        rw [harrow] at hafter
        obtain ⟨offset, rfl⟩ := eat?_eq_some_iff.1 harrow
        rcases bind_eq_error.1 hafter with hright | ⟨right, -, hdone⟩
        · have hfails := h.type (by simp at hlength; omega) hright
          rw [List.append_cons]
          refine hfails.behind _ fun hbegins => ?_
          rw [← List.append_cons]
          exact .arrow hus hbegins offset
        · cases hdone
  refine ⟨type, fun {ts e} hlength hread => ?_⟩
  rw [parseItems_eq] at hread
  rcases bind_eq_error.1 hread with hitem | ⟨⟨item, rest⟩, hitem, hafter⟩
  · exact (type hlength hitem).imp Begins.items
  · obtain ⟨us, hus, rfl⟩ := derives_of_parse hitem
    dsimp only at hafter
    cases hcomma : eat? .comma rest with
    | some rest' =>
      rw [hcomma] at hafter
      obtain ⟨comma, rfl⟩ := eat?_eq_some_iff.1 hcomma
      rcases bind_eq_error.1 hafter with hitems | ⟨items, -, hdone⟩
      · have hfails := h.items (by simp at hlength; omega) hitems
        rw [List.append_cons]
        refine hfails.behind _ fun hbegins => ?_
        rw [← List.append_cons]
        exact .more hus hbegins comma
      · cases hdone
    | none =>
      rw [hcomma] at hafter
      obtain ⟨-, rfl⟩ := elim_error_eq_error.1 hafter
      exact .next (Begins.of_derives hus).items

end FailsBelow

/-- Where the reader of types fails. -/
theorem failsAt_of_parse (h : parse stop ts = .error e) : FailsAt stop (Begins .type) ts e := by
  have hbelow : ∀ n, FailsBelow stop n := by
    intro n
    induction n with
    | zero => exact ⟨fun h => absurd h (Nat.not_lt_zero _), fun h => absurd h (Nat.not_lt_zero _)⟩
    | succ n ih => exact ih.succ
  exact (hbelow (ts.length + 1)).type (Nat.lt_succ_self _) h

/-! ## What trees record -/

mutual

/-- The offsets that a tree records, from left to right, but those of lists and tuples first. -/
def offsets : SignatureTree → List Nat
  | .name _ offset => [offset]
  | .app fn arg => fn.offsets ++ arg.offsets
  | .arrow domain codomain => domain.offsets ++ codomain.offsets
  | .list elem offset => offset :: elem.offsets
  | .tuple items offset => offset :: offsetsAll items

/-- The offsets that some trees record. -/
def offsetsAll : List SignatureTree → List Nat
  | [] => []
  | tree :: rest => tree.offsets ++ offsetsAll rest

end

theorem offsetsAll_append (xs ys : List SignatureTree) : offsetsAll (xs ++ ys) = offsetsAll xs ++ offsetsAll ys := by
  induction xs with
  | nil => rfl
  | cons x xs ih => rw [List.cons_append, offsetsAll, offsetsAll, ih, List.append_assoc]

theorem offsets_subset_offsetsAll {tree : SignatureTree} {trees : List SignatureTree} (h : tree ∈ trees) :
    tree.offsets ⊆ offsetsAll trees := by
  induction h with
  | head rest => exact List.subset_append_left _ _
  | tail other _ ih => exact List.subset_append_of_subset_right _ ih

theorem offset_mem_offsets : (tree : SignatureTree) → tree.offset ∈ tree.offsets
  | .name _ _ | .list _ _ | .tuple _ _ => List.mem_cons_self
  | .app fn _ => List.mem_append_left _ fn.offset_mem_offsets
  | .arrow domain _ => List.mem_append_left _ domain.offset_mem_offsets

/-- Trees record offsets of the lexemes that they were read from. -/
theorem Derives.mem_offsets {trees : List SignatureTree} (h : Derives part ts trees) :
    ∀ o ∈ offsetsAll trees, o ∈ ts.map Lexeme.offset := by
  induction h with
  | name s offset => simp [offsetsAll, offsets]
  | group _ _ _ ih => grind [offsetsAll]
  | tuple _ _ _ _ ih ih' => grind [offsetsAll, offsets]
  | list _ _ _ ih => grind [offsetsAll, offsets]
  | head _ ih => exact ih
  | app _ _ ih ih' => grind [offsetsAll, offsets]
  | plain _ ih => exact ih
  | arrow _ _ _ ih ih' => grind [offsetsAll, offsets]
  | last _ _ ih => grind [offsetsAll]
  | more _ _ _ ih ih' => grind [offsetsAll]

/-! ## Resolving names -/

theorem note_error {known : Arities} {s : String} {n offset : Nat} (h : known.note s n offset = .error e) :
    e.offset = offset := by
  unfold Arities.note at h
  split at h
  · cases h
  · split at h
    · cases h
    · cases h
      rfl

mutual

theorem noteArities_error {known : Arities} {args : Nat} : {tree : SignatureTree} →
    tree.noteArities known args = .error e → e.offset ∈ tree.offsets
  | .name s offset, h => by
    rw [noteArities] at h
    split at h
    · exact List.mem_singleton.2 (note_error h)
    · cases h
  | .app fn arg, h => by
    rw [noteArities] at h
    rcases bind_eq_error.1 h with h | ⟨_, -, h⟩
    · exact List.mem_append_left _ (noteArities_error h)
    · exact List.mem_append_right _ (noteArities_error h)
  | .arrow domain codomain, h => by
    rw [noteArities] at h
    rcases bind_eq_error.1 h with h | ⟨_, -, h⟩
    · exact List.mem_append_left _ (noteArities_error h)
    · exact List.mem_append_right _ (noteArities_error h)
  | .list elem offset, h => by
    rw [noteArities] at h
    exact List.mem_cons_of_mem _ (noteArities_error h)
  | .tuple items offset, h => by
    rw [noteArities] at h
    exact List.mem_cons_of_mem _ (noteAll_error h)

theorem noteAll_error {known : Arities} : {trees : List SignatureTree} →
    noteAll known trees = .error e → e.offset ∈ offsetsAll trees
  | [], h => by cases h
  | tree :: rest, h => by
    rw [noteAll] at h
    rcases bind_eq_error.1 h with h | ⟨_, -, h⟩
    · exact List.mem_append_left _ (noteArities_error h)
    · exact List.mem_append_right _ (noteAll_error h)

end

theorem proper_error {t : Ty} {offset : Nat} (h : proper t offset = .error e) : e.offset = offset := by
  unfold proper at h
  split at h
  · cases h
  · cases h
    rfl

theorem applied_error {f x : Ty} {offset : Nat} (h : applied f x offset = .error e) : e.offset = offset := by
  unfold applied at h
  split at h
  · cases h
    rfl
  · split at h
    · cases h
    · cases h
      rfl

theorem toTy_error {cons : Constructors} {arities : Arities} {tree : SignatureTree}
    (h : tree.toTy cons arities = .error e) : e.offset ∈ tree.offsets := by
  fun_induction toTy cons arities tree with
  | case1 | case2 => cases h
  | case3 s offset hvar hkind =>
    cases h
    exact List.mem_singleton_self _
  | case4 fn arg ihf ihx =>
    rcases bind_eq_error.1 h with h | ⟨f, -, h⟩
    · exact List.mem_append_left _ (ihf h)
    rcases bind_eq_error.1 h with h | ⟨x, -, h⟩
    · exact List.mem_append_right _ (ihx h)
    rw [applied_error h]
    exact List.mem_append_right _ arg.offset_mem_offsets
  | case5 domain codomain ihd ihc =>
    rcases bind_eq_error.1 h with h | ⟨d, -, h⟩
    · exact List.mem_append_left _ (ihd h)
    rcases bind_eq_error.1 h with h | ⟨d', -, h⟩
    · rw [proper_error h]
      exact List.mem_append_left _ domain.offset_mem_offsets
    rcases bind_eq_error.1 h with h | ⟨c, -, h⟩
    · exact List.mem_append_right _ (ihc h)
    rcases bind_eq_error.1 h with h | ⟨c', -, h⟩
    · rw [proper_error h]
      exact List.mem_append_right _ codomain.offset_mem_offsets
    cases h
  | case6 elem offset ih =>
    rcases bind_eq_error.1 h with h | ⟨x, -, h⟩
    · exact List.mem_cons_of_mem _ (ih h)
    rcases bind_eq_error.1 h with h | ⟨x', -, h⟩
    · rw [proper_error h]
      exact List.mem_cons_of_mem _ elem.offset_mem_offsets
    cases h
  | case7 items offset =>
    cases h
    exact List.mem_cons_self

theorem toPred_error {cons : Constructors} {arities : Arities} {tree : SignatureTree}
    (h : tree.toPred cons arities = .error e) : e.offset ∈ tree.offsets := by
  unfold toPred at h
  split at h
  · split at h
    · cases h
      exact List.mem_cons_self
    · rcases bind_eq_error.1 h with h | ⟨t, -, h⟩
      · exact List.mem_append_right _ (toTy_error h)
      · cases h
  · rename_i fn arg _
    cases h
    exact List.mem_append_left _ fn.offset_mem_offsets
  · cases h
    exact offset_mem_offsets _

end SignatureTree

namespace SignaturePhrase

open SignatureTree

variable {cons : Constructors} {phrase : SignaturePhrase} {e : SignatureError}

/-- The offsets that a phrase records. -/
def offsets (phrase : SignaturePhrase) : List Nat := offsetsAll (phrase.context ++ [phrase.head])

theorem mem_offsets_of_context {tree : SignatureTree} (h : tree ∈ phrase.context) :
    ∀ o ∈ tree.offsets, o ∈ phrase.offsets :=
  fun _ ho => offsets_subset_offsetsAll (List.mem_append_left _ h) ho

theorem mem_offsets_of_head : ∀ o ∈ phrase.head.offsets, o ∈ phrase.offsets :=
  fun _ ho => offsets_subset_offsetsAll (List.mem_append_right _ (List.mem_singleton_self _)) ho

/-- Arities and contexts are resolved in the same way under types and under constraints. -/
theorem toQual_error (h : phrase.toQual cons = .error e) : e.offset ∈ phrase.offsets := by
  rcases bind_eq_error.1 h with h | ⟨arities, -, h⟩
  · exact noteAll_error h
  rcases bind_eq_error.1 h with h | ⟨context, -, h⟩
  · obtain ⟨tree, htree, h⟩ := exists_of_mapM_error h
    exact mem_offsets_of_context htree _ (toPred_error h)
  rcases bind_eq_error.1 h with h | ⟨head, -, h⟩
  · exact mem_offsets_of_head _ (toTy_error h)
  rcases bind_eq_error.1 h with h | ⟨head', -, h⟩
  · rw [proper_error h]
    exact mem_offsets_of_head _ phrase.head.offset_mem_offsets
  cases h

theorem toInstance_error (h : phrase.toInstance cons = .error e) : e.offset ∈ phrase.offsets := by
  rcases bind_eq_error.1 h with h | ⟨arities, -, h⟩
  · exact noteAll_error h
  rcases bind_eq_error.1 h with h | ⟨context, -, h⟩
  · obtain ⟨tree, htree, h⟩ := exists_of_mapM_error h
    exact mem_offsets_of_context htree _ (toPred_error h)
  rcases bind_eq_error.1 h with h | ⟨head, -, h⟩
  · exact mem_offsets_of_head _ (toPred_error h)
  cases h

theorem offsetsAll_constraints {tree : SignatureTree} :
    ∀ o ∈ offsetsAll (constraints tree), o ∈ tree.offsets := by
  cases tree with
  | tuple items offset => exact fun o ho => List.mem_cons_of_mem _ ho
  | _ => simp [constraints, offsetsAll]

/-- A phrase records offsets of the lexemes that it was read from. -/
theorem Derives.mem_offsets {ts : List Lexeme} (h : Derives ts phrase) :
    ∀ o ∈ phrase.offsets, o ∈ ts.map Lexeme.offset := by
  intro o ho
  cases h with
  | plain head single => exact head.mem_offsets o ho
  | qualified offset context head =>
    rw [offsets, offsetsAll_append] at ho
    rw [List.map_append, List.mem_append]
    rcases List.mem_append.1 ho with ho | ho
    · refine .inl (context.mem_offsets o ?_)
      rw [offsetsAll, offsetsAll, List.append_nil]
      exact offsetsAll_constraints o ho
    · exact .inr (List.mem_cons_of_mem _ (head.mem_offsets o ho))

/-- The lexemes are the beginning of a signature. -/
def Begins (ts : List Lexeme) : Prop := ∃ us phrase, Derives (ts ++ us) phrase

namespace Begins

variable {ts : List Lexeme}

/-- A beginning of a type is a beginning of a context. -/
theorem context (h : SignatureTree.Begins .type ts) : Begins ts := by
  obtain ⟨us, t, h⟩ := h.exists_tree nofun
  have hhead : SignatureTree.Derives .type [⟨.name "a", 0⟩] [.name "a" 0] := .plain (.head (.name "a" 0))
  refine ⟨us ++ ⟨.fatArrow, 0⟩ :: [⟨.name "a", 0⟩], ⟨constraints t, .name "a" 0⟩, ?_⟩
  rw [← List.append_assoc]
  exact .qualified 0 h hhead

theorem head {us : List Lexeme} {first : SignatureTree} (hcontext : SignatureTree.Derives .type us [first])
    (h : SignatureTree.Begins .type ts) (offset : Nat) : Begins (us ++ ⟨.fatArrow, offset⟩ :: ts) := by
  obtain ⟨vs, t, h⟩ := h.exists_tree nofun
  refine ⟨vs, ⟨constraints first, t⟩, ?_⟩
  rw [List.append_assoc]
  exact .qualified offset hcontext h

end Begins

theorem finish_error {stop : Nat} {us ts : List Lexeme} (h : finish stop phrase ts = .error e) :
    FailsAt stop Begins (us ++ ts) e := by
  cases ts with
  | nil => cases h
  | cons l ts =>
    cases h
    exact .lexeme l (by simp) rfl

/-- Where the reader of signatures fails. -/
theorem failsAt_of_ofLexemes {stop : Nat} {ts : List Lexeme} (h : ofLexemes stop ts = .error e) :
    FailsAt stop Begins ts e := by
  rcases bind_eq_error.1 h with hfirst | ⟨⟨⟨first, rest⟩, _⟩, hfirst, hafter⟩
  · exact (failsAt_of_parse (congrArg (Except.map Subtype.val) hfirst)).imp Begins.context
  · obtain ⟨us, hus, rfl⟩ := derives_of_parse (congrArg (Except.map Subtype.val) hfirst)
    dsimp only at hafter
    cases harrow : eat? .fatArrow rest with
    | some rest' =>
      rw [harrow] at hafter
      obtain ⟨offset, rfl⟩ := eat?_eq_some_iff.1 harrow
      rw [List.append_cons]
      rcases bind_eq_error.1 hafter with hhead | ⟨⟨⟨head, rest⟩, _⟩, hhead, hdone⟩
      · refine (failsAt_of_parse (congrArg (Except.map Subtype.val) hhead)).behind _ fun hbegins => ?_
        rw [← List.append_cons]
        exact .head hus hbegins offset
      · obtain ⟨vs, -, rfl⟩ := derives_of_parse (congrArg (Except.map Subtype.val) hhead)
        rw [← List.append_assoc]
        exact finish_error hdone
    | none =>
      rw [harrow] at hafter
      dsimp only at hafter
      split at hafter
      · rename_i items offset _
        cases hafter
        refine .of_mem ?_
        rw [List.map_append]
        exact List.mem_append_left _ (hus.mem_offsets offset List.mem_cons_self)
      · exact finish_error hafter

end SignaturePhrase

/-! ## Whole signatures -/

/-- A text stands at a byte offset of another. -/
def StandsAt (piece : String) (offset : Nat) (src : String) : Prop :=
  ∃ before after, src = before ++ piece ++ after ∧ offset = before.utf8ByteSize

open SignaturePhrase in
/-- What an error in a signature points at: a lexeme, the character at which no lexeme begins, or the end, if the text
is the beginning of a signature. -/
inductive PointsAt (src : String) (e : SignatureError) : Prop where
  | lexeme (ls : List Lexeme) (l : Lexeme) (scan : Lexeme.scan src = .ok ls) (mem : l ∈ ls)
      (offset : e.offset = l.offset)
  | character (before after : String) (c : Char) (fails : Lexeme.scan src = .error e)
      (text : src = before ++ String.singleton c ++ after) (offset : e.offset = before.utf8ByteSize)
      (scan : ∃ ls, Lexeme.scan before = .ok ls) (offends : Lexeme.Offends c after.toList e.fault)
  | ending (ls : List Lexeme) (scan : Lexeme.scan src = .ok ls) (offset : e.offset = src.utf8ByteSize)
      (continues : Begins ls)

theorem Lexeme.scan_spelled {src : String} {ls : List Lexeme} (h : Lexeme.scan src = .ok ls) :
    ∀ l ∈ ls, l.token.spelling ≠ "" ∧ StandsAt l.token.spelling l.offset src := by
  intro l hl
  obtain ⟨hne, before, after, htext, hoffset⟩ := (scanned_scanFrom 0 src.toList).spelled ls h l hl
  refine ⟨fun hempty => hne (by rw [hempty]; rfl), String.ofList before, String.ofList after, ?_, ?_⟩
  · rw [← String.toList_inj]
    simp [htext]
  · rw [hoffset, byteLength_eq, Nat.zero_add]

theorem pointsAt_of_scan {src : String} {e : SignatureError} (h : Lexeme.scan src = .error e) : PointsAt src e := by
  obtain ⟨before, c, after, toks, htext, hoffset, hscans, hoffends⟩ :=
    (Lexeme.scanned_scanFrom 0 src.toList).faulty e h
  have hbefore : Lexeme.Scans (String.ofList before).toList toks := by rwa [String.toList_ofList]
  obtain ⟨ls, hls, -⟩ := Lexeme.exists_scan_iff.2 hbefore
  refine .character (String.ofList before) (String.ofList after) c h ?_ ?_ ⟨ls, hls⟩ (by rwa [String.toList_ofList])
  · rw [← String.toList_inj]
    simp [htext]
  · rw [hoffset, Lexeme.byteLength_eq, Nat.zero_add]

theorem pointsAt_of_ofString {src : String} {e : SignatureError} (h : SignaturePhrase.ofString src = .error e) :
    PointsAt src e := by
  rcases bind_eq_error.1 h with hscan | ⟨ls, hscan, hread⟩
  · exact pointsAt_of_scan hscan
  · cases SignaturePhrase.failsAt_of_ofLexemes hread with
    | lexeme l mem offset => exact .lexeme ls l hscan mem offset
    | ending offset continues => exact .ending ls hscan offset continues

/-- An error in what a phrase spells points at a lexeme. -/
theorem pointsAt_of_offsets {src : String} {e : SignatureError} {phrase : SignaturePhrase}
    (hphrase : SignaturePhrase.ofString src = .ok phrase) (h : e.offset ∈ phrase.offsets) : PointsAt src e := by
  obtain ⟨ls, hscan, hread⟩ := bind_eq_ok.1 hphrase
  have hmem := (SignaturePhrase.ofLexemes_eq_ok_iff.1 hread).mem_offsets _ h
  obtain ⟨l, hl, hoffset⟩ := List.mem_map.1 hmem
  exact .lexeme ls l hscan hl hoffset.symm

theorem pointsAt_of_readQual {cons : Constructors} {src : String} {e : SignatureError}
    (h : readQual cons src = .error e) : PointsAt src e := by
  rcases bind_eq_error.1 h with hphrase | ⟨phrase, hphrase, hqual⟩
  · exact pointsAt_of_ofString hphrase
  · exact pointsAt_of_offsets hphrase (SignaturePhrase.toQual_error hqual)

theorem pointsAt_of_readInstance {cons : Constructors} {src : String} {e : SignatureError}
    (h : readInstance cons src = .error e) : PointsAt src e := by
  rcases bind_eq_error.1 h with hphrase | ⟨phrase, hphrase, hinstance⟩
  · exact pointsAt_of_ofString hphrase
  · exact pointsAt_of_offsets hphrase (SignaturePhrase.toInstance_error hinstance)

/-- What an error points at begins at a boundary of characters. -/
theorem PointsAt.isValid {src : String} {e : SignatureError} (h : PointsAt src e) :
    (String.Pos.Raw.mk e.offset).IsValid src := by
  rw [String.Pos.Raw.isValid_iff_exists_append]
  cases h with
  | lexeme ls l scan mem offset =>
    obtain ⟨-, before, after, htext, hoffset⟩ := Lexeme.scan_spelled scan l mem
    refine ⟨before, l.token.spelling ++ after, by rw [htext, String.append_assoc], ?_⟩
    rw [offset, hoffset]
    rfl
  | character before after c fails text offset scan offends =>
    refine ⟨before, String.singleton c ++ after, by rw [text, String.append_assoc], ?_⟩
    rw [offset]
    rfl
  | ending ls scan offset continues =>
    refine ⟨src, "", by simp, ?_⟩
    rw [offset]
    rfl

/-- **Errors in signatures point into the text.**  Lexemes stand where their offsets say, one after the other.  An error
points at a boundary of characters: at a lexeme, at the character at which no lexeme begins, or at the end of a text
that could go on. -/
theorem signature_errors_point (cons : Constructors) (src : String) :
    (∀ ls, Lexeme.scan src = .ok ls → (ls.map Lexeme.offset).Pairwise (· < ·) ∧
      ∀ l ∈ ls, l.token.spelling ≠ "" ∧ StandsAt l.token.spelling l.offset src) ∧
    ∀ e, readQual cons src = .error e ∨ readScheme cons src = .error e ∨ readInstance cons src = .error e →
      e.offset ≤ src.utf8ByteSize ∧ (String.Pos.Raw.mk e.offset).IsValid src ∧ PointsAt src e := by
  refine ⟨fun ls hls => ⟨(Lexeme.scanned_scanFrom 0 _).increasing ls hls, Lexeme.scan_spelled hls⟩, fun e he => ?_⟩
  have hpoints : PointsAt src e := by
    rcases he with hqual | hscheme | hinstance
    · exact pointsAt_of_readQual hqual
    · rcases bind_eq_error.1 hscheme with hqual | ⟨q, -, hdone⟩
      · exact pointsAt_of_readQual hqual
      · cases hdone
    · exact pointsAt_of_readInstance hinstance
  exact ⟨hpoints.isValid.le_rawEndPos, hpoints.isValid, hpoints⟩

theorem readQual_unknown : readQual .base "a \u3000-> B" = .error ⟨.unknownConstructor "B", 8⟩ := by
  cbv

theorem readScheme_brokenArrow : readScheme .base "a \u3000- b" = .error ⟨.brokenArrow '-', 5⟩ := by
  cbv

theorem readInstance_unfinished : readInstance .base "Eq \u3000[a" = .error ⟨.expectedClosing ']', 8⟩ := by
  cbv

/-- A blank of three bytes stands in front of an unknown constructor, of half an arrow and of an open bracket. -/
theorem signature_errors_point_wideBlank :
    (8 ≤ "a \u3000-> B".utf8ByteSize ∧ (String.Pos.Raw.mk 8).IsValid "a \u3000-> B" ∧
      PointsAt "a \u3000-> B" ⟨.unknownConstructor "B", 8⟩) ∧
    PointsAt "a \u3000- b" ⟨.brokenArrow '-', 5⟩ ∧ PointsAt "Eq \u3000[a" ⟨.expectedClosing ']', 8⟩ := by
  obtain ⟨-, -, hbroken⟩ := (signature_errors_point .base _).2 _ (.inr (.inl readScheme_brokenArrow))
  obtain ⟨-, -, hending⟩ := (signature_errors_point .base _).2 _ (.inr (.inr readInstance_unfinished))
  exact ⟨(signature_errors_point .base _).2 _ (.inl readQual_unknown), hbroken, hending⟩

end QualifiedTypes
