import QualifiedTypes.Proofs.Outcomes
import QualifiedTypes.Signature.Tree

/-!
# The grammar of signatures

The grammar as derivations, and the reader as a decision procedure for it.  The readers return their results
with a proof that lexemes were consumed; `SignatureTree.parse` and its companions forget that proof.

* `SignatureTree.Derives`: the lexemes of each part of a signature, with the trees they denote.
* `SignatureTree.Derives.accepts`: what is derived is read, if what comes next cannot go on with it.
* `SignatureTree.derives_of_parse`: what is read was derived.
* `SignaturePhrase.ofLexemes_eq_ok_iff`: **a signature is accepted iff the grammar derives it.**
-/

namespace QualifiedTypes

namespace SignatureTree

variable {stop offset : Nat} {ts rest : List Lexeme} {t : SignatureTree}

theorem eat?_eq_some_iff {token : SignatureToken} :
    eat? token ts = some rest ↔ ∃ offset, ts = ⟨token, offset⟩ :: rest := by
  constructor
  · intro h
    cases ts with
    | nil => cases h
    | cons l ts =>
      rw [eat?, Option.ite_none_right_eq_some] at h
      obtain ⟨rfl, h⟩ := h
      cases h
      exact ⟨l.offset, rfl⟩
  · rintro ⟨offset, rfl⟩
    exact if_pos rfl

/-! ## The readers without their proofs of progress -/

/-- Read a type. -/
def parse (stop : Nat) (ts : List Lexeme) : Except SignatureError (SignatureTree × List Lexeme) :=
  (read stop ts).map Subtype.val

/-- Read a type without an arrow at the top. -/
def parseApplied (stop : Nat) (ts : List Lexeme) : Except SignatureError (SignatureTree × List Lexeme) :=
  (readApplied stop ts).map Subtype.val

/-- Read the arguments that follow a head. -/
def parseArgs (stop : Nat) (head : SignatureTree) (ts : List Lexeme) :
    Except SignatureError (SignatureTree × List Lexeme) :=
  (readArgs stop head ts).map Subtype.val

/-- Read a name, a group, a tuple or a list. -/
def parseAtom (stop : Nat) (ts : List Lexeme) : Except SignatureError (SignatureTree × List Lexeme) :=
  (readAtom stop ts).map Subtype.val

/-- Read the items of a tuple after its first comma, and the closing parenthesis. -/
def parseItems (stop : Nat) (ts : List Lexeme) :
    Except SignatureError (List SignatureTree × List Lexeme) :=
  (readItems stop ts).map Subtype.val

theorem exists_of_map_val {ε α : Type} {p : α → Prop} {r : Except ε (Subtype p)} {a : α}
    (h : r.map Subtype.val = .ok a) : ∃ ha : p a, r = .ok ⟨a, ha⟩ := by
  cases r with
  | error e => cases h
  | ok v =>
    cases h
    exact ⟨v.2, rfl⟩

theorem elim_error_eq_ok {ε α β : Type} {o : Option α} {e : ε} {f : α → Except ε β} {b : β} :
    o.elim (.error e) f = .ok b ↔ ∃ a, o = some a ∧ f a = .ok b := by
  cases o with
  | none => simp
  | some a => simp

theorem parse_eq : parse stop ts = parseApplied stop ts >>= fun left =>
    (eat? .arrow left.2).elim (.ok left) fun rest => parse stop rest >>= fun right =>
      .ok (.arrow left.1 right.1, right.2) := by
  unfold parse parseApplied
  rw [read]
  cases readApplied stop ts with
  | error e => rfl
  | ok v =>
    obtain ⟨⟨left, rest⟩, h⟩ := v
    change Except.map _ _ = (eat? .arrow rest).elim _ _
    dsimp only
    split
    · rename_i hnone
      rw [hnone]
      rfl
    · rename_i rest₁ hsome
      simp only [hsome, Option.elim_some]
      cases read stop rest₁ <;> rfl

theorem parseApplied_eq : parseApplied stop ts = parseAtom stop ts >>= fun head =>
    parseArgs stop head.1 head.2 := by
  unfold parseApplied parseAtom parseArgs
  rw [readApplied]
  cases readAtom stop ts with
  | error e => rfl
  | ok v =>
    obtain ⟨⟨head, rest⟩, h⟩ := v
    change Except.map _ _ = Except.map _ (readArgs stop head rest)
    dsimp only
    cases readArgs stop head rest <;> rfl

theorem parseArgs_eq {head : SignatureTree} : parseArgs stop head ts =
    if startsAtom ts then parseAtom stop ts >>= fun arg => parseArgs stop (.app head arg.1) arg.2
    else .ok (head, ts) := by
  unfold parseAtom parseArgs
  rw [readArgs]
  split
  · cases readAtom stop ts with
    | error e => rfl
    | ok v =>
      obtain ⟨⟨arg, rest⟩, h⟩ := v
      change Except.map _ _ = Except.map _ (readArgs stop (.app head arg) rest)
      dsimp only
      cases readArgs stop (.app head arg) rest <;> rfl
  · rfl

theorem parseAtom_name {s : String} :
    parseAtom stop (⟨.name s, offset⟩ :: rest) = .ok (.name s offset, rest) := by
  rw [parseAtom, readAtom]
  rfl

theorem parseAtom_openParen : parseAtom stop (⟨.openParen, offset⟩ :: rest) = parse stop rest >>= fun first =>
    (eat? .comma first.2).elim
      ((eat? .closeParen first.2).elim (.error ⟨.expectedClosing ')', nextOffset stop first.2⟩)
        fun rest => .ok (first.1, rest))
      fun rest => parseItems stop rest >>= fun items => .ok (.tuple (first.1 :: items.1) offset, items.2) := by
  unfold parse parseAtom parseItems
  rw [readAtom]
  dsimp only
  cases read stop rest with
  | error e => rfl
  | ok v =>
    obtain ⟨⟨first, rest⟩, h⟩ := v
    change Except.map _ _ = (eat? .comma rest).elim _ _
    dsimp only
    split
    · rename_i rest₁ hcomma
      simp only [hcomma, Option.elim_some]
      cases readItems stop rest₁ <;> rfl
    · rename_i hcomma
      simp only [hcomma, Option.elim_none]
      split
      · rename_i rest₁ hclose
        simp only [hclose]
        rfl
      · rename_i hclose
        simp only [hclose]
        rfl

theorem parseAtom_openBracket : parseAtom stop (⟨.openBracket, offset⟩ :: rest) =
    parse stop rest >>= fun elem =>
      (eat? .closeBracket elem.2).elim (.error ⟨.expectedClosing ']', nextOffset stop elem.2⟩)
        fun rest => .ok (.list elem.1 offset, rest) := by
  unfold parse parseAtom
  rw [readAtom]
  dsimp only
  cases read stop rest with
  | error e => rfl
  | ok v =>
    obtain ⟨⟨elem, rest⟩, h⟩ := v
    change Except.map _ _ = (eat? .closeBracket rest).elim _ _
    dsimp only
    split
    · rename_i rest₁ hclose
      simp only [hclose]
      rfl
    · rename_i hclose
      simp only [hclose]
      rfl

theorem startsAtom_of_parseAtom {r : SignatureTree × List Lexeme} (h : parseAtom stop ts = .ok r) :
    startsAtom ts = true := by
  unfold parseAtom at h
  rw [readAtom.eq_def] at h
  split at h
  · cases h
  · rename_i token offset rest
    cases token with
    | name | openParen | openBracket => rfl
    | arrow | fatArrow | closeParen | closeBracket | comma => cases h

theorem parseItems_eq : parseItems stop ts = parse stop ts >>= fun item =>
    (eat? .comma item.2).elim
      ((eat? .closeParen item.2).elim (.error ⟨.expectedClosing ')', nextOffset stop item.2⟩)
        fun rest => .ok ([item.1], rest))
      fun rest => parseItems stop rest >>= fun items => .ok (item.1 :: items.1, items.2) := by
  unfold parse parseItems
  rw [readItems]
  cases read stop ts with
  | error e => rfl
  | ok v =>
    obtain ⟨⟨item, rest⟩, h⟩ := v
    change Except.map _ _ = (eat? .comma rest).elim _ _
    dsimp only
    split
    · rename_i rest₁ hcomma
      simp only [hcomma, Option.elim_some]
      cases readItems stop rest₁ <;> rfl
    · rename_i hcomma
      simp only [hcomma, Option.elim_none]
      split
      · rename_i rest₁ hclose
        simp only [hclose]
        rfl
      · rename_i hclose
        simp only [hclose]
        rfl

/-! ## Derivations -/

/-- The parts that the grammar of signatures distinguishes. -/
inductive Part where
  | type
  /-- A type without an arrow at the top. -/
  | applied
  /-- A name, or something in parentheses or brackets. -/
  | atom
  /-- The items of a tuple after a comma, with the closing parenthesis. -/
  | items

/-- The lexemes are derived from a part, and denote the trees: one tree, except for items. -/
inductive Derives : Part → List Lexeme → List SignatureTree → Prop where
  | name (s : String) (offset : Nat) : Derives .atom [⟨.name s, offset⟩] [.name s offset]
  | group {ts : List Lexeme} {t : SignatureTree} (offset closing : Nat) (inner : Derives .type ts [t]) :
      Derives .atom (⟨.openParen, offset⟩ :: (ts ++ [⟨.closeParen, closing⟩])) [t]
  | tuple {ts us : List Lexeme} {t : SignatureTree} {items : List SignatureTree} (offset comma : Nat)
      (first : Derives .type ts [t]) (others : Derives .items us items) :
      Derives .atom (⟨.openParen, offset⟩ :: (ts ++ ⟨.comma, comma⟩ :: us)) [.tuple (t :: items) offset]
  | list {ts : List Lexeme} {t : SignatureTree} (offset closing : Nat) (elem : Derives .type ts [t]) :
      Derives .atom (⟨.openBracket, offset⟩ :: (ts ++ [⟨.closeBracket, closing⟩])) [.list t offset]
  | head {ts : List Lexeme} {t : SignatureTree} (atom : Derives .atom ts [t]) : Derives .applied ts [t]
  | app {ts us : List Lexeme} {f x : SignatureTree} (fn : Derives .applied ts [f])
      (arg : Derives .atom us [x]) : Derives .applied (ts ++ us) [.app f x]
  | plain {ts : List Lexeme} {t : SignatureTree} (inner : Derives .applied ts [t]) : Derives .type ts [t]
  | arrow {ts us : List Lexeme} {d c : SignatureTree} (offset : Nat) (domain : Derives .applied ts [d])
      (codomain : Derives .type us [c]) : Derives .type (ts ++ ⟨.arrow, offset⟩ :: us) [.arrow d c]
  | last {ts : List Lexeme} {t : SignatureTree} (closing : Nat) (item : Derives .type ts [t]) :
      Derives .items (ts ++ [⟨.closeParen, closing⟩]) [t]
  | more {ts us : List Lexeme} {t : SignatureTree} {items : List SignatureTree} (comma : Nat)
      (item : Derives .type ts [t]) (others : Derives .items us items) :
      Derives .items (ts ++ ⟨.comma, comma⟩ :: us) (t :: items)

/-- Items in parentheses: one is a group, and more are a tuple. -/
theorem Derives.enclosed {ts : List Lexeme} {trees : List SignatureTree} (h : Derives .items ts trees)
    (offset : Nat) : ∃ first, Derives .atom (⟨.openParen, offset⟩ :: ts) [first] ∧
      (first = .tuple trees offset ∨ trees = [first]) := by
  cases h with
  | last closing item => exact ⟨_, .group offset closing item, .inr rfl⟩
  | more comma item others => exact ⟨_, .tuple offset comma item others, .inl rfl⟩

/-! ## What is derived is read -/

/-- Lexemes that cannot go on with a type. -/
structure Stops (ts : List Lexeme) : Prop where
  noAtom : startsAtom ts = false
  noArrow : eat? .arrow ts = none

theorem Stops.nil : Stops [] := ⟨rfl, rfl⟩

theorem Stops.cons {l : Lexeme} (h : l.token = .closeParen ∨ l.token = .closeBracket ∨ l.token = .comma ∨
    l.token = .fatArrow) : Stops (l :: ts) := by
  obtain ⟨token, offset⟩ := l
  rcases h with h | h | h | h <;> cases h <;> exact ⟨rfl, rfl⟩

/-- The reader of the part accepts the lexemes for these trees, whatever comes next: after the head of an
application that may be further arguments, and after a type nothing that can go on with it. -/
def Accepts : Part → List Lexeme → List SignatureTree → Prop
  | .type, ts, trees => ∀ stop rest t, trees = [t] → Stops rest → parse stop (ts ++ rest) = .ok (t, rest)
  | .applied, ts, trees => ∀ stop rest t r, trees = [t] → parseArgs stop t rest = .ok r →
      parseApplied stop (ts ++ rest) = .ok r
  | .atom, ts, trees => ∀ stop rest t, trees = [t] → parseAtom stop (ts ++ rest) = .ok (t, rest)
  | .items, ts, trees => ∀ stop rest, parseItems stop (ts ++ rest) = .ok (trees, rest)

/-- **What is derived is read**, by induction on the derivation. -/
theorem Derives.accepts {part : Part} {ts : List Lexeme} {trees : List SignatureTree}
    (h : Derives part ts trees) : Accepts part ts trees := by
  induction h with
  | name s offset =>
    intro stop rest t ht
    cases ht
    exact parseAtom_name
  | group offset closing inner ih =>
    intro stop rest t ht
    have hinner := ih stop (⟨.closeParen, closing⟩ :: rest) t ht (.cons (.inl rfl))
    rw [List.cons_append, List.append_assoc, parseAtom_openParen]
    exact bind_eq_ok.2 ⟨_, hinner, rfl⟩
  | @tuple ts us t items offset comma first others ihFirst ihOthers =>
    intro stop rest tree htree
    cases htree
    have hfirst := ihFirst stop (⟨.comma, comma⟩ :: us ++ rest) t rfl (.cons (.inr (.inr (.inl rfl))))
    rw [List.cons_append, List.append_assoc, parseAtom_openParen]
    exact bind_eq_ok.2 ⟨_, hfirst, bind_eq_ok.2 ⟨_, ihOthers stop rest, rfl⟩⟩
  | list offset closing elem ih =>
    intro stop rest t ht
    cases ht
    have helem := ih stop (⟨.closeBracket, closing⟩ :: rest) _ rfl (.cons (.inr (.inl rfl)))
    rw [List.cons_append, List.append_assoc, parseAtom_openBracket]
    exact bind_eq_ok.2 ⟨_, helem, rfl⟩
  | head atom ih =>
    intro stop rest t r ht hargs
    rw [parseApplied_eq]
    exact bind_eq_ok.2 ⟨_, ih stop rest t ht, hargs⟩
  | app fn arg ihFn ihArg =>
    intro stop rest t r ht hargs
    cases ht
    have harg := ihArg stop rest _ rfl
    rw [List.append_assoc]
    -- The head is read first, and the argument is among what comes after it.
    refine ihFn stop _ _ r rfl ?_
    rw [parseArgs_eq, if_pos (startsAtom_of_parseAtom harg)]
    exact bind_eq_ok.2 ⟨_, harg, hargs⟩
  | plain inner ih =>
    intro stop rest t ht hstops
    have hargs : parseArgs stop t rest = .ok (t, rest) := by
      rw [parseArgs_eq, hstops.noAtom]
      rfl
    rw [parse_eq]
    refine bind_eq_ok.2 ⟨_, ih stop rest t _ ht hargs, ?_⟩
    dsimp only
    rw [hstops.noArrow]
    rfl
  | @arrow ts us d c offset domain codomain ihDomain ihCodomain =>
    intro stop rest t ht hstops
    cases ht
    -- An arrow begins no argument, so the loop over arguments ends there.
    have hdomain := ihDomain stop (⟨.arrow, offset⟩ :: us ++ rest) d _ rfl parseArgs_eq
    rw [List.append_assoc, parse_eq]
    exact bind_eq_ok.2 ⟨_, hdomain, bind_eq_ok.2 ⟨_, ihCodomain stop rest _ rfl hstops, rfl⟩⟩
  | last closing item ih =>
    intro stop rest
    have hitem := ih stop (⟨.closeParen, closing⟩ :: rest) _ rfl (.cons (.inl rfl))
    rw [List.append_assoc, parseItems_eq]
    exact bind_eq_ok.2 ⟨_, hitem, rfl⟩
  | @more ts us t items comma item others ihItem ihOthers =>
    intro stop rest
    have hitem := ihItem stop (⟨.comma, comma⟩ :: us ++ rest) t rfl (.cons (.inr (.inr (.inl rfl))))
    rw [List.append_assoc, parseItems_eq]
    exact bind_eq_ok.2 ⟨_, hitem, bind_eq_ok.2 ⟨_, ihOthers stop rest, rfl⟩⟩

/-! ## What is read was derived -/

/-- The readers are sound on lists of fewer than `n` lexemes. -/
structure SoundBelow (stop n : Nat) : Prop where
  type : ∀ {ts t rest}, ts.length < n → parse stop ts = .ok (t, rest) →
    ∃ us, Derives .type us [t] ∧ ts = us ++ rest
  items : ∀ {ts trees rest}, ts.length < n → parseItems stop ts = .ok (trees, rest) →
    ∃ us, Derives .items us trees ∧ ts = us ++ rest

namespace SoundBelow

variable {n : Nat}

theorem atom (h : SoundBelow stop n) (hlength : ts.length ≤ n)
    (hread : parseAtom stop ts = .ok (t, rest)) : ∃ us, Derives .atom us [t] ∧ ts = us ++ rest := by
  have hstarts := startsAtom_of_parseAtom hread
  match ts, hstarts with
  | ⟨.name s, offset⟩ :: ts, _ =>
    rw [parseAtom_name] at hread
    cases hread
    exact ⟨_, .name s offset, rfl⟩
  | ⟨.openParen, offset⟩ :: ts, _ =>
    rw [parseAtom_openParen] at hread
    obtain ⟨⟨first, rest₁⟩, hfirst, hafter⟩ := bind_eq_ok.1 hread
    obtain ⟨us, hus, rfl⟩ := h.type hlength hfirst
    dsimp only at hafter
    cases hcomma : eat? .comma rest₁ with
    | some rest₂ =>
      rw [hcomma] at hafter
      obtain ⟨comma, rfl⟩ := eat?_eq_some_iff.1 hcomma
      obtain ⟨⟨items, rest₃⟩, hitems, hdone⟩ := bind_eq_ok.1 hafter
      cases hdone
      have hlt : rest₂.length < n := by
        simp only [List.length_cons, List.length_append] at hlength
        omega
      obtain ⟨vs, hvs, rfl⟩ := h.items hlt hitems
      exact ⟨_, .tuple offset comma hus hvs, by simp⟩
    | none =>
      rw [hcomma] at hafter
      obtain ⟨rest₂, hclose, hdone⟩ := elim_error_eq_ok.1 hafter
      obtain ⟨closing, rfl⟩ := eat?_eq_some_iff.1 hclose
      cases hdone
      exact ⟨_, .group offset closing hus, by simp⟩
  | ⟨.openBracket, offset⟩ :: ts, _ =>
    rw [parseAtom_openBracket] at hread
    obtain ⟨⟨elem, rest₁⟩, helem, hafter⟩ := bind_eq_ok.1 hread
    obtain ⟨us, hus, rfl⟩ := h.type hlength helem
    obtain ⟨rest₂, hclose, hdone⟩ := elim_error_eq_ok.1 hafter
    obtain ⟨closing, rfl⟩ := eat?_eq_some_iff.1 hclose
    cases hdone
    exact ⟨_, .list offset closing hus, by simp⟩

/-- The loop over arguments: what it has put together so far is an application. -/
theorem args (h : SoundBelow stop n) {us : List Lexeme} {head : SignatureTree} (hlength : ts.length ≤ n)
    (hhead : Derives .applied us [head]) (hread : parseArgs stop head ts = .ok (t, rest)) :
    ∃ vs, Derives .applied (us ++ vs) [t] ∧ ts = vs ++ rest := by
  induction hn : ts.length using Nat.strongRecOn generalizing ts us head with
  | ind m ih =>
    rw [parseArgs_eq] at hread
    split at hread
    · obtain ⟨⟨arg, rest₁⟩, harg, hargs⟩ := bind_eq_ok.1 hread
      obtain ⟨hlt, _⟩ := exists_of_map_val harg
      obtain ⟨vs, hvs, rfl⟩ := h.atom hlength harg
      obtain ⟨ws, hws, rfl⟩ := ih _ (hn ▸ hlt) (Nat.le_trans (Nat.le_of_lt hlt) hlength) (.app hhead hvs) hargs rfl
      exact ⟨vs ++ ws, by rwa [← List.append_assoc], (List.append_assoc ..).symm⟩
    · cases hread
      exact ⟨[], by rwa [List.append_nil], rfl⟩

theorem applied (h : SoundBelow stop n) (hlength : ts.length ≤ n)
    (hread : parseApplied stop ts = .ok (t, rest)) : ∃ us, Derives .applied us [t] ∧ ts = us ++ rest := by
  rw [parseApplied_eq] at hread
  obtain ⟨⟨head, rest₁⟩, hatom, hargs⟩ := bind_eq_ok.1 hread
  obtain ⟨hlt, _⟩ := exists_of_map_val hatom
  obtain ⟨us, hus, rfl⟩ := h.atom hlength hatom
  obtain ⟨vs, hvs, rfl⟩ := h.args (Nat.le_of_lt (Nat.lt_of_lt_of_le hlt hlength)) (.head hus) hargs
  exact ⟨us ++ vs, hvs, (List.append_assoc ..).symm⟩

theorem succ (h : SoundBelow stop n) : SoundBelow stop (n + 1) := by
  have type : ∀ {ts t rest}, ts.length < n + 1 → parse stop ts = .ok (t, rest) →
      ∃ us, Derives .type us [t] ∧ ts = us ++ rest := by
    intro ts t rest hlength hread
    rw [parse_eq] at hread
    obtain ⟨⟨left, rest₁⟩, hleft, hafter⟩ := bind_eq_ok.1 hread
    obtain ⟨hlt, _⟩ := exists_of_map_val hleft
    obtain ⟨us, hus, rfl⟩ := h.applied (by omega) hleft
    dsimp only at hafter
    cases harrow : eat? .arrow rest₁ with
    | none =>
      rw [harrow] at hafter
      cases hafter
      exact ⟨us, .plain hus, rfl⟩
    | some rest₂ =>
      rw [harrow] at hafter
      obtain ⟨offset, rfl⟩ := eat?_eq_some_iff.1 harrow
      obtain ⟨⟨right, rest₃⟩, hright, hdone⟩ := bind_eq_ok.1 hafter
      cases hdone
      obtain ⟨vs, hvs, rfl⟩ := h.type (by simp at hlt hlength; omega) hright
      exact ⟨_, .arrow offset hus hvs, by simp⟩
  refine ⟨type, fun {ts trees rest} hlength hread => ?_⟩
  rw [parseItems_eq] at hread
  obtain ⟨⟨item, rest₁⟩, hitem, hafter⟩ := bind_eq_ok.1 hread
  obtain ⟨hlt, _⟩ := exists_of_map_val hitem
  obtain ⟨us, hus, rfl⟩ := type hlength hitem
  dsimp only at hafter
  cases hcomma : eat? .comma rest₁ with
  | some rest₂ =>
    rw [hcomma] at hafter
    obtain ⟨comma, rfl⟩ := eat?_eq_some_iff.1 hcomma
    obtain ⟨⟨items, rest₃⟩, hitems, hdone⟩ := bind_eq_ok.1 hafter
    cases hdone
    obtain ⟨vs, hvs, rfl⟩ := h.items (by simp at hlt hlength; omega) hitems
    exact ⟨_, .more comma hus hvs, by simp⟩
  | none =>
    rw [hcomma] at hafter
    obtain ⟨rest₂, hclose, hdone⟩ := elim_error_eq_ok.1 hafter
    obtain ⟨closing, rfl⟩ := eat?_eq_some_iff.1 hclose
    cases hdone
    exact ⟨_, .last closing hus, by simp⟩

end SoundBelow

theorem soundBelow (stop n : Nat) : SoundBelow stop n := by
  induction n with
  | zero => exact ⟨fun h => absurd h (Nat.not_lt_zero _), fun h => absurd h (Nat.not_lt_zero _)⟩
  | succ n ih => exact ih.succ

/-- What the reader of types returns was derived, from the lexemes it consumed. -/
theorem derives_of_parse (h : parse stop ts = .ok (t, rest)) :
    ∃ us, Derives .type us [t] ∧ ts = us ++ rest :=
  (soundBelow stop (ts.length + 1)).type (Nat.lt_succ_self _) h

end SignatureTree

namespace SignaturePhrase

open SignatureTree

variable {stop : Nat} {ts : List Lexeme} {phrase : SignaturePhrase}

/-- The lexemes are derived as a whole signature.  A tuple is a context, and not a type. -/
inductive Derives : List Lexeme → SignaturePhrase → Prop where
  | plain {ts : List Lexeme} {t : SignatureTree} (head : SignatureTree.Derives .type ts [t])
      (single : ∀ items offset, t ≠ .tuple items offset) : Derives ts ⟨[], t⟩
  | qualified {ts us : List Lexeme} {first t : SignatureTree} (offset : Nat)
      (context : SignatureTree.Derives .type ts [first]) (head : SignatureTree.Derives .type us [t]) :
      Derives (ts ++ ⟨.fatArrow, offset⟩ :: us) ⟨constraints first, t⟩

theorem finish_eq_ok_iff {rest : List Lexeme} {phrase' : SignaturePhrase} :
    finish stop phrase rest = .ok phrase' ↔ rest = [] ∧ phrase = phrase' := by
  cases rest with
  | nil => simp [finish]
  | cons l rest => simp [finish]

/-- **A signature is accepted iff the grammar derives it, and the phrase is the one derived.** -/
theorem ofLexemes_eq_ok_iff : ofLexemes stop ts = .ok phrase ↔ Derives ts phrase := by
  constructor
  · intro h
    obtain ⟨⟨⟨first, rest⟩, _⟩, hfirst, hafter⟩ := bind_eq_ok.1 h
    obtain ⟨us, hus, rfl⟩ := derives_of_parse (congrArg (Except.map Subtype.val) hfirst)
    dsimp only at hafter
    cases harrow : eat? .fatArrow rest with
    | some rest₁ =>
      rw [harrow] at hafter
      obtain ⟨offset, rfl⟩ := eat?_eq_some_iff.1 harrow
      obtain ⟨⟨⟨head, rest₂⟩, _⟩, hhead, hdone⟩ := bind_eq_ok.1 hafter
      obtain ⟨rfl, rfl⟩ := finish_eq_ok_iff.1 hdone
      obtain ⟨vs, hvs, rfl⟩ := derives_of_parse (congrArg (Except.map Subtype.val) hhead)
      dsimp only
      rw [List.append_nil]
      exact .qualified offset hus hvs
    | none =>
      rw [harrow] at hafter
      dsimp only at hafter
      split at hafter
      · cases hafter
      · rename_i hsingle
        obtain ⟨rfl, rfl⟩ := finish_eq_ok_iff.1 hafter
        rw [List.append_nil]
        exact .plain hus hsingle
  · intro h
    cases h with
    | plain head single =>
      have hparse := head.accepts stop [] _ rfl .nil
      rw [List.append_nil] at hparse
      obtain ⟨hlt, hread⟩ := exists_of_map_val hparse
      refine bind_eq_ok.2 ⟨_, hread, ?_⟩
      dsimp only [eat?]
      split
      · rename_i items offset
        exact absurd rfl (single items offset)
      · rfl
    | @qualified ts us first t offset context head =>
      have hfirst := context.accepts stop (⟨.fatArrow, offset⟩ :: us) _ rfl (.cons (.inr (.inr (.inr rfl))))
      have hhead := head.accepts stop [] _ rfl .nil
      rw [List.append_nil] at hhead
      obtain ⟨_, hreadFirst⟩ := exists_of_map_val hfirst
      obtain ⟨_, hreadHead⟩ := exists_of_map_val hhead
      exact bind_eq_ok.2 ⟨_, hreadFirst, bind_eq_ok.2 ⟨_, hreadHead, rfl⟩⟩

end SignaturePhrase

end QualifiedTypes
