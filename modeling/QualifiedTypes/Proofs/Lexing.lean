import QualifiedTypes.Proofs.Action
import QualifiedTypes.Proofs.Outcomes
import QualifiedTypes.Signature.Resolve

/-!
# The lexical grammar of signatures

Which texts are split into which tokens, apart from the offsets that lexemes carry, and how texts can be
put together so that their tokens are.

* `Lexeme.Scans`: the rules of the lexical grammar, with `Lexeme.exists_scan_iff`.
* `Lexeme.IsName`: the names, which are what name tokens hold (`Lexeme.Scans.isName`).
* `Lexeme.Lexes`, `Lexeme.Separates`: pieces of text and what may stand between them.
* `isName_slotName`, `isVarName_slotName`, `slotName_injective`: the names of bound variables.
-/

namespace QualifiedTypes

namespace Lexeme

variable {c : Char} {cs rest : List Char} {toks toks' : List SignatureToken}

/-- The character begins a name, and nothing else. -/
structure BeginsName (c : Char) : Prop where
  notBlank : Text.isBlank c = false
  notPunctuation : punctuation? c = none
  notArrow : arrow? c = none
  start : isNameStart c = true

instance (c : Char) : Decidable (BeginsName c) :=
  decidable_of_iff (Text.isBlank c = false ∧ punctuation? c = none ∧ arrow? c = none ∧ isNameStart c = true)
    ⟨fun ⟨h₁, h₂, h₃, h₄⟩ => ⟨h₁, h₂, h₃, h₄⟩, fun ⟨h₁, h₂, h₃, h₄⟩ => ⟨h₁, h₂, h₃, h₄⟩⟩

/-- The text is a name. -/
def IsName (s : String) : Prop :=
  ∃ c cs, s.toList = c :: cs ∧ BeginsName c ∧ ∀ d ∈ cs, isNameRest d = true

instance (s : String) : Decidable (IsName s) :=
  match h : s.toList with
  | [] => isFalse fun ⟨_, _, hs, _⟩ => nomatch h.symm.trans hs
  | c :: cs =>
    decidable_of_iff (BeginsName c ∧ cs.all isNameRest = true)
      ⟨fun ⟨hc, hcs⟩ => ⟨c, cs, h, hc, List.all_eq_true.1 hcs⟩, fun ⟨c', cs', hs, hc, hcs⟩ => by
        cases h.symm.trans hs
        exact ⟨hc, List.all_eq_true.2 hcs⟩⟩

/-- The text does not go on with a name. -/
def Breaks (cs : List Char) : Prop := ∀ c ∈ cs.head?, isNameRest c = false

/-- The text is split into these tokens. -/
inductive Scans : List Char → List SignatureToken → Prop where
  | nil : Scans [] []
  | blank {c : Char} {rest : List Char} {toks : List SignatureToken} (blank : Text.isBlank c = true)
      (scans : Scans rest toks) : Scans (c :: rest) toks
  | punctuation {c : Char} {rest : List Char} {token : SignatureToken} {toks : List SignatureToken}
      (notBlank : Text.isBlank c = false) (spells : punctuation? c = some token)
      (scans : Scans rest toks) : Scans (c :: rest) (token :: toks)
  | arrow {c : Char} {rest : List Char} {token : SignatureToken} {toks : List SignatureToken}
      (notBlank : Text.isBlank c = false) (notPunctuation : punctuation? c = none)
      (spells : arrow? c = some token) (scans : Scans rest toks) : Scans (c :: '>' :: rest) (token :: toks)
  | name {s : String} {rest : List Char} {toks : List SignatureToken} (isName : IsName s)
      (breaks : Breaks rest) (scans : Scans rest toks) : Scans (s.toList ++ rest) (.name s :: toks)

theorem breaks_dropWhile (cs : List Char) : Breaks (cs.dropWhile isNameRest) := by
  intro c hc
  have h := List.head?_dropWhile_not isNameRest cs
  rw [Option.mem_def.1 hc] at h
  exact h

theorem takeWhile_of_breaks (h : Breaks cs) : cs.takeWhile isNameRest = [] := by
  cases cs with
  | nil => rfl
  | cons c cs => rw [List.takeWhile_cons, h c rfl, if_neg Bool.false_ne_true]

theorem dropWhile_of_breaks (h : Breaks cs) : cs.dropWhile isNameRest = cs := by
  cases cs with
  | nil => rfl
  | cons c cs => rw [List.dropWhile_cons, h c rfl, if_neg Bool.false_ne_true]

theorem scans_of_scanFrom {offset : Nat} {ls : List Lexeme} (h : scanFrom offset cs = .ok ls) :
    Scans cs (ls.map token) := by
  fun_induction scanFrom offset cs generalizing ls with
  | case1 =>
    cases h
    exact .nil
  | case2 offset c rest hblank ih => exact .blank hblank (ih h)
  | case3 offset c rest hblank token htoken ih =>
    obtain ⟨ls', hls, h⟩ := bind_eq_ok.1 h
    cases h
    exact .punctuation (Bool.eq_false_iff.2 hblank) htoken (ih hls)
  | case4 offset c hblank hpunctuation token htoken rest ih =>
    obtain ⟨ls', hls, h⟩ := bind_eq_ok.1 h
    cases h
    exact .arrow (Bool.eq_false_iff.2 hblank) hpunctuation htoken (ih hls)
  | case5 => cases h
  | case6 offset c rest hblank hpunctuation harrow hstart name =>
    rename_i ih
    obtain ⟨ls', hls, h⟩ := bind_eq_ok.1 h
    cases h
    have hbegins : BeginsName c := ⟨Bool.eq_false_iff.2 hblank, hpunctuation, harrow, hstart⟩
    have hname : IsName (String.ofList (c :: rest.takeWhile isNameRest)) :=
      ⟨c, _, String.toList_ofList, hbegins, List.all_eq_true.1 List.all_takeWhile⟩
    have hscans := Scans.name hname (breaks_dropWhile rest) (ih hls)
    rwa [String.toList_ofList, List.cons_append, List.takeWhile_append_dropWhile] at hscans
  | case7 => cases h

theorem Scans.exists_scanFrom (h : Scans cs toks) (offset : Nat) :
    ∃ ls, scanFrom offset cs = .ok ls ∧ ls.map token = toks := by
  induction h generalizing offset with
  | nil => exact ⟨[], by rw [scanFrom], rfl⟩
  | @blank c rest toks blank scans ih =>
    obtain ⟨ls, hls, htokens⟩ := ih (offset + c.utf8Size)
    refine ⟨ls, ?_, htokens⟩
    rw [scanFrom, if_pos blank, hls]
  | @punctuation c rest token toks notBlank spells scans ih =>
    obtain ⟨ls, hls, htokens⟩ := ih (offset + c.utf8Size)
    refine ⟨⟨token, offset⟩ :: ls, ?_, by rw [List.map_cons, htokens]⟩
    rw [scanFrom, notBlank, spells]
    exact bind_eq_ok.2 ⟨ls, hls, rfl⟩
  | @arrow c rest token toks notBlank notPunctuation spells scans ih =>
    obtain ⟨ls, hls, htokens⟩ := ih (offset + c.utf8Size + 1)
    refine ⟨⟨token, offset⟩ :: ls, ?_, by rw [List.map_cons, htokens]⟩
    rw [scanFrom, notBlank, notPunctuation, spells]
    exact bind_eq_ok.2 ⟨ls, hls, rfl⟩
  | @name s rest toks isName breaks scans ih =>
    obtain ⟨c, cs, hs, hbegins, hcs⟩ := isName
    obtain ⟨ls, hls, htokens⟩ := ih (offset + byteLength (c :: cs))
    have hname : String.ofList (c :: cs) = s := by rw [← hs, String.ofList_toList]
    refine ⟨⟨.name s, offset⟩ :: ls, ?_, by rw [List.map_cons, htokens]⟩
    have htake : (cs ++ rest).takeWhile isNameRest = cs := by
      rw [List.takeWhile_append_of_pos hcs, takeWhile_of_breaks breaks, List.append_nil]
    have hdrop : (cs ++ rest).dropWhile isNameRest = rest := by
      rw [List.dropWhile_append_of_pos hcs, dropWhile_of_breaks breaks]
    rw [hs, List.cons_append, scanFrom, hbegins.notBlank, hbegins.notPunctuation, hbegins.notArrow,
      hbegins.start, htake, hdrop]
    exact bind_eq_ok.2 ⟨ls, hls, by rw [hname]; rfl⟩

/-- **A text is split into lexemes iff the lexical grammar gives it their tokens.** -/
theorem exists_scan_iff {src : String} :
    (∃ ls, scan src = .ok ls ∧ ls.map token = toks) ↔ Scans src.toList toks := by
  constructor
  · rintro ⟨ls, hls, rfl⟩
    exact scans_of_scanFrom hls
  · exact fun h => h.exists_scanFrom 0

/-- Name tokens hold names. -/
theorem Scans.isName (h : Scans cs toks) : ∀ s, .name s ∈ toks → IsName s := by
  induction h with
  | nil => exact fun s hs => nomatch hs
  | blank _ _ ih => exact ih
  | @punctuation c rest token toks _ spells _ ih =>
    intro s hs
    rcases List.mem_cons.1 hs with rfl | hs
    · unfold punctuation? at spells
      split at spells <;> cases spells
    · exact ih s hs
  | @arrow c rest token toks _ _ spells _ ih =>
    intro s hs
    rcases List.mem_cons.1 hs with rfl | hs
    · unfold arrow? at spells
      split at spells <;> cases spells
    · exact ih s hs
  | @name s rest toks isName _ _ ih =>
    intro s' hs
    rcases List.mem_cons.1 hs with hs | hs
    · cases hs
      exact isName
    · exact ih s' hs

/-! ## Putting texts together -/

/-- The text is split into these tokens, if what comes next does not go on with a name. -/
def Lexes (s : String) (toks : List SignatureToken) : Prop :=
  ∀ rest toks', Breaks rest → Scans rest toks' → Scans (s.toList ++ rest) (toks ++ toks')

/-- The text ends a name, and is split into these tokens whatever comes next. -/
structure Separates (s : String) (toks : List SignatureToken) : Prop where
  breaks : ∀ rest, Breaks (s.toList ++ rest)
  scans : ∀ rest toks', Scans rest toks' → Scans (s.toList ++ rest) (toks ++ toks')

theorem IsName.lexes {s : String} (h : IsName s) : Lexes s [.name s] :=
  fun _ _ hbreaks hscans => .name h hbreaks hscans

theorem Lexes.scans {s : String} (h : Lexes s toks) : Scans s.toList toks := by
  have hscans := h [] [] (fun c hc => nomatch hc) .nil
  rwa [List.append_nil, List.append_nil] at hscans

theorem Separates.append_lexes {s s' : String} (h : Separates s toks) (h' : Lexes s' toks') :
    Lexes (s ++ s') (toks ++ toks') := by
  intro rest toks'' hbreaks hscans
  rw [String.toList_append, List.append_assoc, List.append_assoc]
  exact h.scans _ _ (h' rest toks'' hbreaks hscans)

theorem Lexes.append_separates {s s' : String} (h : Lexes s toks) (h' : Separates s' toks') :
    Lexes (s ++ s') (toks ++ toks') := by
  intro rest toks'' _ hscans
  rw [String.toList_append, List.append_assoc, List.append_assoc]
  exact h _ _ (h'.breaks rest) (h'.scans rest toks'' hscans)

/-- Two texts with a separator between them. -/
theorem Lexes.join {s sep s' : String} {mid : List SignatureToken} (h : Lexes s toks)
    (hsep : Separates sep mid) (h' : Lexes s' toks') : Lexes (s ++ sep ++ s') (toks ++ mid ++ toks') := by
  intro rest toks'' hbreaks hscans
  simp only [String.toList_append, List.append_assoc]
  exact h _ _ (hsep.breaks _) (hsep.scans _ _ (h' rest toks'' hbreaks hscans))

theorem separates_blank : Separates " " [] where
  breaks _ c hc := by cases hc; decide
  scans _ _ h := .blank (by decide) h

theorem separates_punctuation {s : String} {token : SignatureToken} (hs : s.toList = [c])
    (hspells : punctuation? c = some token) : Separates s [token] := by
  have hchar : isNameRest c = false ∧ Text.isBlank c = false := by
    unfold punctuation? at hspells
    split at hspells
    case h_6 => cases hspells
    all_goals decide
  constructor
  · intro rest d hd
    rw [hs] at hd
    cases hd
    exact hchar.1
  · intro rest toks hscans
    rw [hs]
    exact .punctuation hchar.2 hspells hscans

theorem separates_comma : Separates ", " [.comma] where
  breaks _ c hc := by cases hc; decide
  scans _ _ h := .punctuation (by decide) rfl (.blank (by decide) h)

theorem separates_arrow : Separates " -> " [.arrow] where
  breaks _ c hc := by cases hc; decide
  scans _ _ h := .blank (by decide) (.arrow (by decide) rfl rfl (.blank (by decide) h))

theorem separates_fatArrow : Separates " => " [.fatArrow] where
  breaks _ c hc := by cases hc; decide
  scans _ _ h := .blank (by decide) (.arrow (by decide) rfl rfl (.blank (by decide) h))

end Lexeme

/-! ## The names of bound variables -/

open Lexeme

theorem isNameRest_of_isDigit {c : Char} (h : c.isDigit = true) : isNameRest c = true := by
  have hascii : c.toNat < 0x80 := by
    simp only [Char.isDigit, Bool.and_eq_true, decide_eq_true_eq] at h
    have hle : c.val.toNat ≤ 57 := UInt32.le_iff_toNat_le.1 h.2
    exact Nat.lt_of_le_of_lt hle (by decide)
  rw [isNameRest, Text.isAlphanumeric, Text.isNumeric, if_pos hascii, h, Bool.or_true]
  rfl

theorem toList_toString (n : Nat) : (toString n).toList = Nat.toDigits 10 n := Nat.toList_repr

theorem isName_slotName (n : Nat) : IsName (slotName n) := by
  unfold slotName
  split
  · have hletter : ∀ n < 26, BeginsName (Char.ofNat ('a'.toNat + n)) := by decide
    exact ⟨_, [], String.toList_singleton _, hletter n ‹_›, fun d hd => nomatch hd⟩
  · refine ⟨'a', Nat.toDigits 10 n, ?_, by decide, fun d hd => ?_⟩
    · rw [String.toList_append, toList_toString]
      rfl
    · exact isNameRest_of_isDigit (Nat.isDigit_of_mem_toDigits (by decide) (by decide) hd)

theorem isVarName_slotName (n : Nat) : isVarName (slotName n) = true := by
  unfold slotName
  split
  · have hletter : ∀ n < 26, (Text.isLowercase (Char.ofNat ('a'.toNat + n)) ||
        Char.ofNat ('a'.toNat + n) == '_') = true := by decide
    rw [isVarName, String.toList_singleton]
    exact hletter n ‹_›
  · rw [isVarName, String.toList_append]
    rfl

theorem slotName_injective {m n : Nat} (h : slotName m = slotName n) : m = n := by
  -- A letter is no letter followed by digits.
  have hne : ∀ (c : Char) (k : Nat), ¬k < 26 → String.singleton c ≠ "a" ++ toString k := by
    intro c k hk he
    have hlist := congrArg String.toList he
    rw [String.toList_append, String.toList_singleton, toList_toString] at hlist
    have hdigits : Nat.toDigits 10 k = [] := (List.cons.inj hlist).2.symm
    have hzero := Nat.ofDigitChars_ten_toDigits (n := k)
    rw [hdigits] at hzero
    exact hk (hzero ▸ (by decide))
  unfold slotName at h
  split at h <;> split at h
  · have hcode : ∀ n < 26, (Char.ofNat ('a'.toNat + n)).toNat = 'a'.toNat + n := by decide
    have hlist := congrArg String.toList h
    rw [String.toList_singleton, String.toList_singleton] at hlist
    have hchar := congrArg Char.toNat (List.cons.inj hlist).1
    rw [hcode m ‹_›, hcode n ‹_›] at hchar
    exact Nat.add_left_cancel hchar
  · exact absurd h (hne _ n ‹_›)
  · exact absurd h.symm (hne _ m ‹_›)
  · exact append_toString_injective h

end QualifiedTypes
