import QualifiedTypes.Proofs.Lexing

/-!
# The offsets of lexemes

Offsets count bytes, and characters have between one and four of them.  The offset of a lexeme is that of its first
character, and so is that of a fault.

* `Lexeme.Scanned`: a run over a text, with the offsets that it passes, and `Lexeme.scanned_scanFrom`.
* `Lexeme.Scanned.spelled`, `Lexeme.Scanned.increasing`: lexemes stand where their offsets say, one after the other.
* `Lexeme.Scanned.faulty`: a fault stands where its offset says, behind text that can be split.
-/

namespace QualifiedTypes

/-- The text of a token. -/
def SignatureToken.spelling : SignatureToken → String
  | .name s => s
  | .arrow => "->"
  | .fatArrow => "=>"
  | .openParen => "("
  | .closeParen => ")"
  | .openBracket => "["
  | .closeBracket => "]"
  | .comma => ","

namespace Lexeme

variable {offset : Nat} {c : Char} {cs rest : List Char}

/-- A character at which no lexeme begins, with what comes after it, and the fault that is found. -/
inductive Offends : Char → List Char → SignatureFault → Prop where
  | brokenArrow {c : Char} {rest : List Char} {token : SignatureToken} (begins : arrow? c = some token)
      (broken : rest.head? ≠ some '>') : Offends c rest (.brokenArrow c)
  | unexpected {c : Char} {rest : List Char} (notBlank : Text.isBlank c = false)
      (notPunctuation : punctuation? c = none) (notArrow : arrow? c = none) (notName : isNameStart c = false) :
      Offends c rest (.unexpectedChar c)

/-- The token is next in the text, and stays so if what comes after it is cut short. -/
structure TakesNext (token : SignatureToken) (rest : List Char) : Prop where
  nonempty : token.spelling.toList ≠ []
  scans : ∀ before after toks, rest = before ++ after → Scans before toks →
    Scans (token.spelling.toList ++ before) (token :: toks)

theorem spelling_of_punctuation {token : SignatureToken} (h : punctuation? c = some token) :
    token.spelling.toList = [c] := by
  unfold punctuation? at h
  split at h <;> cases h <;> rfl

theorem spelling_of_arrow {token : SignatureToken} (h : arrow? c = some token) :
    token.spelling.toList = [c, '>'] := by
  unfold arrow? at h
  split at h <;> cases h <;> rfl

theorem Breaks.of_append {before after : List Char} (h : Breaks (before ++ after)) : Breaks before := by
  intro c hc
  refine h c ?_
  rw [List.head?_append, Option.mem_def.1 hc]
  rfl

namespace TakesNext

theorem punctuation {token : SignatureToken} (notBlank : Text.isBlank c = false)
    (spells : punctuation? c = some token) (rest : List Char) : TakesNext token rest := by
  have hspelling := spelling_of_punctuation spells
  refine ⟨by simp [hspelling], fun before _ toks _ hscans => ?_⟩
  rw [hspelling]
  exact .punctuation notBlank spells hscans

theorem arrow {token : SignatureToken} (notBlank : Text.isBlank c = false) (notPunctuation : punctuation? c = none)
    (spells : arrow? c = some token) (rest : List Char) : TakesNext token rest := by
  have hspelling := spelling_of_arrow spells
  refine ⟨by simp [hspelling], fun before _ toks _ hscans => ?_⟩
  rw [hspelling]
  exact .arrow notBlank notPunctuation spells hscans

theorem name {s : String} (h : IsName s) (hbreaks : Breaks rest) : TakesNext (.name s) rest := by
  constructor
  · obtain ⟨c, cs, hs, -, -⟩ := h
    exact fun hnil => List.cons_ne_nil c cs (hs.symm.trans hnil)
  · rintro before after toks rfl hscans
    exact .name h hbreaks.of_append hscans

end TakesNext

/-- A run over a text that begins at an offset: it skips blanks and takes tokens, up to the end or to a fault. -/
inductive Scanned : Nat → List Char → Except SignatureError (List Lexeme) → Prop where
  | nil (offset : Nat) : Scanned offset [] (.ok [])
  | blank {offset : Nat} {c : Char} {rest : List Char} {r : Except SignatureError (List Lexeme)}
      (blank : Text.isBlank c = true) (after : Scanned (offset + c.utf8Size) rest r) : Scanned offset (c :: rest) r
  | token {offset : Nat} {token : SignatureToken} {rest : List Char} {r : Except SignatureError (List Lexeme)}
      (next : TakesNext token rest) (after : Scanned (offset + byteLength token.spelling.toList) rest r) :
      Scanned offset (token.spelling.toList ++ rest) (r >>= fun ls => .ok (⟨token, offset⟩ :: ls))
  | fault {offset : Nat} {c : Char} {rest : List Char} {fault : SignatureFault} (offends : Offends c rest fault) :
      Scanned offset (c :: rest) (.error ⟨fault, offset⟩)

theorem scanned_scanFrom (offset : Nat) (cs : List Char) : Scanned offset cs (scanFrom offset cs) := by
  fun_induction scanFrom offset cs with
  | case1 offset => exact .nil offset
  | case2 offset c rest hblank ih => exact .blank hblank ih
  | case3 offset c rest hblank token htoken ih =>
    have hspelling := spelling_of_punctuation htoken
    have hnext : TakesNext token rest := .punctuation (Bool.eq_false_iff.2 hblank) htoken rest
    have hrun : Scanned offset _ _ := .token hnext (by rwa [hspelling])
    rwa [hspelling] at hrun
  | case4 offset c hblank hpunctuation token htoken rest ih =>
    have hspelling := spelling_of_arrow htoken
    have hnext : TakesNext token rest := .arrow (Bool.eq_false_iff.2 hblank) hpunctuation htoken rest
    have hsize : byteLength [c, '>'] = c.utf8Size + 1 := rfl
    have hrun : Scanned offset _ _ := .token hnext (by rwa [hspelling, hsize, ← Nat.add_assoc])
    rwa [hspelling] at hrun
  | case5 offset c rest hblank hpunctuation token htoken hbroken =>
    refine .fault (.brokenArrow htoken fun hhead => ?_)
    obtain ⟨rest', rfl⟩ := List.head?_eq_some_iff.1 hhead
    exact hbroken rest' rfl
  | case6 offset c rest hblank hpunctuation harrow hstart name ih =>
    have hbegins : BeginsName c := ⟨Bool.eq_false_iff.2 hblank, hpunctuation, harrow, hstart⟩
    have hname : IsName (String.ofList name) :=
      ⟨c, _, String.toList_ofList, hbegins, List.all_eq_true.1 List.all_takeWhile⟩
    have hspelling : (SignatureToken.name (String.ofList name)).spelling.toList = name := String.toList_ofList
    have hrun : Scanned offset _ _ := .token (.name hname (breaks_dropWhile rest)) (by rwa [hspelling])
    rwa [hspelling, List.cons_append, List.takeWhile_append_dropWhile] at hrun
  | case7 offset c rest hblank hpunctuation harrow hstart =>
    exact .fault (.unexpected (Bool.eq_false_iff.2 hblank) hpunctuation harrow (Bool.eq_false_iff.2 hstart))

theorem byteLength_eq (cs : List Char) : byteLength cs = (String.ofList cs).utf8ByteSize := by
  induction cs with
  | nil => rfl
  | cons c cs ih =>
    rw [byteLength, ih, String.ofList_cons, String.utf8ByteSize_append, String.utf8ByteSize_singleton]

theorem byteLength_append (cs ds : List Char) : byteLength (cs ++ ds) = byteLength cs + byteLength ds := by
  simp only [byteLength_eq, String.ofList_append, String.utf8ByteSize_append]

theorem byteLength_pos {cs : List Char} (h : cs ≠ []) : 0 < byteLength cs := by
  cases cs with
  | nil => exact absurd rfl h
  | cons c cs =>
    have := c.utf8Size_pos
    simp only [byteLength]
    omega

namespace Scanned

variable {offset : Nat} {cs : List Char} {r : Except SignatureError (List Lexeme)}

/-- Each lexeme stands in the text where its offset says. -/
theorem spelled (h : Scanned offset cs r) : ∀ ls, r = .ok ls → ∀ l ∈ ls, l.token.spelling.toList ≠ [] ∧
    ∃ before after, cs = before ++ l.token.spelling.toList ++ after ∧ l.offset = offset + byteLength before := by
  induction h with
  | nil offset =>
    rintro ls ⟨⟩ l hl
    cases hl
  | @blank offset c rest r blank after ih =>
    intro ls hls l hl
    obtain ⟨hne, before, tail, rfl, hoffset⟩ := ih ls hls l hl
    refine ⟨hne, c :: before, tail, by simp, ?_⟩
    simp only [byteLength]
    omega
  | @token offset token rest r next after ih =>
    intro ls hls l hl
    obtain ⟨ls', hls', he⟩ := bind_eq_ok.1 hls
    cases he
    rcases List.mem_cons.1 hl with rfl | hl
    · exact ⟨next.nonempty, [], rest, rfl, rfl⟩
    · obtain ⟨hne, before, tail, rfl, hoffset⟩ := ih ls' hls' l hl
      refine ⟨hne, token.spelling.toList ++ before, tail, by simp, ?_⟩
      rw [byteLength_append]
      omega
  | fault offends => exact fun ls hls => nomatch hls

/-- The offsets of the lexemes increase. -/
theorem increasing (h : Scanned offset cs r) : ∀ ls, r = .ok ls → (ls.map Lexeme.offset).Pairwise (· < ·) := by
  induction h with
  | nil offset =>
    rintro ls ⟨⟩
    exact .nil
  | blank blank after ih => exact ih
  | @token offset token rest r next after ih =>
    intro ls hls
    obtain ⟨ls', hls', he⟩ := bind_eq_ok.1 hls
    cases he
    refine List.pairwise_cons.2 ⟨?_, ih ls' hls'⟩
    -- What comes next stands behind the token, which is not empty.
    intro n hn
    obtain ⟨l, hl, rfl⟩ := List.mem_map.1 hn
    obtain ⟨-, before, tail, -, hoffset⟩ := after.spelled ls' hls' l hl
    have hpos := byteLength_pos next.nonempty
    dsimp only
    omega
  | fault offends => exact fun ls hls => nomatch hls

/-- A fault is found at a character, behind text that can be split into tokens. -/
theorem faulty (h : Scanned offset cs r) : ∀ e, r = .error e → ∃ before c after toks,
    cs = before ++ c :: after ∧ e.offset = offset + byteLength before ∧ Scans before toks ∧
      Offends c after e.fault := by
  induction h with
  | nil offset => exact fun e he => nomatch he
  | @blank offset c rest r blank after ih =>
    intro e he
    obtain ⟨before, d, tail, toks, rfl, hoffset, hscans, hoffends⟩ := ih e he
    refine ⟨c :: before, d, tail, toks, rfl, ?_, .blank blank hscans, hoffends⟩
    simp only [byteLength]
    omega
  | @token offset token rest r next after ih =>
    intro e he
    rcases bind_eq_error.1 he with he | ⟨ls, -, he⟩
    · obtain ⟨before, d, tail, toks, rfl, hoffset, hscans, hoffends⟩ := ih e he
      refine ⟨token.spelling.toList ++ before, d, tail, token :: toks, by simp, ?_,
        next.scans before _ toks rfl hscans, hoffends⟩
      rw [byteLength_append]
      omega
    · cases he
  | @fault offset c rest fault offends =>
    rintro e ⟨⟩
    exact ⟨[], c, rest, [], rfl, rfl, .nil, offends⟩

end Scanned

end Lexeme

end QualifiedTypes
