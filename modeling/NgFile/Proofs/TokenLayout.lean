import NgFile.Proofs.Identifier

/-!
# Where tokens stand

Between two tokens of a text there are blanks, line ends and comments; a token that is a word
or a single mark stands behind them as it is spelled.  So the tokens in front of a parser tell
what the text in front of it is, up to the first token of another kind.
-/

namespace NgFile

namespace Syntax

/-! ## Gaps -/

/-- What can stand between two tokens: blanks, line ends and comments. -/
inductive IsGap : Text → Prop
  | nil : IsGap []
  | blank {c : Char} {gap : Text} (hc : isLineEnd c = true ∨ isSpace c = true) (h : IsGap gap) :
      IsGap (c :: gap)
  | line {body gap : Text} (hbody : ∀ c ∈ body, isLineEnd c = false) (h : IsGap gap) :
      IsGap ('/' :: '/' :: (body ++ gap))
  | block {body gap : Text} (h : IsGap gap) : IsGap ('/' :: '*' :: (body ++ '*' :: '/' :: gap))

theorem IsGap.append {first second : Text} (h : IsGap first) (h' : IsGap second) :
    IsGap (first ++ second) := by
  induction h with
  | nil => exact h'
  | blank hc _ ih => exact .blank hc ih
  | @line body gap hbody _ ih =>
      rw [List.cons_append, List.cons_append, List.append_assoc]
      exact .line hbody ih
  | @block body gap _ ih =>
      rw [List.cons_append, List.cons_append, List.append_assoc]
      exact .block ih

/-- A gap without comments holds blanks and line ends only. -/
theorem IsGap.of_no_slash {gap : Text} (h : IsGap gap) (hslash : '/' ∉ gap) :
    ∀ c ∈ gap, isLineEnd c = true ∨ isSpace c = true := by
  induction h with
  | nil => simp
  | blank hc _ ih =>
      exact List.forall_mem_cons.2 ⟨hc, ih fun hmem => hslash (List.mem_cons_of_mem _ hmem)⟩
  | line _ _ _ => exact absurd List.mem_cons_self hslash
  | block _ _ => exact absurd List.mem_cons_self hslash

theorem splitBlockComment_eq_some {t body after : Text}
    (h : splitBlockComment t = some (body, after)) :
    ∃ inner, body = inner ++ ['*', '/'] ∧ t = body ++ after := by
  induction t using splitBlockComment.induct generalizing body with
  | case1 => cases h
  | case2 rest =>
      cases h
      exact ⟨[], rfl, rfl⟩
  | case3 c rest hne ih =>
      rw [splitBlockComment.eq_3 _ _ hne] at h
      obtain ⟨⟨body', after'⟩, hsplit, heq⟩ := Option.map_eq_some_iff.1 h
      cases heq
      obtain ⟨inner, rfl, rfl⟩ := ih hsplit
      exact ⟨c :: inner, rfl, rfl⟩

/-! ## Spelling -/

/-- Characters that spell words: those of names, and those of the escapes in them. -/
def spellsWord (c : Char) : Bool :=
  isIdContinue c || c == '\\' || c == '{' || c == '}'

inductive Spells : TokenKind → Text → Prop
  | name (text : Text) {word : Text} (hne : word ≠ [])
      (hword : ∀ c ∈ word, spellsWord c = true) : Spells (.name text) word
  | keyword (k : Keyword) (escaped : Bool) {word : Text} (hne : word ≠ [])
      (hword : ∀ c ∈ word, spellsWord c = true) : Spells (.keyword k escaped) word
  | mark {p : Punct} {c : Char} (h : Lexeme.markChar? p = some c) : Spells (.punct p) [c]

/-- Whether a token is a word or a single mark. -/
def TokenKind.isSpelled : TokenKind → Bool
  | .name _ | .keyword _ _ => true
  | .punct p => (Lexeme.markChar? p).isSome
  | _ => false

theorem spells_wordKind (text : Text) (escaped : Bool) {word : Text} (hne : word ≠ [])
    (hword : ∀ c ∈ word, spellsWord c = true) : Spells (wordKind text escaped) word := by
  unfold wordKind
  split
  · exact .keyword _ _ hne hword
  · exact .name _ hne hword

theorem ofText?_mark {t : Text} {p : Punct} {n : Nat} {c : Char}
    (h : Punct.ofText? t = some (p, n)) (hmark : Lexeme.markChar? p = some c) :
    n = 1 ∧ ∃ rest, t = c :: rest := by
  unfold Punct.ofText? at h
  repeat' split at h
  all_goals cases h
  all_goals cases hmark
  all_goals exact ⟨rfl, _, rfl⟩

/-! ## Words -/

section Words

open Literal

theorem isIdContinue_of_hexDigit? {c : Char} (h : (Text.hexDigit? c).isSome = true) :
    isIdContinue c = true := by
  have hdigits : ∀ n < 103, (Text.hexDigit? (Char.ofNat n)).isSome = true →
      isIdContinue (Char.ofNat n) = true := by
    decide +kernel
  have hlt : c.toNat < 103 := by
    by_contra hge
    have hnone : Text.hexDigit? c = none := by
      simp only [Text.hexDigit?]
      rw [if_neg (by simp; omega), if_neg (by simp; omega), if_neg (by simp; omega)]
    rw [hnone] at h
    cases h
  rw [← Char.ofNat_toNat c] at h ⊢
  exact hdigits _ hlt h

theorem spellsWord_of_hexDigits {digits : Text} {value : Option Nat}
    (h : (digits.foldl (fun value c =>
      value.bind fun n => (Text.hexDigit? c).map fun d => 16 * n + d) value).isSome = true) :
    value.isSome = true ∧ ∀ c ∈ digits, spellsWord c = true := by
  induction digits generalizing value with
  | nil => exact ⟨h, by simp⟩
  | cons c digits ih =>
      obtain ⟨hstep, hdigits⟩ := ih h
      cases value with
      | none => cases hstep
      | some n =>
          refine ⟨rfl, List.forall_mem_cons.2 ⟨?_, hdigits⟩⟩
          have hdigit : (Text.hexDigit? c).isSome = true := by simpa using hstep
          simp [spellsWord, isIdContinue_of_hexDigit? hdigit]

theorem spellsWord_of_hexValue? {digits : Text} {n : Nat} (h : hexValue? digits = some n) :
    ∀ c ∈ digits, spellsWord c = true := by
  unfold hexValue? at h
  split at h
  · cases h
  · exact (spellsWord_of_hexDigits (Option.isSome_of_eq_some h)).2

theorem unicodeEscape?_eq_some {t after : Text} {n : Nat}
    (h : unicodeEscape? t = some (n, after)) :
    ∃ spelling, t = spelling ++ after ∧ ∀ c ∈ spelling, spellsWord c = true := by
  unfold unicodeEscape? at h
  split at h
  · rename_i rest
    dsimp only at h
    split at h
    · rename_i after' hdrop
      split at h
      · rename_i hvalue
        split at h
        · cases h
          have hdigits := spellsWord_of_hexValue? hvalue
          obtain ⟨tail, htail⟩ := List.takeWhile_prefix (· ≠ '\x7d') (l := rest)
          generalize rest.takeWhile (· ≠ '\x7d') = digits at *
          rw [← htail, List.drop_left] at hdrop
          refine ⟨'\x7b' :: digits ++ ['\x7d'], ?_, ?_⟩
          · rw [← htail, hdrop]
            simp
          · simpa [or_imp, forall_and, spellsWord] using hdigits
        · cases h
      · cases h
    · cases h
  · split at h
    · rename_i hvalue
      cases h
      exact ⟨_, rfl, spellsWord_of_hexValue? hvalue⟩
    · cases h
  · cases h

theorem readName?_eq_some {fuel : Nat} {isFirst : Bool} {t : Text} {name : Literal.Name}
    (h : readName? fuel isFirst t = some name) :
    ∃ word rest, t = word ++ rest ∧ name.length = word.length ∧
      ∀ c ∈ word, spellsWord c = true := by
  -- One case for each way of the reader; each character or escape read is put in front.
  induction fuel, isFirst, t using readName?.induct generalizing name with
  | case1 isFirst t =>
      cases h
      exact ⟨[], t, rfl, rfl, by simp⟩
  | case2 fuel isFirst =>
      cases h
      exact ⟨[], [], rfl, rfl, by simp⟩
  | case3 fuel isFirst digits point after hescape d hpoint =>
      rename_i ih
      rw [readName?_escape hescape, if_pos hpoint] at h
      obtain ⟨name', hname', rfl⟩ := Option.map_eq_some_iff.1 h
      obtain ⟨spelling, rfl, hspelling⟩ := unicodeEscape?_eq_some hescape
      obtain ⟨word, rest, rfl, hlength, hword⟩ := ih hname'
      refine ⟨'\\' :: 'u' :: (spelling ++ word), rest, by simp, ?_, ?_⟩
      · simp only [List.length_append, List.length_cons, hlength]
        omega
      · simp only [List.forall_mem_cons, List.forall_mem_append]
        exact ⟨by decide, by decide, hspelling, hword⟩
  | case4 fuel isFirst digits point after hescape d =>
      rename_i hpoint
      rw [readName?_escape hescape, if_neg hpoint] at h
      cases h
  | case5 fuel isFirst digits hescape =>
      simp [readName?, hescape] at h
  | case6 fuel isFirst rest hrest =>
      rw [readName?.eq_4 _ _ _ _ hrest, if_pos rfl] at h
      cases h
  | case7 fuel isFirst c rest hc hstart ih =>
      rw [readName?_plain hc, if_pos hstart] at h
      obtain ⟨name', hname', rfl⟩ := Option.map_eq_some_iff.1 h
      obtain ⟨word, rest, rfl, hlength, hword⟩ := ih hname'
      refine ⟨c :: word, rest, rfl, by simp [hlength], List.forall_mem_cons.2 ⟨?_, hword⟩⟩
      have hcontinue : isIdContinue c = true := by
        cases isFirst with
        | true => exact isIdContinue_of_isIdStart hstart
        | false => exact hstart
      simp [spellsWord, hcontinue]
  | case8 fuel isFirst c rest hc hstart =>
      rw [readName?_plain hc, if_neg hstart] at h
      cases h
      exact ⟨[], c :: rest, rfl, rfl, by simp⟩

/-- A name that begins like one has a character. -/
theorem length_pos_of_readName? {fuel : Nat} {c : Char} {rest : Text} {name : Literal.Name}
    (h : readName? (fuel + 1) true (c :: rest) = some name)
    (hc : (isIdStart c || c == '\\') = true) : 0 < name.length := by
  by_cases hbackslash : c = '\\'
  · subst hbackslash
    rw [readName?.eq_def] at h
    simp only [if_true] at h
    repeat' split at h
    all_goals first
      | cases h
      | skip
    obtain ⟨_, -, rfl⟩ := Option.map_eq_some_iff.1 h
    simp only
    omega
  · have hstart : isIdStart c = true := by simpa [hbackslash] using hc
    rw [readName?_plain hbackslash, if_pos (by simpa using hstart)] at h
    obtain ⟨_, -, rfl⟩ := Option.map_eq_some_iff.1 h
    exact Nat.succ_pos _

end Words

/-! ## Tokens -/

section Tokens

open Literal

theorem kind_of_closed {kind kind' : TokenKind} {t : Text} {count n : Nat}
    (h : closed kind t count = some (kind', n)) : kind' = kind := by
  unfold closed at h
  repeat' split at h
  all_goals cases h
  all_goals rfl

theorem isSpelled_closedInteger {value : Double} {kind : TokenKind} {t : Text} {count n : Nat}
    (h : closedInteger value t count = some (kind, n)) : kind.isSpelled = false := by
  unfold closedInteger at h
  split at h
  all_goals rw [kind_of_closed h]
  all_goals rfl

theorem isSpelled_readDecimal {kind : TokenKind} {t : Text} {n : Nat}
    (h : readDecimal t = some (kind, n)) : kind.isSpelled = false := by
  unfold readDecimal at h
  dsimp only at h
  repeat' split at h
  all_goals first
    | cases h
    | exact isSpelled_closedInteger h
    | rw [kind_of_closed h]; rfl

/-- A numeral is no word and no mark. -/
theorem isSpelled_readNumeral {kind : TokenKind} {t : Text} {n : Nat}
    (h : readNumeral t = some (kind, n)) : kind.isSpelled = false := by
  unfold readNumeral readBased readLegacy at h
  dsimp only at h
  repeat' split at h
  all_goals first
    | cases h
    | exact isSpelled_closedInteger h
    | exact isSpelled_readDecimal h
    | rw [kind_of_closed h]; rfl

theorem readKind_spells {limit : Nat} {t : Text} {kind : TokenKind} {n : Nat}
    (h : readKind limit t = (kind, n)) (hkind : kind.isSpelled = true) :
    ∃ body rest, t = body ++ rest ∧ n = body.length ∧ Spells kind body := by
  cases t with
  | nil =>
      cases h
      cases hkind
  | cons c rest =>
      -- Only names and single marks are spelled, and all other ways give another kind.
      unfold readKind at h
      dsimp only at h
      split at h
      · rename_i hstart
        split at h
        · rename_i name hname
          obtain ⟨rfl, rfl⟩ := Prod.mk.inj h
          obtain ⟨word, after, htext, hlength, hword⟩ := readName?_eq_some hname
          have hpos := length_pos_of_readName? hname hstart
          have hne : word ≠ [] := fun hnil => by simp [hlength, hnil] at hpos
          exact ⟨word, after, htext, hlength, spells_wordKind _ _ hne hword⟩
        · cases h
          cases hkind
      split at h
      · repeat' split at h
        all_goals cases h; cases hkind
      split at h
      · split at h
        all_goals cases h; cases hkind
      split at h
      · cases hnumeral : readNumeral (c :: rest) with
        | none =>
            rw [hnumeral] at h
            cases h
            cases hkind
        | some reading =>
            rw [hnumeral] at h
            cases h
            rw [isSpelled_readNumeral hnumeral] at hkind
            cases hkind
      split at h
      · repeat' split at h
        all_goals cases h; cases hkind
      split at h
      · rename_i p count hmark
        cases h
        obtain ⟨d, hd⟩ := Option.isSome_iff_exists.1 hkind
        obtain ⟨rfl, rest', htext⟩ := ofText?_mark hmark hd
        exact ⟨[d], rest', htext, rfl, .mark hd⟩
      · cases h
        cases hkind

theorem readToken_spells {limit : Nat} {nesting : List Nat} {t : Text} {kind : TokenKind} {n : Nat}
    (h : readToken limit nesting t = (kind, n)) (hkind : kind.isSpelled = true) :
    ∃ body rest, t = body ++ rest ∧ n = body.length ∧ Spells kind body := by
  unfold readToken at h
  split at h
  · split at h
    all_goals cases h; cases hkind
  · exact readKind_spells h hkind

end Tokens

/-! ## Texts -/

/--
How tokens stand in a text from a position on: each one that is spelled stands behind a gap, and
what comes behind one that is not is left open.
-/
inductive Laid : Nat → Text → List Token → Prop
  | token {pos : Nat} {gap body rest : Text} {token : Token} {tokens : List Token}
      (hgap : IsGap gap) (hstart : token.start = pos + gap.length)
      (hstop : token.stop = token.start + body.length) (hspells : Spells token.kind body)
      (h : Laid token.stop rest tokens) : Laid pos (gap ++ (body ++ rest)) (token :: tokens)
  | other {pos : Nat} {t : Text} {tokens : List Token}
      (h : ∀ token ∈ tokens.head?, token.kind.isSpelled = false) : Laid pos t tokens

theorem Laid.behind_gap {pos : Nat} {gap t : Text} {tokens : List Token} (hgap : IsGap gap)
    (h : Laid (pos + gap.length) t tokens) : Laid pos (gap ++ t) tokens := by
  cases h with
  | token hgap' hstart hstop hspells h =>
      rw [← List.append_assoc]
      refine .token (hgap.append hgap') ?_ hstop hspells h
      rw [hstart, List.length_append, Nat.add_assoc]
  | other h => exact .other h

/-- A token that is spelled is where its text is. -/
theorem Laid.exists_of_isSpelled {pos : Nat} {t : Text} {token : Token} {tokens : List Token}
    (h : Laid pos t (token :: tokens)) (hkind : token.kind.isSpelled = true) :
    ∃ gap body rest, t = gap ++ (body ++ rest) ∧ IsGap gap ∧ token.start = pos + gap.length ∧
      token.stop = token.start + body.length ∧ Spells token.kind body ∧
      Laid token.stop rest tokens := by
  cases h with
  | token hgap hstart hstop hspells h => exact ⟨_, _, _, rfl, hgap, hstart, hstop, hspells, h⟩
  | other h =>
      have hfalse := h token rfl
      rw [hkind] at hfalse
      cases hfalse

/-- A text is its first line and what follows from the end of that line on. -/
theorem exists_line (t : Text) :
    ∃ body after, t = body ++ after ∧ (t.takeWhile fun c => !isLineEnd c) = body ∧
      t.drop body.length = after ∧ ∀ c ∈ body, isLineEnd c = false := by
  have hprefix := List.takeWhile_prefix (fun c => !isLineEnd c) (l := t)
  refine ⟨_, _, (List.prefix_iff_eq_append.1 hprefix).symm, rfl, rfl, fun c hc => ?_⟩
  simpa using List.all_eq_true.1 List.all_takeWhile c hc

theorem laid_tokensFrom (fuel : Nat) (trivia : Trivia) (nesting : List Nat) (pos : Nat)
    (t : Text) : Laid pos t (tokensFrom fuel trivia nesting pos t) := by
  -- A blank or a comment widens the gap; behind a token that is not spelled nothing is claimed.
  induction fuel generalizing trivia nesting pos t with
  | zero => exact .other (by simp [tokensFrom])
  | succ fuel ih =>
      unfold tokensFrom
      dsimp only
      split
      · refine .other fun token h => ?_
        cases h
        rfl
      · rename_i rest
        obtain ⟨body, after, rfl, hline, hafter, hbody⟩ := exists_line rest
        rw [hline, hafter]
        have hgap : IsGap ('/' :: '/' :: body) := by simpa using IsGap.line hbody .nil
        have hlength : pos + ('/' :: '/' :: body).length = pos + 2 + body.length := by
          simp only [List.length_cons]
          omega
        exact .behind_gap hgap (hlength ▸ ih _ _ _ _)
      · rename_i rest _
        split
        · rename_i body after hsplit
          obtain ⟨inner, rfl, rfl⟩ := splitBlockComment_eq_some hsplit
          have hgap : IsGap ('/' :: '*' :: (inner ++ ['*', '/'])) := .block .nil
          have hlength : pos + ('/' :: '*' :: (inner ++ ['*', '/'])).length =
              pos + 2 + (inner ++ ['*', '/']).length := by
            simp only [List.length_cons]
            omega
          exact .behind_gap hgap (hlength ▸ ih _ _ _ _)
        · refine .other fun token h => ?_
          cases h
          rfl
      · rename_i c rest _ _
        split
        · rename_i hc
          have hgap : IsGap [c] := .blank (.inl hc) .nil
          exact .behind_gap hgap (ih _ _ _ _)
        split
        · rename_i hc
          have hgap : IsGap [c] := .blank (.inr hc) .nil
          exact .behind_gap hgap (ih _ _ _ _)
        · obtain ⟨⟨kind, n⟩, hread⟩ : ∃ r, readToken fuel nesting (c :: rest) = r := ⟨_, rfl⟩
          rw [hread]
          by_cases hkind : kind.isSpelled = true
          · obtain ⟨body, after, htext, rfl, hspells⟩ := readToken_spells hread hkind
            rw [htext, List.drop_left]
            exact .token IsGap.nil rfl rfl hspells (ih _ _ _ _)
          · exact .other (by simpa using hkind)

theorem skipHashbang_eq (source : Text) :
    ∃ front rest, source = front ++ rest ∧ skipHashbang source = (front.length, rest) := by
  unfold skipHashbang
  split
  · rename_i rest
    obtain ⟨body, after, rfl, hline, hafter, -⟩ := exists_line rest
    refine ⟨'#' :: '!' :: body, after, rfl, ?_⟩
    simp only [hline, hafter, List.length_cons, Prod.mk.injEq, and_true]
    omega
  · exact ⟨[], source, rfl, rfl⟩

/-! ## Tokens that are left -/

/-- Whatever is left of some tokens, from some place of a text on it stands in the text. -/
def Standing (source : Text) (tokens : List Token) : Prop :=
  ∀ left, left <:+ tokens → ∃ front text, source = front ++ text ∧ Laid front.length text left

section Standing

variable {source front t : Text} {token : Token} {tokens left : List Token}

theorem Standing.laid (h : Standing source tokens) :
    ∃ front text, source = front ++ text ∧ Laid front.length text tokens :=
  h tokens List.suffix_rfl

theorem Standing.suffix (h : Standing source tokens) (hleft : left <:+ tokens) :
    Standing source left :=
  fun _ hsuffix => h _ (hsuffix.trans hleft)

theorem Standing.cons (h : Standing source tokens) (hsource : source = front ++ t)
    (hlaid : Laid front.length t (token :: tokens)) : Standing source (token :: tokens) := by
  intro left hleft
  rcases List.suffix_cons_iff.1 hleft with rfl | hleft
  · exact ⟨front, t, hsource, hlaid⟩
  · exact h left hleft

/-- A token that is not spelled may stand anywhere. -/
theorem Standing.cons_other (h : Standing source tokens) (hkind : token.kind.isSpelled = false) :
    Standing source (token :: tokens) :=
  h.cons (List.nil_append source).symm (.other (by simpa using hkind))

theorem standing_nil (source : Text) : Standing source [] := by
  intro left hleft
  rw [List.suffix_nil.1 hleft]
  exact ⟨[], source, rfl, .other (by simp)⟩

theorem standing_tokensFrom_nil (source : Text) (fuel : Nat) (trivia : Trivia)
    (nesting : List Nat) (pos : Nat) : Standing source (tokensFrom fuel trivia nesting pos []) := by
  cases fuel with
  | zero => exact standing_nil source
  | succ fuel => exact (standing_nil source).cons_other rfl

theorem standing_tokensFrom (fuel : Nat) (trivia : Trivia) (nesting : List Nat)
    (hsource : source = front ++ t) :
    Standing source (tokensFrom fuel trivia nesting front.length t) := by
  induction fuel generalizing trivia nesting front t with
  | zero => exact standing_nil source
  | succ fuel ih =>
      have hlaid := laid_tokensFrom (fuel + 1) trivia nesting front.length t
      have hlater (trivia : Trivia) (nesting : List Nat) (passed : Text) {rest : Text} {pos : Nat}
          (ht : t = passed ++ rest) (hpos : pos = front.length + passed.length) :
          Standing source (tokensFrom fuel trivia nesting pos rest) := by
        have hrest : source = front ++ passed ++ rest := by rw [hsource, ht, List.append_assoc]
        rw [hpos, ← List.length_append]
        exact ih trivia nesting hrest
      revert hlaid
      unfold tokensFrom
      dsimp only
      split
      · exact fun _ => (standing_nil source).cons_other rfl
      · rename_i rest
        obtain ⟨body, after, rfl, hline, hafter, -⟩ := exists_line rest
        rw [hline, hafter]
        exact fun _ => hlater _ _ ('/' :: '/' :: body) rfl
          (by simp only [List.length_cons]; omega)
      · rename_i rest _
        split
        · rename_i body after hsplit
          obtain ⟨inner, -, rfl⟩ := splitBlockComment_eq_some hsplit
          exact fun _ => hlater _ _ ('/' :: '*' :: body) rfl
            (by simp only [List.length_cons]; omega)
        · exact fun _ => (standing_nil source).cons_other rfl
      · rename_i c rest _ _
        split
        · exact fun _ => hlater _ _ [c] rfl rfl
        split
        · exact fun _ => hlater _ _ [c] rfl rfl
        · intro hlaid
          refine Standing.cons ?_ hsource hlaid
          obtain ⟨⟨kind, n⟩, hread⟩ : ∃ r, readToken fuel nesting (c :: rest) = r := ⟨_, rfl⟩
          rw [hread]
          by_cases hlength : n ≤ (c :: rest).length
          · exact hlater _ _ _ (List.take_append_drop n _).symm
              (by rw [List.length_take_of_le hlength])
          · rw [List.drop_of_length_le (by omega)]
            exact standing_tokensFrom_nil source fuel _ _ _

theorem splitRegex_eq_some {inClass : Bool} {t body after : Text}
    (h : Literal.splitRegex inClass t = some (body, after)) : t = body ++ '/' :: after := by
  induction inClass, t using Literal.splitRegex.induct generalizing body with
  | case1 => cases h
  | case2 inClass c rest hend =>
      rw [Literal.splitRegex.eq_2, if_pos hend] at h
      cases h
  | case3 inClass c rest hend ih =>
      rw [Literal.splitRegex.eq_2, if_neg hend] at h
      obtain ⟨⟨body', after'⟩, hsplit, heq⟩ := Option.map_eq_some_iff.1 h
      cases heq
      rw [ih hsplit]
      rfl
  | case4 inClass c rest hne hend =>
      rw [Literal.splitRegex.eq_3 _ _ _ hne, if_pos hend] at h
      cases h
  | case5 inClass c rest hne hend hslash =>
      rw [Literal.splitRegex.eq_3 _ _ _ hne, if_neg hend, if_pos hslash] at h
      cases h
      rw [hslash.1]
      rfl
  | case6 inClass c rest hne hend hslash inner =>
      rename_i ih
      rw [Literal.splitRegex.eq_3 _ _ _ hne, if_neg hend, if_neg hslash] at h
      obtain ⟨⟨body', after'⟩, hsplit, heq⟩ := Option.map_eq_some_iff.1 h
      cases heq
      rw [ih hsplit]
      rfl

/-- The tokens behind a regular expression stand in the text again. -/
theorem standing_rescan (source : Text) (slash : Token) :
    Standing source (rescan source slash) := by
  unfold rescan
  extract_lets t
  split
  · exact (standing_nil source).cons_other rfl
  · rename_i body rest hsplit
    extract_lets flags after stop kind
    have hkind : kind.isSpelled = false := by
      dsimp only [kind]
      split <;> rfl
    refine Standing.cons_other ?_ hkind
    have hrest : flags ++ after = rest :=
      List.prefix_iff_eq_append.1 (List.takeWhile_prefix isIdContinue)
    have ht : t = body ++ '/' :: (flags ++ after) := by rw [hrest, splitRegex_eq_some hsplit]
    let front := source.take (slash.start + 1) ++ (body ++ '/' :: flags)
    have hsource : source = front ++ after := by
      have hfront : front ++ after = source.take (slash.start + 1) ++ t := by simp [front, ht]
      rw [hfront, List.take_append_drop]
    have hstop : stop = front.length := by
      have hlength : t.length = source.length - (slash.start + 1) := List.length_drop
      simp only [ht, front, stop, List.length_append, List.length_cons,
        List.length_take] at hlength ⊢
      omega
    exact hstop ▸ standing_tokensFrom _ _ _ hsource

end Standing

/-- The tokens of a text stand in it, behind the line for an interpreter if there is one. -/
theorem standing_tokens (source : Text) : Standing source (tokens source) := by
  obtain ⟨front, rest, hsource, hskip⟩ := skipHashbang_eq source
  rw [tokens, hskip]
  exact standing_tokensFrom _ _ _ hsource

/-! ## The order of tokens -/

/-- Tokens that begin at a place or behind it, none of them in front of an earlier one. -/
def InOrder : Nat → List Token → Prop
  | _, [] => True
  | place, token :: tokens => place ≤ token.start ∧ InOrder token.start tokens

theorem InOrder.from_earlier {earlier place : Nat} {tokens : List Token}
    (h : InOrder place tokens) (hearlier : earlier ≤ place) : InOrder earlier tokens := by
  cases tokens with
  | nil => trivial
  | cons token tokens => exact ⟨Nat.le_trans hearlier h.1, h.2⟩

theorem inOrder_tokensFrom (fuel : Nat) (trivia : Trivia) (nesting : List Nat) (pos : Nat)
    (t : Text) : InOrder pos (tokensFrom fuel trivia nesting pos t) := by
  induction fuel generalizing trivia nesting pos t with
  | zero => trivial
  | succ fuel ih =>
      unfold tokensFrom
      dsimp only
      split
      · exact ⟨Nat.le_refl pos, trivial⟩
      · exact (ih _ _ _ _).from_earlier (by omega)
      · split
        · exact (ih _ _ _ _).from_earlier (by omega)
        · exact ⟨Nat.le_refl pos, trivial⟩
      · split
        · exact (ih _ _ _ _).from_earlier (by omega)
        split
        · exact (ih _ _ _ _).from_earlier (by omega)
        · exact ⟨Nat.le_refl pos, (ih _ _ _ _).from_earlier (Nat.le_add_right pos _)⟩

/-- A slash that is read anew stays where it is, and what is read behind it comes later. -/
theorem inOrder_rescan (source : Text) (slash : Token) :
    InOrder slash.start (rescan source slash) := by
  unfold rescan
  extract_lets t
  split
  · exact ⟨Nat.le_refl _, trivial⟩
  · extract_lets flags after stop kind
    have hstop : slash.start ≤ stop := by
      simp only [stop]
      omega
    exact ⟨Nat.le_refl _, (inOrder_tokensFrom _ _ _ _ _).from_earlier hstop⟩

theorem inOrder_tokens (source : Text) : InOrder 0 (tokens source) := by
  unfold tokens
  exact (inOrder_tokensFrom _ _ _ _ _).from_earlier (Nat.zero_le _)

/-! ## What becomes of tokens -/

/-- What can be left of some tokens: those in front have been passed, one after another, and from
a slash among them on the text may have been read anew. -/
inductive Leads (source : Text) : List Token → List Token → Prop
  | refl (tokens : List Token) : Leads source tokens tokens
  | pass (token : Token) {tokens left : List Token} (h : Leads source tokens left) :
      Leads source (token :: tokens) left
  | rescan (slash : Token) (tokens : List Token) {left : List Token}
      (h : Leads source (rescan source slash) left) : Leads source (slash :: tokens) left

namespace Leads

variable {source : Text} {tokens mid left : List Token} {place : Nat}

theorem trans (h : Leads source tokens mid) (h' : Leads source mid left) :
    Leads source tokens left := by
  induction h with
  | refl _ => exact h'
  | pass token _ ih => exact .pass token (ih h')
  | rescan slash tokens _ ih => exact .rescan slash tokens (ih h')

theorem standing (h : Leads source tokens left) (hstanding : Standing source tokens) :
    Standing source left := by
  induction h with
  | refl _ => exact hstanding
  | pass token _ ih => exact ih (hstanding.suffix (List.suffix_cons token _))
  | rescan slash _ _ ih => exact ih (standing_rescan source slash)

theorem inOrder (h : Leads source tokens left) (horder : InOrder place tokens) :
    InOrder place left := by
  induction h with
  | refl _ => exact horder
  | pass token _ ih => exact ih (horder.2.from_earlier horder.1)
  | rescan slash _ _ ih => exact ih ((inOrder_rescan source slash).from_earlier horder.1)

end Leads

end Syntax

end NgFile
