import NgFile.Proofs.PlainOperands

/-!
# Lists of names

An array literal with names and holes for its elements is a bracket, then names between gaps and
commas, and a bracket again.  The names are found in the text of the literal where the parser has
put them; everything else in it is gaps, commas and brackets.
-/

namespace NgFile

namespace Syntax

/-! ## Texts -/

/-- A text that may be a word: characters of names and of the escapes in them. -/
def IsWord (t : Text) : Prop :=
  t ≠ [] ∧ ∀ c ∈ t, spellsWord c = true

/-- What follows the opening bracket of a list of names, with the names in it. -/
inductive ListTail : Text → List Text → Prop
  | close {gap : Text} (hgap : IsGap gap) : ListTail (gap ++ [']']) []
  | hole {gap rest : Text} {names : List Text} (hgap : IsGap gap) (h : ListTail rest names) :
      ListTail (gap ++ ',' :: rest) names
  | name {before word after rest : Text} {names : List Text} (hbefore : IsGap before)
      (hword : IsWord word) (hafter : IsGap after) (h : ListTail rest names) :
      ListTail (before ++ word ++ after ++ ',' :: rest) (word :: names)
  | last {before word after : Text} (hbefore : IsGap before) (hword : IsWord word)
      (hafter : IsGap after) : ListTail (before ++ word ++ after ++ [']']) [word]

section Laid

variable {front t : Text} {token : Token} {tokens : List Token}

theorem Laid.word (h : Laid front.length t (token :: tokens))
    (hword : Parser.isAnyWord token = true) :
    ∃ gap word rest, t = gap ++ (word ++ rest) ∧ IsGap gap ∧ IsWord word ∧
      token.start = (front ++ gap).length ∧ token.stop = token.start + word.length ∧
      Laid (front ++ gap ++ word).length rest tokens := by
  have hkind : token.kind.isSpelled = true := by
    unfold Parser.isAnyWord Parser.wordText? at hword
    split at hword
    · simp_all [TokenKind.isSpelled]
    · simp_all [TokenKind.isSpelled]
    · cases hword
  obtain ⟨gap, word, rest, ht, hgap, hstart, hstop, hspells, hrest⟩ := h.exists_of_isSpelled hkind
  rw [← List.length_append] at hstart
  rw [hstop, hstart, ← List.length_append] at hrest
  refine ⟨gap, word, rest, ht, hgap, ?_, hstart, hstop, hrest⟩
  unfold Parser.isAnyWord Parser.wordText? at hword
  generalize token.kind = kind at hspells hword
  cases hspells with
  | name _ hne hall => exact ⟨hne, hall⟩
  | keyword _ _ hne hall => exact ⟨hne, hall⟩
  | mark _ => cases hword

theorem Laid.mark {p : Punct} {c : Char} (h : Laid front.length t (token :: tokens))
    (hkind : token.kind = .punct p) (hmark : Lexeme.markChar? p = some c) :
    ∃ gap rest, t = gap ++ c :: rest ∧ IsGap gap ∧ token.start = (front ++ gap).length ∧
      token.stop = (front ++ gap ++ [c]).length ∧
      Laid (front ++ gap ++ [c]).length rest tokens := by
  have hspelled : token.kind.isSpelled = true := by
    rw [hkind]
    exact Option.isSome_of_eq_some hmark
  obtain ⟨gap, body, rest, ht, hgap, hstart, hstop, hspells, hrest⟩ :=
    h.exists_of_isSpelled hspelled
  rw [hkind] at hspells
  cases hspells with
  | mark hmark' =>
      obtain rfl : c = _ := Option.some.inj (hmark.symm.trans hmark')
      rw [hstart, ← List.length_append, ← List.length_append] at hstop
      exact ⟨gap, rest, ht, hgap, by rw [hstart, List.length_append], hstop, hstop ▸ hrest⟩

end Laid

/-! ## The elements that are names -/

def Expr.isListed : Expr → Bool
  | .ident _ _ | .hole _ => true
  | _ => false

def Expr.listedName? (source : Text) : Expr → Option Text
  | .ident loc _ => some (loc.text source)
  | _ => none

theorem Expr.isPlain_of_isListed {e : Expr} (h : e.isListed = true) : e.IsPlain := by
  unfold isListed at h
  split at h
  · exact .ident _ _
  · exact .hole _
  · cases h

namespace Parser

/-! ## Punctuators -/

def AtMark (p : Punct) (cur : Cursor) : Prop :=
  ∃ token rest, cur.rest = token :: rest ∧ token.kind = .punct p

def PassesMark (p : Punct) (cur after : Cursor) : Prop :=
  ∃ token, cur.rest = token :: after.rest ∧ token.kind = .punct p ∧ after.lastStop = token.stop

theorem isPunct_iff {p : Punct} {token : Token} :
    isPunct p token = true ↔ token.kind = .punct p := by
  unfold isPunct
  split
  · rename_i q hq
    rw [hq, beq_iff_eq, TokenKind.punct.injEq, eq_comm]
  · rename_i hne
    exact ⟨nofun, fun h => absurd h (hne p)⟩

theorem ensures_atPunct (p : Punct) :
    Ensures (atPunct p) fun _ cur hit after => after = cur ∧ (hit = true ↔ AtMark p cur) := by
  intro c cur hit after h
  obtain ⟨rest, stop, defaults, spreads⟩ := cur
  cases rest with
  | nil =>
      cases h
      exact ⟨rfl, nofun, fun ⟨_, _, hnil, _⟩ => by cases hnil⟩
  | cons token rest =>
      cases h
      refine ⟨rfl, fun hit => ⟨token, rest, rfl, isPunct_iff.1 hit⟩, ?_⟩
      rintro ⟨_, _, hcons, hkind⟩
      cases hcons
      exact isPunct_iff.2 hkind

theorem ensures_eat (p : Punct) :
    Ensures (eat p) fun _ cur hit after =>
      (hit = true → PassesMark p cur after) ∧ (hit = false → after = cur ∧ ¬ AtMark p cur) := by
  intro c cur hit after h
  obtain ⟨found, mid, hat, hrest⟩ := exists_of_bind h
  obtain ⟨rfl, hiff⟩ := ensures_atPunct p c cur found mid hat
  cases found with
  | true =>
      obtain ⟨token, rest, hcur, hkind⟩ := hiff.1 rfl
      obtain ⟨rest', stop, defaults, spreads⟩ := mid
      obtain rfl : rest' = token :: rest := hcur
      have hescaped : isEscapedWord token = false := by simp [isEscapedWord, hkind]
      simp only [if_true, advance, bind_apply, peek_cons, hescaped] at hrest
      cases hrest
      exact ⟨fun _ => ⟨token, rfl, hkind, rfl⟩, nofun⟩
  | false =>
      cases hrest
      exact ⟨nofun, fun _ => ⟨rfl, fun hat => by simpa using hiff.2 hat⟩⟩

theorem ensures_expect (p : Punct) :
    Ensures (expect p) fun _ cur _ after => PassesMark p cur after := by
  intro c cur _ after h
  obtain ⟨hit, mid, heat, hrest⟩ := exists_of_bind h
  cases hit with
  | true =>
      cases hrest
      exact (ensures_eat p c cur true after heat).1 rfl
  | false => exact (yields_fail (P := fun _ => False) c mid _ after hrest).elim

/-! ## Elements -/

/-- How a name or a hole is read as an element: a hole is in front of its comma. -/
inductive ReadsElement (cur : Cursor) : Expr → Cursor → Prop
  | hole {loc : Loc} (hat : AtMark .comma cur) : ReadsElement cur (.hole loc) cur
  | word {token : Token} {name : Text} {after : Cursor} (hrest : cur.rest = token :: after.rest)
      (hword : isAnyWord token = true) :
      ReadsElement cur (.ident ⟨token.start, token.stop, token.comments⟩ name) after

theorem readsElement_of_element {n : Nat} {c : Context} {cur after : Cursor} {e : Expr}
    (h : element (productions n) c cur = .ok (e, after)) (hlisted : e.isListed = true) :
    ReadsElement cur e after := by
  obtain ⟨hit, mid, hat, helement⟩ := exists_of_bind h
  obtain ⟨rfl, hiff⟩ := ensures_atPunct .comma c cur hit mid hat
  cases hit with
  | true =>
      obtain ⟨token, front, hpeek, hpure⟩ := exists_of_bind helement
      obtain rfl := (inferInstance : Still peek).ensures c mid token front hpeek
      cases hpure
      exact .hole (hiff.1 rfl)
  | false =>
      rw [if_neg Bool.false_ne_true, spreadOrAssignment] at helement
      obtain ⟨m, front, hmark, hspread⟩ := exists_of_bind helement
      obtain rfl := (inferInstance : Still mark).ensures c mid m front hmark
      obtain ⟨dots, inner, heat, hvalue⟩ := exists_of_bind hspread
      cases dots with
      | true =>
          obtain ⟨value, end₁, -, hsince⟩ := exists_of_bind hvalue
          obtain ⟨loc, end₂, -, hpure⟩ := exists_of_bind hsince
          cases hpure
          cases hlisted
      | false =>
          obtain ⟨rfl, -⟩ := (ensures_eat .ellipsis c front false inner heat).2 rfl
          obtain ⟨k, hread⟩ := reads_assignment (c := nested c) hvalue
            (Expr.isPlain_of_isListed hlisted)
          cases hread with
          | word hrest hword => exact .word hrest hword
          | array _ => cases hlisted

/-! ## Whole lists -/

section Lists

variable {n : Nat} {c : Context} {cur mid after : Cursor}

theorem listStep_none (h : listStep .bracketClose (element (productions n)) c cur =
    .ok (none, after)) : after = cur := by
  obtain ⟨hit, front, hat, hrest⟩ := exists_of_bind h
  obtain ⟨rfl, -⟩ := ensures_atPunct .bracketClose c cur hit front hat
  cases hit with
  | true =>
      cases hrest
      rfl
  | false =>
      obtain ⟨e, mid, -, hrest⟩ := exists_of_bind hrest
      obtain ⟨comma, mid', -, hrest⟩ := exists_of_bind hrest
      cases comma with
      | true => cases hrest
      | false =>
          obtain ⟨closed, mid'', -, hrest⟩ := exists_of_bind hrest
          cases closed with
          | true => cases hrest
          | false => exact (yields_fail (P := fun _ => False) c mid'' _ after hrest).elim

/-- In front of an element there is no closing bracket; behind it is a comma or such a bracket. -/
theorem listStep_some {e : Expr} {comma : Bool}
    (h : listStep .bracketClose (element (productions n)) c cur = .ok (some (e, comma), after))
    (hlisted : e.isListed = true) :
    ¬ AtMark .bracketClose cur ∧ ∃ mid, ReadsElement cur e mid ∧
      (comma = true → PassesMark .comma mid after) ∧
      (comma = false → after = mid ∧ AtMark .bracketClose mid ∧ ¬ AtMark .comma mid) := by
  obtain ⟨hit, front, hat, hitem⟩ := exists_of_bind h
  obtain ⟨rfl, hiff⟩ := ensures_atPunct .bracketClose c cur hit front hat
  cases hit with
  | true => cases hitem
  | false =>
      obtain ⟨e', mid, helement, hcomma⟩ := exists_of_bind hitem
      obtain ⟨found, mid', heat, hend⟩ := exists_of_bind hcomma
      obtain ⟨hpasses, hstays⟩ := ensures_eat .comma c mid found mid' heat
      have hopen : ¬ AtMark .bracketClose front := fun hat => by simpa using hiff.2 hat
      refine ⟨hopen, mid, ?_⟩
      cases found with
      | true =>
          cases hend
          exact ⟨readsElement_of_element helement hlisted, fun _ => hpasses rfl, nofun⟩
      | false =>
          obtain ⟨rfl, hnone⟩ := hstays rfl
          obtain ⟨closed, mid'', hclosed, hpure⟩ := exists_of_bind hend
          obtain ⟨rfl, hclose⟩ := ensures_atPunct .bracketClose c mid' closed mid'' hclosed
          cases closed with
          | true =>
              cases hpure
              exact ⟨readsElement_of_element helement hlisted, nofun,
                fun _ => ⟨rfl, hclose.1 rfl, hnone⟩⟩
          | false => exact (yields_fail (P := fun _ => False) c mid'' _ after hpure).elim

/-- The name of a word that stands in a text is the word. -/
theorem text_of_word {source front gap word rest : Text} {token : Token}
    (hsource : source = front ++ (gap ++ (word ++ rest)))
    (hstart : token.start = (front ++ gap).length)
    (hstop : token.stop = token.start + word.length) (comments : List Comment) :
    Loc.text ⟨token.start, token.stop, comments⟩ source = word := by
  rw [Loc.text, hstop, hstart, hsource, ← List.append_assoc]
  exact Text.slice_append_middle _ _ _

/-- The elements up to the closing bracket stand in the text in their order. -/
theorem listTail_of_steps {source front text : Text} {pairs : List (Expr × Bool)}
    (h : Steps (listStep .bracketClose (element (productions n))) c cur pairs mid)
    (hclose : PassesMark .bracketClose mid after)
    (hlisted : ∀ e ∈ pairs.map Prod.fst, e.isListed = true)
    (hsource : source = front ++ text) (hlaid : Laid front.length text cur.rest) :
    ∃ body rest, text = body ++ rest ∧
      ListTail body ((pairs.map Prod.fst).filterMap (Expr.listedName? source)) ∧
      after.lastStop = (front ++ body).length := by
  -- By the rounds: what is passed goes to the front, so that places stay those of the source.
  induction h generalizing front text with
  | @done cur mid hnone =>
      obtain rfl := listStep_none hnone
      obtain ⟨token, hrest, hkind, hstop⟩ := hclose
      rw [hrest] at hlaid
      obtain ⟨gap, rest, rfl, hgap, -, hend, -⟩ := hlaid.mark hkind rfl
      exact ⟨gap ++ [']'], rest, by simp, .close hgap, by simpa [hend] using hstop⟩
  | @more cur mid' mid pair pairs hsome hmore ih =>
      obtain ⟨e, comma⟩ := pair
      obtain ⟨he, hothers⟩ := List.forall_mem_cons.1 hlisted
      obtain ⟨-, between, hread, hcomma, hlast⟩ := listStep_some hsome he
      cases hread with
      | @hole loc hat =>
          cases comma with
          | false => exact absurd hat (hlast rfl).2.2
          | true =>
              obtain ⟨token, hrest, hkind, -⟩ := hcomma rfl
              rw [hrest] at hlaid
              obtain ⟨gap, rest, rfl, hgap, -, -, hlaid'⟩ := hlaid.mark hkind rfl
              obtain ⟨body, rest', rfl, htail, hstop⟩ :=
                ih hclose hothers (by simp [hsource]) hlaid'
              exact ⟨gap ++ ',' :: body, rest', by simp, .hole hgap htail, by simpa using hstop⟩
      | @word token name _ hrest hword =>
          rw [hrest] at hlaid
          obtain ⟨gap, word, rest, rfl, hgap, hspelled, hstart, hend, hlaid'⟩ := hlaid.word hword
          have hname := text_of_word hsource hstart hend token.comments
          cases comma with
          | true =>
              obtain ⟨mark, hmark, hkind, -⟩ := hcomma rfl
              rw [hmark] at hlaid'
              obtain ⟨gap', rest', rfl, hgap', -, -, hlaid''⟩ := hlaid'.mark hkind rfl
              obtain ⟨body, after', rfl, htail, hstop⟩ :=
                ih hclose hothers (by simp [hsource]) hlaid''
              refine ⟨gap ++ word ++ gap' ++ ',' :: body, after', by simp, ?_, by simpa using hstop⟩
              simpa [Expr.listedName?, hname] using ListTail.name hgap hspelled hgap' htail
          | false =>
              -- Behind an element without a comma stands the closing bracket.
              obtain ⟨rfl, hat, -⟩ := hlast rfl
              cases hmore with
              | @more _ _ _ pair _ hsome' _ =>
                  obtain ⟨e', comma'⟩ := pair
                  have he' := hothers e' List.mem_cons_self
                  exact absurd hat (listStep_some hsome' he').1
              | done hnone =>
                  obtain rfl := listStep_none hnone
                  obtain ⟨mark, hmark, hkind, hstop⟩ := hclose
                  rw [hmark] at hlaid'
                  obtain ⟨gap', rest', rfl, hgap', -, hend', -⟩ := hlaid'.mark hkind rfl
                  refine ⟨gap ++ word ++ gap' ++ [']'], rest', by simp, ?_, ?_⟩
                  · simpa [Expr.listedName?, hname] using ListTail.last hgap hspelled hgap'
                  · simpa [hend'] using hstop

theorem steps_of_collect {α : Type} {step : Parser (Option α)} {limit : Nat} {acc as : List α}
    (h : collect step limit acc c cur = .ok (as, after)) :
    ∃ more, as = acc.reverse ++ more ∧ Steps step c cur more after := by
  induction limit generalizing acc cur with
  | zero => exact (yields_fail (P := fun _ => False) c cur as after h).elim
  | succ limit ih =>
      obtain ⟨round, mid, hstep, hrest⟩ := exists_of_bind h
      cases round with
      | none =>
          cases hrest
          exact ⟨[], by simp, .done hstep⟩
      | some a =>
          obtain ⟨more, rfl, hmore⟩ := ih hrest
          exact ⟨a :: more, by simp, .more hstep hmore⟩

/-- The values of a loop are those of its rounds. -/
theorem steps_of_many {α : Type} {step : Parser (Option α)} {as : List α}
    (h : many step c cur = .ok (as, after)) : Steps step c cur as after := by
  obtain ⟨more, rfl, hmore⟩ := steps_of_collect h
  exact hmore

/-- An array literal is a bracket, the rounds for its elements, and a bracket. -/
theorem rounds_of_arrayLiteral {self : Productions} {loc : Loc} {elements : List Expr}
    (h : arrayLiteral self c cur = .ok (.array loc elements, after)) :
    ∃ inner pairs mid last, PassesMark .bracketOpen cur inner ∧
      Steps (listStep .bracketClose (element self)) c inner pairs mid ∧
      PassesMark .bracketClose mid last ∧ elements = pairs.map Prod.fst ∧
      loc.stop = last.lastStop ∧ ∀ token ∈ cur.rest.head?, loc.start = token.start := by
  rw [arrayLiteral_eq] at h
  obtain ⟨m, start, hmark, hopen⟩ := exists_of_bind h
  obtain rfl := (inferInstance : Still mark).ensures c cur m start hmark
  obtain ⟨_, inner, hexpect, hlist⟩ := exists_of_bind hopen
  obtain ⟨⟨elements', comma⟩, mid, hcommaList, hclose⟩ := exists_of_bind hlist
  obtain ⟨_, last, hexpect', hnote⟩ := exists_of_bind hclose
  have hsince : elements' = elements ∧ loc = ⟨m.start, last.lastStop, m.comments⟩ := by
    cases hnoted : comma && endsInSpread elements' with
    | true =>
        simp only [hnoted, if_true] at hnote
        cases hnote
        exact ⟨rfl, rfl⟩
    | false =>
        simp only [hnoted] at hnote
        cases hnote
        exact ⟨rfl, rfl⟩
  obtain ⟨rfl, rfl⟩ := hsince
  rw [commaList_eq] at hcommaList
  obtain ⟨pairs, last', hmany, hpure⟩ := exists_of_bind hcommaList
  cases hpure
  refine ⟨inner, pairs, mid, last, ensures_expect _ _ _ _ _ hexpect, steps_of_many hmany,
    ensures_expect _ _ _ _ _ hexpect', rfl, rfl, fun token htoken => ?_⟩
  obtain ⟨rest, stop, defaults, spreads⟩ := start
  obtain ⟨rest', rfl⟩ := List.head?_eq_some_iff.1 htoken
  cases hmark
  rfl

/-- An array literal of names stands in the text behind a gap, from its bracket to its bracket. -/
theorem listTail_of_arrayLiteral {source front text : Text} {loc : Loc} {elements : List Expr}
    (h : arrayLiteral (productions n) c cur = .ok (.array loc elements, after))
    (hlisted : ∀ e ∈ elements, e.isListed = true) (hsource : source = front ++ text)
    (hlaid : Laid front.length text cur.rest) :
    ∃ gap body rest, text = gap ++ '[' :: (body ++ rest) ∧
      ListTail body (elements.filterMap (Expr.listedName? source)) ∧
      loc.start = (front ++ gap).length ∧ loc.stop = (front ++ gap ++ '[' :: body).length := by
  obtain ⟨inner, pairs, mid, last, ⟨token, hrest, hkind, -⟩, hsteps, hclose, rfl, hlocStop, hloc⟩ :=
    rounds_of_arrayLiteral h
  have hlocStart : loc.start = token.start := hloc token (by rw [hrest]; rfl)
  rw [hrest] at hlaid
  obtain ⟨gap, rest, rfl, hgap, hstart, -, hlaid'⟩ := hlaid.mark hkind rfl
  have hsource' : source = front ++ gap ++ ['['] ++ rest := by simp [hsource]
  obtain ⟨body, rest', rfl, htail, hstop⟩ :=
    listTail_of_steps hsteps hclose hlisted hsource' hlaid'
  exact ⟨gap, body, rest', rfl, htail, hlocStart.trans hstart, by simpa [hlocStop] using hstop⟩

end Lists

end Parser

end Syntax

end NgFile
