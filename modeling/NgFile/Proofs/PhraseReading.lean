import Mathlib.Data.List.Basic
import NgFile.Proofs.Phrases

/-!
# Reading plain phrases

Whatever stands behind a plain phrase, as long as it ends it, the parsers take off the tokens
of the phrase and no more.  One lemma for each form of a phrase says so of the parser for that
form; the theorem for all phrases is put together from them, along the phrase.
-/

namespace NgFile

namespace Syntax

namespace Parser

open Lexeme

variable {α β : Type}

/-! ## What a phrase begins with -/

inductive BeginsAssignment : TokenKind → Prop
  | operand {kind : TokenKind} (h : BeginsOperand kind) : BeginsAssignment kind
  | params : BeginsAssignment (.punct .parenOpen)

inductive BeginsLine : TokenKind → Prop
  | expression {kind : TokenKind} (h : BeginsStatement kind) : BeginsLine kind
  | declaration {k : Keyword} (h : IsVariableWord k) : BeginsLine (.keyword k false)
  | result : BeginsLine (.keyword .kwReturn false)
  | function : BeginsLine (.keyword .kwFunction false)
  | async : BeginsLine (.keyword .kwAsync false)

theorem IsAtom.beginsOperand {kind : TokenKind} (h : IsAtom kind) : BeginsOperand kind := by
  cases h with
  | template => exact .template _ _
  | _ => constructor

theorem BeginsLine.endsOperand {kind : TokenKind} (h : BeginsLine kind) : EndsOperand kind := by
  cases h with
  | expression h => cases h <;> constructor
  | declaration h => cases h <;> constructor
  | _ => constructor

def Part.Begins : Part → List Token → Prop
  | .operand, ts | .chain, ts => Heads BeginsOperand ts
  | .assignment, ts | .items, ts => Heads BeginsAssignment ts
  | .statement _, ts => Heads BeginsLine ts
  | .statements, ts => ts ≠ [] → Heads BeginsLine ts
  | _, _ => True

theorem Phrase.begins {part : Part} {ts : List Token} (h : Phrase part ts) : part.Begins ts := by
  induction h with
  | atom hatom => exact ⟨_, _, _, rfl, hatom.beginsOperand⟩
  | array => exact ⟨_, _, _, rfl, .array⟩
  | object => exact ⟨_, _, _, rfl, .object⟩
  | single _ ih => exact ih
  | operator _ _ _ ih => exact Heads.append ih _
  | value _ ih => exact Heads.imp ih fun _ => .operand
  | assign _ _ _ ih => exact Heads.append (Heads.imp ih fun _ => .operand) _
  | bareArrow => exact ⟨_, _, _, rfl, .operand (.name _)⟩
  | arrow => exact ⟨_, _, _, rfl, .params⟩
  | lastItem _ ih => exact ih
  | item _ _ ih => exact Heads.append ih _
  | expression hbegins => exact ⟨_, _, _, rfl, .expression hbegins⟩
  | declaration hword => exact ⟨_, _, _, rfl, .declaration hword⟩
  | result => exact ⟨_, _, _, rfl, .result⟩
  | closed _ ih => exact Heads.append ih _
  | function hfront =>
      cases hfront with
      | plain => exact ⟨_, _, _, rfl, .function⟩
      | async => exact ⟨_, _, _, rfl, .async⟩
  | noStatements => exact fun h => absurd rfl h
  | closedStatement _ _ ih => exact fun _ => Heads.append ih _
  | openStatement _ _ _ ih => exact fun _ => Heads.append ih _
  | _ => trivial

/-! ## Taking tokens off -/

/-- Whatever has been passed, a parser takes tokens off those behind them, and no more. -/
def Takes (p : Parser α) (c : Context) (ts behind : List Token) (Q : α → Prop) : Prop :=
  ∀ stop defaults spreads, ∃ a stop',
    p c ⟨ts ++ behind, stop, defaults, spreads⟩ = .ok (a, ⟨behind, stop', defaults, spreads⟩) ∧
      Q a

inductive IsTarget : Expr → Prop
  | ident (loc : Loc) (text : Text) : IsTarget (.ident loc text)
  | member (loc : Loc) (object : Expr) (name : Name) : IsTarget (.member loc object false name)

section Reading

variable {n : Nat} {c : Context} {m : Mark} {ts us behind : List Token}

/-- Links are read behind any operand, one after another. -/
def ReadsLinks (ts : List Token) : Prop :=
  ∀ (n limit : Nat) (c : Context) (m : Mark) (e : Expr) (behind : List Token),
    2 * ts.length ≤ n → ts.length < limit → ts.length < c.limit → Heads EndsLinks behind →
      Takes (refine (link (productions n) m) limit (e, false)) c ts behind fun links =>
        links.2 = false ∧ (ts = [] → links.1 = e) ∧ (ts ≠ [] → EndsInName ts → IsTarget links.1)

def ReadsOperand (ts : List Token) : Prop :=
  ∀ (n : Nat) (c : Context) (behind : List Token), 2 * ts.length ≤ n → ts.length < c.limit →
    Heads EndsLinks behind →
      Takes (leftHandSide (productions n)) c ts behind fun e => EndsInName ts → IsTarget e

def ReadsAssignment (ts : List Token) : Prop :=
  ∀ (n : Nat) (c : Context) (returnTypes : Bool) (behind : List Token), 2 * ts.length ≤ n →
    ts.length < c.limit → Heads EndsOperand behind →
      Takes (assignment (productions n) returnTypes) c ts behind fun _ => True

def IsItem (self : Productions) (c : Context) (item : Parser Expr) : Prop :=
  ∀ cur, At BeginsAssignment cur → item c cur = self (.assignment true) (nested c) cur

inductive ClosesList : Punct → Prop
  | parenClose : ClosesList .parenClose
  | bracketClose : ClosesList .bracketClose

def ReadsItems (ts : List Token) : Prop :=
  ∀ (n : Nat) (c : Context) (item : Parser Expr) (close : Punct) (closing : Place)
    (rest : List Token), 2 * ts.length < n → ts.length < c.limit → IsItem (productions n) c item →
      ClosesList close → ∀ stop defaults spreads, ∃ es stop',
        Items close item c
          ⟨ts ++ plainToken (.punct close) closing :: rest, stop, defaults, spreads⟩ es
          ⟨plainToken (.punct close) closing :: rest, stop', defaults, spreads⟩ ∧
        es.length ≤ ts.length

def ReadsList (ts : List Token) : Prop :=
  ∀ (n : Nat) (c : Context) (item : Parser Expr) (close : Punct) (closing : Place)
    (rest : List Token), 2 * ts.length < n → ts.length < c.limit → IsItem (productions n) c item →
      ClosesList close →
        Takes (commaList close item) c ts (plainToken (.punct close) closing :: rest)
          fun list => list.2 = false

def ReadsEntries (ts : List Token) : Prop :=
  ∀ (n : Nat) (c : Context) (closing : Place) (rest : List Token), 2 * ts.length < n →
    ts.length < c.limit → ∀ stop defaults spreads, ∃ ps stop',
      Items .braceClose (property (productions n)) c
        ⟨ts ++ plainToken (.punct .braceClose) closing :: rest, stop, defaults, spreads⟩ ps
        ⟨plainToken (.punct .braceClose) closing :: rest, stop', defaults, spreads⟩ ∧
      ps.length ≤ ts.length

def ReadsProperties (ts : List Token) : Prop :=
  ∀ (n : Nat) (c : Context) (closing : Place) (rest : List Token), 2 * ts.length < n →
    ts.length < c.limit →
      Takes (commaList .braceClose (property (productions n))) c ts
        (plainToken (.punct .braceClose) closing :: rest) fun list => list.2 = false

/-! ## Links -/

theorem readsLinks_nil : ReadsLinks [] := by
  intro n limit c m e behind _ hlimit _ hends stop defaults spreads
  obtain ⟨k, rfl⟩ := Nat.exists_eq_add_of_lt hlimit
  have hend : link (productions n) m (e, false) c ⟨behind, stop, defaults, spreads⟩ =
      .ok (none, ⟨behind, stop, defaults, spreads⟩) := link_end _ _ _ hends
  refine ⟨(e, false), stop, ?_, rfl, fun _ => rfl, fun h => absurd rfl h⟩
  exact refine_none hend

theorem endsInName_append (hne : us ≠ []) : EndsInName (ts ++ us) ↔ EndsInName us := by
  unfold EndsInName
  rw [List.getLast?_append_of_ne_nil _ hne]

theorem not_endsInName_closed {t : Token} {p : Punct} {place : Place} :
    ¬ EndsInName (t :: (ts ++ [plainToken (.punct p) place])) := by
  rintro ⟨text, place', hlast⟩
  rw [← List.cons_append, List.getLast?_concat] at hlast
  cases hlast

theorem link_word {kind : TokenKind} (hword : IsWord kind) (n : Nat) (c : Context) (m : Mark)
    (dot place : Place) (e : Expr) (ts : List Token) (stop : Nat) (defaults spreads : List Nat) :
    ∃ e', link (productions n) m (e, false) c
        ⟨plainToken (.punct .dot) dot :: plainToken kind place :: ts, stop, defaults, spreads⟩ =
      .ok (some (e', false), ⟨ts, place.stop, defaults, spreads⟩) ∧ IsTarget e' := by
  cases hword with
  | name text => exact ⟨_, rfl, .member _ _ _⟩
  | keyword k => exact ⟨_, rfl, .member _ _ _⟩

/-- One more link in front of links. -/
theorem readsLinks_cons {front : List Token} (hfront : front ≠ []) (h : ReadsLinks ts)
    (hlink : ∀ (n : Nat) (c : Context) (m : Mark) (e : Expr) (behind : List Token),
      2 * front.length ≤ n → front.length < c.limit →
        Takes (link (productions n) m (e, false)) c front behind fun links =>
          ∃ e', links = some (e', false) ∧ (EndsInName front → IsTarget e')) :
    ReadsLinks (front ++ ts) := by
  intro n limit c m e behind hfuel hlimit hc hends stop defaults spreads
  have hpositive := List.length_pos_iff.2 hfront
  rw [List.length_append] at hfuel hlimit hc
  obtain ⟨k, rfl⟩ : ∃ k, limit = k + 1 := ⟨limit - 1, by omega⟩
  obtain ⟨_, stop₁, hfirst, e', rfl, htarget⟩ :=
    hlink n c m e (ts ++ behind) (by omega) (by omega) stop defaults spreads
  obtain ⟨links, stop₂, hmore, hchain, hsame, hname⟩ :=
    h n k c m e' behind (by omega) (by omega) (by omega) hends stop₁ defaults spreads
  refine ⟨links, stop₂, ?_, hchain, fun h => ?_, fun _ hends => ?_⟩
  · rw [List.append_assoc]
    exact refine_some hfirst hmore
  · exact absurd (List.append_eq_nil_iff.1 h).1 hfront
  · by_cases hnil : ts = []
    · rw [hsame hnil]
      rw [hnil, List.append_nil] at hends
      exact htarget hends
    · exact hname hnil ((endsInName_append hnil).1 hends)

theorem readsLinks_member {kind : TokenKind} {dot place : Place} (hword : IsWord kind)
    (h : ReadsLinks ts) :
    ReadsLinks (plainToken (.punct .dot) dot :: plainToken kind place :: ts) := by
  change ReadsLinks ([plainToken (.punct .dot) dot, plainToken kind place] ++ ts)
  refine readsLinks_cons (List.cons_ne_nil _ _) h ?_
  intro n c m e behind _ _ stop defaults spreads
  obtain ⟨e', hlink, htarget⟩ := link_word hword n c m dot place e behind stop defaults spreads
  exact ⟨_, _, hlink, e', rfl, fun _ => htarget⟩

/-! ## Lists -/

theorem ClosesList.ne_comma {close : Punct} (h : ClosesList close) : close ≠ .comma := by
  cases h <;> decide

theorem ClosesList.endsOperand {close : Punct} (h : ClosesList close) :
    EndsOperand (.punct close) := by
  cases h <;> constructor

theorem atPunct_of_beginsAssignment {cur : Cursor} (h : At BeginsAssignment cur) {p : Punct}
    (hbrace : p ≠ .braceOpen) (hbracket : p ≠ .bracketOpen) (hparen : p ≠ .parenOpen) :
    atPunct p c cur = .ok (false, cur) := by
  obtain ⟨kind, place, rest, hrest, hkind⟩ := h
  cases hkind with
  | operand h => exact atPunct_of_beginsOperand ⟨kind, place, rest, hrest, h⟩ hbrace hbracket
  | params =>
      obtain ⟨_, stop, defaults, spreads⟩ := cur
      cases hrest
      exact atPunct_miss fun h => hparen (TokenKind.punct.inj h).symm

theorem atPunct_close {close : Punct} {cur : Cursor} (hclose : ClosesList close)
    (h : At BeginsAssignment cur) : atPunct close c cur = .ok (false, cur) := by
  cases hclose <;> exact atPunct_of_beginsAssignment h (by decide) (by decide) (by decide)

theorem isItem_spreadOrAssignment (self : Productions) (c : Context) :
    IsItem self c (spreadOrAssignment self) := by
  intro cur h
  obtain ⟨m, hm⟩ := mark_ok c cur
  have hdots : eat .ellipsis c cur = .ok (false, cur) := by
    simp [eat, bind_apply, atPunct_of_beginsAssignment h, pure_apply]
  simp [spreadOrAssignment, bind_apply, hm, hdots, nestedAssignment, within_apply]

theorem isItem_element (self : Productions) (c : Context) : IsItem self c (element self) := by
  intro cur h
  have hcomma := atPunct_of_beginsAssignment (c := c) (p := .comma) h (by decide) (by decide)
    (by decide)
  simp [element, bind_apply, hcomma, isItem_spreadOrAssignment self c cur h]

/-- An item of a list in front of what ends it. -/
theorem takes_item {item : Parser Expr} (hbegins : Heads BeginsAssignment ts)
    (h : ReadsAssignment ts) (hfuel : 2 * ts.length < n) (hlimit : ts.length < c.limit)
    (hitem : IsItem (productions n) c item) (hends : Heads EndsOperand behind) :
    Takes item c ts behind fun _ => True := by
  intro stop defaults spreads
  obtain ⟨n, rfl⟩ : ∃ k, n = k + 1 := ⟨n - 1, by omega⟩
  have hself := hitem ⟨ts ++ behind, stop, defaults, spreads⟩ hbegins.at_append
  rw [hself]
  exact h n (nested c) true behind (by omega) hlimit hends stop defaults spreads

theorem readsItems_last (hbegins : Heads BeginsAssignment ts) (h : ReadsAssignment ts) :
    ReadsItems ts := by
  intro n c item close closing rest hfuel hlimit hitem hclose stop defaults spreads
  have hends : Heads EndsOperand (plainToken (.punct close) closing :: rest) :=
    ⟨_, _, _, rfl, hclose.endsOperand⟩
  obtain ⟨e, stop', hfirst, -⟩ :=
    takes_item hbegins h hfuel hlimit hitem hends stop defaults spreads
  obtain ⟨kind, place, more, rfl, -⟩ := id hbegins
  exact ⟨[e], stop', .last (atPunct_close hclose hbegins.at_append) hfirst, by simp⟩

theorem readsItems_cons {comma : Place} (hbegins : Heads BeginsAssignment ts)
    (h : ReadsAssignment ts) (hmore : ReadsItems us) :
    ReadsItems (ts ++ plainToken (.punct .comma) comma :: us) := by
  intro n c item close closing rest hfuel hlimit hitem hclose stop defaults spreads
  rw [List.length_append, List.length_cons] at hfuel hlimit
  obtain ⟨e, stop₁, hfirst, -⟩ := takes_item hbegins h (by omega) (by omega) hitem
    (⟨_, _, us ++ plainToken (.punct close) closing :: rest, rfl, .comma⟩ :
      Heads EndsOperand (plainToken (.punct .comma) comma :: _)) stop defaults spreads
  obtain ⟨es, stop₂, hitems, hlength⟩ := hmore n c item close closing rest (by omega) (by omega)
    hitem hclose comma.stop defaults spreads
  refine ⟨e :: es, stop₂, ?_, ?_⟩
  · rw [List.append_assoc, List.cons_append]
    exact .more (atPunct_close hclose hbegins.at_append) hfirst hitems
  · simp only [List.length_append, List.length_cons]
    omega

/-- No items are a list. -/
theorem commaList_nil (close : Punct) (item : Parser α) (closing : Place) (rest : List Token)
    (hlimit : 0 < c.limit) (stop : Nat) (defaults spreads : List Nat) :
    commaList close item c
        ⟨plainToken (.punct close) closing :: rest, stop, defaults, spreads⟩ =
      .ok (([], false), ⟨plainToken (.punct close) closing :: rest, stop, defaults, spreads⟩) := by
  have hstep : listStep close item c
        ⟨plainToken (.punct close) closing :: rest, stop, defaults, spreads⟩ =
      .ok (none, ⟨plainToken (.punct close) closing :: rest, stop, defaults, spreads⟩) := by
    simp [listStep, bind_apply, atPunct_hit, pure_apply]
  have hmany := many_of_steps (.done hstep) hlimit
  simp [commaList_eq, bind_apply, hmany, pure_apply]

theorem readsList_nil : ReadsList [] :=
  fun _ _ item close closing rest _ hlimit _ _ stop defaults spreads =>
    ⟨_, _, commaList_nil close item closing rest hlimit stop defaults spreads, rfl⟩

theorem readsList_items (h : ReadsItems ts) : ReadsList ts := by
  intro n c item close closing rest hfuel hlimit hitem hclose stop defaults spreads
  obtain ⟨es, stop', hitems, hlength⟩ :=
    h n c item close closing rest hfuel hlimit hitem hclose stop defaults spreads
  exact ⟨(es, false), stop',
    commaList_of_items hclose.ne_comma hitems (Nat.lt_of_le_of_lt hlength hlimit), rfl⟩

/-! ## Calls -/

theorem takes_arguments {args : List Token} (h : ReadsList args) (opening closing : Place)
    (behind : List Token) (hfuel : 2 * args.length < n) (hlimit : args.length < c.limit) :
    Takes (arguments (productions n)) c
      (plainToken (.punct .parenOpen) opening ::
        (args ++ [plainToken (.punct .parenClose) closing]))
      behind fun _ => True := by
  intro stop defaults spreads
  obtain ⟨⟨es, comma⟩, stop', hlist, -⟩ := h n (nested c) (spreadOrAssignment (productions n))
    .parenClose closing behind hfuel hlimit (isItem_spreadOrAssignment _ _) .parenClose opening.stop
    defaults spreads
  refine ⟨(es, []), closing.stop, ?_, trivial⟩
  simp [arguments, bind_apply, expect_hit, pure_apply, within_apply, hlist, peek_cons]

theorem readsLinks_call {opening closing : Place} {args : List Token} (hargs : ReadsList args)
    (hlinks : ReadsLinks ts) :
    ReadsLinks (plainToken (.punct .parenOpen) opening ::
      (args ++ plainToken (.punct .parenClose) closing :: ts)) := by
  have hsplit : plainToken (.punct .parenOpen) opening ::
        (args ++ plainToken (.punct .parenClose) closing :: ts) =
      (plainToken (.punct .parenOpen) opening ::
        (args ++ [plainToken (.punct .parenClose) closing])) ++ ts := by
    simp
  rw [hsplit]
  refine readsLinks_cons (List.cons_ne_nil _ _) hlinks ?_
  intro n c m e behind hfuel hlimit stop defaults spreads
  simp only [List.length_cons, List.length_append, List.length_nil] at hfuel hlimit
  obtain ⟨⟨es, comments⟩, stop', harguments, -⟩ :=
    takes_arguments hargs opening closing behind (by omega : _ < n) (by omega : _ < c.limit) stop
      defaults spreads
  obtain ⟨e', hcall⟩ : ∃ e', callLink (productions n) m e false [] c
        ⟨plainToken (.punct .parenOpen) opening ::
          (args ++ [plainToken (.punct .parenClose) closing]) ++ behind, stop, defaults, spreads⟩ =
      .ok (e', ⟨behind, stop', defaults, spreads⟩) := by
    simp only [callLink, bind_apply, harguments, since, pure_apply]
    exact ⟨_, rfl⟩
  have hmember : memberLink (productions n) m true (e, false) c
        ⟨plainToken (.punct .parenOpen) opening ::
          (args ++ [plainToken (.punct .parenClose) closing]) ++ behind, stop, defaults, spreads⟩ =
      .ok (none,
        ⟨plainToken (.punct .parenOpen) opening ::
          (args ++ [plainToken (.punct .parenClose) closing]) ++ behind, stop, defaults,
          spreads⟩) := by
    cases args <;> rfl
  refine ⟨some (e', false), stop', ?_, e', rfl, fun hname => absurd hname not_endsInName_closed⟩
  simp only [List.cons_append, List.append_assoc, List.nil_append] at hmember hcall ⊢
  simp [link, bind_apply, hmember, eat_miss, atPunct_hit, hcall, pure_apply]

/-! ## Operands -/

/-- An operand without links, and the links behind it. -/
theorem readsOperand_of_primary {front : List Token} (hfront : front ≠ [])
    (hprimary : ∀ (n : Nat) (c : Context) (behind : List Token), 2 * front.length ≤ n →
      front.length < c.limit →
        Takes (primary (productions n)) c front behind fun e => EndsInName front → IsTarget e)
    (hlinks : ReadsLinks ts) : ReadsOperand (front ++ ts) := by
  intro n c behind hfuel hlimit hends stop defaults spreads
  have hpositive := List.length_pos_iff.2 hfront
  rw [List.length_append] at hfuel hlimit
  obtain ⟨first, stop₁, hfirst, htarget⟩ := hprimary n c (ts ++ behind) (by omega) (by omega) stop
    defaults spreads
  obtain ⟨m, hm⟩ := mark_ok c ⟨front ++ (ts ++ behind), stop, defaults, spreads⟩
  obtain ⟨⟨e, isChain⟩, stop₂, hmore, rfl, hsame, hname⟩ := hlinks n c.limit c m first behind
    (by omega) (by omega) (by omega) hends stop₁ defaults spreads
  refine ⟨e, stop₂, ?_, fun hends => ?_⟩
  · rw [List.append_assoc]
    simp [leftHandSide, bind_apply, hm, hfirst, iterate_of_refine hmore, pure_apply]
  · by_cases hnil : ts = []
    · rw [hnil, List.append_nil] at hends
      obtain rfl : e = first := hsame hnil
      exact htarget hends
    · exact hname hnil ((endsInName_append hnil).1 hends)

theorem primary_atom {kind : TokenKind} (hatom : IsAtom kind) (self : Productions) (c : Context)
    (place : Place) (behind : List Token) :
    Takes (primary self) c [plainToken kind place] behind fun e =>
      EndsInName [plainToken kind place] → IsTarget e := by
  intro stop defaults spreads
  have hnone (h : ∀ text, kind ≠ .name text) : ¬ EndsInName [plainToken kind place] := by
    rintro ⟨text, place', hlast⟩
    exact h text (congrArg Token.kind (Option.some.inj hlast))
  cases hatom with
  | name text => exact ⟨_, _, primary_name text, fun _ => .ident _ _⟩
  | yes => exact ⟨_, _, primary_true, fun h => absurd h (hnone (by simp))⟩
  | no | null | this =>
      exact ⟨_, _, by cases behind <;> rfl, fun h => absurd h (hnone (by simp))⟩
  | number value => exact ⟨_, _, rfl, fun h => absurd h (hnone (by simp))⟩
  | string value => exact ⟨_, _, primary_string value, fun h => absurd h (hnone (by simp))⟩
  | template hchunk => exact ⟨_, _, primary_template hchunk, fun h => absurd h (hnone (by simp))⟩

theorem readsOperand_atom {kind : TokenKind} {place : Place} (hatom : IsAtom kind)
    (hlinks : ReadsLinks ts) : ReadsOperand (plainToken kind place :: ts) :=
  readsOperand_of_primary (List.cons_ne_nil _ _)
    (fun n c behind _ _ => primary_atom hatom (productions n) c place behind) hlinks

theorem readsOperand_array {opening closing : Place} {elements : List Token}
    (helements : ReadsList elements) (hlinks : ReadsLinks ts) :
    ReadsOperand (plainToken (.punct .bracketOpen) opening ::
      (elements ++ plainToken (.punct .bracketClose) closing :: ts)) := by
  have hsplit : plainToken (.punct .bracketOpen) opening ::
        (elements ++ plainToken (.punct .bracketClose) closing :: ts) =
      (plainToken (.punct .bracketOpen) opening ::
        (elements ++ [plainToken (.punct .bracketClose) closing])) ++ ts := by
    simp
  rw [hsplit]
  refine readsOperand_of_primary (List.cons_ne_nil _ _) ?_ hlinks
  intro n c behind hfuel hlimit stop defaults spreads
  simp only [List.length_cons, List.length_append, List.length_nil] at hfuel hlimit
  obtain ⟨⟨es, comma⟩, stop', hlist, rfl⟩ := helements n c (element (productions n)) .bracketClose
    closing behind (by omega) (by omega) (isItem_element _ _) .bracketClose opening.stop defaults
    spreads
  refine ⟨.array ⟨opening.start, closing.stop, []⟩ es, closing.stop, ?_,
    fun hname => absurd hname not_endsInName_closed⟩
  · have harray (rest : List Token) : primary (productions n) c
          ⟨plainToken (.punct .bracketOpen) opening :: rest, stop, defaults, spreads⟩ =
        arrayLiteral (productions n) c
          ⟨plainToken (.punct .bracketOpen) opening :: rest, stop, defaults, spreads⟩ := rfl
    rw [List.cons_append, harray, List.append_assoc]
    simp [arrayLiteral_eq, bind_apply, mark_cons, expect_hit, pure_apply, hlist, since]

theorem readsOperand_object {opening closing : Place} {properties : List Token}
    (hproperties : ReadsProperties properties) (hlinks : ReadsLinks ts) :
    ReadsOperand (plainToken (.punct .braceOpen) opening ::
      (properties ++ plainToken (.punct .braceClose) closing :: ts)) := by
  have hsplit : plainToken (.punct .braceOpen) opening ::
        (properties ++ plainToken (.punct .braceClose) closing :: ts) =
      (plainToken (.punct .braceOpen) opening ::
        (properties ++ [plainToken (.punct .braceClose) closing])) ++ ts := by
    simp
  rw [hsplit]
  refine readsOperand_of_primary (List.cons_ne_nil _ _) ?_ hlinks
  intro n c behind hfuel hlimit stop defaults spreads
  simp only [List.length_cons, List.length_append, List.length_nil] at hfuel hlimit
  obtain ⟨⟨ps, comma⟩, stop', hlist, rfl⟩ := hproperties n (nested c) closing behind (by omega)
    (by change _ < c.limit; omega) opening.stop defaults spreads
  refine ⟨.object ⟨opening.start, closing.stop, []⟩ ps, closing.stop, ?_,
    fun hname => absurd hname not_endsInName_closed⟩
  · have hobject (rest : List Token) : primary (productions n) c
          ⟨plainToken (.punct .braceOpen) opening :: rest, stop, defaults, spreads⟩ =
        objectLiteral (productions n) c
          ⟨plainToken (.punct .braceOpen) opening :: rest, stop, defaults, spreads⟩ := rfl
    rw [List.cons_append, hobject, List.append_assoc]
    simp [objectLiteral, bind_apply, mark_cons, expect_hit, pure_apply, within_apply, hlist, since]

/-! ## Properties -/

/-- A key in front of a colon begins neither a method nor an accessor. -/
theorem property_key {kind : TokenKind} (hkey : IsKey kind) (self : Productions) (c : Context)
    (key colon : Place) (rest : List Token) (stop : Nat) (defaults spreads : List Nat) :
    ∃ k, property self c ⟨plainToken kind key :: plainToken (.punct .colon) colon :: rest, stop,
        defaults, spreads⟩ =
      pairOrShorthand self ⟨key.start, []⟩ (plainToken kind key) k c
        ⟨plainToken (.punct .colon) colon :: rest, key.stop, defaults, spreads⟩ := by
  cases hkey with
  | word hword =>
      cases hword with
      | name text => exact ⟨_, rfl⟩
      | keyword k =>
          refine ⟨.name ⟨⟨key.start, key.stop, []⟩, k.text⟩, ?_⟩
          have hcolon : beginsKey (plainToken (.punct .colon) colon) = false := rfl
          have hkey : propertyKey self c ⟨plainToken (.keyword k false) key ::
                plainToken (.punct .colon) colon :: rest, stop, defaults, spreads⟩ =
              .ok (.name ⟨⟨key.start, key.stop, []⟩, k.text⟩,
                ⟨plainToken (.punct .colon) colon :: rest, key.stop, defaults, spreads⟩) := rfl
          have hnext : peekAhead 1 c ⟨plainToken (.keyword k false) key ::
                plainToken (.punct .colon) colon :: rest, stop, defaults, spreads⟩ =
              .ok (plainToken (.punct .colon) colon, ⟨plainToken (.keyword k false) key ::
                plainToken (.punct .colon) colon :: rest, stop, defaults, spreads⟩) := rfl
          simp [property, bind_apply, mark_cons, eat_miss, atAccessor, atAsyncMethod, peek_cons,
            hnext, hcolon, isPunct_plain_ne, hkey, pure_apply]
  | number value => exact ⟨_, rfl⟩
  | string value => exact ⟨_, rfl⟩

theorem IsKey.ne_punct {kind : TokenKind} (h : IsKey kind) (p : Punct) : kind ≠ .punct p := by
  cases h with
  | word hword => cases hword <;> simp
  | number | string => simp

theorem takes_entry {kind : TokenKind} (hkey : IsKey kind) (h : ReadsAssignment ts)
    (key colon : Place) (hfuel : 2 * ts.length < n) (hlimit : ts.length < c.limit)
    (hends : Heads EndsOperand behind) :
    Takes (property (productions n)) c
      (plainToken kind key :: plainToken (.punct .colon) colon :: ts) behind fun _ => True := by
  intro stop defaults spreads
  obtain ⟨n, rfl⟩ : ∃ k, n = k + 1 := ⟨n - 1, by omega⟩
  obtain ⟨k, hproperty⟩ := property_key hkey (productions (n + 1)) c key colon (ts ++ behind) stop
    defaults spreads
  obtain ⟨e, stop', hvalue, -⟩ := h n (nested c) true behind (by omega) hlimit hends colon.stop
    defaults spreads
  have hself : productions (n + 1) (.assignment true) = assignment (productions n) true := rfl
  refine ⟨.pair ⟨key.start, stop', []⟩ k e, stop', ?_, trivial⟩
  rw [List.cons_append, List.cons_append, hproperty]
  simp [pairOrShorthand, bind_apply, eat_hit, nestedAssignment, within_apply, hself, hvalue, since,
    pure_apply]

theorem readsEntries_last {kind : TokenKind} {key colon : Place} (hkey : IsKey kind)
    (h : ReadsAssignment ts) :
    ReadsEntries (plainToken kind key :: plainToken (.punct .colon) colon :: ts) := by
  intro n c closing rest hfuel hlimit stop defaults spreads
  simp only [List.length_cons] at hfuel hlimit
  have hends : Heads EndsOperand (plainToken (.punct .braceClose) closing :: rest) :=
    ⟨_, _, _, rfl, .braceClose⟩
  obtain ⟨p, stop', hentry, -⟩ := takes_entry hkey h key colon (by omega : _ < n)
    (by omega : _ < c.limit) hends stop defaults spreads
  exact ⟨[p], stop', .last (atPunct_miss (hkey.ne_punct _)) hentry, by simp⟩

theorem readsEntries_cons {kind : TokenKind} {key colon comma : Place} (hkey : IsKey kind)
    (h : ReadsAssignment ts) (hmore : ReadsEntries us) :
    ReadsEntries (plainToken kind key :: plainToken (.punct .colon) colon ::
      (ts ++ plainToken (.punct .comma) comma :: us)) := by
  intro n c closing rest hfuel hlimit stop defaults spreads
  simp only [List.length_cons, List.length_append] at hfuel hlimit
  have hends : Heads EndsOperand (plainToken (.punct .comma) comma ::
      (us ++ plainToken (.punct .braceClose) closing :: rest)) := ⟨_, _, _, rfl, .comma⟩
  obtain ⟨p, stop₁, hentry, -⟩ := takes_entry hkey h key colon (by omega : _ < n)
    (by omega : _ < c.limit) hends stop defaults spreads
  obtain ⟨ps, stop₂, hitems, hlength⟩ :=
    hmore n c closing rest (by omega) (by omega) comma.stop defaults spreads
  refine ⟨p :: ps, stop₂, ?_, ?_⟩
  · simp only [List.cons_append, List.append_assoc] at hentry ⊢
    exact .more (atPunct_miss (hkey.ne_punct _)) hentry hitems
  · simp only [List.length_append, List.length_cons]
    omega

theorem readsProperties_nil : ReadsProperties [] :=
  fun _ _ closing rest _ hlimit stop defaults spreads =>
    ⟨_, _, commaList_nil .braceClose _ closing rest hlimit stop defaults spreads, rfl⟩

theorem readsProperties_entries (h : ReadsEntries ts) : ReadsProperties ts := by
  intro n c closing rest hfuel hlimit stop defaults spreads
  obtain ⟨ps, stop', hitems, hlength⟩ :=
    h n c closing rest hfuel hlimit stop defaults spreads
  exact ⟨(ps, false), stop',
    commaList_of_items (by decide) hitems (Nat.lt_of_le_of_lt hlength hlimit), rfl⟩

/-! ## Operators -/

structure Operation where
  op : Punct
  place : Place
  operand : List Token

namespace Operation

def tokens : List Operation → List Token
  | [] => []
  | o :: more => plainToken (.punct o.op) o.place :: (o.operand ++ tokens more)

theorem tokens_append (os more : List Operation) :
    tokens (os ++ more) = tokens os ++ tokens more := by
  induction os with
  | nil => rfl
  | cons o os ih => simp [tokens, ih]

theorem length_le_tokens (os : List Operation) : os.length ≤ (tokens os).length := by
  induction os with
  | nil => exact Nat.le_refl _
  | cons o os ih =>
      simp only [tokens, List.length_cons, List.length_append]
      omega

def Reads (o : Operation) : Prop :=
  IsOperator o.op ∧ Heads BeginsOperand o.operand ∧ ReadsOperand o.operand

end Operation

def operation : Punct → BinaryOp
  | .plus => .add
  | .minus => .subtract
  | .star => .multiply
  | .percent => .remainder
  | .equalEqual => .equal
  | .bangEqual => .notEqual
  | .equalEqualEqual => .identical
  | .bangEqualEqual => .notIdentical
  | .ampAmp => .and
  | _ => .or

def rankOf (p : Punct) : Nat :=
  (operation p).precedence.rank

theorem IsOperator.operator? {p : Punct} (h : IsOperator p) (place : Place) (rest : List Token) :
    operator? (plainToken (.punct p) place :: rest) = some (.binary (operation p), 1) := by
  cases h <;> rfl

theorem IsOperator.operation_eq {p : Punct} (h : IsOperator p) :
    (operation p).groupsRight = false ∧ operation p ≠ .inOp ∧ operation p ≠ .coalesce ∧
      operation p ≠ .power := by
  cases h <;> decide

theorem IsOperator.comma_lt_rankOf {p : Punct} (h : IsOperator p) :
    Precedence.comma.rank < rankOf p := by
  cases h <;> decide

/-- An operator that binds no more strongly than the level is left for later. -/
theorem binaryStep_of_le {p : Punct} (hp : IsOperator p) {above : Nat} (hrank : rankOf p ≤ above)
    (self : Productions) (c : Context) (m : Mark) (left : Expr) (place : Place) (rest : List Token)
    (stop : Nat) (defaults spreads : List Nat) :
    binaryStep self m above left c ⟨plainToken (.punct p) place :: rest, stop, defaults, spreads⟩ =
      .ok (none, ⟨plainToken (.punct p) place :: rest, stop, defaults, spreads⟩) := by
  obtain ⟨hright, -⟩ := hp.operation_eq
  have hle : (operation p).precedence.rank ≤ above := hrank
  simp [binaryStep, bind_apply, peekAll, peek_cons, context, isWord, hp.operator?, hright, hle,
    pure_apply]

/-- An operator that binds more strongly than the level takes its right operand. -/
theorem binaryStep_of_lt {p : Punct} (hp : IsOperator p) {above : Nat} (hrank : above < rankOf p)
    {self : Productions} {c : Context} (m : Mark) (left : Expr) {right : Expr} {place : Place}
    {rest : List Token} {after : Cursor} (stop : Nat) {defaults spreads : List Nat}
    (h : self (.binary (rankOf p)) c ⟨rest, place.stop, defaults, spreads⟩ = .ok (right, after)) :
    ∃ e, binaryStep self m above left c
        ⟨plainToken (.punct p) place :: rest, stop, defaults, spreads⟩ = .ok (some e, after) := by
  obtain ⟨hright, hin, hcoalesce, hpower⟩ := hp.operation_eq
  have hlt : ¬ (operation p).precedence.rank ≤ above := Nat.not_le.2 hrank
  have hself : self (.binary (operation p).precedence.rank) c
      ⟨rest, place.stop, defaults, spreads⟩ = .ok (right, after) := h
  have hadvance : advanceBy 1 c ⟨plainToken (.punct p) place :: rest, stop, defaults, spreads⟩ =
      .ok ((), ⟨rest, place.stop, defaults, spreads⟩) := rfl
  refine ⟨.binary ⟨m.start, after.lastStop, m.comments⟩ (operation p) left right, ?_⟩
  simp [binaryStep, bind_apply, peekAll, peek_cons, context, isWord, hp.operator?, hright, hlt, hin,
    hcoalesce, hpower, hadvance, hself, require, since, pure_apply]

theorem heads_tokens {os : List Operation} (hos : ∀ o ∈ os, o.Reads)
    (hends : Heads EndsOperators behind) : Heads EndsLinks (Operation.tokens os ++ behind) := by
  cases os with
  | nil => exact hends.imp fun _ => .operators
  | cons o more => exact ⟨_, _, _, rfl, .operator (hos o List.mem_cons_self).1⟩

/-- Operands with operators are read as far as the operators are after their first operand. -/
theorem takes_binary {first rest : List Token} (hbegins : Heads BeginsOperand first)
    (hfirst : ReadsOperand first) (hfuel : 2 * first.length ≤ n) (hlimit : first.length < c.limit)
    {above : Nat} (hends : Heads EndsLinks (ts ++ rest))
    (hmore : ∀ m e, Takes (refine (binaryStep (productions n) m above) c.limit e) c ts rest
      fun _ => True) :
    Takes (binary (productions n) above) c (first ++ ts) rest fun _ => True := by
  intro stop defaults spreads
  obtain ⟨e, stop₁, hleft, -⟩ := hfirst n c (ts ++ rest) hfuel hlimit hends stop defaults spreads
  have hat : At BeginsOperand ⟨first ++ (ts ++ rest), stop, defaults, spreads⟩ :=
    hbegins.at_append
  have hunary := unary_of_leftHandSide hat hleft hends
  obtain ⟨m, hm⟩ := mark_ok c ⟨first ++ (ts ++ rest), stop, defaults, spreads⟩
  obtain ⟨result, stop₂, hresult, -⟩ := hmore m e stop₁ defaults spreads
  refine ⟨result, stop₂, ?_, trivial⟩
  rw [List.append_assoc]
  exact binary_of_unary hat hunary hm (iterate_of_refine hresult)

/-- The rounds at a level take some operations, and leave those behind them. -/
def ReadsRounds (above : Nat) (done rest : List Operation) : Prop :=
  ∀ (n limit : Nat) (c : Context) (m : Mark) (left : Expr) (behind : List Token),
    2 * (Operation.tokens (done ++ rest)).length ≤ n → (done ++ rest).length < limit →
      (Operation.tokens (done ++ rest)).length < c.limit → Heads EndsOperators behind →
        Takes (refine (binaryStep (productions n) m above) limit left) c
          (Operation.tokens done) (Operation.tokens rest ++ behind) fun _ => True

theorem readsRounds_nil (above : Nat) : ReadsRounds above [] [] := by
  intro n limit c m left behind _ hlimit _ hends stop defaults spreads
  obtain ⟨k, rfl⟩ := Nat.exists_eq_add_of_lt hlimit
  have hend : binaryStep (productions n) m above left c ⟨behind, stop, defaults, spreads⟩ =
      .ok (none, ⟨behind, stop, defaults, spreads⟩) := binaryStep_end _ _ _ _ hends
  refine ⟨left, stop, ?_, trivial⟩
  exact refine_none hend

section Rounds

variable {above : Nat} {o : Operation} {taken done rest more : List Operation}

theorem readsRounds_weaker (ho : o.Reads) (hrank : rankOf o.op ≤ above) :
    ReadsRounds above [] (o :: more) := by
  intro n limit c m left behind _ hlimit _ _ stop defaults spreads
  obtain ⟨k, rfl⟩ : ∃ k, limit = k + 1 := ⟨limit - 1, by omega⟩
  have hstep := binaryStep_of_le ho.1 hrank (productions n) c m left o.place
    (o.operand ++ Operation.tokens more ++ behind) stop defaults spreads
  refine ⟨left, stop, ?_, trivial⟩
  rw [List.append_assoc] at hstep
  simp only [Operation.tokens, List.nil_append, List.cons_append, List.append_assoc]
  exact refine_none hstep

/-- The right operand goes on with the operators behind it that bind more strongly. -/
theorem takes_right (ho : o.Reads) (hos : ∀ o' ∈ taken ++ rest, o'.Reads)
    (htaken : ReadsRounds (rankOf o.op) taken rest)
    (hfuel : 2 * (o.operand ++ Operation.tokens (taken ++ rest)).length ≤ n)
    (hlimit : (o.operand ++ Operation.tokens (taken ++ rest)).length < c.limit)
    (hends : Heads EndsOperators behind) :
    Takes (binary (productions n) (rankOf o.op)) c (o.operand ++ Operation.tokens taken)
      (Operation.tokens rest ++ behind) fun _ => True := by
  obtain ⟨-, hbegins, hoperand⟩ := ho
  rw [List.length_append] at hfuel hlimit
  have hlinks : Heads EndsLinks
      (Operation.tokens taken ++ (Operation.tokens rest ++ behind)) := by
    rw [← List.append_assoc, ← Operation.tokens_append]
    exact heads_tokens hos hends
  have hcount := Operation.length_le_tokens (taken ++ rest)
  exact takes_binary hbegins hoperand (by omega) (by omega) hlinks fun m e =>
    htaken n c.limit c m e behind (by omega) (by omega) (by omega) hends

theorem readsRounds_stronger (ho : o.Reads) (hrank : above < rankOf o.op)
    (hos : ∀ o' ∈ taken ++ (done ++ rest), o'.Reads)
    (htaken : ReadsRounds (rankOf o.op) taken (done ++ rest))
    (hdone : ReadsRounds above done rest) : ReadsRounds above (o :: (taken ++ done)) rest := by
  intro n limit c m left behind hfuel hlimit hc hends stop defaults spreads
  rw [List.cons_append, List.append_assoc] at hfuel hlimit hc
  simp only [Operation.tokens, Operation.tokens_append, List.length_cons, List.length_append]
    at hfuel hlimit hc
  -- The right operand is read one nesting deeper, and the round takes one of the limit.
  obtain ⟨n, rfl⟩ : ∃ j, n = j + 1 := ⟨n - 1, by omega⟩
  obtain ⟨k, rfl⟩ : ∃ k, limit = k + 1 := ⟨limit - 1, by omega⟩
  obtain ⟨right, stop₁, hright, -⟩ := takes_right (n := n) (c := c) ho hos htaken
    (by simp only [Operation.tokens_append, List.length_append]; omega)
    (by simp only [Operation.tokens_append, List.length_append]; omega) hends o.place.stop
    defaults spreads
  have hself : productions (n + 1) (.binary (rankOf o.op)) c _ = _ := hright
  obtain ⟨e, hstep⟩ := binaryStep_of_lt ho.1 hrank m left stop hself
  obtain ⟨result, stop₂, hresult, -⟩ := hdone (n + 1) k c m e behind
    (by simp only [Operation.tokens_append, List.length_append]; omega)
    (by rw [List.length_append]; omega)
    (by simp only [Operation.tokens_append, List.length_append]; omega) hends stop₁ defaults
    spreads
  have hmid : Operation.tokens (done ++ rest) ++ behind =
      Operation.tokens done ++ (Operation.tokens rest ++ behind) := by
    rw [Operation.tokens_append, List.append_assoc]
  have hall : Operation.tokens (o :: (taken ++ done)) ++ (Operation.tokens rest ++ behind) =
      plainToken (.punct o.op) o.place ::
        (o.operand ++ Operation.tokens taken ++ (Operation.tokens (done ++ rest) ++ behind)) := by
    simp only [Operation.tokens, Operation.tokens_append, List.cons_append, List.append_assoc]
  refine ⟨result, stop₂, ?_, trivial⟩
  rw [← hmid] at hresult
  rw [hall]
  exact refine_some hstep hresult

end Rounds

/--
A round takes an operator with all that binds more strongly on its right; what is left begins
with an operator that binds no more strongly than the level.
-/
theorem exists_readsRounds (above : Nat) (os : List Operation) (hos : ∀ o ∈ os, o.Reads) :
    ∃ done rest, os = done ++ rest ∧ (∀ o ∈ rest.head?, rankOf o.op ≤ above) ∧
      ReadsRounds above done rest := by
  match os, hos with
  | [], _ => exact ⟨[], [], rfl, by simp, readsRounds_nil above⟩
  | o :: more, hos =>
      obtain ⟨ho, hmore⟩ := List.forall_mem_cons.1 hos
      by_cases hrank : rankOf o.op ≤ above
      · exact ⟨[], o :: more, rfl, by simpa using hrank, readsRounds_weaker ho hrank⟩
      -- All that binds more strongly than `o` is its right operand; the rest goes on at the level.
      · obtain ⟨taken, left, rfl, -, htaken⟩ := exists_readsRounds (rankOf o.op) more hmore
        have hlength : left.length ≤ (taken ++ left).length := by
          rw [List.length_append]
          omega
        obtain ⟨done, rest, rfl, hhead, hdone⟩ := exists_readsRounds above left fun o' h =>
          hmore o' (List.mem_append_right taken h)
        exact ⟨o :: (taken ++ done), rest, by simp, hhead,
          readsRounds_stronger ho (Nat.lt_of_not_le hrank) hmore htaken hdone⟩
termination_by os.length

def IsChain (ts : List Token) : Prop :=
  ∃ first os, ts = first ++ Operation.tokens os ∧ Heads BeginsOperand first ∧
    ReadsOperand first ∧ ∀ o ∈ os, o.Reads

theorem isChain_single (hbegins : Heads BeginsOperand ts) (h : ReadsOperand ts) : IsChain ts :=
  ⟨ts, [], (List.append_nil ts).symm, hbegins, h, by simp⟩

theorem isChain_operator {p : Punct} {place : Place} (hp : IsOperator p)
    (hbegins : Heads BeginsOperand ts) (h : ReadsOperand ts) (hright : IsChain us) :
    IsChain (ts ++ plainToken (.punct p) place :: us) := by
  obtain ⟨first, os, rfl, hfirst, hread, hos⟩ := hright
  exact ⟨ts, ⟨p, place, first⟩ :: os, rfl, hbegins, h,
    List.forall_mem_cons.2 ⟨⟨hp, hfirst, hread⟩, hos⟩⟩

theorem IsChain.begins (h : IsChain ts) : Heads BeginsOperand ts := by
  obtain ⟨first, os, rfl, hbegins, -⟩ := h
  exact hbegins.append _

/-- No operator of a chain is weaker than the comma, so none is left. -/
theorem IsChain.takes (h : IsChain ts) (hfuel : 2 * ts.length ≤ n) (hlimit : ts.length < c.limit)
    (hends : Heads EndsOperators behind) :
    Takes (binary (productions n) Precedence.comma.rank) c ts behind fun _ => True := by
  obtain ⟨first, os, rfl, hbegins, hread, hos⟩ := h
  obtain ⟨done, rest, rfl, hhead, hdone⟩ := exists_readsRounds Precedence.comma.rank os hos
  cases rest with
  | cons o more =>
      have hoperator := (hos o (List.mem_append_right done List.mem_cons_self)).1
      exact absurd (hhead o rfl) (Nat.not_le.2 hoperator.comma_lt_rankOf)
  | nil =>
      rw [List.append_nil] at hfuel hlimit hos ⊢
      simp only [ReadsRounds, List.append_nil] at hdone
      rw [List.length_append] at hfuel hlimit
      have hcount := Operation.length_le_tokens done
      exact takes_binary hbegins hread (by omega) (by omega) (heads_tokens hos hends) fun m e =>
        hdone n c.limit c m e behind (by omega) (by omega) (by omega) hends

/-! ## Assignments -/

theorem readsAssignment_value (h : IsChain ts) : ReadsAssignment ts := by
  intro n c returnTypes behind hfuel hlimit hends stop defaults spreads
  have hoperators : Heads EndsOperators behind := hends.imp fun _ => .operand
  obtain ⟨e, stop', hbinary, -⟩ := h.takes hfuel hlimit hoperators stop defaults spreads
  obtain ⟨m, hm⟩ := mark_ok c ⟨ts ++ behind, stop, defaults, spreads⟩
  exact ⟨e, stop', assignment_of_binary h.begins.at_append hbinary hm
    (assignmentRest_end m e hends), trivial⟩

theorem coverTarget_of_isTarget {e : Expr} (h : IsTarget e) (hlimit : 0 < c.limit) (cur : Cursor) :
    ∃ p, coverTarget e c cur = .ok (p, cur) := by
  obtain ⟨k, hk⟩ := Nat.exists_eq_add_of_lt hlimit
  cases h <;> simp [coverTarget, hk, patternOf?, Expr.simpleTarget?]

theorem readsAssignment_assign {place : Place} (hname : EndsInName ts)
    (hbegins : Heads BeginsOperand ts) (htarget : ReadsOperand ts) (hvalue : ReadsAssignment us) :
    ReadsAssignment (ts ++ plainToken (.punct .equal) place :: us) := by
  intro n c returnTypes behind hfuel hlimit hends stop defaults spreads
  simp only [List.length_append, List.length_cons] at hfuel hlimit
  obtain ⟨n, rfl⟩ : ∃ k, n = k + 1 := ⟨n - 1, by omega⟩
  have hequal : Heads EndsOperators (plainToken (.punct .equal) place :: (us ++ behind)) :=
    ⟨_, _, _, rfl, .assign⟩
  obtain ⟨e, stop₁, hleft, he⟩ := htarget (n + 1) c _ (by omega) (by omega)
    (hequal.imp fun _ => .operators) stop defaults spreads
  obtain ⟨value, stop₂, hright, -⟩ := hvalue n c returnTypes behind (by omega) (by omega) hends
    place.stop defaults spreads
  obtain ⟨m, hm⟩ := mark_ok c
    ⟨ts ++ plainToken (.punct .equal) place :: (us ++ behind), stop, defaults, spreads⟩
  obtain ⟨p, hp⟩ := coverTarget_of_isTarget (c := c) (he hname) (by omega)
    ⟨plainToken (.punct .equal) place :: (us ++ behind), stop₁, defaults, spreads⟩
  have hbinary := binary_of_leftHandSide hbegins.at_append hleft hequal (by omega)
    Precedence.comma.rank
  have hself : productions (n + 1) (.assignment returnTypes) =
      assignment (productions n) returnTypes := rfl
  have hoperator : operator? (plainToken (.punct .equal) place :: (us ++ behind)) =
      some (.assign none, 1) := rfl
  have hadvance : advanceBy 1 c
        ⟨plainToken (.punct .equal) place :: (us ++ behind), stop₁, defaults, spreads⟩ =
      .ok ((), ⟨us ++ behind, place.stop, defaults, spreads⟩) := rfl
  refine ⟨.assign ⟨m.start, stop₂, m.comments⟩ none p value, stop₂, ?_, trivial⟩
  rw [List.append_assoc]
  refine assignment_of_binary hbegins.at_append hbinary hm ?_
  simp [assignmentRest, bind_apply, atPunct_miss, assignmentTail, peekAll, hoperator, hp, hadvance,
    hself, hright, since, pure_apply]

end Reading

end Parser

end Syntax

end NgFile
