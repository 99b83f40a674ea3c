import NgFile.Proofs.StatementReading

/-!
# Reading plain classes

Classes whose members are protected fields, a constructor and methods without parameters, and
imports, both made of plain phrases.  A script of such imports with one such class at its end is
read as just these statements.
-/

namespace NgFile

namespace Syntax

namespace Parser

open Lexeme

/-! ## Members -/

inductive Members : List Token → Prop
  | none : Members []
  | field {text : Text} {word name stop : Place} {ts : List Token} (hname : text ≠ "constructor")
      (hgap : name.gap ≠ .newline) (hmore : Members ts) :
      Members (plainToken (.keyword .kwProtected false) word :: plainToken (.name text) name ::
        plainToken (.punct .semicolon) stop :: ts)
  | value {text : Text} {word name equal stop : Place} {ts us : List Token}
      (hname : text ≠ "constructor") (hgap : name.gap ≠ .newline) (hvalue : Phrase .assignment us)
      (hmore : Members ts) :
      Members (plainToken (.keyword .kwProtected false) word :: plainToken (.name text) name ::
        plainToken (.punct .equal) equal :: (us ++ plainToken (.punct .semicolon) stop :: ts))
  | constructor {key opening closing start stop : Place} {ts us : List Token}
      (hbody : Phrase .statements us) (hmore : Members ts) :
      Members (plainToken (.keyword .kwConstructor false) key ::
        plainToken (.punct .parenOpen) opening :: plainToken (.punct .parenClose) closing ::
          plainToken (.punct .braceOpen) start ::
            (us ++ plainToken (.punct .braceClose) stop :: ts))
  | method {text : Text} {key opening closing start stop : Place} {ts us : List Token}
      (hname : text ≠ "constructor") (hbody : Phrase .statements us) (hmore : Members ts) :
      Members (plainToken (.name text) key ::
        plainToken (.punct .parenOpen) opening :: plainToken (.punct .parenClose) closing ::
          plainToken (.punct .braceOpen) start ::
            (us ++ plainToken (.punct .braceClose) stop :: ts))

/-! ## Imports -/

inductive ImportBinding : List Token → Prop
  | name {text : Text} {place : Place} (hname : Keyword.ofText? text = none) :
      ImportBinding [plainToken (.name text) place]
  | renamed {outer inner : Text} {place word place' : Place}
      (hname : Keyword.ofText? inner = none) :
      ImportBinding [plainToken (.name outer) place, plainToken (.keyword .kwAs false) word,
        plainToken (.name inner) place']

inductive ImportBindings : List Token → Prop
  | last {ts : List Token} (h : ImportBinding ts) : ImportBindings ts
  | more {ts us : List Token} {comma : Place} (h : ImportBinding ts) (hmore : ImportBindings us) :
      ImportBindings (ts ++ plainToken (.punct .comma) comma :: us)

inductive ImportNames : List Token → Prop
  | none {opening closing : Place} :
      ImportNames [plainToken (.punct .braceOpen) opening, plainToken (.punct .braceClose) closing]
  | named {opening closing : Place} {ts : List Token} (h : ImportBindings ts) :
      ImportNames (plainToken (.punct .braceOpen) opening ::
        (ts ++ [plainToken (.punct .braceClose) closing]))
  | module {star word place : Place} {text : Text} :
      ImportNames [plainToken (.punct .star) star, plainToken (.keyword .kwAs false) word,
        plainToken (.name text) place]

inductive ImportClause : List Token → Prop
  | default {text : Text} {place : Place} : ImportClause [plainToken (.name text) place]
  | names {ts : List Token} (h : ImportNames ts) : ImportClause ts
  | both {text : Text} {place comma : Place} {ts : List Token} (h : ImportNames ts) :
      ImportClause (plainToken (.name text) place :: plainToken (.punct .comma) comma :: ts)

inductive Import : List Token → Prop
  | effect {word place stop : Place} {value : StringValue} :
      Import [plainToken (.keyword .kwImport false) word, plainToken (.string value) place,
        plainToken (.punct .semicolon) stop]
  | clause {word source place stop : Place} {value : StringValue} {ts : List Token}
      (h : ImportClause ts) :
      Import (plainToken (.keyword .kwImport false) word ::
        (ts ++ [plainToken (.keyword .kwFrom false) source, plainToken (.string value) place,
          plainToken (.punct .semicolon) stop]))

section Reading

variable {n : Nat} {c : Context} {m : Mark} {ts us behind : List Token}

theorem decorators_none {kind : TokenKind} (hkind : kind ≠ .punct .at) (self : Productions)
    (place : Place) (rest : List Token) (hlimit : 0 < c.limit) (stop : Nat)
    (defaults spreads : List Nat) :
    decorators self c ⟨plainToken kind place :: rest, stop, defaults, spreads⟩ =
      .ok ([], ⟨plainToken kind place :: rest, stop, defaults, spreads⟩) := by
  refine many_of_steps (.done ?_) hlimit
  simp [bind_apply, eat_miss hkind, pure_apply]

def protectedOnly : Modifiers :=
  { Modifiers.none with accessibility := some .isProtected }

def memberModifierStep (ms : Modifiers × Bool) : Parser (Option (Modifiers × Bool)) := do
  let next ← peekAhead 1
  if (← atWord .kwAsync) && followsModifier next && next.gap != .newline then
    require (!ms.2)
    let _ ← advance
    pure (some (ms.1, true))
  else
    match ← modifierStep ms.1 with
    | some more => pure (some (more, ms.2))
    | none => pure none

theorem memberModifiers_eq :
    memberModifiers = iterate memberModifierStep (Modifiers.none, false) := rfl

/-- What a member's key is: a name, or the constructor's word. -/
inductive IsMemberKey : TokenKind → Prop
  | name (text : Text) : IsMemberKey (.name text)
  | constructor : IsMemberKey (.keyword .kwConstructor false)

section Key

variable {kind : TokenKind} {key : Place} {rest : List Token} {stop : Nat}
variable {defaults spreads : List Nat}

/-- A key is no modifier. -/
theorem memberModifierStep_key (hkey : IsMemberKey kind) (ms : Modifiers × Bool) :
    memberModifierStep ms c ⟨plainToken kind key :: rest, stop, defaults, spreads⟩ =
      .ok (none, ⟨plainToken kind key :: rest, stop, defaults, spreads⟩) := by
  obtain ⟨next, hnext⟩ := peekAhead_ok 1 c ⟨plainToken kind key :: rest, stop, defaults, spreads⟩
  have hasync : isWord .kwAsync (plainToken kind key) = false := by cases hkey <;> rfl
  have hnone : modifierWord? (plainToken kind key) = none := by cases hkey <;> rfl
  simp [memberModifierStep, bind_apply, hnext, atWord, peek_cons, hasync, modifierStep, hnone,
    pure_apply]

theorem memberModifiers_none (hkey : IsMemberKey kind) (hlimit : 0 < c.limit) :
    memberModifiers c ⟨plainToken kind key :: rest, stop, defaults, spreads⟩ =
      .ok ((Modifiers.none, false), ⟨plainToken kind key :: rest, stop, defaults, spreads⟩) := by
  rw [memberModifiers_eq]
  exact iterate_none (memberModifierStep_key hkey _) hlimit

theorem memberModifiers_protected {word : Place} {text : Text} (hgap : key.gap ≠ .newline)
    (hlimit : 1 < c.limit) :
    memberModifiers c ⟨plainToken (.keyword .kwProtected false) word ::
        plainToken (.name text) key :: rest, stop, defaults, spreads⟩ =
      .ok ((protectedOnly, false),
        ⟨plainToken (.name text) key :: rest, word.stop, defaults, spreads⟩) := by
  have hnext : peekAhead 1 c ⟨plainToken (.keyword .kwProtected false) word ::
        plainToken (.name text) key :: rest, stop, defaults, spreads⟩ =
      .ok (plainToken (.name text) key, ⟨plainToken (.keyword .kwProtected false) word ::
        plainToken (.name text) key :: rest, stop, defaults, spreads⟩) := rfl
  have hasync : isWord .kwAsync (plainToken (.keyword .kwProtected false) word) = false := rfl
  have hword : modifierWord? (plainToken (.keyword .kwProtected false) word) =
      some .kwProtected := rfl
  have hfollows : followsModifier (plainToken (.name text) key) = true := rfl
  have hadvance : advance c ⟨plainToken (.keyword .kwProtected false) word ::
        plainToken (.name text) key :: rest, stop, defaults, spreads⟩ =
      .ok (plainToken (.keyword .kwProtected false) word,
        ⟨plainToken (.name text) key :: rest, word.stop, defaults, spreads⟩) := rfl
  have hwith : Modifiers.with? .none .kwProtected = some protectedOnly := rfl
  have hfirst : memberModifierStep (Modifiers.none, false) c
        ⟨plainToken (.keyword .kwProtected false) word :: plainToken (.name text) key :: rest, stop,
          defaults, spreads⟩ =
      .ok (some (protectedOnly, false),
        ⟨plainToken (.name text) key :: rest, word.stop, defaults, spreads⟩) := by
    simp [memberModifierStep, bind_apply, hnext, atWord, peek_cons, hasync, modifierStep, hword,
      hfollows, hgap, hadvance, hwith, pure_apply]
  rw [memberModifiers_eq]
  exact iterate_some hfirst (memberModifierStep_key (.name text) _) hlimit

/-- A member is what its key and what is behind it say, after its modifiers. -/
theorem classMember_of_key {self : Productions} {first : TokenKind} {place : Place}
    {front : List Token} {last : Nat} {ms : Modifiers} {member : Member} {after : Cursor}
    (hfirst : first ≠ .punct .at) (hlimit : 0 < c.limit)
    (hmodifiers : memberModifiers c ⟨plainToken first place :: front, last, defaults, spreads⟩ =
      .ok ((ms, false), ⟨plainToken kind key :: rest, stop, defaults, spreads⟩))
    (hdeclare : ms.isDeclare = false) (hkey : IsMemberKey kind)
    (h : methodOrField self ⟨place.start, []⟩ [] ms false c
      ⟨plainToken kind key :: rest, stop, defaults, spreads⟩ = .ok (member, after)) :
    classMember self c ⟨plainToken first place :: front, last, defaults, spreads⟩ =
      .ok (member, after) := by
  obtain ⟨next, hnext⟩ := peekAhead_ok 1 c ⟨plainToken kind key :: rest, stop, defaults, spreads⟩
  obtain ⟨third, hthird⟩ := peekAhead_ok 2 c ⟨plainToken kind key :: rest, stop, defaults, spreads⟩
  have hwords : isWord .kwGet (plainToken kind key) = false ∧
      isWord .kwSet (plainToken kind key) = false ∧
      isWord .kwStatic (plainToken kind key) = false ∧
      isPunct .bracketOpen (plainToken kind key) = false := by
    cases hkey <;> exact ⟨rfl, rfl, rfl, rfl⟩
  simp [classMember, bind_apply, mark_cons, decorators_none hfirst self place front hlimit,
    hmodifiers, atAccessor, peek_cons, hnext, hthird, hwords, atIndexer, within_apply, hdeclare, h,
    pure_apply]

end Key

/-! ## One member -/

theorem checkKey_name {text : Text} (hname : text ≠ "constructor") {ms : Modifiers}
    (hstatic : ms.isStatic = false) (loc : Loc) (isField : Bool) (cur : Cursor) :
    checkKey ms (.name ⟨loc, text⟩) isField c cur = .ok ((), cur) := by
  have hother : (text == "constructor".toList) = false := beq_false_of_ne hname
  simp only [checkKey, Key.written?, bind_apply, hother, hstatic, require, Bool.and_false,
    Bool.false_and, Bool.not_false, if_true, pure_apply]

section Field

variable {text : Text} {word name next : Place} {p : Punct} {rest : List Token} {last : Nat}
variable {defaults spreads : List Nat} {self : Productions}

/-- A protected field, whatever its value is. -/
theorem classMember_field (hname : text ≠ "constructor") (hgap : name.gap ≠ .newline)
    (hlimit : 1 < c.limit) (hp : p = .semicolon ∨ p = .equal) {value : Option Expr} {mid : Cursor}
    (hvalue : fieldValue self c
      ⟨plainToken (.punct p) next :: rest, name.stop, defaults, spreads⟩ = .ok (value, mid))
    {after : Cursor} (hend : semicolon c mid = .ok ((), after)) :
    classMember self c ⟨plainToken (.keyword .kwProtected false) word ::
        plainToken (.name text) name :: plainToken (.punct p) next :: rest, last, defaults,
          spreads⟩ =
      .ok (.field ⟨word.start, after.lastStop, []⟩ [] protectedOnly
        (.name ⟨⟨name.start, name.stop, []⟩, text⟩) false false none value, after) := by
  refine classMember_of_key (by simp) (Nat.lt_of_succ_lt hlimit)
    (memberModifiers_protected hgap hlimit) rfl (.name text) ?_
  have hkey (rest : List Token) : classKey self c
        ⟨plainToken (.name text) name :: rest, word.stop, defaults, spreads⟩ =
      .ok (.name ⟨⟨name.start, name.stop, []⟩, text⟩,
        ⟨rest, name.stop, defaults, spreads⟩) := rfl
  have hcheck := checkKey_name (c := c) hname (rfl : protectedOnly.isStatic = false)
    ⟨name.start, name.stop, []⟩ true
    ⟨plainToken (.punct p) next :: rest, name.stop, defaults, spreads⟩
  have hfits : protectedOnly.fitField = true ∧ protectedOnly.isAccessor = false ∧
      protectedOnly.isAbstract = false := ⟨rfl, rfl, rfl⟩
  have hcall : isPunct .parenOpen (plainToken (.punct p) next) = false ∧
      isPunct .less (plainToken (.punct p) next) = false := by
    rcases hp with rfl | rfl <;> exact ⟨rfl, rfl⟩
  have hmiss (q : Punct) (hq : q = .question ∨ q = .bang ∨ q = .colon) : eat q c
        ⟨plainToken (.punct p) next :: rest, name.stop, defaults, spreads⟩ =
      .ok (false, ⟨plainToken (.punct p) next :: rest, name.stop, defaults, spreads⟩) := by
    rcases hp with rfl | rfl <;> rcases hq with rfl | rfl | rfl <;> rfl
  have hstar (rest : List Token) (stop : Nat) : eat .star c
        ⟨plainToken (.name text) name :: rest, stop, defaults, spreads⟩ =
      .ok (false, ⟨plainToken (.name text) name :: rest, stop, defaults, spreads⟩) := rfl
  simp only [methodOrField, bind_apply, hstar, hkey, hmiss .question (.inl rfl), peek_cons, hcall,
    Bool.or_self, Bool.false_and, Bool.false_eq_true, if_false]
  simp only [classField, bind_apply, hcheck, hfits, require, Bool.not_false, Bool.false_and,
    Bool.and_self, if_true, Bool.false_eq_true, if_false, pure_apply,
    hmiss .bang (.inr (.inl rfl)), typeAnnotation, hmiss .colon (.inr (.inr rfl)), hvalue, hend,
    since]

end Field

theorem takes_field {text : Text} {word name stop : Place} (hname : text ≠ "constructor")
    (hgap : name.gap ≠ .newline) (hlimit : 1 < c.limit) (self : Productions) (behind : List Token) :
    Takes (classMember self) c
      [plainToken (.keyword .kwProtected false) word, plainToken (.name text) name,
        plainToken (.punct .semicolon) stop] behind fun _ => True := by
  intro last defaults spreads
  have hvalue : fieldValue self c
        ⟨plainToken (.punct .semicolon) stop :: behind, name.stop, defaults, spreads⟩ =
      .ok (none,
        ⟨plainToken (.punct .semicolon) stop :: behind, name.stop, defaults, spreads⟩) := by
    simp [fieldValue, bind_apply, eat_miss, pure_apply]
  exact ⟨_, _, classMember_field hname hgap hlimit (.inl rfl) hvalue rfl, trivial⟩

theorem takes_value {text : Text} {word name equal stop : Place} (hname : text ≠ "constructor")
    (hgap : name.gap ≠ .newline) (h : ReadsAssignment us) (hfuel : 2 * us.length < n)
    (hlimit : us.length + 1 < c.limit) (behind : List Token) :
    Takes (classMember (productions n)) c
      (plainToken (.keyword .kwProtected false) word :: plainToken (.name text) name ::
        plainToken (.punct .equal) equal :: (us ++ [plainToken (.punct .semicolon) stop]))
      behind fun _ => True := by
  intro last defaults spreads
  obtain ⟨n, rfl⟩ : ∃ k, n = k + 1 := ⟨n - 1, by omega⟩
  obtain ⟨e, stop₁, hvalue, -⟩ := h n (inField c) true
    (plainToken (.punct .semicolon) stop :: behind) (by omega)
    (Nat.lt_of_succ_lt hlimit) ⟨_, _, _, rfl, .semicolon⟩ equal.stop defaults spreads
  have hself : productions (n + 1) (.assignment true) = assignment (productions n) true := rfl
  have hfield : fieldValue (productions (n + 1)) c
        ⟨plainToken (.punct .equal) equal :: (us ++ plainToken (.punct .semicolon) stop :: behind),
          name.stop, defaults, spreads⟩ =
      .ok (some e, ⟨plainToken (.punct .semicolon) stop :: behind, stop₁, defaults, spreads⟩) := by
    simp [fieldValue, bind_apply, eat_hit, within_apply, hself, hvalue, pure_apply]
  simp only [List.cons_append, List.append_assoc, List.nil_append]
  exact ⟨_, _, classMember_field hname hgap (by omega) (.inr rfl) hfield rfl, trivial⟩

theorem takes_constructor {key opening closing start stop : Place} (h : ReadsStatements us)
    (hfuel : 2 * us.length + 3 ≤ n) (hlimit : us.length < c.limit) (hc : c.inAmbient = false)
    (behind : List Token) :
    Takes (classMember (productions n)) c
      (plainToken (.keyword .kwConstructor false) key :: plainToken (.punct .parenOpen) opening ::
        plainToken (.punct .parenClose) closing :: plainToken (.punct .braceOpen) start ::
          (us ++ [plainToken (.punct .braceClose) stop])) behind fun _ => True := by
  intro last defaults spreads
  obtain ⟨f, stop₁, htail, hnone⟩ := takes_functionTail (c := c) (n := n) .none h false .constructor
    none opening closing start stop behind hfuel (by simpa using hlimit) hc key.stop defaults
    spreads
  have hkey (rest : List Token) : classKey (productions n) c
        ⟨plainToken (.keyword .kwConstructor false) key :: rest, last, defaults, spreads⟩ =
      .ok (.name ⟨⟨key.start, key.stop, []⟩, "constructor"⟩,
        ⟨rest, key.stop, defaults, spreads⟩) := rfl
  have hcall : isPunct .parenOpen (plainToken (.punct .parenOpen) opening) = true := rfl
  refine ⟨.method ⟨key.start, stop₁, []⟩ [] .none .constructor
    (.name ⟨⟨key.start, key.stop, []⟩, "constructor"⟩) false f, stop₁, ?_, trivial⟩
  have hpositive : 0 < c.limit := Nat.lt_of_le_of_lt (Nat.zero_le _) hlimit
  simp only [List.cons_append, List.append_assoc, List.nil_append] at htail ⊢
  refine classMember_of_key (by simp) hpositive (memberModifiers_none .constructor hpositive) rfl
    .constructor ?_
  have hfits : Modifiers.none.fitConstructor = true ∧ Modifiers.none.isStatic = false := ⟨rfl, rfl⟩
  simp [methodOrField, bind_apply, eat_miss, hkey, peek_cons, hcall, Key.written?, hfits, require,
    constructorMember, htail, hnone, since, pure_apply]

theorem takes_method {text : Text} {key opening closing start stop : Place}
    (hname : text ≠ "constructor") (h : ReadsStatements us) (hfuel : 2 * us.length + 3 ≤ n)
    (hlimit : us.length < c.limit) (hc : c.inAmbient = false) (behind : List Token) :
    Takes (classMember (productions n)) c
      (plainToken (.name text) key :: plainToken (.punct .parenOpen) opening ::
        plainToken (.punct .parenClose) closing :: plainToken (.punct .braceOpen) start ::
          (us ++ [plainToken (.punct .braceClose) stop])) behind fun _ => True := by
  intro last defaults spreads
  obtain ⟨f, stop₁, htail, -⟩ := takes_functionTail (c := c) (n := n) .none h false .method none
    opening closing start stop behind hfuel (by simpa using hlimit) hc key.stop defaults spreads
  have hkey (rest : List Token) : classKey (productions n) c
        ⟨plainToken (.name text) key :: rest, last, defaults, spreads⟩ =
      .ok (.name ⟨⟨key.start, key.stop, []⟩, text⟩, ⟨rest, key.stop, defaults, spreads⟩) := rfl
  have hcall : isPunct .parenOpen (plainToken (.punct .parenOpen) opening) = true := rfl
  refine ⟨.method ⟨key.start, stop₁, []⟩ [] .none .method
    (.name ⟨⟨key.start, key.stop, []⟩, text⟩) false f, stop₁, ?_, trivial⟩
  have hpositive : 0 < c.limit := Nat.lt_of_le_of_lt (Nat.zero_le _) hlimit
  simp only [List.cons_append, List.append_assoc, List.nil_append] at htail ⊢
  refine classMember_of_key (by simp) hpositive (memberModifiers_none (.name text) hpositive) rfl
    (.name text) ?_
  have hother : (some text == some "constructor".toList) = false :=
    beq_false_of_ne fun h => hname (Option.some.inj h)
  have hcheck := checkKey_name (c := c) hname (rfl : Modifiers.none.isStatic = false)
    ⟨key.start, key.stop, []⟩ false
  have hfits : Modifiers.none.fitMethod = true ∧ Modifiers.none.isAbstract = false := ⟨rfl, rfl⟩
  have hstar (rest : List Token) (stop : Nat) : eat .star c
        ⟨plainToken (.name text) key :: rest, stop, defaults, spreads⟩ =
      .ok (false, ⟨plainToken (.name text) key :: rest, stop, defaults, spreads⟩) := rfl
  have hquestion (rest : List Token) (stop : Nat) : eat .question c
        ⟨plainToken (.punct .parenOpen) opening :: rest, stop, defaults, spreads⟩ =
      .ok (false, ⟨plainToken (.punct .parenOpen) opening :: rest, stop, defaults, spreads⟩) := rfl
  simp only [methodOrField, bind_apply, hstar, hkey, hquestion, peek_cons, hcall, Key.written?,
    hother, Bool.true_or, Bool.and_false, Bool.or_true, Bool.false_eq_true, if_false, if_true]
  simp only [classMethod, bind_apply, hcheck, hfits, require, if_true, htail, List.isEmpty_nil,
    Bool.false_and, Bool.not_false, Bool.true_or, Bool.and_self, since, pure_apply]

/-! ## All members -/

/-- One more member, or a semicolon; none in front of the closing brace. -/
def memberStep (self : Productions) : Parser (Option (Option Member)) := do
  if ← eat .semicolon then pure (some none)
  else if ← atPunct .braceClose then pure none
  else pure (some (some (← classMember self)))

theorem classMembers_eq (self : Productions) :
    classMembers self = (do
      expect .braceOpen
      let members ← many (memberStep self)
      expect .braceClose
      pure (members.filterMap id)) := rfl

def ReadsMembers (ts : List Token) : Prop :=
  ∀ (n : Nat) (c : Context) (closing : Place) (rest : List Token), 2 * ts.length + 3 ≤ n →
    ts.length + 1 < c.limit → c.inAmbient = false → ∀ stop defaults spreads, ∃ ms stop',
      Steps (memberStep (productions n)) c
        ⟨ts ++ plainToken (.punct .braceClose) closing :: rest, stop, defaults, spreads⟩ ms
        ⟨plainToken (.punct .braceClose) closing :: rest, stop', defaults, spreads⟩ ∧
      ms.length ≤ ts.length

theorem readsMembers_nil : ReadsMembers [] := by
  intro n c closing rest _ _ _ stop defaults spreads
  refine ⟨[], stop, .done ?_, Nat.le_refl _⟩
  simp [memberStep, bind_apply, eat_miss, atPunct_hit, pure_apply]

/-- A member in front of members. -/
theorem readsMembers_cons (place : Place) (front : List Token) {kind : TokenKind}
    (hpunct : ∀ p, kind ≠ .punct p) (hmore : ReadsMembers ts)
    (hfirst : ∀ (n : Nat) (c : Context) (behind : List Token), 2 * front.length + 5 ≤ n →
      front.length + 2 < c.limit → c.inAmbient = false →
        Takes (classMember (productions n)) c (plainToken kind place :: front) behind
          fun _ => True) :
    ReadsMembers (plainToken kind place :: (front ++ ts)) := by
  intro n c closing rest hfuel hlimit hc stop defaults spreads
  simp only [List.length_cons, List.length_append] at hfuel hlimit
  obtain ⟨member, stop₁, hmember, -⟩ := hfirst n c
    (ts ++ plainToken (.punct .braceClose) closing :: rest) (by omega) (by omega) hc stop defaults
    spreads
  obtain ⟨ms, stop₂, hsteps, hlength⟩ := hmore n c closing rest (by omega) (by omega) hc stop₁
    defaults spreads
  refine ⟨some member :: ms, stop₂, .more ?_ hsteps, ?_⟩
  · rw [List.cons_append, List.append_assoc]
    rw [List.cons_append] at hmember
    simp [memberStep, bind_apply, eat_miss, atPunct_miss, hpunct, hmember, pure_apply]
  · simp only [List.length_cons, List.length_append]
    omega

theorem Members.reads (h : Members ts) : ReadsMembers ts := by
  induction h with
  | none => exact readsMembers_nil
  | @field text word name stop ts hname hgap hmore ih =>
      exact readsMembers_cons word
        [plainToken (.name text) name, plainToken (.punct .semicolon) stop] (by simp) ih
        fun n c behind _ hlimit _ => takes_field hname hgap (by omega) _ behind
  | @value text word name equal stop ts us hname hgap hvalue hmore ih =>
      have hall := readsMembers_cons word (plainToken (.name text) name ::
        plainToken (.punct .equal) equal :: (us ++ [plainToken (.punct .semicolon) stop]))
        (by simp : ∀ p, TokenKind.keyword .kwProtected false ≠ .punct p) ih
        fun n c behind hfuel hlimit _ => by
          simp only [List.length_cons, List.length_append] at hfuel hlimit
          exact takes_value hname hgap hvalue.reads (by omega) (by omega) behind
      simpa only [List.cons_append, List.append_assoc, List.nil_append] using hall
  | @constructor key opening closing start stop ts us hbody hmore ih =>
      have hall := readsMembers_cons key (plainToken (.punct .parenOpen) opening ::
        plainToken (.punct .parenClose) closing :: plainToken (.punct .braceOpen) start ::
          (us ++ [plainToken (.punct .braceClose) stop]))
        (by simp : ∀ p, TokenKind.keyword .kwConstructor false ≠ .punct p) ih
        fun n c behind hfuel hlimit hc => by
          simp only [List.length_cons, List.length_append] at hfuel hlimit
          exact takes_constructor hbody.reads (by omega) (by omega) hc behind
      simpa only [List.cons_append, List.append_assoc, List.nil_append] using hall
  | @method text key opening closing start stop ts us hname hbody hmore ih =>
      have hall := readsMembers_cons key (plainToken (.punct .parenOpen) opening ::
        plainToken (.punct .parenClose) closing :: plainToken (.punct .braceOpen) start ::
          (us ++ [plainToken (.punct .braceClose) stop]))
        (by simp : ∀ p, TokenKind.name text ≠ .punct p) ih
        fun n c behind hfuel hlimit hc => by
          simp only [List.length_cons, List.length_append] at hfuel hlimit
          exact takes_method hname hbody.reads (by omega) (by omega) hc behind
      simpa only [List.cons_append, List.append_assoc, List.nil_append] using hall

/-! ## The class -/

/-- The statement that exports a class under a name, without comments in front of it. -/
inductive IsClassExport (name : Text) : Stmt → Prop
  | mk {loc inner nameLoc : Loc} {members : List Member} (hcomments : loc.comments = []) :
      IsClassExport name (.exportDefault loc
        (.classDecl inner (.mk [] false false (some ⟨nameLoc, name⟩) [] none [] [] members)))

theorem takes_classMembers (h : ReadsMembers ts) (opening closing : Place) (behind : List Token)
    (hfuel : 2 * ts.length + 3 ≤ n) (hlimit : ts.length + 1 < c.limit) (hc : c.inAmbient = false) :
    Takes (classMembers (productions n)) c
      (plainToken (.punct .braceOpen) opening :: (ts ++ [plainToken (.punct .braceClose) closing]))
      behind fun _ => True := by
  intro stop defaults spreads
  obtain ⟨ms, stop', hsteps, hlength⟩ :=
    h n c closing behind hfuel hlimit hc opening.stop defaults spreads
  have hmany := many_of_steps hsteps (by omega)
  refine ⟨ms.filterMap id, closing.stop, ?_, trivial⟩
  simp [classMembers_eq, bind_apply, expect_hit, hmany, pure_apply]

theorem takes_classDeclaration (text : Text) (word name opening closing : Place)
    (h : ReadsMembers ts) (behind : List Token) (hfuel : 2 * ts.length + 3 ≤ n)
    (hlimit : ts.length + 1 < c.limit) (hc : c.inAmbient = false) :
    Takes (classDeclaration (productions n) ⟨word.start, []⟩ [] false false) c
      (plainToken (.keyword .kwClass false) word :: plainToken (.name text) name ::
        plainToken (.punct .braceOpen) opening ::
          (ts ++ [plainToken (.punct .braceClose) closing])) behind fun s =>
      ∃ inner nameLoc members,
        s = .classDecl inner (.mk [] false false (some ⟨nameLoc, text⟩) [] none [] [] members) := by
  intro stop defaults spreads
  obtain ⟨ms, stop₁, hmembers, -⟩ := takes_classMembers h opening closing behind hfuel hlimit hc
    name.stop defaults spreads
  simp only [List.cons_append, List.append_assoc, List.nil_append] at hmembers ⊢
  generalize ts ++ plainToken (.punct .braceClose) closing :: behind = rest at hmembers ⊢
  have hword (rest : List Token) : expectWord .kwClass c
        ⟨plainToken (.keyword .kwClass false) word :: rest, stop, defaults, spreads⟩ =
      .ok ((), ⟨rest, word.stop, defaults, spreads⟩) := rfl
  have hname (rest : List Token) : bindingName c
        ⟨plainToken (.name text) name :: rest, word.stop, defaults, spreads⟩ =
      .ok (⟨⟨name.start, name.stop, []⟩, text⟩, ⟨rest, name.stop, defaults, spreads⟩) := rfl
  have hfirst : isName (plainToken (.name text) name) = true ∧
      isWord .kwImplements (plainToken (.name text) name) = false := ⟨rfl, rfl⟩
  have hmiss (k : Keyword) : eatWord k c
        ⟨plainToken (.punct .braceOpen) opening :: rest, name.stop, defaults, spreads⟩ =
      .ok (false,
        ⟨plainToken (.punct .braceOpen) opening :: rest, name.stop, defaults, spreads⟩) := rfl
  refine ⟨.classDecl ⟨word.start, stop₁, []⟩
    (.mk [] false false (some ⟨⟨name.start, name.stop, []⟩, text⟩) [] none [] [] ms), stop₁, ?_,
    _, _, _, rfl⟩
  simp [classDeclaration, classTail, bind_apply, hword, peek_cons, hfirst, hname, typeParams,
    eat_miss, baseClass, hmiss, within_apply, hmembers, since, pure_apply]

theorem takes_classExport {text : Text} {exported default word name opening closing : Place}
    (h : ReadsMembers ts) (behind : List Token) (hfuel : 2 * ts.length + 3 ≤ n)
    (hlimit : ts.length + 1 < c.limit) (hc : c.inAmbient = false) :
    Takes (statement (productions n) .listed) c
      (plainToken (.keyword .kwExport false) exported ::
        plainToken (.keyword .kwDefault false) default ::
          plainToken (.keyword .kwClass false) word :: plainToken (.name text) name ::
            plainToken (.punct .braceOpen) opening ::
              (ts ++ [plainToken (.punct .braceClose) closing])) behind (IsClassExport text) := by
  intro stop defaults spreads
  obtain ⟨_, stop₁, hclass, inner, nameLoc, ms, rfl⟩ := takes_classDeclaration text word name
    opening closing h behind hfuel hlimit hc default.stop defaults spreads
  simp only [List.cons_append, List.append_assoc, List.nil_append] at hclass ⊢
  generalize ts ++ plainToken (.punct .braceClose) closing :: behind = rest at hclass ⊢
  have hpositive : 0 < c.limit := by omega
  refine ⟨.exportDefault ⟨exported.start, stop₁, []⟩ (.classDecl inner
    (.mk [] false false (some ⟨nameLoc, text⟩) [] none [] [] ms)), stop₁, ?_, .mk rfl⟩
  refine statement_of_keyword ?_
  have hexported (rest : List Token) : expectWord .kwExport c
        ⟨plainToken (.keyword .kwExport false) exported :: rest, stop, defaults, spreads⟩ =
      .ok ((), ⟨rest, exported.stop, defaults, spreads⟩) := rfl
  have hdefault (rest : List Token) : expectWord .kwDefault c
        ⟨plainToken (.keyword .kwDefault false) default :: rest, exported.stop, defaults,
          spreads⟩ =
      .ok ((), ⟨rest, default.stop, defaults, spreads⟩) := rfl
  have hnext (t t' : Token) (rest : List Token) (stop : Nat) :
      peekAhead 1 c ⟨t :: t' :: rest, stop, defaults, spreads⟩ =
        .ok (t', ⟨t :: t' :: rest, stop, defaults, spreads⟩) := rfl
  have hwords : isWord .kwDefault (plainToken (.keyword .kwDefault false) default) = true ∧
      isWord .kwAbstract (plainToken (.keyword .kwClass false) word) = false ∧
      isWord .kwClass (plainToken (.keyword .kwClass false) word) = true := ⟨rfl, rfl, rfl⟩
  have hnone := decorators_none (by simp : TokenKind.keyword .kwClass false ≠ .punct .at)
    (productions n) word (plainToken (.name text) name ::
      plainToken (.punct .braceOpen) opening :: rest) hpositive default.stop defaults spreads
  simp [keywordStatement, bind_apply, mark_cons, hnext, exportDeclaration, hexported, peek_cons,
    hwords, exportDefault, hdefault, hnone, require, hclass, since, pure_apply]

/-! ## Imports -/

/-- An import, without comments in front of it. -/
inductive IsImport : Stmt → Prop
  | mk {loc : Loc} {decl : ImportDecl} (hcomments : loc.comments = []) :
      IsImport (.importDecl loc decl)

theorem takes_importBinding (h : ImportBinding ts) (p : Punct) (place : Place)
    (rest : List Token) :
    Takes moduleBinding c ts (plainToken (.punct p) place :: rest) fun b =>
      ModuleName.isBindable b.inner = true := by
  intro stop defaults spreads
  have hbindable {text : Text} (hname : Keyword.ofText? text = none) (loc : Loc) :
      ModuleName.isBindable (.ident ⟨loc, text⟩) = true := by
    simp [ModuleName.isBindable, hname]
  cases h with
  | @name text at_ hname =>
      let name : ModuleName := .ident ⟨⟨at_.start, at_.stop, []⟩, text⟩
      have hrun : moduleBinding c ⟨[plainToken (.name text) at_] ++
            plainToken (.punct p) place :: rest, stop, defaults, spreads⟩ =
          .ok (⟨false, name, name, false⟩,
            ⟨plainToken (.punct p) place :: rest, at_.stop, defaults, spreads⟩) := by
        obtain ⟨second, hsecond⟩ := peekAhead_ok 1 c
          ⟨plainToken (.name text) at_ :: plainToken (.punct p) place :: rest, stop, defaults,
            spreads⟩
        obtain ⟨third, hthird⟩ := peekAhead_ok 2 c
          ⟨plainToken (.name text) at_ :: plainToken (.punct p) place :: rest, stop, defaults,
            spreads⟩
        obtain ⟨fourth, hfourth⟩ := peekAhead_ok 3 c
          ⟨plainToken (.name text) at_ :: plainToken (.punct p) place :: rest, stop, defaults,
            spreads⟩
        have hword : isWord .kwType (plainToken (.name text) at_) = false := rfl
        have hfirst : moduleName c ⟨plainToken (.name text) at_ ::
              plainToken (.punct p) place :: rest, stop, defaults, spreads⟩ =
            .ok (name, ⟨plainToken (.punct p) place :: rest, at_.stop, defaults, spreads⟩) := rfl
        have halias : bindingAlias name false c
              ⟨plainToken (.punct p) place :: rest, at_.stop, defaults, spreads⟩ =
            .ok (⟨false, name, name, false⟩,
              ⟨plainToken (.punct p) place :: rest, at_.stop, defaults, spreads⟩) := rfl
        simp [moduleBinding, bind_apply, peek_cons, hsecond, hthird, hfourth, hword, hfirst, halias]
      exact ⟨_, _, hrun, hbindable hname _⟩
  | @renamed outer inner at_ word at' hname =>
      exact ⟨⟨false, .ident ⟨⟨at_.start, at_.stop, []⟩, outer⟩,
        .ident ⟨⟨at'.start, at'.stop, []⟩, inner⟩, true⟩, at'.stop, rfl, hbindable hname _⟩

theorem atPunct_importBinding (h : ImportBinding ts) (rest : List Token) (stop : Nat)
    (defaults spreads : List Nat) :
    atPunct .braceClose c ⟨ts ++ rest, stop, defaults, spreads⟩ =
      .ok (false, ⟨ts ++ rest, stop, defaults, spreads⟩) := by
  cases h <;> rfl

theorem items_importBindings (h : ImportBindings ts) (closing : Place) (rest : List Token)
    (stop : Nat) (defaults spreads : List Nat) :
    ∃ bs stop', Items .braceClose moduleBinding c
        ⟨ts ++ plainToken (.punct .braceClose) closing :: rest, stop, defaults, spreads⟩ bs
        ⟨plainToken (.punct .braceClose) closing :: rest, stop', defaults, spreads⟩ ∧
      bs.length ≤ ts.length ∧ ∀ b ∈ bs, ModuleName.isBindable b.inner = true := by
  induction h generalizing stop with
  | @last ts h =>
      obtain ⟨b, stop', hrun, hb⟩ := takes_importBinding (c := c) h .braceClose closing rest stop
        defaults spreads
      have hlength : 1 ≤ ts.length := by cases h <;> simp
      exact ⟨[b], stop', .last (atPunct_importBinding h _ _ _ _) hrun, hlength, by simpa using hb⟩
  | @more ts us comma h hmore ih =>
      obtain ⟨b, stop₁, hrun, hb⟩ := takes_importBinding (c := c) h .comma comma
        (us ++ plainToken (.punct .braceClose) closing :: rest) stop defaults spreads
      obtain ⟨bs, stop₂, hitems, hlength, hbs⟩ := ih comma.stop
      refine ⟨b :: bs, stop₂, ?_, ?_, List.forall_mem_cons.2 ⟨hb, hbs⟩⟩
      · rw [List.append_assoc, List.cons_append]
        exact .more (atPunct_importBinding h _ _ _ _) hrun hitems
      · simp only [List.length_cons, List.length_append]
        omega

theorem takes_importNames (h : ImportNames ts) (default : Option Name) (behind : List Token)
    (hlimit : ts.length < c.limit) :
    Takes (importClause false default) c ts behind fun _ => True := by
  intro stop defaults spreads
  have hnamed (bs : List ModuleBinding) (opening closing : Place) (ts : List Token) (stop' : Nat)
      (hlist : commaList .braceClose moduleBinding c
          ⟨ts ++ plainToken (.punct .braceClose) closing :: behind, opening.stop, defaults,
            spreads⟩ =
        .ok ((bs, false), ⟨plainToken (.punct .braceClose) closing :: behind, stop', defaults,
          spreads⟩))
      (hbs : ∀ b ∈ bs, ModuleName.isBindable b.inner = true) :
      importClause false default c
          ⟨plainToken (.punct .braceOpen) opening ::
            (ts ++ plainToken (.punct .braceClose) closing :: behind), stop, defaults, spreads⟩ =
        .ok (⟨default, none, some bs⟩, ⟨behind, closing.stop, defaults, spreads⟩) := by
    have hbindings : moduleBindings false c ⟨plainToken (.punct .braceOpen) opening ::
          (ts ++ plainToken (.punct .braceClose) closing :: behind), stop, defaults, spreads⟩ =
        .ok (bs, ⟨behind, closing.stop, defaults, spreads⟩) := by
      simp [moduleBindings, bind_apply, expect_hit, hlist, require, pure_apply]
    have hall : (bs.all fun b => ModuleName.isBindable b.inner) = true := List.all_eq_true.2 hbs
    simp only [importClause, bind_apply, require, Bool.false_and, Bool.not_false, if_true,
      eat_miss (by simp : TokenKind.punct .braceOpen ≠ .punct .star), hbindings, hall, pure_apply,
      Bool.false_eq_true, if_false]
  cases h with
  | @none opening closing =>
      have hpositive : 0 < c.limit := Nat.lt_of_le_of_lt (Nat.zero_le _) hlimit
      exact ⟨_, _, hnamed [] opening closing [] opening.stop
        (commaList_nil _ _ closing behind hpositive opening.stop defaults spreads) (by simp),
        trivial⟩
  | @named opening closing ts h =>
      obtain ⟨bs, stop', hitems, hlength, hbs⟩ :=
        items_importBindings (c := c) h closing behind opening.stop defaults spreads
      simp only [List.length_cons, List.length_append] at hlimit
      have hlist := commaList_of_items (by decide) hitems (by omega)
      simp only [List.cons_append, List.append_assoc, List.nil_append]
      exact ⟨_, _, hnamed bs opening closing ts stop' hlist hbs, trivial⟩
  | @module star word place text =>
      exact ⟨⟨default, some ⟨⟨place.start, place.stop, []⟩, text⟩, none⟩, place.stop,
        by cases default <;> rfl, trivial⟩

/-- The bindings of an import follow its first word, or its default binding and a comma. -/
theorem takes_importTail (h : ImportNames ts) (m : Mark) (default : Option Name)
    (comma source place last : Place) (value : StringValue) (behind : List Token)
    (hlimit : ts.length < c.limit) :
    Takes (importTail m false .evaluation default) c
      ((if default.isSome then [plainToken (.punct .comma) comma] else []) ++
        (ts ++ [plainToken (.keyword .kwFrom false) source, plainToken (.string value) place,
          plainToken (.punct .semicolon) last]))
      behind fun s => ∃ decl, s = .importDecl ⟨m.start, last.stop, m.comments⟩ decl := by
  intro stop defaults spreads
  have hclause (stop : Nat) := takes_importNames (c := c) h default
    (plainToken (.keyword .kwFrom false) source :: plainToken (.string value) place ::
      plainToken (.punct .semicolon) last :: behind) hlimit stop defaults spreads
  have hfrom (stop : Nat) (rest : List Token) : expectWord .kwFrom c
        ⟨plainToken (.keyword .kwFrom false) source :: rest, stop, defaults, spreads⟩ =
      .ok ((), ⟨rest, source.stop, defaults, spreads⟩) := rfl
  have hsource : moduleSource c ⟨plainToken (.string value) place ::
        plainToken (.punct .semicolon) last :: behind, source.stop, defaults, spreads⟩ =
      .ok (⟨value, none⟩,
        ⟨plainToken (.punct .semicolon) last :: behind, place.stop, defaults, spreads⟩) := rfl
  have hend : semicolon c
        ⟨plainToken (.punct .semicolon) last :: behind, place.stop, defaults, spreads⟩ =
      .ok ((), ⟨behind, last.stop, defaults, spreads⟩) := rfl
  cases default with
  | none =>
      obtain ⟨clause, stop', hrun, -⟩ := hclause stop
      refine ⟨_, last.stop, ?_, ⟨false, .evaluation, some clause, ⟨value, none⟩⟩, rfl⟩
      simp [importTail, bind_apply, hrun, hfrom, hsource, hend, since, pure_apply]
  | some name =>
      obtain ⟨clause, stop', hrun, -⟩ := hclause comma.stop
      refine ⟨_, last.stop, ?_, ⟨false, .evaluation, some clause, ⟨value, none⟩⟩, rfl⟩
      simp [importTail, bind_apply, eat_hit, hrun, hfrom, hsource, hend, since, pure_apply]

/-- An import from behind its first word on, without a modifier. -/
def importRest (m : Mark) : Parser Stmt := do
  if isName (← peek) then
    let name ← bindingName
    if ← atPunct .equal then importEquals m false name
    else importTail m false .evaluation (some name)
  else importTail m false .evaluation none

theorem statement_import {word : Place} {kind : TokenKind} {first : Place} {rest : List Token}
    {stop : Nat} {defaults spreads : List Nat} {s : Stmt} {after : Cursor} {self : Productions}
    (hkind : (∃ text, kind = .name text) ∨ kind = .punct .braceOpen ∨ kind = .punct .star)
    (h : importRest ⟨word.start, []⟩ c
      ⟨plainToken kind first :: rest, word.stop, defaults, spreads⟩ = .ok (s, after)) :
    statement self .listed c ⟨plainToken (.keyword .kwImport false) word ::
      plainToken kind first :: rest, stop, defaults, spreads⟩ = .ok (s, after) := by
  refine statement_of_keyword ?_
  obtain ⟨second, hsecond⟩ := peekAhead_ok 1 c
    ⟨plainToken kind first :: rest, word.stop, defaults, spreads⟩
  obtain ⟨third, hthird⟩ := peekAhead_ok 2 c
    ⟨plainToken kind first :: rest, word.stop, defaults, spreads⟩
  have hnext : peekAhead 1 c ⟨plainToken (.keyword .kwImport false) word ::
        plainToken kind first :: rest, stop, defaults, spreads⟩ =
      .ok (plainToken kind first, ⟨plainToken (.keyword .kwImport false) word ::
        plainToken kind first :: rest, stop, defaults, spreads⟩) := rfl
  have hword : expectWord .kwImport c ⟨plainToken (.keyword .kwImport false) word ::
        plainToken kind first :: rest, stop, defaults, spreads⟩ =
      .ok ((), ⟨plainToken kind first :: rest, word.stop, defaults, spreads⟩) := rfl
  have hmarks : isPunct .parenOpen (plainToken kind first) = false ∧
      isPunct .dot (plainToken kind first) = false := by
    obtain ⟨text, rfl⟩ | rfl | rfl := hkind <;> exact ⟨rfl, rfl⟩
  have hwords : isWord .kwType (plainToken kind first) = false ∧
      isWord .kwDefer (plainToken kind first) = false ∧
      isWord .kwSource (plainToken kind first) = false := by
    obtain ⟨text, rfl⟩ | rfl | rfl := hkind <;> exact ⟨rfl, rfl, rfl⟩
  rw [← h]
  obtain ⟨text, rfl⟩ | rfl | rfl := hkind <;>
    simp [keywordStatement, bind_apply, mark_cons, hnext, hmarks, importDeclaration, hword,
      peek_cons, atTypeImport, hsecond, hthird, hwords, importPhase, importRest, pure_apply]

theorem ImportNames.head (h : ImportNames ts) :
    ∃ kind place rest, ts = plainToken kind place :: rest ∧
      (kind = .punct .braceOpen ∨ kind = .punct .star) := by
  cases h with
  | none | named => exact ⟨_, _, _, rfl, .inl rfl⟩
  | module => exact ⟨_, _, _, rfl, .inr rfl⟩

theorem takes_import (h : Import ts) (self : Productions) (behind : List Token)
    (hlimit : ts.length < c.limit) :
    Takes (statement self .listed) c ts behind IsImport := by
  intro stop defaults spreads
  cases h with
  | effect => exact ⟨_, _, statement_of_keyword rfl, .mk rfl⟩
  | @clause word source place last value ts h =>
      simp only [List.length_cons, List.length_append] at hlimit
      cases h with
      | default => exact ⟨_, _, statement_of_keyword rfl, .mk rfl⟩
      | names h =>
          obtain ⟨s, stop₁, hrun, decl, rfl⟩ := takes_importTail (c := c) h ⟨word.start, []⟩ none
            word source place last value behind (by omega) word.stop defaults spreads
          obtain ⟨kind, first, rest, rfl, hkind⟩ := h.head
          refine ⟨.importDecl ⟨word.start, last.stop, []⟩ decl, stop₁, ?_, .mk rfl⟩
          have hname : isName (plainToken kind first) = false := by
            rcases hkind with rfl | rfl <;> rfl
          refine statement_import (.inr hkind) ?_
          simpa [importRest, bind_apply, peek_cons, hname] using hrun
      | @both text name comma ts h =>
          rw [List.length_cons, List.length_cons] at hlimit
          obtain ⟨s, stop₁, hrun, decl, rfl⟩ := takes_importTail (c := c) h ⟨word.start, []⟩
            (some ⟨⟨name.start, name.stop, []⟩, text⟩) comma source place last value behind
            (by omega) name.stop defaults spreads
          refine ⟨.importDecl ⟨word.start, last.stop, []⟩ decl, stop₁, ?_, .mk rfl⟩
          have hname : isName (plainToken (.name text) name) = true := rfl
          have hbinding (rest : List Token) : bindingName c
                ⟨plainToken (.name text) name :: rest, word.stop, defaults, spreads⟩ =
              .ok (⟨⟨name.start, name.stop, []⟩, text⟩, ⟨rest, name.stop, defaults, spreads⟩) := rfl
          refine statement_import (.inl ⟨text, rfl⟩) ?_
          simpa [importRest, bind_apply, peek_cons, hname, hbinding, atPunct_miss] using hrun

end Reading

/-! ## Whole scripts -/

inductive Imports : List Token → Prop
  | none : Imports []
  | more {ts us : List Token} (h : Import ts) (hmore : Imports us) : Imports (ts ++ us)

inductive ClassExport (text : Text) : List Token → Prop
  | mk {exported default word name opening closing : Place} {ts : List Token}
      (hmembers : Members ts) :
      ClassExport text (plainToken (.keyword .kwExport false) exported ::
        plainToken (.keyword .kwDefault false) default ::
          plainToken (.keyword .kwClass false) word :: plainToken (.name text) name ::
            plainToken (.punct .braceOpen) opening ::
              (ts ++ [plainToken (.punct .braceClose) closing]))

section Scripts

variable {n : Nat} {c : Context} {ts us : List Token} {source text : Text} {t : Token}

theorem topStep_of_takes {behind : List Token} {P : TokenKind → Prop} {Q : Stmt → Prop}
    (hbegins : Heads P ts) (hstop : ∀ kind, P kind → kind ≠ .stop)
    (h : Takes (statement (productions n) .listed) c ts behind Q) (stop : Nat)
    (defaults spreads : List Nat) :
    ∃ s stop', topStep (productions (n + 1)) c ⟨ts ++ behind, stop, defaults, spreads⟩ =
      .ok (some s, ⟨behind, stop', defaults, spreads⟩) ∧ Q s := by
  obtain ⟨s, stop', hrun, hs⟩ := h stop defaults spreads
  obtain ⟨kind, place, rest, rfl, hkind⟩ := hbegins
  exact ⟨s, stop', topStep_of_statement (hstop kind hkind) hrun, hs⟩

theorem Import.heads (h : Import ts) : Heads (· = .keyword .kwImport false) ts := by
  cases h <;> exact ⟨_, _, _, rfl, rfl⟩

/-- Imports, and the class at the end of the script. -/
theorem steps_script (himports : Imports ts) (hclass : ClassExport text us)
    (hfuel : 2 * us.length + 3 ≤ n) (hlimit : ts.length + us.length < c.limit)
    (hc : c.inAmbient = false) (ht : t.kind = .stop) (stop : Nat) (defaults spreads : List Nat) :
    ∃ ss s stop', Steps (topStep (productions (n + 1))) c
        ⟨ts ++ (us ++ [t]), stop, defaults, spreads⟩ (ss ++ [s])
        ⟨[t], stop', defaults, spreads⟩ ∧
      ss.length ≤ ts.length ∧ (∀ x ∈ ss, IsImport x) ∧ IsClassExport text s := by
  induction himports generalizing stop with
  | none =>
      cases hclass with
      | mk hmembers =>
          simp only [List.length_cons, List.length_append, List.length_nil] at hfuel hlimit
          obtain ⟨s, stop', hrun, hs⟩ := topStep_of_takes (P := (· = .keyword .kwExport false))
            ⟨_, _, _, rfl, rfl⟩ (by rintro _ rfl; simp)
            (takes_classExport (n := n) hmembers.reads [t] (by omega) (by omega) hc) stop defaults
            spreads
          exact ⟨[], s, stop', .more hrun (.done (topStep_stop t ht)), Nat.le_refl _, by simp, hs⟩
  | @more ts rest h hmore ih =>
      rw [List.length_append] at hlimit
      obtain ⟨s₁, stop₁, hrun, hs₁⟩ := topStep_of_takes (n := n) h.heads (by rintro _ rfl; simp)
        (takes_import (c := c) h (productions n) (rest ++ (us ++ [t])) (by omega)) stop defaults
        spreads
      obtain ⟨ss, s, stop', hsteps, hlength, hss, hs⟩ := ih (by omega) stop₁
      have hpositive : 0 < ts.length := by
        obtain ⟨_, _, _, rfl, -⟩ := h.heads
        exact Nat.succ_pos _
      refine ⟨s₁ :: ss, s, stop', ?_, ?_, List.forall_mem_cons.2 ⟨hs₁, hss⟩, hs⟩
      · rw [List.append_assoc]
        exact .more hrun hsteps
      · rw [List.length_cons, List.length_append]
        omega

theorem splitDirectives_script {ss : List Stmt} {s : Stmt} (hss : ∀ x ∈ ss, IsImport x)
    (hs : IsClassExport text s) : splitDirectives source (ss ++ [s]) = ([], ss ++ [s]) := by
  cases ss with
  | nil =>
      cases hs
      rfl
  | cons x more =>
      have hx := hss x List.mem_cons_self
      cases hx
      rfl

/-- A script of imports and a class is read as these. -/
theorem parse_script (htokens : tokens source = ts ++ (us ++ [t])) (ht : t.kind = .stop)
    (hlength : ts.length + us.length ≤ source.length) (himports : Imports ts)
    (hclass : ClassExport text us) :
    ∃ program ss s, Program.parse source = .ok program ∧ program.directives = [] ∧
      program.body = ss ++ [s] ∧ (∀ x ∈ ss, IsImport x) ∧ IsClassExport text s := by
  have hpositive : 0 < us.length := by
    cases hclass
    exact Nat.succ_pos _
  obtain ⟨ss, s, stop', hsteps, hcount, hss, hs⟩ := steps_script
    (n := 8 * source.length + 63) (c := topContext source) himports hclass (by omega)
    (Nat.lt_succ_of_le hlength) rfl ht 0 [] []
  rw [← htokens] at hsteps
  have hparse := parse_of_steps hsteps (by
    rw [List.length_append, List.length_singleton]
    omega)
  rw [splitDirectives_script hss hs] at hparse
  exact ⟨_, ss, s, hparse, rfl, rfl, hss, hs⟩

/-- A script of one call is read. -/
theorem parse_expression {kind : TokenKind} {place last : Place} (hbegins : BeginsStatement kind)
    (h : Phrase .assignment (plainToken kind place :: ts))
    (htokens : tokens source = plainToken kind place ::
      (ts ++ [plainToken (.punct .semicolon) last]) ++ [t]) (ht : t.kind = .stop)
    (hlength : ts.length + 2 ≤ source.length) :
    ∃ program, Program.parse source = .ok program := by
  have hread : ReadsAssignment (plainToken kind place :: ts) := h.reads
  obtain ⟨s, stop', hrun, -⟩ := topStep_of_takes (P := BeginsStatement) ⟨_, _, _, rfl, hbegins⟩
    (by rintro _ ⟨⟩ <;> simp) (takes_expressionStatement (n := 8 * source.length + 63)
      (c := topContext source) hbegins hread (.semicolon last [t]) (by omega)
      (Nat.lt_succ_of_le (by omega))) 0 [] []
  rw [← htokens] at hrun
  exact ⟨_, parse_of_steps (.more hrun (.done (topStep_stop t ht))) (by
    rw [List.length_singleton]
    omega)⟩

end Scripts

end Parser

end Syntax

end NgFile
