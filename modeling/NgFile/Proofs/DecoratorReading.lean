import NgFile.Proofs.OperandReading

/-!
# Reading decorator calls

A decorator call with one object literal, whose values are single operands: its
lexemes, its tree, and that the tree is what the parsers yield for the lexemes.
-/

namespace NgFile

open Syntax Syntax.Parser Lexeme

/-- A metadata value that generated text writes out. -/
inductive PlainValue
  | yes
  /-- A string in single quotes without escapes. -/
  | quoted (body : Text)
  | member (object property : Text)
  /-- A text as a template literal. -/
  | template (t : Text)

structure PlainEntry where
  key : Text
  value : PlainValue

namespace PlainValue

def lexemes : PlainValue → List Lexeme
  | yes => [.keyword .kwTrue]
  | quoted body => [.string body]
  | member object property => [.name object, .mark .dot, .name property]
  | template t => [.template t]

def length (v : PlainValue) : Nat :=
  (texts v.lexemes).length

def tree (pos : Nat) (v : PlainValue) : Expr :=
  match v with
  | yes => .bool ⟨pos, pos + v.length, []⟩ true
  | quoted body => .string ⟨pos, pos + v.length, []⟩ ⟨body, false⟩
  | member object property =>
      let dot := pos + object.length
      .member ⟨pos, pos + v.length, []⟩ (.ident ⟨pos, dot, []⟩ object) false
        ⟨⟨dot + 1, pos + v.length, []⟩, property⟩
  | template t =>
      .template ⟨pos, pos + v.length, []⟩ [Literal.ofTemplateRun (Scaffold.escapeTemplate t)] []

theorem loc_tree (pos : Nat) (v : PlainValue) : (v.tree pos).loc = ⟨pos, pos + v.length, []⟩ := by
  cases v <;> rfl

theorem length_quoted (body : Text) : (quoted body).length = (Lexeme.string body).text.length := by
  simp [length, lexemes, texts]

theorem length_member (object property : Text) :
    (member object property).length = object.length + 1 + property.length := by
  simp [length, lexemes, texts, text, markChar?]
  omega

theorem length_template (t : Text) :
    (template t).length = (Lexeme.template t).text.length := by
  simp [length, lexemes, texts]

end PlainValue

namespace PlainEntry

def lexemes (e : PlainEntry) : List Lexeme :=
  .name e.key :: .mark .colon :: .space :: e.value.lexemes

def length (e : PlainEntry) : Nat :=
  (texts e.lexemes).length

def property (pos : Nat) (e : PlainEntry) : Property :=
  .pair ⟨pos, pos + e.length, []⟩ (.name ⟨⟨pos, pos + e.key.length, []⟩, e.key⟩)
    (e.value.tree (pos + e.key.length + 2))

def listLexemes : List PlainEntry → List Lexeme
  | [] => []
  | [e] => e.lexemes
  | e :: more => e.lexemes ++ (.mark .comma :: .newline :: .space :: .space :: listLexemes more)

def properties (pos : Nat) : List PlainEntry → List Property
  | [] => []
  | e :: more => e.property pos :: properties (pos + e.length + 4) more

theorem length_eq (e : PlainEntry) : e.length = e.key.length + 2 + e.value.length := by
  simp only [length, lexemes, length_texts_cons, text, markChar?, PlainValue.length,
    Option.toList_some, List.length_singleton]
  omega

theorem listLexemes_cons (e e' : PlainEntry) (more : List PlainEntry) :
    listLexemes (e :: e' :: more) =
      e.lexemes ++
        (.mark .comma :: .newline :: .space :: .space :: listLexemes (e' :: more)) := rfl

theorem length_listLexemes_cons (e e' : PlainEntry) (more : List PlainEntry) :
    (texts (listLexemes (e :: e' :: more))).length =
      e.length + 4 + (texts (listLexemes (e' :: more))).length := by
  rw [listLexemes_cons, texts_append, List.length_append, length]
  simp only [length_texts_cons, text, markChar?, Option.toList_some, List.length_singleton]
  omega

theorem length_properties (pos : Nat) (es : List PlainEntry) :
    (properties pos es).length = es.length := by
  induction es generalizing pos with
  | nil => rfl
  | cons e more ih => simp [properties, ih]

end PlainEntry

def objectLexemes (es : List PlainEntry) : List Lexeme :=
  .mark .braceOpen :: .newline :: .space :: .space ::
    (PlainEntry.listLexemes es ++ [.newline, .mark .braceClose])

def objectLength (es : List PlainEntry) : Nat :=
  (texts (objectLexemes es)).length

def objectTree (pos : Nat) (es : List PlainEntry) : Expr :=
  .object ⟨pos, pos + objectLength es, []⟩ (PlainEntry.properties (pos + 4) es)

def callLexemes (name : Text) (es : List PlainEntry) : List Lexeme :=
  .name name :: .mark .parenOpen :: (objectLexemes es ++ [.mark .parenClose])

def callLength (name : Text) (es : List PlainEntry) : Nat :=
  (texts (callLexemes name es)).length

def callTree (pos : Nat) (name : Text) (es : List PlainEntry) : Expr :=
  .call ⟨pos, pos + callLength name es, []⟩ (.ident ⟨pos, pos + name.length, []⟩ name) false []
    [objectTree (pos + name.length + 1) es] [] false

theorem objectLength_eq (es : List PlainEntry) :
    objectLength es = 4 + (texts (PlainEntry.listLexemes es)).length + 2 := by
  simp only [objectLength, objectLexemes, length_texts_cons, texts_append, List.length_append,
    text, markChar?, Option.toList_some, List.length_singleton]
  simp only [texts, List.flatMap_nil, List.length_nil]
  omega

theorem callLength_eq (name : Text) (es : List PlainEntry) :
    callLength name es = name.length + 1 + objectLength es + 1 := by
  simp only [callLength, callLexemes, objectLength, length_texts_cons, texts_append,
    List.length_append, text, markChar?, Option.toList_some, List.length_singleton]
  simp only [texts, List.flatMap_nil, List.length_nil]
  omega

/-! ## Values and entries -/

section Reading

variable {self : Productions} {c : Context} {gap : Gap} {pos n stop : Nat} {t : Token}
variable {rest : List Token} {defaults spreads : List Nat}

theorem begins_value (v : PlainValue) :
    At BeginsOperand ⟨tokensOf gap pos v.lexemes ++ t :: rest, stop, defaults, spreads⟩ := by
  cases v with
  | yes => exact ⟨_, _, _, rfl, .yes⟩
  | quoted body => exact ⟨_, _, _, rfl, .string _⟩
  | member object property => exact ⟨_, _, _, rfl, .name _⟩
  | template text => exact ⟨_, _, _, rfl, .template _ _⟩

theorem leftHandSide_value (v : PlainValue)
    (hends : At EndsOperand ⟨t :: rest, pos + v.length, defaults, spreads⟩)
    (hlimit : 1 < c.limit) :
    leftHandSide self c ⟨tokensOf gap pos v.lexemes ++ t :: rest, stop, defaults, spreads⟩ =
      .ok (v.tree pos, ⟨t :: rest, pos + v.length, defaults, spreads⟩) := by
  have hpositive : 0 < c.limit := by omega
  cases v with
  | yes => exact leftHandSide_of_primary primary_true hends.operators.links hpositive
  | quoted body =>
      simp only [PlainValue.tree, PlainValue.length_quoted] at hends ⊢
      exact leftHandSide_of_primary (primary_string ⟨body, false⟩) hends.operators.links
        hpositive
  | member object property =>
      simp only [PlainValue.tree, PlainValue.length_member, ← Nat.add_assoc] at hends ⊢
      exact leftHandSide_of_link (primary_name object) (link_member _ _ property) hends hlimit
  | template text =>
      simp only [PlainValue.tree, PlainValue.length_template] at hends ⊢
      exact leftHandSide_of_primary (primary_template (isSome_cooked_escapeTemplate text))
        hends.operators.links hpositive

theorem assignment_value (v : PlainValue)
    (hends : At EndsOperand ⟨t :: rest, pos + v.length, defaults, spreads⟩)
    (hlimit : 1 < c.limit) :
    productions (n + 1) (.assignment true) c
        ⟨tokensOf gap pos v.lexemes ++ t :: rest, stop, defaults, spreads⟩ =
      .ok (v.tree pos, ⟨t :: rest, pos + v.length, defaults, spreads⟩) :=
  assignment_of_leftHandSide (begins_value v) (leftHandSide_value v hends hlimit) hends
    (by omega) true

theorem property_entry (e : PlainEntry)
    (hends : At EndsOperand ⟨t :: rest, pos + e.length, defaults, spreads⟩)
    (hlimit : 1 < c.limit) :
    property (productions (n + 1)) c
        ⟨tokensOf gap pos e.lexemes ++ t :: rest, stop, defaults, spreads⟩ =
      .ok (e.property pos, ⟨t :: rest, pos + e.length, defaults, spreads⟩) := by
  have hlength : pos + e.length = pos + e.key.length + 2 + e.value.length := by
    rw [e.length_eq]
    omega
  simp only [PlainEntry.property, hlength] at hends ⊢
  exact property_pair (assignment_value e.value hends hlimit)

theorem begins_entry (e : PlainEntry) {p : Punct} :
    atPunct p c ⟨tokensOf gap pos e.lexemes ++ t :: rest, stop, defaults, spreads⟩ =
      .ok (false, ⟨tokensOf gap pos e.lexemes ++ t :: rest, stop, defaults, spreads⟩) :=
  atPunct_miss (by simp)

/-- The entries of an object literal are the items between its braces. -/
theorem items_entries {es : List PlainEntry} (hes : es ≠ []) {place : Place}
    (hlimit : 1 < c.limit) :
    Items .braceClose (property (productions (n + 1))) c
      ⟨tokensOf gap pos (PlainEntry.listLexemes es) ++
        plainToken (.punct .braceClose) place :: rest, stop, defaults, spreads⟩
      (PlainEntry.properties pos es)
      ⟨plainToken (.punct .braceClose) place :: rest,
        pos + (texts (PlainEntry.listLexemes es)).length, defaults, spreads⟩ := by
  induction es generalizing gap pos stop with
  | nil => exact absurd rfl hes
  | cons e more ih =>
      cases more with
      | nil =>
          exact .last (begins_entry e) (property_entry e ⟨_, _, _, rfl, .braceClose⟩ hlimit)
      | cons e' more =>
          have htokens : tokensOf gap pos (PlainEntry.listLexemes (e :: e' :: more)) =
              tokensOf gap pos e.lexemes ++
                plainToken (.punct .comma)
                    ⟨pos + e.length, pos + e.length + 1, gapOf gap e.lexemes⟩ ::
                  tokensOf .newline (pos + e.length + 4)
                    (PlainEntry.listLexemes (e' :: more)) := by
            rw [PlainEntry.listLexemes_cons, tokensOf_append]
            rfl
          have hlength : pos + (texts (PlainEntry.listLexemes (e :: e' :: more))).length =
              pos + e.length + 4 + (texts (PlainEntry.listLexemes (e' :: more))).length := by
            rw [PlainEntry.length_listLexemes_cons]
            omega
          rw [htokens, hlength, List.append_assoc]
          refine .more (begins_entry e) (property_entry e ⟨_, _, _, rfl, .comma⟩ hlimit) ?_
          exact ih (by simp)

/-- An object literal of entries is read as its entries. -/
theorem assignment_object {es : List PlainEntry} (hes : es ≠ [])
    (hends : At EndsOperand ⟨t :: rest, pos + objectLength es, defaults, spreads⟩)
    (hlimit : es.length + 1 < c.limit) :
    productions (n + 2) (.assignment true) c
        ⟨tokensOf gap pos (objectLexemes es) ++ t :: rest, stop, defaults, spreads⟩ =
      .ok (objectTree pos es, ⟨t :: rest, pos + objectLength es, defaults, spreads⟩) := by
  generalize hinner : pos + 4 + (texts (PlainEntry.listLexemes es)).length = inner
  have hlength : pos + objectLength es = inner + 2 := by
    rw [objectLength_eq]
    omega
  have htokens : tokensOf gap pos (objectLexemes es) =
      plainToken (.punct .braceOpen) ⟨pos, pos + 1, gap⟩ ::
        (tokensOf .newline (pos + 4) (PlainEntry.listLexemes es) ++
          [plainToken (.punct .braceClose) ⟨inner + 1, inner + 2, .newline⟩]) := by
    rw [← hinner]
    exact congrArg _ (tokensOf_append _ _ _ _)
  have hcount : (PlainEntry.properties (pos + 4) es).length < c.limit := by
    rw [PlainEntry.length_properties]
    omega
  have hitems : Items .braceClose (property (productions (n + 1))) (nested c)
      ⟨tokensOf .newline (pos + 4) (PlainEntry.listLexemes es) ++
        plainToken (.punct .braceClose) ⟨inner + 1, inner + 2, .newline⟩ :: t :: rest, pos + 1,
        defaults, spreads⟩
      (PlainEntry.properties (pos + 4) es)
      ⟨plainToken (.punct .braceClose) ⟨inner + 1, inner + 2, .newline⟩ :: t :: rest, inner,
        defaults, spreads⟩ := by
    have hpositive : 0 < es.length := List.length_pos_iff.2 hes
    have hlimit' : 1 < (nested c).limit := by
      change 1 < c.limit
      omega
    rw [← hinner]
    exact items_entries hes hlimit'
  rw [htokens, objectTree]
  rw [hlength] at hends ⊢
  simp only [List.cons_append, List.nil_append, List.append_assoc]
  have hprimary := primary_object ⟨pos, pos + 1, gap⟩ ⟨inner + 1, inner + 2, .newline⟩ stop
    hitems hcount
  have hleft := leftHandSide_of_primary hprimary hends.operators.links (by omega)
  exact assignment_of_leftHandSide ⟨_, _, _, rfl, .object⟩ hleft hends (by omega) true

/-- A decorator call is read as the call of its name with its entries. -/
theorem leftHandSide_decoratorCall (name : Text) {es : List PlainEntry} (hes : es ≠ [])
    (hends : At EndsOperand ⟨t :: rest, pos + callLength name es, defaults, spreads⟩)
    (hlimit : es.length + 1 < c.limit) :
    leftHandSide (productions (n + 2)) c
        ⟨tokensOf gap pos (callLexemes name es) ++ t :: rest, stop, defaults, spreads⟩ =
      .ok (callTree pos name es, ⟨t :: rest, pos + callLength name es, defaults, spreads⟩) := by
  generalize hinner : pos + name.length + 1 + objectLength es = inner
  have hlength : pos + callLength name es = inner + 1 := by
    rw [callLength_eq]
    omega
  generalize hbrace : gapOf .nothing (objectLexemes es) = brace
  have htokens : tokensOf gap pos (callLexemes name es) =
      plainToken (.name name) ⟨pos, pos + name.length, gap⟩ ::
        plainToken (.punct .parenOpen) ⟨pos + name.length, pos + name.length + 1, .nothing⟩ ::
          (tokensOf .nothing (pos + name.length + 1) (objectLexemes es) ++
            [plainToken (.punct .parenClose) ⟨inner, inner + 1, brace⟩]) := by
    rw [← hinner, ← hbrace]
    exact congrArg (_ :: _ :: ·) (tokensOf_append _ _ _ _)
  have hobject : productions (n + 2) (.assignment true) (nested c)
      ⟨tokensOf .nothing (pos + name.length + 1) (objectLexemes es) ++
        plainToken (.punct .parenClose) ⟨inner, inner + 1, brace⟩ :: t :: rest,
        pos + name.length + 1, defaults, spreads⟩ =
      .ok (objectTree (pos + name.length + 1) es,
        ⟨plainToken (.punct .parenClose) ⟨inner, inner + 1, brace⟩ :: t :: rest, inner,
          defaults, spreads⟩) := by
    rw [← hinner]
    exact assignment_object hes ⟨_, _, _, rfl, .parenClose⟩ hlimit
  rw [htokens, callTree]
  rw [hlength] at hends ⊢
  simp only [List.cons_append, List.nil_append, List.append_assoc]
  have hlimit' : 1 < c.limit := by omega
  have harguments := arguments_single
    ⟨pos + name.length, pos + name.length + 1, .nothing⟩ ⟨inner, inner + 1, brace⟩
    (pos + name.length) ⟨_, _, _, rfl, .object⟩ hobject hlimit'
  exact leftHandSide_of_link (primary_name name) (link_call _ harguments) hends hlimit'

end Reading

end NgFile
