import NgFile.Proofs.ParserRun

/-!
# Reading operands

An operand that stands alone between punctuators is what the whole chain of
expression parsers yields: no operator, link or arrow function begins with what
follows it.  From single operands come members, calls with one argument, and object
literals.
-/

namespace NgFile

namespace Syntax

namespace Parser

open Lexeme

variable {self : Productions} {c : Context} {cur mid after : Cursor} {e : Expr}

/-! ## Where operands begin and end -/

inductive BeginsOperand : TokenKind → Prop
  | name (text : Text) : BeginsOperand (.name text)
  | yes : BeginsOperand (.keyword .kwTrue false)
  | no : BeginsOperand (.keyword .kwFalse false)
  | null : BeginsOperand (.keyword .kwNull false)
  | this : BeginsOperand (.keyword .kwThis false)
  | number (value : Double) : BeginsOperand (.number value)
  | string (value : StringValue) : BeginsOperand (.string value)
  | template (more : Bool) (chunk : TemplateChunk) : BeginsOperand (.template true more chunk)
  | object : BeginsOperand (.punct .braceOpen)
  | array : BeginsOperand (.punct .bracketOpen)

/-- The operators between operands whose marks stand for nothing else behind an operand. -/
inductive IsOperator : Punct → Prop
  | plus : IsOperator .plus
  | minus : IsOperator .minus
  | star : IsOperator .star
  | percent : IsOperator .percent
  | equal : IsOperator .equalEqual
  | notEqual : IsOperator .bangEqual
  | identical : IsOperator .equalEqualEqual
  | notIdentical : IsOperator .bangEqualEqual
  | and : IsOperator .ampAmp
  | or : IsOperator .barBar

/--
What ends an assignment: a mark that closes it or sets it apart, or a word that begins the next
statement.
-/
inductive EndsOperand : TokenKind → Prop
  | comma : EndsOperand (.punct .comma)
  | braceClose : EndsOperand (.punct .braceClose)
  | bracketClose : EndsOperand (.punct .bracketClose)
  | parenClose : EndsOperand (.punct .parenClose)
  | semicolon : EndsOperand (.punct .semicolon)
  | name (text : Text) : EndsOperand (.name text)
  | this : EndsOperand (.keyword .kwThis false)
  | constWord : EndsOperand (.keyword .kwConst false)
  | letWord : EndsOperand (.keyword .kwLet false)
  | varWord : EndsOperand (.keyword .kwVar false)
  | returnWord : EndsOperand (.keyword .kwReturn false)
  | functionWord : EndsOperand (.keyword .kwFunction false)
  | asyncWord : EndsOperand (.keyword .kwAsync false)
  | exportWord : EndsOperand (.keyword .kwExport false)
  | stop : EndsOperand .stop

inductive EndsOperators : TokenKind → Prop
  | operand {kind : TokenKind} (h : EndsOperand kind) : EndsOperators kind
  | assign : EndsOperators (.punct .equal)
  | arrow : EndsOperators (.punct .arrow)

inductive EndsLinks : TokenKind → Prop
  | operators {kind : TokenKind} (h : EndsOperators kind) : EndsLinks kind
  | operator {p : Punct} (h : IsOperator p) : EndsLinks (.punct p)

def Heads (P : TokenKind → Prop) (ts : List Token) : Prop :=
  ∃ kind place rest, ts = plainToken kind place :: rest ∧ P kind

def At (P : TokenKind → Prop) (cur : Cursor) : Prop :=
  Heads P cur.rest

theorem Heads.imp {P Q : TokenKind → Prop} {ts : List Token} (h : Heads P ts)
    (himp : ∀ kind, P kind → Q kind) : Heads Q ts := by
  obtain ⟨kind, place, rest, hts, hkind⟩ := h
  exact ⟨kind, place, rest, hts, himp kind hkind⟩

theorem Heads.append {P : TokenKind → Prop} {ts : List Token} (h : Heads P ts)
    (us : List Token) : Heads P (ts ++ us) := by
  obtain ⟨kind, place, rest, rfl, hkind⟩ := h
  exact ⟨kind, place, rest ++ us, rfl, hkind⟩

theorem Heads.at_append {P : TokenKind → Prop} {ts us : List Token} {stop : Nat}
    {defaults spreads : List Nat} (h : Heads P ts) :
    At P ⟨ts ++ us, stop, defaults, spreads⟩ :=
  h.append us

theorem At.operators (h : At EndsOperand cur) : At EndsOperators cur :=
  Heads.imp h fun _ => .operand

theorem At.links (h : At EndsOperators cur) : At EndsLinks cur :=
  Heads.imp h fun _ => .operators

theorem not_punct_of_beginsOperand (h : At BeginsOperand cur) {p : Punct} (hp : p ≠ .braceOpen)
    (hp' : p ≠ .bracketOpen) :
    ∃ kind place rest, cur.rest = plainToken kind place :: rest ∧ kind ≠ .punct p := by
  obtain ⟨kind, place, rest, hrest, hkind⟩ := h
  refine ⟨kind, place, rest, hrest, ?_⟩
  rintro rfl
  cases hkind with
  | object => exact hp rfl
  | array => exact hp' rfl

theorem atPunct_of_beginsOperand (h : At BeginsOperand cur) {p : Punct} (hp : p ≠ .braceOpen)
    (hp' : p ≠ .bracketOpen) :
    atPunct p c cur = .ok (false, cur) := by
  obtain ⟨kind, place, rest, hrest, hkind⟩ := not_punct_of_beginsOperand h hp hp'
  obtain ⟨_, stop, defaults, spreads⟩ := cur
  cases hrest
  exact atPunct_miss hkind

theorem eat_of_beginsOperand (h : At BeginsOperand cur) {p : Punct} (hp : p ≠ .braceOpen)
    (hp' : p ≠ .bracketOpen) :
    eat p c cur = .ok (false, cur) := by
  simp [eat, bind_apply, atPunct_of_beginsOperand h hp hp', pure_apply]

/-! ## What ends an operand adds nothing to it -/

theorem link_end (self : Productions) (m : Mark) (links : Links) (h : At EndsLinks cur) :
    link self m links c cur = .ok (none, cur) := by
  obtain ⟨_, stop, defaults, spreads⟩ := cur
  obtain ⟨kind, place, rest, rfl, hkind⟩ := h
  cases hkind with
  | operators h =>
      cases h with
      | operand h => cases h <;> cases rest <;> rfl
      | assign | arrow => cases rest <;> rfl
  | operator h => cases h <;> cases rest <;> rfl

theorem binaryStep_end (self : Productions) (m : Mark) (above : Nat) (left : Expr)
    (h : At EndsOperators cur) : binaryStep self m above left c cur = .ok (none, cur) := by
  obtain ⟨_, stop, defaults, spreads⟩ := cur
  obtain ⟨kind, place, rest, rfl, hkind⟩ := h
  cases hkind with
  | operand h => cases h <;> rfl
  | assign | arrow => rfl

theorem assignmentTail_end (self : Productions) (m : Mark) (left : Expr) (returnTypes : Bool)
    (h : At EndsOperand cur) :
    assignmentTail self m left returnTypes c cur = .ok (left, cur) := by
  obtain ⟨_, stop, defaults, spreads⟩ := cur
  obtain ⟨kind, place, rest, rfl, hkind⟩ := h
  cases hkind <;> rfl

/-! ## From an operand with links to an assignment -/

theorem atOperandWord_ok (c : Context) (cur : Cursor) :
    ∃ b, atOperandWord c cur = .ok (b, cur) := by
  obtain ⟨t, ht⟩ := peekAhead_ok 1 c cur
  refine ⟨(isAnyWord t || isLiteralStart t) && t.gap != .newline, ?_⟩
  simp only [atOperandWord, bind_apply, ht, pure_apply]

theorem updateExpression_of_leftHandSide (hbegins : At BeginsOperand cur)
    (h : leftHandSide self c cur = .ok (e, after)) (hends : At EndsLinks after) :
    updateExpression self c cur = .ok (e, after) := by
  obtain ⟨_, stop, defaults, spreads⟩ := cur
  obtain ⟨_, stop', defaults', spreads'⟩ := after
  obtain ⟨kind, place, rest, rfl, hkind⟩ := hbegins
  obtain ⟨next, place', rest', rfl, hnext⟩ := hends
  have hfirst : isPunct .plusPlus (plainToken kind place) = false ∧
      isPunct .minusMinus (plainToken kind place) = false := by
    cases hkind <;> exact ⟨rfl, rfl⟩
  have hlast : isPunct .plusPlus (plainToken next place') = false ∧
      isPunct .minusMinus (plainToken next place') = false := by
    cases hnext with
    | operators hends =>
        cases hends with
        | operand hoperand => cases hoperand <;> exact ⟨rfl, rfl⟩
        | assign | arrow => exact ⟨rfl, rfl⟩
    | operator hoperator => cases hoperator <;> exact ⟨rfl, rfl⟩
  simp [updateExpression, bind_apply, mark_cons, peek_cons, pure_apply, hfirst, hlast, h]

theorem unary_of_leftHandSide (hbegins : At BeginsOperand cur)
    (h : leftHandSide self c cur = .ok (e, after)) (hends : At EndsLinks after) :
    unary self c cur = .ok (e, after) := by
  rw [← updateExpression_of_leftHandSide hbegins h hends]
  obtain ⟨_, stop, defaults, spreads⟩ := cur
  obtain ⟨kind, place, rest, rfl, hkind⟩ := hbegins
  cases hkind <;> rfl

/-- Operands joined by operators begin with one of them. -/
theorem binary_of_unary {above : Nat} (hbegins : At BeginsOperand cur)
    (h : unary self c cur = .ok (e, mid)) {m : Mark} (hmark : mark c cur = .ok (m, cur))
    {left : Expr} (hsteps : iterate (binaryStep self m above) e c mid = .ok (left, after)) :
    binary self above c cur = .ok (left, after) := by
  obtain ⟨_, stop, defaults, spreads⟩ := cur
  obtain ⟨kind, place, rest, rfl, hkind⟩ := hbegins
  cases hkind <;> simp [binary, bind_apply, hmark, peek_cons, pure_apply, h, hsteps]

theorem binary_of_leftHandSide (hbegins : At BeginsOperand cur)
    (h : leftHandSide self c cur = .ok (e, after)) (hends : At EndsOperators after)
    (hlimit : 0 < c.limit) (above : Nat) : binary self above c cur = .ok (e, after) := by
  obtain ⟨m, hmark⟩ := mark_ok c cur
  exact binary_of_unary hbegins (unary_of_leftHandSide hbegins h hends.links) hmark
    (iterate_none (binaryStep_end self m above e hends) hlimit)

/-- An assignment from after its first operands on, up to which it is no arrow function. -/
def assignmentRest (self : Productions) (returnTypes : Bool) (m : Mark) (left : Expr) :
    Parser Expr := do
  match left, ← atPunct .arrow with
  | .ident loc text, true => bareArrow self m false ⟨loc, text⟩ returnTypes
  | _, _ => assignmentTail self m left returnTypes

theorem unmarkedAssignment_eq (self : Productions) (returnTypes : Bool) :
    unmarkedAssignment self returnTypes = (do
      let m ← mark
      let token ← peek
      let c ← context
      if isWord .kwYield token && c.inYield then yieldExpression self
      else if isWord .kwYield token && (← atOperandWord) then fail
      else
        match ← possibleArrow self returnTypes with
        | some e => pure e
        | none =>
            if ← atAsyncArrow then
              expectWord .kwAsync
              let name ← within (fun c => { c with inAwait := true }) bindingName
              bareArrow self m true name returnTypes
            else
              let left ← binary self Precedence.comma.rank
              assignmentRest self returnTypes m left) := rfl

/-- What begins with an operand is no arrow function with parentheses, and nothing delegated. -/
theorem assignment_of_binary {left : Expr} (hbegins : At BeginsOperand cur)
    (h : binary self Precedence.comma.rank c cur = .ok (left, mid)) {returnTypes : Bool}
    {m : Mark} (hmark : mark c cur = .ok (m, cur)) {result : Expr}
    (hrest : assignmentRest self returnTypes m left c mid = .ok (result, after)) :
    assignment self returnTypes c cur = .ok (result, after) := by
  obtain ⟨b, hword⟩ := atOperandWord_ok c cur
  obtain ⟨next, hnext⟩ := peekAhead_ok 1 c cur
  obtain ⟨third, hthird⟩ := peekAhead_ok 2 c cur
  obtain ⟨_, stop, defaults, spreads⟩ := cur
  obtain ⟨kind, place, rest, rfl, hkind⟩ := hbegins
  have hyield : isWord .kwYield (plainToken kind place) = false := by
    cases hkind <;> rfl
  have hasync : isWord .kwAsync (plainToken kind place) = false := by
    cases hkind <;> rfl
  have hguess : guessArrow (plainToken kind place :: rest) = .no := by
    cases hkind <;> rfl
  simp [assignment, unmarkedAssignment_eq, bind_apply, hmark, peek_cons, pure_apply, context,
    hyield, hword, possibleArrow, peekAll, hguess, atAsyncArrow, hnext, hthird, atWord, hasync,
    h, hrest]

theorem atPunct_arrow_of_endsOperand (h : At EndsOperand cur) :
    atPunct .arrow c cur = .ok (false, cur) := by
  obtain ⟨_, stop, defaults, spreads⟩ := cur
  obtain ⟨kind, place, rest, rfl, hkind⟩ := h
  cases hkind <;> rfl

/-- Operands with operators are an assignment, if what follows ends it. -/
theorem assignmentRest_end {returnTypes : Bool} (m : Mark) (left : Expr)
    (hends : At EndsOperand after) :
    assignmentRest self returnTypes m left c after = .ok (left, after) := by
  have htail := assignmentTail_end (c := c) self m left returnTypes hends
  simp [assignmentRest, bind_apply, atPunct_arrow_of_endsOperand hends, htail]

/-- An operand with its links is an assignment, if what follows ends it. -/
theorem assignment_of_leftHandSide (hbegins : At BeginsOperand cur)
    (h : leftHandSide self c cur = .ok (e, after)) (hends : At EndsOperand after)
    (hlimit : 0 < c.limit) (returnTypes : Bool) :
    assignment self returnTypes c cur = .ok (e, after) := by
  obtain ⟨m, hmark⟩ := mark_ok c cur
  exact assignment_of_binary hbegins
    (binary_of_leftHandSide hbegins h hends.operators hlimit Precedence.comma.rank) hmark
    (assignmentRest_end m e hends)

/-! ## Single operands and their links -/

section Links

variable {place place' : Place} {rest rest' : List Token} {stop stop' : Nat}
variable {defaults spreads defaults' spreads' : List Nat}

theorem primary_string (value : StringValue) :
    primary self c ⟨plainToken (.string value) place :: rest, stop, defaults, spreads⟩ =
      .ok (.string ⟨place.start, place.stop, []⟩ value,
        ⟨rest, place.stop, defaults, spreads⟩) := rfl

theorem primary_template {chunk : TemplateChunk} (hchunk : chunk.cooked.isSome = true) :
    primary self c
        ⟨plainToken (.template true false chunk) place :: rest, stop, defaults, spreads⟩ =
      .ok (.template ⟨place.start, place.stop, []⟩ [chunk] [],
        ⟨rest, place.stop, defaults, spreads⟩) := by
  have hany : anyTemplate (nestedExpression self) c
      ⟨plainToken (.template true false chunk) place :: rest, stop, defaults, spreads⟩ =
      .ok (([chunk], []), ⟨rest, place.stop, defaults, spreads⟩) := rfl
  simp [primary, bind_apply, mark_cons, peek_cons, template, hany, require, hchunk, pure_apply,
    since]

theorem primary_true :
    primary self c ⟨plainToken (.keyword .kwTrue false) place :: rest, stop, defaults, spreads⟩ =
      .ok (.bool ⟨place.start, place.stop, []⟩ true,
        ⟨rest, place.stop, defaults, spreads⟩) := by
  cases rest <;> rfl

theorem primary_name (text : Text) :
    primary self c ⟨plainToken (.name text) place :: rest, stop, defaults, spreads⟩ =
      .ok (.ident ⟨place.start, place.stop, []⟩ text,
        ⟨rest, place.stop, defaults, spreads⟩) := rfl

theorem leftHandSide_of_primary (h : primary self c cur = .ok (e, after))
    (hends : At EndsLinks after) (hlimit : 0 < c.limit) :
    leftHandSide self c cur = .ok (e, after) := by
  obtain ⟨m, hm⟩ := mark_ok c cur
  have hend := iterate_none (link_end (c := c) self m (e, false) hends) hlimit
  simp [leftHandSide, bind_apply, hm, h, hend, pure_apply]

theorem leftHandSide_of_link {first : Expr} {t : Token}
    (hprimary : primary self c ⟨t :: rest, stop, defaults, spreads⟩ = .ok (first, mid))
    (hlink : link self ⟨t.start, t.comments⟩ (first, false) c mid = .ok (some (e, false), after))
    (hends : At EndsOperand after) (hlimit : 1 < c.limit) :
    leftHandSide self c ⟨t :: rest, stop, defaults, spreads⟩ = .ok (e, after) := by
  have hstop := link_end (c := c) self ⟨t.start, t.comments⟩ (e, false)
    hends.operators.links
  have hend := iterate_some hlink hstop hlimit
  simp [leftHandSide, bind_apply, mark_cons, hprimary, hend, pure_apply]

theorem link_member (m : Mark) (first : Expr) (name : Text) :
    link self m (first, false) c
        ⟨plainToken (.punct .dot) place :: plainToken (.name name) place' :: rest, stop,
          defaults, spreads⟩ =
      .ok (some (.member ⟨m.start, place'.stop, m.comments⟩ first false
        ⟨⟨place'.start, place'.stop, []⟩, name⟩, false),
        ⟨rest, place'.stop, defaults, spreads⟩) := rfl

theorem arguments_single (opening closing : Place) (stop : Nat)
    (hbegins : At BeginsOperand ⟨rest, opening.stop, defaults, spreads⟩)
    (h : self (.assignment true) (nested c) ⟨rest, opening.stop, defaults, spreads⟩ =
      .ok (e, ⟨plainToken (.punct .parenClose) closing :: rest', stop', defaults', spreads'⟩))
    (hlimit : 1 < c.limit) :
    arguments self c ⟨plainToken (.punct .parenOpen) opening :: rest, stop, defaults, spreads⟩ =
      .ok (([e], []), ⟨rest', closing.stop, defaults', spreads'⟩) := by
  have hdots := eat_of_beginsOperand (c := nested c) (p := .ellipsis) hbegins (by decide)
    (by decide)
  have hstart := atPunct_of_beginsOperand (c := nested c) (p := .parenClose) hbegins (by decide)
    (by decide)
  have hitem : spreadOrAssignment self (nested c) ⟨rest, opening.stop, defaults, spreads⟩ =
      .ok (e,
        ⟨plainToken (.punct .parenClose) closing :: rest', stop', defaults', spreads'⟩) := by
    obtain ⟨m, hm⟩ := mark_ok (nested c) ⟨rest, opening.stop, defaults, spreads⟩
    simp [spreadOrAssignment, bind_apply, hm, hdots, nestedAssignment, within_apply,
      nested_nested, h]
  have hlist := commaList_of_items (c := nested c) (by decide) (Items.last hstart hitem) hlimit
  simp [arguments, bind_apply, expect_hit, pure_apply, within_apply, hlist, peek_cons]

theorem link_call {text : Text} {loc : Loc} {args : List Expr} (m : Mark)
    (h : arguments self c ⟨plainToken (.punct .parenOpen) place :: rest, stop, defaults, spreads⟩ =
      .ok ((args, []), ⟨rest', stop', defaults', spreads'⟩)) :
    link self m (.ident loc text, false) c
        ⟨plainToken (.punct .parenOpen) place :: rest, stop, defaults, spreads⟩ =
      .ok
        (some (.call ⟨m.start, stop', m.comments⟩ (.ident loc text) false [] args [] false, false),
        ⟨rest', stop', defaults', spreads'⟩) := by
  have hmember : memberLink self m true (.ident loc text, false) c
        ⟨plainToken (.punct .parenOpen) place :: rest, stop, defaults, spreads⟩ =
      .ok (none, ⟨plainToken (.punct .parenOpen) place :: rest, stop, defaults, spreads⟩) := by
    cases rest <;> rfl
  have hoptional : eat .questionDot c
        ⟨plainToken (.punct .parenOpen) place :: rest, stop, defaults, spreads⟩ =
      .ok (false, ⟨plainToken (.punct .parenOpen) place :: rest, stop, defaults, spreads⟩) := rfl
  simp [link, bind_apply, hmember, hoptional, atPunct_hit, callLink, h, since, pure_apply]

/-! ## Array literals -/

def element (self : Productions) : Parser Expr := do
  if ← atPunct .comma then
    let token ← peek
    pure (.hole ⟨token.start, token.start, []⟩)
  else spreadOrAssignment self

theorem arrayLiteral_eq (self : Productions) :
    arrayLiteral self = (do
      let m ← mark
      expect .bracketOpen
      let (elements, comma) ← commaList .bracketClose (element self)
      expect .bracketClose
      if comma && endsInSpread elements then noteSpreadComma m
      pure (.array (← since m) elements)) := rfl

theorem primary_array {elements : List Expr} {rest' : List Token} {stop' : Nat}
    {defaults' spreads' : List Nat} (opening closing : Place) (stop : Nat)
    (h : Items .bracketClose (element self) c ⟨rest, opening.stop, defaults, spreads⟩ elements
      ⟨plainToken (.punct .bracketClose) closing :: rest', stop', defaults', spreads'⟩)
    (hlimit : elements.length < c.limit) :
    primary self c ⟨plainToken (.punct .bracketOpen) opening :: rest, stop, defaults, spreads⟩ =
      .ok (.array ⟨opening.start, closing.stop, []⟩ elements,
        ⟨rest', closing.stop, defaults', spreads'⟩) := by
  have hlist := commaList_of_items (by decide) h hlimit
  have harray : primary self c
        ⟨plainToken (.punct .bracketOpen) opening :: rest, stop, defaults, spreads⟩ =
      arrayLiteral self c
        ⟨plainToken (.punct .bracketOpen) opening :: rest, stop, defaults, spreads⟩ := rfl
  rw [harray]
  simp [arrayLiteral_eq, bind_apply, mark_cons, expect_hit, pure_apply, hlist, since]

/-! ## Object literals -/

theorem property_pair {key : Text}
    (h : self (.assignment true) (nested c) ⟨rest, place'.stop, defaults, spreads⟩ =
      .ok (e, ⟨rest', stop', defaults', spreads'⟩)) :
    property self c
        ⟨plainToken (.name key) place :: plainToken (.punct .colon) place' :: rest, stop,
          defaults, spreads⟩ =
      .ok (.pair ⟨place.start, stop', []⟩ (.name ⟨⟨place.start, place.stop, []⟩, key⟩) e,
        ⟨rest', stop', defaults', spreads'⟩) := by
  have hkey : property self c
        ⟨plainToken (.name key) place :: plainToken (.punct .colon) place' :: rest, stop,
          defaults, spreads⟩ =
      pairOrShorthand self ⟨place.start, []⟩ (plainToken (.name key) place)
        (.name ⟨⟨place.start, place.stop, []⟩, key⟩) c
        ⟨plainToken (.punct .colon) place' :: rest, place.stop, defaults, spreads⟩ := rfl
  rw [hkey]
  simp [pairOrShorthand, bind_apply, eat_hit, nestedAssignment, within_apply, h, since, pure_apply]

/-- An object literal yields its properties. -/
theorem primary_object {properties : List Property} (opening closing : Place)
    (stop : Nat)
    (h : Items .braceClose (property self) (nested c) ⟨rest, opening.stop, defaults, spreads⟩
      properties ⟨plainToken (.punct .braceClose) closing :: rest', stop', defaults', spreads'⟩)
    (hlimit : properties.length < c.limit) :
    primary self c ⟨plainToken (.punct .braceOpen) opening :: rest, stop, defaults, spreads⟩ =
      .ok (.object ⟨opening.start, closing.stop, []⟩ properties,
        ⟨rest', closing.stop, defaults', spreads'⟩) := by
  have hlist := commaList_of_items (by decide) h hlimit
  have hobject : primary self c
        ⟨plainToken (.punct .braceOpen) opening :: rest, stop, defaults, spreads⟩ =
      objectLiteral self c
        ⟨plainToken (.punct .braceOpen) opening :: rest, stop, defaults, spreads⟩ := rfl
  rw [hobject]
  simp [objectLiteral, bind_apply, mark_cons, expect_hit, pure_apply, within_apply, hlist, since]

end Links

end Parser

end Syntax

end NgFile
