import NgFile.Proofs.CallStatements

/-!
# Parentheses in scripts

Parentheses around an expression are a node of their own, and what a statement becomes is told
from the nodes that stand right where a function, a call, an object literal or an arrow function
is looked for.  So parentheses that leave everything else in the tree of a script as it is still
change what is made of it: a function is not bound, a call is left out, metadata is refused and
a hook is only called.  The only parentheses without a consequence are those around the value of
a variable that is no function.
-/

namespace NgFile

open Syntax ScriptItem

/-! ## A statement with and without parentheses -/

namespace Syntax

structure Loc.Covers (loc : Loc) (front part : Text) : Prop where
  start_eq : loc.start = front.length
  stop_eq : loc.stop = front.length + part.length

instance (loc : Loc) (front part : Text) : Decidable (loc.Covers front part) :=
  decidable_of_iff (loc.start = front.length ∧ loc.stop = front.length + part.length)
    ⟨fun h => ⟨h.1, h.2⟩, fun h => ⟨h.start_eq, h.stop_eq⟩⟩

/-- The two places are the same, and lie within the text in front. -/
structure Loc.SameWithin (front : Text) (loc loc' : Loc) : Prop where
  start_eq : loc'.start = loc.start
  stop_eq : loc'.stop = loc.stop
  within : loc.stop ≤ front.length

instance (front : Text) (loc loc' : Loc) : Decidable (Loc.SameWithin front loc loc') :=
  decidable_of_iff (loc'.start = loc.start ∧ loc'.stop = loc.stop ∧ loc.stop ≤ front.length)
    ⟨fun h => ⟨h.1, h.2.1, h.2.2⟩, fun h => ⟨h.start_eq, h.stop_eq, h.within⟩⟩

/-- What follows a text is not seen at places within it. -/
theorem Loc.SameWithin.text_eq {front : Text} {loc loc' : Loc}
    (h : Loc.SameWithin front loc loc') (rest rest' : Text) :
    loc'.text (front ++ rest') = loc.text (front ++ rest) := by
  rw [Loc.text, Loc.text, h.start_eq, h.stop_eq, Text.slice_append_left h.within,
    Text.slice_append_left h.within]

namespace Expr

def inParens? : Expr → Option (Loc × Expr)
  | paren loc inner => some (loc, inner)
  | _ => none

def isObject : Expr → Bool
  | object _ _ => true
  | _ => false

def isArrow : Expr → Bool
  | arrow _ _ _ => true
  | _ => false

/-- The first expression covers a text behind another one, and where this text stands in
parentheses, the second one covers them and has an expression inside that covers the text. -/
def IsParenthesized (front part : Text) (e e' : Expr) : Prop :=
  e.loc.Covers front part ∧ ∃ inside ∈ e'.inParens?,
    inside.1.Covers front ('(' :: part ++ [')']) ∧ inside.2.loc.Covers (front ++ ['(']) part

instance (front part : Text) (e e' : Expr) : Decidable (e.IsParenthesized front part e') :=
  inferInstanceAs (Decidable (_ ∧ _))

theorem IsParenthesized.exists_paren {front part : Text} {e e' : Expr}
    (h : e.IsParenthesized front part e') : ∃ loc inner, e' = .paren loc inner := by
  obtain ⟨-, ⟨loc, inner⟩, hinside, -⟩ := h
  unfold inParens? at hinside
  split at hinside
  · exact ⟨_, _, rfl⟩
  · cases hinside

theorem exists_of_isObject {e : Expr} (h : e.isObject = true) :
    ∃ loc properties, e = .object loc properties := by
  unfold isObject at h
  split at h
  · exact ⟨_, _, rfl⟩
  · cases h

theorem exists_of_isArrow {e : Expr} (h : e.isArrow = true) :
    ∃ loc f concise, e = .arrow loc f concise := by
  unfold isArrow at h
  split at h
  · exact ⟨_, _, _, rfl⟩
  · cases h

end Expr

namespace Stmt

variable {s : Stmt}

def initialized? (s : Stmt) : Option (VariableKind × Name × Expr) :=
  match s.declared with
  | .variableDecl _ kind _ [.mk _ _ _ (.name name) _ _ (some value)] => some (kind, name, value)
  | _ => none

def expression? : Stmt → Option Expr
  | .expression _ e => some e
  | _ => none

def argument? (s : Stmt) : Option (Expr × Expr) :=
  match s.call? with
  | some (callee, [argument]) => some (callee, argument)
  | _ => none

theorem exists_of_initialized? {kind : VariableKind} {name : Name} {value : Expr}
    (h : s.initialized? = some (kind, name, value)) :
    ∃ loc isDeclare b, s.declared = .variableDecl loc kind isDeclare [b] ∧
      b.pattern = .name name ∧ b.value = some value := by
  unfold initialized? at h
  split at h
  · rename_i hdeclared
    cases h
    exact ⟨_, _, _, hdeclared, rfl, rfl⟩
  · cases h

theorem exists_of_expression? {e : Expr} (h : s.expression? = some e) :
    ∃ loc, s = .expression loc e := by
  unfold expression? at h
  split at h
  · cases h
    exact ⟨_, rfl⟩
  · cases h

theorem call?_of_argument? {callee argument : Expr} (h : s.argument? = some (callee, argument)) :
    s.call? = some (callee, [argument]) := by
  unfold argument? at h
  split at h
  · rename_i hcall
    cases h
    exact hcall
  · cases h

end Stmt

inductive StatementPart
  | initializer
  /-- All of a statement that is a call. -/
  | call
  /-- The object literal of a call for metadata. -/
  | metadata
  /-- The arrow function of a call for a hook. -/
  | hook
  deriving DecidableEq

/--
The second statement is the first one with parentheses around a part of it: the part is in
parentheses, and what is told from the statement otherwise stands in front of it as before.
-/
inductive Parenthesized (front part script : Text) (s s' : Stmt) : StatementPart → Expr → Prop
  | initializer {kind : VariableKind} {name name' : Name} {e e' : Expr}
      (h : s.initialized? = some (kind, name, e)) (h' : s'.initialized? = some (kind, name', e'))
      (hname : Loc.SameWithin front name.loc name'.loc) (he : e.IsParenthesized front part e') :
      Parenthesized front part script s s' .initializer e
  | call {e e' : Expr} (h : s.expression? = some e) (hcall : s.call?.isSome = true)
      (h' : s'.expression? = some e') (he : e.IsParenthesized front part e') :
      Parenthesized front part script s s' .call e
  | metadata {callee callee' e e' : Expr} (h : s.argument? = some (callee, e))
      (hname : callee.loc.text script = metadataFunction) (hobject : e.isObject = true)
      (h' : s'.argument? = some (callee', e'))
      (hcallee : Loc.SameWithin front callee.loc callee'.loc)
      (he : e.IsParenthesized front part e') :
      Parenthesized front part script s s' .metadata e
  | hook {callee callee' e e' : Expr} (h : s.argument? = some (callee, e))
      (hname : callee.loc.text script = hookFunction) (harrow : e.isArrow = true)
      (h' : s'.argument? = some (callee', e'))
      (hcallee : Loc.SameWithin front callee.loc callee'.loc)
      (he : e.IsParenthesized front part e') :
      Parenthesized front part script s s' .hook e

end Syntax

/-! ## What parentheses change -/

/-- Two items are of one kind and say the same, apart from the texts that are copied. -/
def ScriptItem.Agrees : ScriptItem → ScriptItem → Prop
  | .importDecl _ default fromNgFile, .importDecl _ default' fromNgFile' =>
      default = default' ∧ fromNgFile = fromNgFile'
  | .variableDecl keyword name _ bound, .variableDecl keyword' name' _ bound' =>
      keyword = keyword' ∧ name = name' ∧ bound = bound'
  | .functionDecl name _, .functionDecl name' _ => name = name'
  | .defineMetadata entries, .defineMetadata entries' => entries = entries'
  | .onInit isAsync statements, .onInit isAsync' statements' =>
      isAsync = isAsync' ∧ statements = statements'
  | .call _, .call _ => True
  | .other _, .other _ => True
  | _, _ => False

/-- What comes of a statement with parentheses around an expression in it, by the item of the
statement without them; `text` is that of the statement. -/
inductive Reclassified (file text : Text) :
    StatementPart → Expr → ScriptItem → Except CompileError ScriptItem → Prop
  | initializer (keyword name declarator declarator' : Text) (e : Expr) :
      Reclassified file text .initializer e
        (.variableDecl keyword name declarator (isFunction e))
        (.ok (.variableDecl keyword name declarator' false))
  | call (e : Expr) {item : ScriptItem} (h : ∀ t, item ≠ .other t) :
      Reclassified file text .call e item (.ok (.other text))
  | metadata (e : Expr) (entries : List MetadataEntry) :
      Reclassified file text .metadata e (.defineMetadata entries)
        (.error (.invalidDefineMetadata file "expected exactly one object literal argument"))
  | hook (e : Expr) (isAsync : Bool) (statements : List Text) :
      Reclassified file text .hook e (.onInit isAsync statements) (.ok (.call text))

section Statements

variable {file front part script : Text} {s s' : Stmt} {place : StatementPart} {e : Expr}

theorem exists_item_of_initialized? (script : Text) {kind : VariableKind} {name : Name}
    {value : Expr} (h : s.initialized? = some (kind, name, value)) :
    ∃ declarator, ItemOf script s
      (.variableDecl kind.text (name.loc.text script) declarator (isFunction value)) := by
  obtain ⟨_, _, b, hdeclared, hname, hvalue⟩ := Stmt.exists_of_initialized? h
  exact ⟨b.loc.text script, .initialized hdeclared hname hvalue⟩

theorem ne_other_of_call? (hcall : s.call?.isSome = true) {item : ScriptItem}
    (hitem : ItemOf script s item) (t : Text) : item ≠ .other t := by
  cases hitem with
  | importDecl | initialized | function | metadata | hook | call => nofun
  | uninitialized h =>
      rw [Stmt.call?_of_declared_variables h] at hcall
      cases hcall
  | bodiless h =>
      rw [Stmt.call?_of_declared_function h] at hcall
      cases hcall
  | ignored h =>
      rw [h.not_call] at hcall
      cases hcall

/-- Parentheses around a part of a statement change its item in the way that the part tells. -/
theorem reclassified_of_parenthesized {rest rest' : Text} {item : ScriptItem}
    (h : Parenthesized front part (front ++ rest) s s' place e)
    (hitem : ItemOf (front ++ rest) s item) :
    Reclassified file (s'.loc.text (front ++ rest')) place e item
      (ofStatement file (front ++ rest') s') := by
  cases h with
  | initializer h h' hname he =>
      obtain ⟨loc, inner, rfl⟩ := he.exists_paren
      obtain ⟨declarator, hvariable⟩ := exists_item_of_initialized? (front ++ rest) h
      obtain ⟨declarator', hvariable'⟩ := exists_item_of_initialized? (front ++ rest') h'
      rw [itemOf_unique hitem hvariable, ofStatement_of_itemOf hvariable', hname.text_eq rest rest']
      exact .initializer _ _ _ _ _
  | call h hcall h' he =>
      obtain ⟨loc, inner, rfl⟩ := he.exists_paren
      obtain ⟨outer, rfl⟩ := Stmt.exists_of_expression? h'
      exact .call _ (ne_other_of_call? hcall hitem)
  | metadata h hname hobject h' hcallee he =>
      obtain ⟨loc, inner, rfl⟩ := he.exists_paren
      obtain ⟨objectLoc, properties, rfl⟩ := Expr.exists_of_isObject hobject
      obtain ⟨entries, rfl, -⟩ :=
        exists_entries_of_itemOf hitem (Stmt.call?_of_argument? h) hname
      rw [← hcallee.text_eq rest rest'] at hname
      rw [ofStatement_of_offenceOf (.arguments (Stmt.call?_of_argument? h') hname nofun)]
      exact .metadata _ entries
  | hook h hname harrow h' hcallee he =>
      obtain ⟨loc, inner, rfl⟩ := he.exists_paren
      obtain ⟨arrowLoc, f, concise, rfl⟩ := Expr.exists_of_isArrow harrow
      rw [itemOf_unique hitem (.hook (Stmt.call?_of_argument? h) hname)]
      rw [← hcallee.text_eq rest rest'] at hname
      have hother : hookFunction ≠ metadataFunction := by decide
      rw [ofStatement_of_itemOf
        (.call (Stmt.call?_of_argument? h') (hname ▸ hother) fun _ => nofun)]
      exact .hook _ _ _

/-- An item stays the same only around the value of a variable that is no function. -/
theorem agrees_iff_of_reclassified {text : Text} {item : ScriptItem}
    {result : Except CompileError ScriptItem} (h : Reclassified file text place e item result) :
    (∃ item', result = .ok item' ∧ item.Agrees item') ↔
      place = .initializer ∧ isFunction e = false := by
  cases h with
  | initializer => simp [Agrees]
  | call _ h =>
      have hdiffers : ¬ item.Agrees (.other text) := by
        cases item with
        | other t => exact absurd rfl (h t)
        | importDecl | variableDecl | functionDecl | defineMetadata | onInit | call => exact id
      simp [hdiffers]
  | metadata => simp
  | hook => simp [Agrees]

end Statements

/-! ## Two runs -/

def statementAt? (script : Text) (i : Nat) : Option Stmt :=
  (Program.parse script).toOption.bind fun program => program.body[i]?

section Runs

variable {file front part back : Text} {items : List ScriptItem} {i : Nat} {s s' : Stmt}

theorem exists_item_of_statementAt? {script : Text} (hitems : classify file script = .ok items)
    (hs : statementAt? script i = some s) :
    ∃ item, items[i]? = some item ∧ ItemOf script s item := by
  obtain ⟨program, hprogram⟩ := exists_parse_of_classify hitems
  rw [statementAt?, hprogram] at hs
  obtain ⟨hlength, hall⟩ := List.forall₂_iff_get.1 ((classify_eq_ok_iff hprogram).1 hitems)
  obtain ⟨hi, rfl⟩ := List.getElem?_eq_some_iff.1 hs
  have hi' : i < items.length := hlength ▸ hi
  exact ⟨items[i], List.getElem?_eq_getElem hi', hall i hi hi'⟩

/--
Parentheses are put around a part of one statement of a script that is classified, and the
script still parses.  Around the value of a variable they leave the item as it is, except that a
function is not bound any longer; all of a call in parentheses is left out, metadata in
parentheses is refused, and with it the script, and a hook in parentheses is an ordinary call.
So the item stays the same, apart from copied texts, exactly if the parentheses are around a
value that is no function.
-/
theorem classify_of_parenthesized {place : StatementPart} {e : Expr}
    (hitems : classify file (front ++ (part ++ back)) = .ok items)
    (hs : statementAt? (front ++ (part ++ back)) i = some s)
    (hs' : statementAt? (front ++ ('(' :: part ++ ')' :: back)) i = some s')
    (h : Parenthesized front part (front ++ (part ++ back)) s s' place e) :
    let script' := front ++ ('(' :: part ++ ')' :: back)
    ∃ item, items[i]? = some item ∧
      Reclassified file (s'.loc.text script') place e item (ofStatement file script' s') ∧
      ((∃ item', ofStatement file script' s' = .ok item' ∧ item.Agrees item') ↔
        place = .initializer ∧ isFunction e = false) ∧
      ∀ items', classify file script' = .ok items' →
        ∃ item', items'[i]? = some item' ∧ ofStatement file script' s' = .ok item' := by
  intro script'
  obtain ⟨item, hitem, hof⟩ := exists_item_of_statementAt? hitems hs
  have hresult : Reclassified file (s'.loc.text script') place e item
      (ofStatement file script' s') :=
    reclassified_of_parenthesized h hof
  refine ⟨item, hitem, hresult, agrees_iff_of_reclassified hresult, fun items' hitems' => ?_⟩
  obtain ⟨item', hitem', hof'⟩ := exists_item_of_statementAt? hitems' hs'
  exact ⟨item', hitem', ofStatement_of_itemOf hof'⟩

end Runs

/-- An arrow function in parentheses is not bound, and the one of a hook is not its body. -/
theorem classify_of_parenthesized_arrows :
    let part : Text := "() => 1"
    (let script := ("const f = " : Text) ++ (part ++ (";" : Text))
     let script' := ("const f = " : Text) ++ ('(' :: part ++ ')' :: (";" : Text))
     ∃ s s' e, statementAt? script 0 = some s ∧ statementAt? script' 0 = some s' ∧
      Parenthesized "const f = " part script s s' .initializer e ∧ isFunction e = true ∧
      ofStatement "card.ng" script' s' =
        .ok (.variableDecl "const" "f" "f = (() => 1)" false)) ∧
    (let script := ("onInit(" : Text) ++ (part ++ (");" : Text))
     let script' := ("onInit(" : Text) ++ ('(' :: part ++ ')' :: (");" : Text))
     ∃ s s' e, statementAt? script 0 = some s ∧ statementAt? script' 0 = some s' ∧
      Parenthesized "onInit(" part script s s' .hook e ∧
      ofStatement "card.ng" script' s' = .ok (.call "onInit((() => 1));")) := by
  intro part
  constructor
  · intro script script'
    have hview : ∃ s ∈ statementAt? script 0, ∃ s' ∈ statementAt? script' 0,
        ∃ v ∈ s.initialized?, ∃ v' ∈ s'.initialized?, v'.1 = v.1 ∧
          Loc.SameWithin "const f = " v.2.1.loc v'.2.1.loc ∧
          v.2.2.IsParenthesized "const f = " part v'.2.2 ∧ isFunction v.2.2 = true := by
      decide +kernel
    have hitems : classify "card.ng" script =
        .ok [.variableDecl "const" "f" "f = () => 1" true] := by
      decide +kernel
    have hitems' : classify "card.ng" script' =
        .ok [.variableDecl "const" "f" "f = (() => 1)" false] := by
      decide +kernel
    obtain ⟨s, hs, s', hs', ⟨kind, name, e⟩, hv, ⟨kind', name', e'⟩, hv', rfl, hname, he,
      hfunction⟩ := hview
    have hparenthesized : Parenthesized "const f = " part script s s' .initializer e :=
      .initializer hv hv' hname he
    obtain ⟨item, -, -, -, hrun⟩ := classify_of_parenthesized hitems hs hs' hparenthesized
    obtain ⟨item', hitem', hresult⟩ := hrun _ hitems'
    cases hitem'
    exact ⟨s, s', e, hs, hs', hparenthesized, hfunction, hresult⟩
  · intro script script'
    have hview : ∃ s ∈ statementAt? script 0, ∃ s' ∈ statementAt? script' 0,
        ∃ v ∈ s.argument?, ∃ v' ∈ s'.argument?, v.1.loc.text script = hookFunction ∧
          v.2.isArrow = true ∧ Loc.SameWithin "onInit(" v.1.loc v'.1.loc ∧
          v.2.IsParenthesized "onInit(" part v'.2 := by
      decide +kernel
    have hitems : classify "card.ng" script = .ok [.onInit false ["1;"]] := by
      decide +kernel
    have hitems' : classify "card.ng" script' = .ok [.call "onInit((() => 1));"] := by
      decide +kernel
    obtain ⟨s, hs, s', hs', ⟨callee, e⟩, hv, ⟨callee', e'⟩, hv', hname, harrow, hcallee, he⟩ :=
      hview
    have hparenthesized : Parenthesized "onInit(" part script s s' .hook e :=
      .hook hv hname harrow hv' hcallee he
    obtain ⟨item, -, -, -, hrun⟩ := classify_of_parenthesized hitems hs hs' hparenthesized
    obtain ⟨item', hitem', hresult⟩ := hrun _ hitems'
    cases hitem'
    exact ⟨s, s', e, hs, hs', hparenthesized, hresult⟩

/-- One function, one call, one metadata object and one hook, in parentheses and without. -/
theorem parentheses_change_items :
    (classify "card.ng" "const f = () => 1;" =
        .ok [.variableDecl "const" "f" "f = () => 1" true] ∧
      classify "card.ng" "const f = (() => 1);" =
        .ok [.variableDecl "const" "f" "f = (() => 1)" false]) ∧
    (classify "card.ng" "log(1);" = .ok [.call "log(1);"] ∧
      classify "card.ng" "(log(1));" = .ok [.other "(log(1));"]) ∧
    (classify "card.ng" "defineMetadata(\x7b a: 1 \x7d);" =
        .ok [.defineMetadata [⟨"a", "1"⟩]] ∧
      classify "card.ng" "defineMetadata((\x7b a: 1 \x7d));" =
        .error (.invalidDefineMetadata "card.ng"
          "expected exactly one object literal argument")) ∧
    (classify "card.ng" "onInit(() => log(1));" = .ok [.onInit false ["log(1);"]] ∧
      classify "card.ng" "onInit((() => log(1)));" = .ok [.call "onInit((() => log(1)));"]) := by
  refine ⟨⟨?_, ?_⟩, ⟨?_, ?_⟩, ⟨?_, ?_⟩, ?_, ?_⟩ <;> decide +kernel

end NgFile
