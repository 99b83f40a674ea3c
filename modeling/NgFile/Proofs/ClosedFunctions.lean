import NgFile.Proofs.NameLists
import NgFile.Proofs.Statements

/-!
# Where functions end

The text of a declared function that has a body ends with the brace behind the body: the brace is
the last token of the declaration, and it stands behind the place where the declaration begins.
The same holds of a declaration that is exported.
-/

namespace NgFile

namespace Syntax

/-! ## Texts that end with a brace -/

/-- A closing brace is the last character between two places of a text. -/
def ClosesAt (source : Text) (start stop : Nat) : Prop :=
  ∃ front rest, source = front ++ '\x7d' :: rest ∧ start ≤ front.length ∧
    stop = front.length + 1

theorem ClosesAt.getLast?_slice {source : Text} {start stop : Nat}
    (h : ClosesAt source start stop) :
    (Text.slice source start stop).getLast? = some '\x7d' := by
  obtain ⟨front, rest, rfl, hstart, rfl⟩ := h
  have hslice : Text.slice (front ++ '\x7d' :: rest) start (front.length + 1) =
      front.drop start ++ ['\x7d'] := by
    have hlength : front.length + 1 - start = (front.drop start).length + 1 := by
      rw [List.length_drop]
      omega
    rw [Text.slice, List.drop_append_of_le_length hstart, hlength, List.take_length_add_append]
    rfl
  rw [hslice, List.getLast?_concat]

namespace Stmt

def EndsInBrace (source : Text) : Stmt → Prop
  | .function loc _ f => f.hasBody = true → ClosesAt source loc.start loc.stop
  | _ => True

/-- A statement ends with a brace if it declares a function with a body, exported or not. -/
def IsClosed (source : Text) (s : Stmt) : Prop :=
  s.EndsInBrace source ∧ s.declared.EndsInBrace source

variable {source : Text} {s : Stmt}

theorem endsInBrace_of_isPlain (h : s.isPlain = true) : s.EndsInBrace source := by
  cases s with
  | function => cases h
  | _ => trivial

theorem isClosed_of_isPlain (h : s.isPlain = true) : s.IsClosed source := by
  refine ⟨endsInBrace_of_isPlain h, ?_⟩
  rw [declared_of_isPlain h]
  exact endsInBrace_of_isPlain h

theorem EndsInBrace.asEffectFree (h : s.EndsInBrace source) :
    s.asEffectFree.EndsInBrace source := by
  unfold Stmt.asEffectFree
  split
  · rename_i f
    cases f
    exact h
  · trivial
  · trivial
  · trivial
  · trivial
  · exact h

theorem IsClosed.asEffectFree (h : s.IsClosed source) : s.asEffectFree.IsClosed source :=
  ⟨h.1.asEffectFree, by rw [declared_asEffectFree]; exact h.2.asEffectFree⟩

end Stmt

namespace Parser

/-! ## Functions -/

/-- Where a value with a property has been read, a closing brace has been passed last. -/
def StopsAtBrace {α : Type} (p : Parser α) (P : α → Prop) : Prop :=
  Ensures p fun c cur a after => P a → ∀ place, StandingFrom c.source place cur.rest →
    ClosesAt c.source place after.lastStop

section Functions

variable {α β : Type} {p : Parser α} {f : α → Parser β} {P : α → Prop} {Q : β → Prop}

theorem stopsAtBrace_expect : StopsAtBrace (expect .braceClose) fun _ => True := by
  rintro c cur _ after h - place hcur
  obtain ⟨token, hrest, hkind, hstop⟩ := ensures_expect .braceClose c cur () after h
  rw [hrest] at hcur
  obtain ⟨front, text, hsource, hlaid⟩ := hcur.standing.laid
  obtain ⟨gap, rest, rfl, -, hstart, hend, -⟩ := hlaid.mark hkind rfl
  refine ⟨front ++ gap, rest, ?_, ?_, ?_⟩
  · rw [hsource, List.append_assoc]
  · rw [← hstart]
    exact hcur.inOrder.1
  · rw [hstop, hend, List.length_append, List.length_singleton]

theorem stopsAtBrace_of_yields (h : Yields p fun a => ¬ P a) : StopsAtBrace p P :=
  fun c cur a after hrun ha => absurd ha (h c cur a after hrun)

theorem stopsAtBrace_then [Keeps p] (hf : ∀ a, StopsAtBrace (f a) Q) :
    StopsAtBrace (p >>= f) Q := by
  intro c cur b after h hb place hcur
  obtain ⟨a, mid, hrun, hrest⟩ := exists_of_bind h
  exact hf a c mid b after hrest hb place
    (Lasting.of_leads (Keeps.ensures c cur a mid hrun) hcur)

/-- What passes nothing behind a parser does not matter. -/
theorem stopsAtBrace_still (hp : StopsAtBrace p fun _ => True) [∀ a, Still (f a)] :
    StopsAtBrace (p >>= f) Q := by
  intro c cur b after h _ place hcur
  obtain ⟨a, mid, hrun, hrest⟩ := exists_of_bind h
  obtain rfl := (inferInstance : Still (f a)).ensures c mid b after hrest
  exact hp c cur a after hrun trivial place hcur

theorem stopsAtBrace_within {change : Context → Context} [hchange : SameSource change]
    (h : StopsAtBrace p P) : StopsAtBrace (within change p) P := by
  intro c cur a after hrun ha place hcur
  rw [← hchange.source_eq c] at hcur ⊢
  exact h (change c) cur a after hrun ha place hcur

variable {self : Productions} [∀ goal, Keeps (self goal)]

theorem stopsAtBrace_bracedStatements :
    StopsAtBrace (bracedStatements self) fun _ => True := by
  refine stopsAtBrace_then fun _ => stopsAtBrace_then fun _ => stopsAtBrace_then fun _ => ?_
  exact stopsAtBrace_still stopsAtBrace_expect

/-- A function with a body ends where the body does. -/
theorem stopsAtBrace_functionTail (isAsync isGenerator : Bool) (role : FunctionRole)
    (name : Option Name) (need : BodyNeed) :
    StopsAtBrace (functionTail self isAsync isGenerator role name need) fun f =>
      f.hasBody = true := by
  refine stopsAtBrace_then fun m => stopsAtBrace_then fun head => stopsAtBrace_then fun atBody => ?_
  split
  · refine stopsAtBrace_then fun c => stopsAtBrace_then fun _ => ?_
    exact stopsAtBrace_still (stopsAtBrace_within stopsAtBrace_bracedStatements)
  · refine stopsAtBrace_of_yields (yields_then fun _ => ?_)
    split
    · exact yields_then fun _ => yields_then fun _ => yields_pure Bool.false_ne_true
    · exact yields_then fun _ => yields_pure Bool.false_ne_true

theorem finds_functionDeclaration {source : Text} (m : Mark) (place : StatementPlace)
    (isDeclare needsName : Bool) :
    FindsBefore source (StandingFrom source m.start)
      (functionDeclaration self m place isDeclare needsName) (Stmt.IsClosed source) := by
  refine finds_then fun isAsync => finds_then fun _ => finds_then fun isGenerator =>
    finds_then fun _ => finds_then fun name => ?_
  rintro c cur s after h rfl hcur
  obtain ⟨f, mid, htail, hsince⟩ := exists_of_bind h
  have hbody : f.hasBody = true → ClosesAt c.source m.start mid.lastStop := fun hf =>
    stopsAtBrace_within (stopsAtBrace_functionTail _ _ _ _ _) c cur f mid htail hf m.start hcur
  cases hsince
  exact ⟨hbody, hbody⟩

end Functions

/-! ## Statements -/

theorem findsInParts_isClosed (source : Text) (fuel : Nat) :
    FindsInParts source (productions fuel) (Stmt.IsClosed source) where
  plain _ := Stmt.isClosed_of_isPlain
  exported _ _ hd := ⟨trivial, hd.1⟩
  effectFree _ := Stmt.IsClosed.asEffectFree
  bindings := yields_variableStatement_of fun _ _ _ _ => ⟨trivial, trivial⟩
  function m place isDeclare := finds_functionDeclaration m place isDeclare true
  expression := finds_of_yields fun _ _ _ _ _ _ => ⟨trivial, trivial⟩
  assignment := finds_of_yields fun _ _ _ _ _ _ => ⟨trivial, trivial⟩
  name _ _ _ := ⟨trivial, trivial⟩

end Parser

/-- Every statement of a script that declares a function with a body ends with a brace. -/
theorem Program.isClosed_of_parse {source : Text} {program : Program}
    (h : Program.parse source = .ok program) : ∀ s ∈ program.body, s.IsClosed source :=
  forall_of_parse (Parser.findsInParts_isClosed source) h

end Syntax

end NgFile
