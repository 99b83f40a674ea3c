import NgFile.Syntax.Parser

/-!
# What declarations declare

A parser yields declarations of a known shape only: a declaration of variables has at least
one of them, each with a name or with a pattern that takes an object or array apart, and a
function that is declared has a name; only the function of a default export may lack one.
-/

namespace NgFile

namespace Syntax

/-! ## Declarations -/

def Pattern.IsDestructuring : Pattern → Prop
  | .object _ _ | .array _ _ => True
  | _ => False

def Pattern.IsDeclarable (p : Pattern) : Prop :=
  p.isName = true ∨ p.IsDestructuring

/-- What a statement declares: the declaration that it exports, or itself. -/
def Stmt.declared : Stmt → Stmt
  | .exportDecl _ d => d
  | s => s

/-- A declaration binds variables, at least one, or a function by its name. -/
def Stmt.Binds : Stmt → Prop
  | .variableDecl _ _ _ bindings => bindings ≠ [] ∧ ∀ b ∈ bindings, b.pattern.IsDeclarable
  | .function _ _ f => f.name.isSome = true
  | _ => True

/-- A statement binds what it declares, on its own or as an export. -/
def Stmt.IsComplete (s : Stmt) : Prop :=
  s.Binds ∧ s.declared.Binds

theorem Stmt.binds_asEffectFree {s : Stmt} (h : s.Binds) : s.asEffectFree.Binds := by
  unfold Stmt.asEffectFree
  split
  · rename_i f
    cases f
    exact h
  · exact ⟨List.cons_ne_nil _ _, by simpa [Binding.pattern] using h.2⟩
  · trivial
  · trivial
  · trivial
  · exact h

theorem Stmt.declared_asEffectFree (s : Stmt) :
    s.asEffectFree.declared = s.declared.asEffectFree := by
  cases s with
  | exportDecl loc d => rfl
  | _ =>
      unfold Stmt.asEffectFree
      split <;> first | rfl | simp_all [Stmt.declared]

theorem Stmt.IsComplete.asEffectFree {s : Stmt} (h : s.IsComplete) :
    s.asEffectFree.IsComplete :=
  ⟨binds_asEffectFree h.1, by rw [declared_asEffectFree]; exact binds_asEffectFree h.2⟩

namespace Parser

/-! ## What a parser yields -/

def Yields {α : Type} (p : Parser α) (P : α → Prop) : Prop :=
  ∀ c cur a after, p c cur = .ok (a, after) → P a

section Rules

variable {α β : Type} {P : α → Prop} {Q : β → Prop}

theorem yields_pure {a : α} (h : P a) : Yields (pure a : Parser α) P := by
  intro c cur b after hb
  cases hb
  exact h

theorem yields_fail : Yields (fail : Parser α) P := by
  intro c cur a after h
  unfold fail at h
  split at h <;> cases h

theorem yields_bind {p : Parser α} {f : α → Parser β} (hp : Yields p P)
    (hf : ∀ a, P a → Yields (f a) Q) : Yields (p >>= f) Q := by
  intro c cur b after h
  cases hrun : p c cur with
  | error e => simp [bind, hrun] at h
  | ok result =>
      obtain ⟨a, mid⟩ := result
      have hrest : f a c mid = .ok (b, after) := by simpa [bind, hrun] using h
      exact hf a (hp c cur a mid hrun) c mid b after hrest

/-- What comes first does not matter if what follows has the property anyway. -/
theorem yields_then {p : Parser α} {f : α → Parser β} (hf : ∀ a, Yields (f a) Q) :
    Yields (p >>= f) Q :=
  yields_bind (fun _ _ a _ _ => (trivial : (fun _ => True) a)) fun a _ => hf a

theorem yields_within {change : Context → Context} {p : Parser α} (h : Yields p P) :
    Yields (within change p) P :=
  fun c cur => h (change c) cur

theorem yields_collect {step : Parser (Option α)} (h : Yields step fun o => ∀ a ∈ o, P a)
    (limit : Nat) {acc : List α} (hacc : ∀ a ∈ acc, P a) :
    Yields (collect step limit acc) fun as => ∀ a ∈ as, P a := by
  induction limit generalizing acc with
  | zero => exact yields_fail
  | succ limit ih =>
      refine yields_bind h fun o ho => ?_
      cases o with
      | none => exact yields_pure fun a ha => hacc a (List.mem_reverse.1 ha)
      | some a => exact ih (List.forall_mem_cons.2 ⟨ho a rfl, hacc⟩)

/-- What holds of the value of every round holds of all values of a loop. -/
theorem yields_many {step : Parser (Option α)} (h : Yields step fun o => ∀ a ∈ o, P a) :
    Yields (many step) fun as => ∀ a ∈ as, P a :=
  yields_then fun c => yields_collect h c.limit (by simp)

end Rules

/-! ## Patterns and variables -/

variable {self : Productions}

theorem yields_bindingPattern : Yields (bindingPattern self) Pattern.IsDeclarable := by
  refine yields_then fun m => yields_then fun isObject => ?_
  split
  · exact yields_then fun _ => yields_then fun _ => yields_then fun _ =>
      yields_pure (.inr trivial)
  · refine yields_then fun isArray => ?_
    split
    · exact yields_then fun _ => yields_then fun _ => yields_then fun _ =>
        yields_pure (.inr trivial)
    · exact yields_then fun _ => yields_pure (.inl rfl)

theorem yields_productions_pattern (fuel : Nat) :
    Yields (productions fuel .pattern) Pattern.IsDeclarable := by
  cases fuel with
  | zero => exact yields_fail
  | succ fuel => exact yields_bindingPattern

section Variables

variable (hpattern : Yields (self .pattern) Pattern.IsDeclarable)

include hpattern

theorem yields_declarator : Yields (declarator self) fun b => b.pattern.IsDeclarable := by
  refine yields_then fun m => yields_bind hpattern fun pattern h => ?_
  exact yields_then fun _ => yields_then fun _ => yields_then fun _ => yields_then fun _ =>
    yields_then fun _ => yields_pure h

theorem yields_declarators :
    Yields (declarators self) fun bs => bs ≠ [] ∧ ∀ b ∈ bs, b.pattern.IsDeclarable := by
  refine yields_bind (yields_declarator hpattern) fun first hfirst => ?_
  have hstep : Yields (do if ← eat .comma then pure (some (← declarator self)) else pure none)
      fun o => ∀ b ∈ o, b.pattern.IsDeclarable := by
    refine yields_then fun more => ?_
    split
    · exact yields_bind (yields_declarator hpattern) fun b hb => yields_pure (by simpa using hb)
    · exact yields_pure (by simp)
  refine yields_bind (yields_many hstep) fun more hmore => yields_pure ?_
  exact ⟨List.cons_ne_nil _ _, List.forall_mem_cons.2 ⟨hfirst, hmore⟩⟩

theorem yields_variableStatement (m : Mark) (place : StatementPlace) (kind : VariableKind)
    (isDeclare : Bool) :
    Yields (variableStatement self m place kind isDeclare) Stmt.IsComplete := by
  refine yields_then fun _ => yields_bind (yields_declarators hpattern) fun bindings h => ?_
  exact yields_then fun _ => yields_then fun _ => yields_then fun _ => yields_then fun _ =>
    yields_then fun _ => yields_pure ⟨h, h⟩

end Variables

/-! ## Functions -/

theorem yields_functionTail (isAsync isGenerator : Bool) (role : FunctionRole)
    (name : Option Name) (need : BodyNeed) :
    Yields (functionTail self isAsync isGenerator role name need) fun f => f.name = name := by
  refine yields_then fun m => yields_then fun head => yields_then fun atBody => ?_
  split
  · exact yields_then fun _ => yields_then fun _ => yields_then fun _ => yields_then fun _ =>
      yields_then fun _ => yields_pure rfl
  · refine yields_then fun _ => ?_
    split
    · exact yields_then fun _ => yields_then fun _ => yields_pure rfl
    · exact yields_then fun _ => yields_pure rfl

/-- A function that needs a name has one. -/
theorem yields_functionDeclaration (m : Mark) (place : StatementPlace) (isDeclare : Bool) :
    Yields (functionDeclaration self m place isDeclare true) Stmt.IsComplete := by
  refine yields_then fun isAsync => yields_then fun _ => yields_then fun isGenerator =>
    yields_then fun _ => ?_
  have hname : Yields (do
      if !true && ((← atPunct .parenOpen) || (← atPunct .less)) then pure none
      else pure (some (← bindingName))) fun name : Option Name => name.isSome = true := by
    refine yields_then fun _ => yields_then fun _ => ?_
    rw [if_neg (by simp)]
    exact yields_then fun _ => yields_pure rfl
  refine yields_bind hname fun name hsome => ?_
  refine yields_bind (yields_within (yields_functionTail _ _ _ name _)) fun f hf => ?_
  have hbinds : f.name.isSome = true := by rw [hf, hsome]
  exact yields_then fun _ => yields_pure ⟨hbinds, hbinds⟩

end Parser

end Syntax

end NgFile
